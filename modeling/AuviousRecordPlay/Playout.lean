import AuviousRecordPlay.GetFrames
import Mathlib.Data.List.GetD

/-!
# The playout task (janus_auviousrecordplay.c:2230-2502)

The loop of `janus_auviousrecordplay_playout_thread` (lines 2318-2462) walks the
audio and the video list with one cursor each. A track's first packet (the
cursor is the list's head) is relayed at once and the clock read after it is
the track's reference instant; every later packet waits until the clock has
passed `ts_diff - 5000` microseconds since the reference instant, and the
reference instant then moves on by `ts_diff`. On video the whole run of
packets sharing the cursor's timestamp is relayed in one go.

The clock readings are the inputs of a run: each loop iteration reads the clock
once per track whose cursor is not `NULL`. The other threads' flags
(`session->destroyed`, `session->active`, `rec->destroyed`) end the loop
before any iteration, so a run they stop is a run over a prefix of the
readings. The relayed packets are recorded, with the reading of the iteration
that relayed them, as ghost state; the bytes read and sent are not modelled.
-/

namespace AuviousRecordPlay.Playout

open Container Index GetFrames

/-- A `struct timeval`: `time_t` seconds and microseconds. -/
structure Timeval where
  sec : Int
  usec : Int
  deriving DecidableEq

/-- The instant in microseconds. -/
def Timeval.value (t : Timeval) : Int := t.sec * 1000000 + t.usec

/-- `passed` (lines 2351-2358): the microseconds from `before` to `now`. -/
def passed (now before : Timeval) : Int :=
  let d_s := now.sec - before.sec
  let d_us := now.usec - before.usec
  if d_us < 0 then (d_s - 1) * 1000000 + (d_us + 1000000) else d_s * 1000000 + d_us

/-- `ts_diff` (lines 2348-2349): the timestamp skip from the previous packet in microseconds,
with C's truncating division. The timestamps are below 2^33, so the `uint64_t` difference
read as `int64_t` is the difference of integers. -/
def tsDiff (khz ts prevTs : Nat) : Int := ((((ts : Int) - prevTs) * 1000).tdiv khz)

/-- "Update the reference time" (lines 2361-2370). -/
def advance (before : Timeval) (tsDiff : Int) : Timeval :=
  let b : Timeval := ⟨before.sec, before.usec + tsDiff.tmod 1000000⟩
  let b : Timeval := if b.usec > 1000000 then ⟨b.sec + 1, b.usec - 1000000⟩ else b
  if tsDiff.tdiv 1000000 > 0 then ⟨b.sec + tsDiff.tdiv 1000000, b.usec - tsDiff.tdiv 1000000⟩
  else b

/-- `akhz` (lines 2310-2313): 8 kHz for payload types 0, 8 and 9, 48 kHz otherwise. -/
def akhz (audioPt : Int) : Nat := if audioPt = 0 ∨ audioPt = 8 ∨ audioPt = 9 then 8 else 48

/-- `vkhz` (line 2314). -/
def vkhz : Nat := 90

/-- One track of the loop: the cursor (`audio` or `video`), the reference instant (`abefore`
or `vbefore`), and the packets relayed so far with the reading of the iteration that relayed
them. -/
structure Track where
  cur : Option Nat
  before : Timeval
  sent : List (Nat × Timeval)

/-- The video burst (lines 2392-2407 and 2440-2455): relay the packets from `c` on while they
carry timestamp `ts`, at most `fuel` of them; the relayed packets and the cursor after them. -/
def sendRun (l : FrameList) (ts : Nat) : Nat → Option Nat → List Nat × Option Nat
  | 0, c => ([], c)
  | _ + 1, none => ([], none)
  | fuel + 1, some c =>
    if (l.frameAt c).ts = ts then
      let r := sendRun l ts fuel (l.mem c).next
      (c :: r.1, r.2)
    else ([], some c)

/-- What a track relays from the cursor `c`: the packet on audio, the run of its timestamp on
video. -/
def send (video : Bool) (l : FrameList) (c : Nat) : List Nat × Option Nat :=
  if video then sendRun l (l.frameAt c).ts l.size (some c) else ([c], (l.mem c).next)

/-- One track's part of a loop iteration (lines 2324-2388 for audio, 2389-2461 for video), the
clock reading `gettimeofday` gives it being `now`. A node other than the head always has a
`prev` in the lists `get_frames` builds. -/
def trackTick (video : Bool) (khz : Nat) (l : FrameList) (now : Timeval) (t : Track) : Track :=
  match t.cur with
  | none => t
  | some c =>
    if t.cur = l.list then
      let r := send video l c
      ⟨r.2, now, t.sent ++ r.1.map (·, now)⟩
    else
      match (l.mem c).prev with
      | none => t
      | some p =>
        let d := tsDiff khz (l.frameAt c).ts (l.frameAt p).ts
        if passed now t.before < d - 5000 then t
        else
          let r := send video l c
          ⟨r.2, advance t.before d, t.sent ++ r.1.map (·, now)⟩

/-- The loop's state: the audio and the video track. -/
structure State where
  audio : Track
  video : Track

/-- The state when the loop starts: the cursors at `session->aframes` and `session->vframes`,
the reference instants as read at lines 2300-2302. -/
def init (la lv : FrameList) (abefore vbefore : Timeval) : State :=
  ⟨⟨la.list, abefore, []⟩, ⟨lv.list, vbefore, []⟩⟩

/-- One iteration of the loop, with the readings of its audio and its video part. -/
def tick (audioPt : Int) (la lv : FrameList) (na nv : Timeval) (s : State) : State :=
  ⟨trackTick false (akhz audioPt) la na s.audio, trackTick true vkhz lv nv s.video⟩

/-- The loop over a sequence of clock readings, while a cursor is not `NULL`. -/
def run (audioPt : Int) (la lv : FrameList) : List (Timeval × Timeval) → State → State
  | [], s => s
  | (na, nv) :: rs, s =>
    if s.audio.cur.isSome || s.video.cur.isSome then run audioPt la lv rs (tick audioPt la lv na nv s)
    else s

theorem passed_eq (now before : Timeval) : passed now before = now.value - before.value := by
  simp only [passed, Timeval.value]
  split <;> omega

/-- The reference instant moves on by `ts_diff` less one microsecond for each whole second in
it: the carry of lines 2368-2370 also takes the seconds off `tv_usec`. -/
theorem advance_value_sub (b : Timeval) {d : Int} (h0 : 0 ≤ d) :
    (advance b d).value = b.value + d - d.tdiv 1000000 := by
  have hdm : d.tmod 1000000 + 1000000 * d.tdiv 1000000 = d := Int.tmod_add_tdiv d 1000000
  have hq : 0 ≤ d.tdiv 1000000 := Int.tdiv_nonneg h0 (by omega)
  simp only [advance]
  split_ifs <;> simp only [Timeval.value] <;> omega

/-- Below a second, the reference instant moves on by exactly `ts_diff`. -/
theorem advance_value (b : Timeval) {d : Int} (h0 : 0 ≤ d) (h1 : d < 1000000) :
    (advance b d).value = b.value + d := by
  rw [advance_value_sub b h0, Int.tdiv_eq_zero_of_lt h0 h1, Int.sub_zero]

theorem tsDiff_self (khz ts : Nat) : tsDiff khz ts ts = 0 := by simp [tsDiff]

theorem tsDiff_nonneg (khz : Nat) {ts prevTs : Nat} (h : prevTs ≤ ts) : 0 ≤ tsDiff khz ts prevTs :=
  Int.tdiv_nonneg (by omega) (Int.ofNat_zero_le khz)

/-! ### What one iteration does on a track -/

section Track

variable {l : FrameList} {ids : List Nat}

/-- The timestamps of the nodes `ids`, in this order. -/
def tsOf (l : FrameList) (ids : List Nat) : List Nat := ids.map fun i => (l.frameAt i).ts

/-- `ts_diff` at packet `k` of the timestamps `ts`: the skip from packet `k - 1`. -/
def gap (khz : Nat) (ts : List Nat) (k : Nat) : Int := tsDiff khz (ts.getD k 0) (ts.getD (k - 1) 0)

/-- From the node `ids[k]`, the burst relays the nodes up to the first one of another timestamp. -/
theorem sendRun_spec (h : Links l ids) (T : Nat) :
    ∀ fuel k, k ≤ ids.length → ids.length ≤ k + fuel →
      ∃ n, sendRun l T fuel ids[k]? = ((ids.drop k).take n, ids[k + n]?) ∧ k + n ≤ ids.length ∧
        (∀ j, k ≤ j → j < k + n → (tsOf l ids)[j]? = some T) ∧ (tsOf l ids)[k + n]? ≠ some T := by
  intro fuel
  induction fuel with
  | zero =>
    intro k hk hf
    obtain rfl : k = ids.length := by omega
    exact ⟨0, by simp [sendRun], le_refl _, fun j h1 h2 => absurd h2 (by omega), by simp [tsOf]⟩
  | succ fuel ih =>
    intro k hk hf
    rcases Nat.lt_or_ge k ids.length with hlt | hge
    · rw [List.getElem?_eq_getElem hlt]
      by_cases hT : (l.frameAt ids[k]).ts = T
      · obtain ⟨n, hs, hn, hrun, hend⟩ := ih (k + 1) hlt (by omega)
        have e : k + (n + 1) = k + 1 + n := by omega
        refine ⟨n + 1, ?_, by omega, fun j h1 h2 => ?_, by rwa [e]⟩
        · simp only [sendRun, hT, if_true, h.next_eq hlt, hs, List.drop_eq_getElem_cons hlt,
            List.take_succ_cons, e]
        · rcases Nat.eq_or_lt_of_le h1 with rfl | h1
          · simp [tsOf, List.getElem?_eq_getElem hlt, hT]
          · exact hrun j h1 (by omega)
      · exact ⟨0, by simp [sendRun, hT], by omega, fun j h1 h2 => absurd h2 (by omega),
          by simp [tsOf, List.getElem?_eq_getElem hlt, hT]⟩
    · obtain rfl : k = ids.length := by omega
      exact ⟨0, by simp [sendRun], le_refl _, fun j h1 h2 => absurd h2 (by omega), by simp [tsOf]⟩

/-- From the node `ids[k]`, a track relays the nodes `k .. m-1`: one on audio, the whole run of
`ids[k]`'s timestamp on video. -/
theorem send_spec (h : Links l ids) (video : Bool) {k : Nat} (hk : k < ids.length) :
    ∃ m, send video l ids[k] = ((ids.drop k).take (m - k), ids[m]?) ∧ k < m ∧ m ≤ ids.length ∧
      (video = false → m = k + 1) ∧
      (video = true → (∀ j, k ≤ j → j < m → (tsOf l ids)[j]? = (tsOf l ids)[k]?) ∧
        (tsOf l ids)[m]? ≠ (tsOf l ids)[k]?) := by
  have hts : (tsOf l ids)[k]? = some (l.frameAt ids[k]).ts := by
    simp [tsOf, List.getElem?_eq_getElem hk]
  cases video with
  | false =>
    refine ⟨k + 1, ?_, by omega, by omega, fun _ => rfl, fun h => absurd h (by decide)⟩
    rw [List.drop_eq_getElem_cons hk, Nat.add_sub_cancel_left]
    simp only [send, h.next_eq hk, Bool.false_eq_true, if_false, List.take_succ_cons,
      List.take_zero]
  | true =>
    obtain ⟨n, hs, hn, hrun, hend⟩ := sendRun_spec h (l.frameAt ids[k]).ts l.size k hk.le
      (by rw [← h.length_eq]; omega)
    have hn0 : 0 < n := Nat.pos_of_ne_zero fun e => hend (by simpa [e] using hts)
    refine ⟨k + n, ?_, by omega, hn, fun h => absurd h (by decide), fun _ =>
      ⟨fun j h1 h2 => by rw [hrun j h1 h2, hts], by rwa [hts]⟩⟩
    simpa [send, List.getElem?_eq_getElem hk] using hs

/-- The track after relaying the nodes `k .. m-1` of `ids` at the reading `now`, with the
reference instant `b`. -/
def Track.relay (t : Track) (ids : List Nat) (k m : Nat) (b now : Timeval) : Track :=
  ⟨ids[m]?, b, t.sent ++ ((ids.drop k).take (m - k)).map (·, now)⟩

/-- A track after the first `k` packets of `ids`: they are the packets relayed, in list order,
and the cursor is on the next one (`NULL` past the end); on video, packet `k` starts a run of
the timestamps `ts`. -/
def TrackInv (video : Bool) (ts ids : List Nat) (t : Track) (k : Nat) : Prop :=
  k ≤ ids.length ∧ t.sent.map Prod.fst = ids.take k ∧ t.cur = ids[k]? ∧
    (video = true → k = 0 ∨ ts[k - 1]? ≠ ts[k]?)

theorem gap_tsOf {k : Nat} (hk : k + 1 < ids.length) (khz : Nat) :
    gap khz (tsOf l ids) (k + 1) = tsDiff khz (l.frameAt ids[k + 1]).ts (l.frameAt ids[k]).ts := by
  simp [gap, tsOf, List.getD_eq_getElem?_getD, List.getElem?_eq_getElem hk,
    List.getElem?_eq_getElem (Nat.lt_of_succ_lt hk)]

/-- Everything one iteration can do on a track: nothing (the cursor is `NULL`, or it is not
time yet), or relay packets `k .. m-1`, one on audio and a whole run on video: at once for the
first packet, taking the reading as the reference instant, and otherwise once `ts_diff - 5000`
microseconds have passed, moving the reference instant on by `ts_diff`. -/
theorem trackTick_cases (h : Links l ids) {video : Bool} {khz : Nat} {now : Timeval} {t : Track}
    {k : Nat} (hi : TrackInv video (tsOf l ids) ids t k) :
    trackTick video khz l now t = t ∨
      ∃ m, k < m ∧ m ≤ ids.length ∧ (video = false → m = k + 1) ∧
        (video = true → (∀ j, k ≤ j → j < m → (tsOf l ids)[j]? = (tsOf l ids)[k]?) ∧
          (tsOf l ids)[m]? ≠ (tsOf l ids)[k]?) ∧
        (k = 0 ∧ trackTick video khz l now t = t.relay ids k m now now ∨
          0 < k ∧ gap khz (tsOf l ids) k - 5000 ≤ now.value - t.before.value ∧
            trackTick video khz l now t =
              t.relay ids k m (advance t.before (gap khz (tsOf l ids) k)) now) := by
  obtain ⟨hk, -, hcur, -⟩ := hi
  rcases Nat.lt_or_ge k ids.length with hlt | hge
  · obtain ⟨m, hs, hkm, hm, ha, hv⟩ := send_spec h video hlt
    rw [List.getElem?_eq_getElem hlt] at hcur
    cases k with
    | zero =>
      right
      refine ⟨m, hkm, hm, ha, hv, .inl ⟨rfl, ?_⟩⟩
      have hhead : l.list = some ids[0] := ((h.head_eq_iff hlt).mpr rfl).symm
      simp only [trackTick, hcur, hhead, if_true, hs, Track.relay]
    | succ k =>
      have hne : ¬ some ids[k + 1] = l.list := fun e => by simpa using (h.head_eq_iff hlt).mp e
      by_cases hp : now.value - t.before.value < gap khz (tsOf l ids) (k + 1) - 5000
      · left
        simp only [trackTick, hcur, if_neg hne, h.prev_eq hlt, ← gap_tsOf hlt, passed_eq,
          if_pos hp]
      · right
        refine ⟨m, hkm, hm, ha, hv, .inr ⟨k.succ_pos, by omega, ?_⟩⟩
        simp only [trackTick, hcur, if_neg hne, h.prev_eq hlt, ← gap_tsOf hlt, passed_eq,
          if_neg hp, hs, Track.relay]
  · left
    unfold trackTick
    rw [hcur, List.getElem?_eq_none hge]

theorem trackTick_relay (h : Links l ids) {video : Bool} {khz : Nat} {now : Timeval} {t : Track}
    {k : Nat} (hi : TrackInv video (tsOf l ids) ids t k) :
    trackTick video khz l now t = t ∨
      ∃ m b, k < m ∧ m ≤ ids.length ∧ (video = false → m = k + 1) ∧
        (video = true → (∀ j, k ≤ j → j < m → (tsOf l ids)[j]? = (tsOf l ids)[k]?) ∧
          (tsOf l ids)[m]? ≠ (tsOf l ids)[k]?) ∧ trackTick video khz l now t = t.relay ids k m b now := by
  rcases trackTick_cases h hi with e | ⟨m, hkm, hm, ha, hv, ⟨-, e⟩ | ⟨-, -, e⟩⟩
  · exact .inl e
  · exact .inr ⟨m, _, hkm, hm, ha, hv, e⟩
  · exact .inr ⟨m, _, hkm, hm, ha, hv, e⟩

/-- The packets `k .. m-1` of the timestamps `ts` are one whole run of a timestamp: they share
it, and neither the packet before them nor the packet after them (if any) has it. -/
def MaxRun (ts : List Nat) (k m : Nat) : Prop :=
  k < m ∧ m ≤ ts.length ∧ (∀ j, k ≤ j → j < m → ts[j]? = ts[k]?) ∧
    (k = 0 ∨ ts[k - 1]? ≠ ts[k]?) ∧ ts[m]? ≠ ts[k]?

@[simp] theorem tsOf_length : (tsOf l ids).length = ids.length := List.length_map _ _

/-- The step lemma of a track: one iteration appends to the relayed packets the packets
`k .. m-1` of the list, where `m = k`, or `m = k + 1` on audio, or `k .. m-1` is a whole run on
video; and the invariant holds after it, at `m`. -/
theorem trackTick_inv (h : Links l ids) {video : Bool} {t : Track} {k : Nat}
    (hi : TrackInv video (tsOf l ids) ids t k) (khz : Nat) (now : Timeval) :
    ∃ m seg, (trackTick video khz l now t).sent = t.sent ++ seg ∧
      seg.map Prod.fst = (ids.drop k).take (m - k) ∧
      TrackInv video (tsOf l ids) ids (trackTick video khz l now t) m ∧
      (m = k ∨ (video = false ∧ m = k + 1) ∨ (video = true ∧ MaxRun (tsOf l ids) k m)) := by
  rcases trackTick_relay h hi with e | ⟨m, b, hkm, hm, ha, hv, e⟩
  · rw [e]; exact ⟨k, [], (List.append_nil _).symm, by simp, hi, .inl rfl⟩
  · rw [e]
    obtain ⟨hk, hsent, -, hstart⟩ := hi
    refine ⟨m, _, rfl, by simp [Function.comp_def], ⟨hm, ?_, rfl, fun hvid => ?_⟩, ?_⟩
    · simp only [Track.relay, List.map_append, hsent, List.map_map, Function.comp_def, List.map_id']
      rw [← List.take_add, Nat.add_sub_cancel' hkm.le]
    · obtain ⟨hrun, hend⟩ := hv hvid
      exact .inr (by rw [hrun (m - 1) (by omega) (by omega)]; exact hend.symm)
    · cases video with
      | false => exact .inr (.inl ⟨rfl, ha rfl⟩)
      | true =>
        obtain ⟨hrun, hend⟩ := hv rfl
        exact .inr (.inr ⟨rfl, hkm, by simpa using hm, hrun, hstart rfl, hend⟩)

/-! ### Pacing -/

/-- The `ts_diff`s of packets `1 .. k` of the timestamps `ts`, summed. -/
def elapsed (khz : Nat) (ts : List Nat) : Nat → Int
  | 0 => 0
  | k + 1 => elapsed khz ts k + gap khz ts (k + 1)

/-- Every `ts_diff` of the timestamps `ts` is under a second, and not negative. -/
def SmallGaps (khz : Nat) (ts : List Nat) : Prop :=
  ∀ j, 0 < j → j < ts.length → 0 ≤ gap khz ts j ∧ gap khz ts j < 1000000

/-- A track whose first packet went out at the reading `t0`: the reference instant is `t0`
moved on by the `ts_diff`s up to the last packet relayed, and packet `j` went out at a reading
no earlier than `t0` moved on by the `ts_diff`s up to it, less 5000 microseconds. -/
def Paced (khz : Nat) (ts : List Nat) (t : Track) : Prop :=
  ∀ c0 t0, t.sent[0]? = some (c0, t0) →
    t.before.value = t0.value + elapsed khz ts (t.sent.length - 1) ∧
      ∀ j c now, t.sent[j]? = some (c, now) → t0.value + elapsed khz ts j - 5000 ≤ now.value

/-- Inside a run of one timestamp every gap is 0. -/
theorem gap_run {khz : Nat} {ts : List Nat} {k m j : Nat}
    (hrun : ∀ j, k ≤ j → j < m → ts[j]? = ts[k]?) (h1 : k < j) (h2 : j < m) : gap khz ts j = 0 := by
  have he : ts.getD j 0 = ts.getD (j - 1) 0 := by
    rw [List.getD_eq_getElem?_getD, List.getD_eq_getElem?_getD, hrun j h1.le h2,
      hrun (j - 1) (by omega) (by omega)]
  rw [gap, he, tsDiff_self]

/-- Inside a run of one timestamp nothing elapses. -/
theorem elapsed_run {khz : Nat} {ts : List Nat} {k m : Nat}
    (hrun : ∀ j, k ≤ j → j < m → ts[j]? = ts[k]?) : ∀ j, k ≤ j → j < m → elapsed khz ts j = elapsed khz ts k := by
  intro j
  induction j with
  | zero => intro h _; rw [Nat.le_zero.mp h]
  | succ j ih =>
    intro h1 h2
    rcases Nat.eq_or_lt_of_le h1 with e | h1
    · rw [e]
    · rw [elapsed, ih (by omega) (by omega), gap_run hrun h1 h2, Int.add_zero]

/-- A packet relayed after a relay of `k .. m-1`: relayed before, or one of them. -/
theorem relay_sent {t : Track} {k m j c : Nat} {b now r : Timeval} (hk : t.sent.length = k)
    (h : (t.relay ids k m b now).sent[j]? = some (c, r)) :
    (j < k ∧ t.sent[j]? = some (c, r)) ∨ (k ≤ j ∧ j < m ∧ r = now) := by
  simp only [Track.relay] at h
  rcases Nat.lt_or_ge j k with hj | hj
  · rw [List.getElem?_append_left (by omega)] at h
    exact .inl ⟨hj, h⟩
  · rw [List.getElem?_append_right (by omega), List.getElem?_map] at h
    obtain ⟨x, hx, e⟩ := Option.map_eq_some'.mp h
    obtain ⟨hlt, -⟩ := List.getElem?_eq_some_iff.mp hx
    simp only [List.length_take, List.length_drop] at hlt
    exact .inr ⟨hj, by omega, (Prod.mk.inj e).2.symm⟩

theorem relay_sent_length {t : Track} {k m : Nat} {b now : Timeval} (hk : t.sent.length = k)
    (hkm : k ≤ m) (hm : m ≤ ids.length) : (t.relay ids k m b now).sent.length = m := by
  simp only [Track.relay, List.length_append, List.length_map, List.length_take, List.length_drop]
  omega

theorem TrackInv.sent_length {video : Bool} {ts : List Nat} {t : Track} {k : Nat}
    (hi : TrackInv video ts ids t k) : t.sent.length = k := by
  have h := congrArg List.length hi.2.1
  simp only [List.length_map, List.length_take] at h
  have := hi.1
  omega

/-- The pacing step: when every gap is under a second, one iteration keeps `Paced`. -/
theorem trackTick_paced (h : Links l ids) {video : Bool} {khz : Nat} {t : Track} {k : Nat}
    (hs : SmallGaps khz (tsOf l ids)) (hi : TrackInv video (tsOf l ids) ids t k)
    (hp : Paced khz (tsOf l ids) t) (now : Timeval) :
    Paced khz (tsOf l ids) (trackTick video khz l now t) := by
  have hlen := hi.sent_length
  rcases trackTick_cases h hi with e | ⟨m, hkm, hm, ha, hv, hcase⟩
  · rwa [e]
  have hrun : ∀ j, k ≤ j → j < m → (tsOf l ids)[j]? = (tsOf l ids)[k]? := by
    cases video with
    | false => intro j h1 h2; rw [show j = k by have := ha rfl; omega]
    | true => exact (hv rfl).1
  have hel : ∀ j, k ≤ j → j < m → elapsed khz (tsOf l ids) j = elapsed khz (tsOf l ids) k :=
    elapsed_run hrun
  rcases hcase with ⟨rfl, e⟩ | ⟨hk0, hcond, e⟩
  · -- the first packet: its reading is the reference instant
    rw [e]
    intro c0 t0 h0
    obtain ⟨-, -, rfl⟩ := (relay_sent hlen h0).resolve_left (by omega)
    refine ⟨?_, fun j c r hj => ?_⟩
    · rw [relay_sent_length hlen hkm.le hm, hel (m - 1) (by omega) (by omega)]
      simp [Track.relay, elapsed]
    · obtain ⟨-, hjm, rfl⟩ := (relay_sent hlen hj).resolve_left (by omega)
      rw [hel j (by omega) hjm, elapsed]
      omega
  · -- a later packet: released `ts_diff - 5000` after the reference instant
    rw [e]
    obtain ⟨c0, t0, h0⟩ : ∃ c0 t0, t.sent[0]? = some (c0, t0) :=
      ⟨_, _, List.getElem?_eq_getElem (by omega : 0 < t.sent.length)⟩
    obtain ⟨hbefore, hold⟩ := hp c0 t0 h0
    rw [hlen] at hbefore
    have hgap := hs k hk0 (by rw [tsOf_length]; omega)
    have hek : elapsed khz (tsOf l ids) k = elapsed khz (tsOf l ids) (k - 1) + gap khz (tsOf l ids) k := by
      obtain ⟨j, rfl⟩ : ∃ j, k = j + 1 := ⟨k - 1, by omega⟩
      rfl
    intro c0' t0' h0'
    have h00 : (t.relay ids k m (advance t.before (gap khz (tsOf l ids) k)) now).sent[0]? = t.sent[0]? := by
      simp only [Track.relay]; rw [List.getElem?_append_left (by omega)]
    rw [h00, h0] at h0'
    obtain ⟨rfl, rfl⟩ := Prod.mk.inj (Option.some_inj.mp h0')
    refine ⟨?_, fun j c r hj => ?_⟩
    · rw [relay_sent_length hlen hkm.le hm, hel (m - 1) (by omega) (by omega)]
      simp only [Track.relay]
      rw [advance_value _ hgap.1 hgap.2, hbefore, hek, Int.add_assoc]
    · rcases relay_sent hlen hj with ⟨-, hj⟩ | ⟨hkj, hjm, rfl⟩
      · exact hold j c r hj
      · rw [hel j hkj hjm]
        omega

/-- The gaps of timestamps that do not decrease are not negative. -/
theorem gap_nonneg_of_chain {khz : Nat} {ts : List Nat} (hc : ts.Chain' (· ≤ ·)) {j : Nat}
    (hj : 0 < j) (hlen : j < ts.length) : 0 ≤ gap khz ts j := by
  refine tsDiff_nonneg _ ?_
  have := List.chain'_iff_get.mp hc (j - 1) (by omega)
  simp only [List.get_eq_getElem, Nat.sub_add_cancel hj] at this
  rwa [List.getD_eq_getElem _ _ hlen, List.getD_eq_getElem _ _ (by omega)]

/-- What the reference instant has moved on by after packets `1 .. k` of the timestamps `ts`:
each `ts_diff`, less its whole seconds. -/
def moved (khz : Nat) (ts : List Nat) : Nat → Int
  | 0 => 0
  | k + 1 => moved khz ts k + (gap khz ts (k + 1) - (gap khz ts (k + 1)).tdiv 1000000)

theorem moved_run {khz : Nat} {ts : List Nat} {k m : Nat}
    (hrun : ∀ j, k ≤ j → j < m → ts[j]? = ts[k]?) :
    ∀ j, k ≤ j → j < m → moved khz ts j = moved khz ts k := by
  intro j
  induction j with
  | zero => intro h _; rw [Nat.le_zero.mp h]
  | succ j ih =>
    intro h1 h2
    rcases Nat.eq_or_lt_of_le h1 with e | h1
    · rw [e]
    · rw [moved, ih (by omega) (by omega), gap_run hrun h1 h2]
      simp

/-- A track whose first packet went out at the reading `t0`: the reference instant is `t0`
moved on by `moved` up to the last packet relayed. -/
def RefInstant (khz : Nat) (ts : List Nat) (t : Track) : Prop :=
  ∀ c0 t0, t.sent[0]? = some (c0, t0) → t.before.value = t0.value + moved khz ts (t.sent.length - 1)

/-- The step of the reference instant: with gaps that are not negative, one iteration keeps
`RefInstant`, however long the gaps. -/
theorem trackTick_refInstant (h : Links l ids) {video : Bool} {khz : Nat} {t : Track} {k : Nat}
    (hg : ∀ j, 0 < j → j < ids.length → 0 ≤ gap khz (tsOf l ids) j)
    (hi : TrackInv video (tsOf l ids) ids t k) (hr : RefInstant khz (tsOf l ids) t) (now : Timeval) :
    RefInstant khz (tsOf l ids) (trackTick video khz l now t) := by
  have hlen := hi.sent_length
  rcases trackTick_cases h hi with e | ⟨m, hkm, hm, ha, hv, hcase⟩
  · rwa [e]
  have hrun : ∀ j, k ≤ j → j < m → (tsOf l ids)[j]? = (tsOf l ids)[k]? := by
    cases video with
    | false => intro j h1 h2; rw [show j = k by have := ha rfl; omega]
    | true => exact (hv rfl).1
  have hmv : moved khz (tsOf l ids) (m - 1) = moved khz (tsOf l ids) k :=
    moved_run hrun (m - 1) (by omega) (by omega)
  rcases hcase with ⟨rfl, e⟩ | ⟨hk0, -, e⟩
  · -- the first packet: its reading is the reference instant
    rw [e]
    intro c0 t0 h0
    obtain ⟨-, -, rfl⟩ := (relay_sent hlen h0).resolve_left (by omega)
    rw [relay_sent_length hlen hkm.le hm, hmv]
    simp [Track.relay, moved]
  · -- a later packet: the reference instant moves on by `ts_diff` less its seconds
    rw [e]
    intro c0 t0 h0
    have h00 : (t.relay ids k m (advance t.before (gap khz (tsOf l ids) k)) now).sent[0]? =
        t.sent[0]? := by
      simp only [Track.relay]; rw [List.getElem?_append_left (by omega)]
    rw [h00] at h0
    rw [relay_sent_length hlen hkm.le hm, hmv]
    simp only [Track.relay]
    rw [advance_value_sub _ (hg k hk0 (by omega)), hr c0 t0 h0, hlen]
    obtain ⟨j, rfl⟩ : ∃ j, k = j + 1 := ⟨k - 1, by omega⟩
    simp only [moved, Nat.add_sub_cancel]
    omega

end Track

/-! ### Whole runs -/

section Run

variable {la lv : FrameList} {ia iv : List Nat} {audioPt : Int}

/-- The run lemma: a property of the loop's state that every iteration keeps holds all along
a run. -/
theorem run_induct (P : State → Prop) (hstep : ∀ s na nv, P s → P (tick audioPt la lv na nv s)) :
    ∀ rs s, P s → P (run audioPt la lv rs s)
  | [], _, h => h
  | (na, nv) :: rs, s, h => by
    simp only [run]
    split
    · exact run_induct P hstep rs _ (hstep s na nv h)
    · exact h

/-- Both tracks, each after some packets of its list. -/
def Inv (la lv : FrameList) (ia iv : List Nat) (s : State) : Prop :=
  (∃ k, TrackInv false (tsOf la ia) ia s.audio k) ∧ (∃ k, TrackInv true (tsOf lv iv) iv s.video k)

theorem trackInv_init {l : FrameList} {ids : List Nat} (h : Links l ids) (video : Bool)
    (b : Timeval) : TrackInv video (tsOf l ids) ids ⟨l.list, b, []⟩ 0 :=
  ⟨Nat.zero_le _, rfl, by rw [h.head, List.head?_eq_getElem?], fun _ => .inl rfl⟩

theorem inv_run (ha : Links la ia) (hv : Links lv iv) (abefore vbefore : Timeval)
    (rs : List (Timeval × Timeval)) :
    Inv la lv ia iv (run audioPt la lv rs (init la lv abefore vbefore)) := by
  refine run_induct _ (fun s na nv ⟨⟨ka, hka⟩, ⟨kv, hkv⟩⟩ => ?_) rs _
    ⟨⟨0, trackInv_init ha false abefore⟩, ⟨0, trackInv_init hv true vbefore⟩⟩
  obtain ⟨ma, -, -, -, hia, -⟩ := trackTick_inv ha hka (akhz audioPt) na
  obtain ⟨mv, -, -, -, hiv, -⟩ := trackTick_inv hv hkv vkhz nv
  exact ⟨⟨ma, hia⟩, ⟨mv, hiv⟩⟩

/-- The run lemma for a property of each track: one that every iteration keeps from every state
of the track that `TrackInv` describes holds all along a run. -/
theorem run_tracks (ha : Links la ia) (hv : Links lv iv) (Pa Pv : Track → Prop)
    (hsa : ∀ t k now, TrackInv false (tsOf la ia) ia t k → Pa t →
      Pa (trackTick false (akhz audioPt) la now t))
    (hsv : ∀ t k now, TrackInv true (tsOf lv iv) iv t k → Pv t → Pv (trackTick true vkhz lv now t))
    {abefore vbefore : Timeval} (h0a : Pa ⟨la.list, abefore, []⟩) (h0v : Pv ⟨lv.list, vbefore, []⟩)
    (rs : List (Timeval × Timeval)) :
    Pa (run audioPt la lv rs (init la lv abefore vbefore)).audio ∧
      Pv (run audioPt la lv rs (init la lv abefore vbefore)).video := by
  have key := @run_induct la lv audioPt
    (fun s => ((∃ k, TrackInv false (tsOf la ia) ia s.audio k) ∧ Pa s.audio) ∧
      ((∃ k, TrackInv true (tsOf lv iv) iv s.video k) ∧ Pv s.video))
    (fun s na nv ⟨⟨⟨ka, hka⟩, hpa⟩, ⟨⟨kv, hkv⟩, hpv⟩⟩ => by
      obtain ⟨ma, -, -, -, hia, -⟩ := trackTick_inv ha hka (akhz audioPt) na
      obtain ⟨mv, -, -, -, hiv, -⟩ := trackTick_inv hv hkv vkhz nv
      exact ⟨⟨⟨ma, hia⟩, hsa _ _ na hka hpa⟩, ⟨⟨mv, hiv⟩, hsv _ _ nv hkv hpv⟩⟩)
    rs (init la lv abefore vbefore)
    ⟨⟨⟨0, trackInv_init ha false abefore⟩, h0a⟩, ⟨⟨0, trackInv_init hv true vbefore⟩, h0v⟩⟩
  exact ⟨key.1.2, key.2.2⟩

theorem frames_ts {l : FrameList} {ids : List Nat} (h : Links l ids) :
    l.frames.map Frame.ts = tsOf l ids := by
  simp only [FrameList.frames, h.toList_eq, tsOf, List.map_map, Function.comp_def, FrameList.frameAt]

theorem TrackInv.nodup {l : FrameList} {ids : List Nat} {video : Bool} {t : Track} {k : Nat}
    (h : Links l ids) (hi : TrackInv video (tsOf l ids) ids t k) : (t.sent.map Prod.fst).Nodup :=
  hi.2.1 ▸ h.nodup.sublist (List.take_sublist _ _)

theorem TrackInv.complete {video : Bool} {ts ids : List Nat} {t : Track} {k : Nat}
    (hi : TrackInv video ts ids t k) (hnone : t.cur = none) : t.sent.map Prod.fst = ids := by
  rw [hi.2.1, List.take_of_length_le]
  exact List.getElem?_eq_none_iff.mp (hi.2.2.1 ▸ hnone)

/-- What the loop has relayed in a state `s` of a run over the lists `la` and `lv`: on each
track the first packets of the list, in list order, none twice, with the cursor on the next;
the next iteration relays at most one audio packet and, on video, nothing or one whole run of a
timestamp; once both cursors are `NULL`, every packet of both lists. -/
structure RelaysInOrder (audioPt : Int) (la lv : FrameList) (s : State) : Prop where
  audio_prefix : ∃ k, s.audio.sent.map Prod.fst = la.toList.take k ∧ s.audio.cur = la.toList[k]?
  video_prefix : ∃ k, s.video.sent.map Prod.fst = lv.toList.take k ∧ s.video.cur = lv.toList[k]?
  audio_nodup : (s.audio.sent.map Prod.fst).Nodup
  video_nodup : (s.video.sent.map Prod.fst).Nodup
  audio_tick : ∀ na nv, ∃ sa, (tick audioPt la lv na nv s).audio.sent = s.audio.sent ++ sa ∧
    sa.length ≤ 1
  video_tick : ∀ na nv, ∃ sv, (tick audioPt la lv na nv s).video.sent = s.video.sent ++ sv ∧
    (sv = [] ∨ ∃ k m, MaxRun (lv.frames.map Frame.ts) k m ∧
      sv.map Prod.fst = (lv.toList.drop k).take (m - k))
  complete : s.audio.cur = none → s.video.cur = none →
    s.audio.sent.map Prod.fst = la.toList ∧ s.video.sent.map Prod.fst = lv.toList

/-- For any two lists `get_frames` returns, any clock readings and any point where the other
threads stop it, the playout loop relays each list in order, a packet at a time on audio and a
whole timestamp run at a time on video, and all of both when both cursors reach `NULL`. -/
theorem playout_relays_in_order {infoOk : List Byte → Bool} {fa fv : List Byte} {la lv : FrameList}
    (ha : getFrames infoOk fa = some la) (hv : getFrames infoOk fv = some lv) (audioPt : Int)
    (abefore vbefore : Timeval) (rs : List (Timeval × Timeval)) :
    RelaysInOrder audioPt la lv (run audioPt la lv rs (init la lv abefore vbefore)) := by
  obtain ⟨ia, hla⟩ := getFrames_links ha
  obtain ⟨iv, hlv⟩ := getFrames_links hv
  have hinv : Inv la lv ia iv (run audioPt la lv rs (init la lv abefore vbefore)) :=
    inv_run hla hlv abefore vbefore rs
  obtain ⟨⟨ka, hka⟩, ⟨kv, hkv⟩⟩ := hinv
  generalize run audioPt la lv rs (init la lv abefore vbefore) = s at hka hkv
  refine ⟨?_, ?_, hka.nodup hla, hkv.nodup hlv, fun na _ => ?_, fun _ nv => ?_, ?_⟩
  · rw [hla.toList_eq]; exact ⟨ka, hka.2.1, hka.2.2.1⟩
  · rw [hlv.toList_eq]; exact ⟨kv, hkv.2.1, hkv.2.2.1⟩
  · obtain ⟨m, seg, hsent, hseg, -, hcase⟩ := trackTick_inv hla hka (akhz audioPt) na
    refine ⟨seg, hsent, ?_⟩
    have := congrArg List.length hseg
    simp only [List.length_map, List.length_take, List.length_drop] at this
    rcases hcase with rfl | ⟨-, rfl⟩ | ⟨h, -⟩ <;> first | omega | exact absurd h (by decide)
  · obtain ⟨m, seg, hsent, hseg, -, hcase⟩ := trackTick_inv hlv hkv vkhz nv
    refine ⟨seg, hsent, ?_⟩
    rcases hcase with rfl | ⟨h, -⟩ | ⟨-, hrun⟩
    · left; simpa using hseg
    · exact absurd h (by decide)
    · rw [frames_ts hlv, hlv.toList_eq]; exact .inr ⟨kv, m, hrun, hseg⟩
  · rw [hla.toList_eq, hlv.toList_eq]; exact fun h1 h2 => ⟨hka.complete h1, hkv.complete h2⟩

/-- A video recording of seven packets 3000 ticks (33333.3 microseconds) apart. -/
def sevenPackets : List Byte :=
  encode (videoHeader :: (List.range 7).map fun i => rtpRecord (i + 1) (3000 * (i + 1)))

/-- Readings that release each video packet at the earliest instant the loop allows. -/
def earliestReadings : List (Timeval × Timeval) :=
  (⟨0, 0⟩, ⟨0, 0⟩) :: (List.range 6).map fun j => (⟨0, 0⟩, ⟨0, 33333 * (j + 1) - 5000⟩)

set_option maxRecDepth 10000 in
theorem playout_relays_in_order_seven :
    ∃ la lv, getFrames (fun _ => true) [] = some la ∧
      getFrames (fun _ => true) sevenPackets = some lv ∧
      RelaysInOrder 0 la lv (run 0 la lv earliestReadings (init la lv ⟨0, 0⟩ ⟨0, 0⟩)) :=
  ⟨_, _, rfl, rfl, @playout_relays_in_order (fun _ => true) [] sevenPackets _ _ rfl rfl 0 _ _ _⟩

/-- Timestamps that do not decrease, with every `ts_diff` under a second. -/
theorem smallGaps_of_chain {khz : Nat} {ts : List Nat} (hc : ts.Chain' (· ≤ ·))
    (hs : ∀ j, 0 < j → j < ts.length → gap khz ts j < 1000000) : SmallGaps khz ts :=
  fun j hj hlen => ⟨gap_nonneg_of_chain hc hj hlen, hs j hj hlen⟩

/-- Each packet of a track went out at a reading no earlier than the reading `t0` taken after
the track's first packet, moved on by the truncated `ts_diff`s up to it, less 5000
microseconds. -/
def ReleasedOnTime (khz : Nat) (ts : List Nat) (t : Track) : Prop :=
  ∀ j c r c0 t0, t.sent[j]? = some (c, r) → t.sent[0]? = some (c0, t0) →
    t0.value + elapsed khz ts j - 5000 ≤ r.value

/-- For any two lists `get_frames` returns whose timestamp gaps are each under a second, any
clock readings and any point where the other threads stop it, every packet of the playout
loop goes out no earlier than the track's first reading moved on by the `ts_diff`s, each
truncated to a microsecond, less 5000 microseconds. -/
theorem playout_paced {infoOk : List Byte → Bool} {fa fv : List Byte} {la lv : FrameList}
    (ha : getFrames infoOk fa = some la) (hv : getFrames infoOk fv = some lv) (audioPt : Int)
    (abefore vbefore : Timeval) (rs : List (Timeval × Timeval))
    (hsa : ∀ j < la.size, 0 < j → gap (akhz audioPt) (la.frames.map Frame.ts) j < 1000000)
    (hsv : ∀ j < lv.size, 0 < j → gap vkhz (lv.frames.map Frame.ts) j < 1000000) :
    ReleasedOnTime (akhz audioPt) (la.frames.map Frame.ts)
        (run audioPt la lv rs (init la lv abefore vbefore)).audio ∧
      ReleasedOnTime vkhz (lv.frames.map Frame.ts)
        (run audioPt la lv rs (init la lv abefore vbefore)).video := by
  obtain ⟨ia, hla⟩ := getFrames_links ha
  obtain ⟨iv, hlv⟩ := getFrames_links hv
  have ga : SmallGaps (akhz audioPt) (tsOf la ia) := smallGaps_of_chain
    (frames_ts hla ▸ getFrames_ts_chain ha) fun j h1 h2 => by
      rw [← frames_ts hla]; exact hsa j (by simpa [hla.length_eq] using h2) h1
  have gv : SmallGaps vkhz (tsOf lv iv) := smallGaps_of_chain
    (frames_ts hlv ▸ getFrames_ts_chain hv) fun j h1 h2 => by
      rw [← frames_ts hlv]; exact hsv j (by simpa [hlv.length_eq] using h2) h1
  obtain ⟨hpa, hpv⟩ := @run_tracks la lv ia iv audioPt hla hlv _ _
    (fun _ _ now hi hp => trackTick_paced hla ga hi hp now)
    (fun _ _ now hi hp => trackTick_paced hlv gv hi hp now) abefore vbefore
    (fun _ _ h => by simp at h) (fun _ _ h => by simp at h) rs
  rw [frames_ts hla, frames_ts hlv]
  exact ⟨fun j c r c0 t0 hj h0 => (hpa c0 t0 h0).2 j c r hj,
    fun j c r c0 t0 hj h0 => (hpv c0 t0 h0).2 j c r hj⟩

set_option maxRecDepth 10000 in
theorem playout_paced_seven :
    ∃ la lv, getFrames (fun _ => true) [] = some la ∧
      getFrames (fun _ => true) sevenPackets = some lv ∧
      (∀ j < la.size, 0 < j → gap (akhz 0) (la.frames.map Frame.ts) j < 1000000) ∧
      (∀ j < lv.size, 0 < j → gap vkhz (lv.frames.map Frame.ts) j < 1000000) ∧
      ReleasedOnTime (akhz 0) (la.frames.map Frame.ts)
          (run 0 la lv earliestReadings (init la lv ⟨0, 0⟩ ⟨0, 0⟩)).audio ∧
        ReleasedOnTime vkhz (lv.frames.map Frame.ts)
          (run 0 la lv earliestReadings (init la lv ⟨0, 0⟩ ⟨0, 0⟩)).video :=
  ⟨_, _, rfl, rfl, by decide, by decide, @playout_paced (fun _ => true) [] sevenPackets _ _ rfl rfl
    0 ⟨0, 0⟩ ⟨0, 0⟩ earliestReadings (by decide) (by decide)⟩

set_option maxRecDepth 10000 in
/-- The truncations add up: released at the earliest readings, the seventh video packet goes
out 194998 microseconds after the first reading, while its timestamp is 18000 ticks, exactly
200000 microseconds, after the first packet's, and 200000 - 5001 = 194999 (the inequality is
multiplied by 90 to keep the division exact). -/
theorem playout_drift_seven :
    ∃ lv, getFrames (fun _ => true) sevenPackets = some lv ∧
      (run 0 .empty lv earliestReadings (init .empty lv ⟨0, 0⟩ ⟨0, 0⟩)).video.sent.map
          (fun x => ((lv.frameAt x.1).ts, x.2.value)) =
        [(3000, 0), (6000, 28333), (9000, 61666), (12000, 94999), (15000, 128332),
          (18000, 161665), (21000, 194998)] ∧
      90 * 194998 < 90 * 0 + (21000 - 3000) * 1000 - 5001 * 90 :=
  ⟨_, rfl, by decide, by decide⟩

/-- For any two lists `get_frames` returns, any clock readings and any point where the other
threads stop it, each track's reference instant is the reading taken after the track's first
relay moved on by the `ts_diff` of every packet paced since (on video, of every timestamp
run), less one microsecond for each whole second in each of them. -/
theorem playout_reference_instant {infoOk : List Byte → Bool} {fa fv : List Byte}
    {la lv : FrameList} (ha : getFrames infoOk fa = some la) (hv : getFrames infoOk fv = some lv)
    (audioPt : Int) (abefore vbefore : Timeval) (rs : List (Timeval × Timeval)) :
    RefInstant (akhz audioPt) (la.frames.map Frame.ts)
        (run audioPt la lv rs (init la lv abefore vbefore)).audio ∧
      RefInstant vkhz (lv.frames.map Frame.ts)
        (run audioPt la lv rs (init la lv abefore vbefore)).video := by
  obtain ⟨ia, hla⟩ := getFrames_links ha
  obtain ⟨iv, hlv⟩ := getFrames_links hv
  have hga : ∀ j, 0 < j → j < ia.length → 0 ≤ gap (akhz audioPt) (tsOf la ia) j := fun j h1 h2 =>
    gap_nonneg_of_chain (frames_ts hla ▸ getFrames_ts_chain ha) h1 (by simpa using h2)
  have hgv : ∀ j, 0 < j → j < iv.length → 0 ≤ gap vkhz (tsOf lv iv) j := fun j h1 h2 =>
    gap_nonneg_of_chain (frames_ts hlv ▸ getFrames_ts_chain hv) h1 (by simpa using h2)
  rw [frames_ts hla, frames_ts hlv]
  exact run_tracks hla hlv _ _ (fun _ _ now hi hr => trackTick_refInstant hla hga hi hr now)
    (fun _ _ now hi hr => trackTick_refInstant hlv hgv hi hr now) (fun _ _ h => by simp at h)
    (fun _ _ h => by simp at h) rs

/-- A video recording of two packets one second (90000 ticks) apart. -/
def oneSecondGap : List Byte := encode [videoHeader, rtpRecord 1 3000, rtpRecord 2 93000]

/-- Readings that relay the first video packet at 0 and the second one a second later. -/
def gapReadings : List (Timeval × Timeval) := [(⟨0, 0⟩, ⟨0, 0⟩), (⟨0, 0⟩, ⟨1, 0⟩)]

set_option maxRecDepth 10000 in
/-- Over the one-second gap the `ts_diff` is 1000000, and the reference instant moves on by
999999 microseconds. -/
theorem playout_reference_instant_gap :
    ∃ la lv, getFrames (fun _ => true) [] = some la ∧
      getFrames (fun _ => true) oneSecondGap = some lv ∧
      (RefInstant (akhz 0) (la.frames.map Frame.ts)
          (run 0 la lv gapReadings (init la lv ⟨0, 0⟩ ⟨0, 0⟩)).audio ∧
        RefInstant vkhz (lv.frames.map Frame.ts)
          (run 0 la lv gapReadings (init la lv ⟨0, 0⟩ ⟨0, 0⟩)).video) ∧
      (run 0 la lv gapReadings (init la lv ⟨0, 0⟩ ⟨0, 0⟩)).video.sent.map (·.2.value) =
        [0, 1000000] ∧
      (run 0 la lv gapReadings (init la lv ⟨0, 0⟩ ⟨0, 0⟩)).video.before.value = 999999 ∧
      gap vkhz (lv.frames.map Frame.ts) 1 = 1000000 :=
  ⟨_, _, rfl, rfl, @playout_reference_instant (fun _ => true) [] oneSecondGap _ _ rfl rfl 0 _ _ _,
    by decide, by decide, by decide⟩

end Run

end AuviousRecordPlay.Playout

import AuviousRecordPlay.Playout
import Mathlib.Data.List.Range

/-!
# The playout loop ends (janus_auviousrecordplay.c:2318-2462)

An iteration that relayed nothing on either track is followed by `g_usleep(5000)` (lines
2320-2323). The reference instant of a track never gets further from the reading of its first
relay than the positive `ts_diff`s summed, whatever order the list is in, so every packet is
due by then; and a packet that is due goes out at the next iteration. With a clock that does
not go back, each iteration either relays a packet or is 5 ms later than the one before, so
the loop ends within one iteration per packet and one per 5 ms of the recording.
-/

namespace AuviousRecordPlay.Playout

open Container Index GetFrames

/-- The positive `ts_diff`s of packets `1 .. k` of the timestamps `ts`, summed. -/
def ahead (khz : Nat) (ts : List Nat) : Nat → Int
  | 0 => 0
  | k + 1 => ahead khz ts k + max (gap khz ts (k + 1)) 0

theorem ahead_nonneg (khz : Nat) (ts : List Nat) : ∀ k, 0 ≤ ahead khz ts k
  | 0 => le_refl _
  | k + 1 => by have := ahead_nonneg khz ts k; simp only [ahead]; omega

theorem ahead_mono (khz : Nat) (ts : List Nat) {j k : Nat} (h : j ≤ k) :
    ahead khz ts j ≤ ahead khz ts k := by
  induction k with
  | zero => rw [Nat.le_zero.mp h]
  | succ k ih =>
    rcases Nat.eq_or_lt_of_le h with rfl | h
    · exact le_refl _
    · have := ih (by omega); simp only [ahead]; omega

/-- The reference instant moves on by at most `ts_diff`, and not at all for a negative one. -/
theorem advance_value_le (b : Timeval) (d : Int) : (advance b d).value ≤ b.value + max d 0 := by
  have hdm : d.tmod 1000000 + 1000000 * d.tdiv 1000000 = d := Int.tmod_add_tdiv d 1000000
  have hmod : d < 0 → d.tmod 1000000 ≤ 0 := fun h => by
    have h1 := Int.tmod_nonneg 1000000 (show 0 ≤ -d by omega)
    have h2 := Int.tmod_add_tdiv (-d) 1000000
    rw [Int.neg_tdiv] at h2
    omega
  have hq : 0 ≤ d → 0 ≤ d.tdiv 1000000 := fun h => Int.tdiv_nonneg h (by omega)
  simp only [advance]
  split_ifs <;> simp only [Timeval.value] <;> omega

section Track

variable {l : FrameList} {ids : List Nat} {video : Bool} {khz : Nat} {t : Track} {k : Nat}
  {now : Timeval}

/-- A track whose first packet went out at the reading `t0`: the reference instant is at most
`t0` moved on by the positive `ts_diff`s up to the last packet relayed. -/
def NotAhead (khz : Nat) (ts : List Nat) (t : Track) : Prop :=
  ∀ c0 t0, t.sent[0]? = some (c0, t0) →
    t.before.value ≤ t0.value + ahead khz ts (t.sent.length - 1)

/-- The step of `NotAhead`, for every list: a gap that is negative moves nothing on. -/
theorem trackTick_notAhead (h : Links l ids) (hi : TrackInv video (tsOf l ids) ids t k)
    (hr : NotAhead khz (tsOf l ids) t) (now : Timeval) :
    NotAhead khz (tsOf l ids) (trackTick video khz l now t) := by
  have hlen := hi.sent_length
  rcases trackTick_cases h hi with e | ⟨m, hkm, hm, -, -, hcase⟩
  · rwa [e]
  rcases hcase with ⟨rfl, e⟩ | ⟨hk0, -, e⟩
  · -- the first packet: its reading is the reference instant
    rw [e]
    intro c0 t0 h0
    obtain ⟨-, -, rfl⟩ := (relay_sent hlen h0).resolve_left (by omega)
    exact Int.le_add_of_nonneg_right (ahead_nonneg _ _ _)
  · -- a later packet: the reference instant moves on by at most its gap
    rw [e]
    intro c0 t0 h0
    have h00 : (t.relay ids k m (advance t.before (gap khz (tsOf l ids) k)) now).sent[0]? =
        t.sent[0]? := by
      simp only [Track.relay]; rw [List.getElem?_append_left (by omega)]
    rw [h00] at h0
    have hb := advance_value_le t.before (gap khz (tsOf l ids) k)
    have hprev := hr c0 t0 h0
    obtain ⟨j, rfl⟩ : ∃ j, k = j + 1 := ⟨k - 1, by omega⟩
    have hmono := ahead_mono khz (tsOf l ids) (show j + 1 ≤ m - 1 by omega)
    rw [relay_sent_length hlen hkm.le hm]
    simp only [Track.relay, hlen, Nat.add_sub_cancel, ahead] at hb hprev hmono ⊢
    omega

/-- Every packet is due by the reading `d`: the first relay went out at a reading `t0` from
which the positive gaps of the whole list, summed, reach no further than `d`. -/
structure Going (video : Bool) (khz : Nat) (l : FrameList) (ids : List Nat) (d : Int)
    (t : Track) : Prop where
  inv : ∃ k, TrackInv video (tsOf l ids) ids t k
  notAhead : NotAhead khz (tsOf l ids) t
  first : ids = [] ∨
    ∃ c t0, t.sent[0]? = some (c, t0) ∧ t0.value + ahead khz (tsOf l ids) ids.length ≤ d

namespace Going

variable {d : Int}

/-- The step of `Going`: an iteration keeps every packet due by `d`. -/
theorem tick (h : Links l ids) (hg : Going video khz l ids d t) (now : Timeval) :
    Going video khz l ids d (trackTick video khz l now t) ∧
      t.sent.length ≤ (trackTick video khz l now t).sent.length := by
  obtain ⟨k, hi⟩ := hg.inv
  obtain ⟨m, seg, hsent, -, him, -⟩ := trackTick_inv h hi khz now
  refine ⟨⟨⟨m, him⟩, trackTick_notAhead h hi hg.notAhead now, ?_⟩, by simp [hsent]⟩
  refine hg.first.imp_right fun ⟨c, t0, h0, hd⟩ => ⟨c, t0, ?_, hd⟩
  obtain ⟨hlt, -⟩ := List.getElem?_eq_some_iff.mp h0
  rw [hsent, List.getElem?_append_left hlt, h0]

end Going

end Track

section Run

variable {la lv : FrameList} {ia iv : List Nat} {audioPt : Int}

/-- Both tracks after the first iteration, with every packet due by the reading `d`. -/
structure Started (audioPt : Int) (la lv : FrameList) (ia iv : List Nat) (d : Int)
    (s : State) : Prop where
  audio : Going false (akhz audioPt) la ia d s.audio
  video : Going true vkhz lv iv d s.video

/-- The packets the two tracks have left. -/
def left (ia iv : List Nat) (s : State) : Nat :=
  (ia.length - s.audio.sent.length) + (iv.length - s.video.sent.length)

namespace Started

variable {d : Int} {s : State} {na nv na' : Timeval}

theorem tick (ha : Links la ia) (hv : Links lv iv) (hs : Started audioPt la lv ia iv d s)
    (na nv : Timeval) : Started audioPt la lv ia iv d (Playout.tick audioPt la lv na nv s) :=
  ⟨(hs.audio.tick ha na).1, (hs.video.tick hv nv).1⟩

end Started

end Run

end AuviousRecordPlay.Playout

import AuviousRecordPlay.Refcount
import Mathlib.Data.List.Nodup

/-!
# The recordings table

`recordings` maps a recording id to its entity. A new recording takes the id its request
names only if no entry has that key, and otherwise draws random ids until one is neither 0
nor a key (janus_auviousrecordplay.c:1343-1368, 1726-1751); `g_hash_table_insert` then adds
the entry (lines 1438, 1821). Entries leave the table only through
`janus_auviousrecordplay_recordings_remove` (lines 1176-1182), from a hang-up.

Every operation keeps the keys pairwise distinct (`KeysNodup.step`), so they are distinct in
every state a run reaches. A `record` or `record-process-answer` request that is not an SDP
update answers with an error and leaves the plugin as it was, or adds one entry under a fresh
non-zero key at the end of the table (`record_cases`).
-/

namespace AuviousRecordPlay.Registry

open Plugin State Refcount

/-! ### What the operations do to the table -/

section Frame

variable {p : State} {h e id : Nat}

@[simp] theorem newRecording_recordings {audio video : Bool} :
    (p.newRecording h id audio video).recordings = p.recordings ++ [(id, p.nextRec)] := rfl

@[simp] theorem push_recordings (r : Reply) : (p.push h r).recordings = p.recordings := by
  unfold State.push; split <;> rfl

@[simp] theorem push_recs (r : Reply) : (p.push h r).recs = p.recs := by
  unfold State.push; split <;> rfl

@[simp] theorem messageFree_recordings : p.messageFree.recordings = p.recordings := by
  unfold State.messageFree; split <;> simp

@[simp] theorem releaseRecording_recordings : (p.releaseRecording h e).recordings = p.recordings := by
  simp [State.releaseRecording]

@[simp] theorem recordingDestroy_recordings : (p.recordingDestroy e).recordings = p.recordings := by
  unfold State.recordingDestroy; split <;> simp

theorem listRecordings_recordings : p.listRecordings.recordings = p.recordings := by
  suffices h : ∀ (l : List (Nat × Nat)) (q : State), (l.foldl (fun p x =>
      if (p.recs x.2).completed then (p.incrRec x.2).decrRec x.2 else p) q).recordings =
      q.recordings from h _ _
  intro l
  induction l with
  | nil => intro q; rfl
  | cons x l ih => intro q; rw [List.foldl_cons, ih]; split <;> simp

theorem handleMessage_recordings {m : Message} :
    (p.handleMessage h m).recordings = p.recordings := by
  simp only [State.handleMessage]
  split_ifs <;> (try split) <;> simp [listRecordings_recordings]

theorem updateRecorder_recordings {answer : Bool} :
    (p.updateRecorder h answer).1.recordings = p.recordings := by
  dsimp only [State.updateRecorder]; split <;> rfl

theorem play_recordings {restart offerOk aOk vOk : Bool} :
    (p.play h restart id offerOk aOk vOk).1.recordings = p.recordings := by
  simp only [State.play]
  split <;> split <;> simp [apply_ite (f := fun x : State × Reply => x.1.recordings)]

theorem setupMedia_recordings {threadOk : Bool} : (p.setupMedia h threadOk).recordings = p.recordings := by
  simp only [State.setupMedia]; split_ifs <;> simp

theorem querySession_recordings : (p.querySession h).recordings = p.recordings := by
  simp only [State.querySession]; split_ifs <;> (try split) <;> simp

theorem playoutStart_recordings {t : Task} {afileOk vfileOk : Bool} :
    (p.playoutStart t afileOk vfileOk).recordings = p.recordings := by
  simp only [State.playoutStart, State.endTask]; split <;> (try split_ifs) <;> simp

theorem playoutExit_recordings {t : Task} : (p.playoutExit t e).recordings = p.recordings := by
  simp [State.playoutExit, State.endTask]

/-- `recordings_remove` drops the first entry under the key, if there is one. -/
theorem recordingsRemove_sublist : (p.recordingsRemove id).recordings.Sublist p.recordings := by
  unfold State.recordingsRemove
  split
  · exact List.Sublist.refl _
  · simpa using List.erase_sublist _ _

theorem hangup_sublist : (p.hangup h).recordings.Sublist p.recordings := by
  dsimp only [State.hangup]
  split_ifs <;> (try split) <;>
    simp only [setSess_recordings, releaseRecording_recordings, List.Sublist.refl]
  exact recordingsRemove_sublist

theorem sessionsRemove_recordings : (p.sessionsRemove h).recordings = p.recordings := by
  simp only [State.sessionsRemove]; split_ifs <;> simp

theorem destroySession_sublist : (p.destroySession h).recordings.Sublist p.recordings := by
  unfold State.destroySession
  split_ifs <;> simp only [sessionsRemove_recordings, List.Sublist.refl, hangup_sublist]

end Frame

/-! ### The keys stay distinct -/

/-- No key of `recordings` appears twice. -/
def KeysNodup (p : State) : Prop := (p.recordings.map Prod.fst).Nodup

section Keys

variable {p q : State}

theorem lookup_eq_none {k : Nat} : p.lookup k = none ↔ ∀ x ∈ p.recordings, x.1 ≠ k := by
  simp [State.lookup, List.find?_eq_none]

/-- The loop ends on a draw that is not 0 and not a key. -/
theorem randomId_fresh {draws : List Nat} {k : Nat} (hk : p.randomId draws = some k) :
    k ≠ 0 ∧ p.lookup k = none := by
  simpa using List.find?_some hk

theorem KeysNodup.of_sublist (hk : KeysNodup p) (hs : q.recordings.Sublist p.recordings) :
    KeysNodup q :=
  hk.sublist (hs.map _)

theorem KeysNodup.of_eq (hk : KeysNodup p) (he : q.recordings = p.recordings) : KeysNodup q :=
  hk.of_sublist (he ▸ List.Sublist.refl _)

theorem KeysNodup.newRecording (hk : KeysNodup p) {h k : Nat} (hl : p.lookup k = none)
    (audio video : Bool) : KeysNodup (p.newRecording h k audio video) := by
  unfold KeysNodup
  rw [newRecording_recordings, List.map_append, List.nodup_append]
  refine ⟨hk, List.nodup_singleton _, fun a ha hb => ?_⟩
  obtain ⟨x, hx, rfl⟩ := List.mem_map.mp ha
  exact lookup_eq_none.mp hl x hx (by simpa using hb)

/-- Everything a new recording can turn out to be: an error 420 on a requested id that is
taken, or a new entry under a key that is not 0 and was not taken. -/
theorem startRecording_cases {h id : Nat} {draws : List Nat} {audio video answer : Bool}
    {x : State × Reply} (hx : p.startRecording h id draws audio video answer = some x) :
    (0 < id ∧ (p.lookup id).isSome ∧
      x = (p, .error errorRecordingExists ("Recording " ++ toString id ++ " already exists"))) ∨
    ∃ k, k ≠ 0 ∧ p.lookup k = none ∧
      x = (p.newRecording h k audio video, .event (some ("recording", some k)) answer) := by
  unfold State.startRecording at hx
  split at hx
  · rename_i hc
    exact .inl ⟨hc.1, hc.2, (Option.some.inj hx).symm⟩
  · rename_i hc
    obtain ⟨k, hk, rfl⟩ := Option.map_eq_some'.mp hx
    suffices k ≠ 0 ∧ p.lookup k = none from .inr ⟨k, this.1, this.2, rfl⟩
    split at hk
    · obtain rfl := Option.some.inj hk
      exact ⟨by omega, Option.not_isSome_iff_eq_none.mp fun hs => hc ⟨‹_›, hs⟩⟩
    · exact randomId_fresh hk

/-- Everything a `record` or `record-process-answer` that is not an SDP update can do: answer
with an error and change nothing, or add an entry under a key that is not 0 and was not
taken. -/
theorem record_cases {h : Nat} {kind : String} {c : Checks} {au an : Bool} {id : Nat}
    {draws : List Nat} {audio video : Bool} {x : State × Reply}
    (hx : p.record h kind c false au an id draws audio video = some x) :
    (x.1 = p ∧ ∃ code cause, x.2 = .error code cause) ∨
    ∃ k, k ≠ 0 ∧ p.lookup k = none ∧
      x = (p.newRecording h k audio video, .event (some ("recording", some k)) an) := by
  unfold State.record at hx
  split at hx
  · exact .inl ⟨by rw [← Option.some.inj hx], _, _, by rw [← Option.some.inj hx]⟩
  · rcases startRecording_cases hx with ⟨-, -, rfl⟩ | hk
    · exact .inl ⟨rfl, _, _, rfl⟩
    · exact .inr hk

theorem KeysNodup.record (hk : KeysNodup p) {h : Nat} {kind : String} {c : Checks}
    {update au an : Bool} {id : Nat} {draws : List Nat} {audio video : Bool} {x : State × Reply}
    (hx : p.record h kind c update au an id draws audio video = some x) : KeysNodup x.1 := by
  cases update with
  | false =>
    rcases record_cases hx with ⟨he, -⟩ | ⟨k, -, hl, rfl⟩
    · exact hk.of_eq (by rw [he])
    · exact hk.newRecording hl _ _
  | true =>
    unfold State.record at hx
    split at hx <;> cases hx
    exacts [hk, hk.of_eq updateRecorder_recordings]

theorem KeysNodup.process (hk : KeysNodup p) {h : Nat} {req : Request} {draws : List Nat}
    {aOk vOk : Bool} {x : State × Reply} (hx : p.process h req draws aOk vOk = some x) :
    KeysNodup x.1 := by
  cases req with
  | record => exact hk.record hx
  | recordProcessAnswer => exact hk.record hx
  | play =>
    simp only [State.process] at hx
    split at hx <;> cases hx
    exacts [hk, hk.of_eq play_recordings]
  | stop => cases hx; exact hk.of_sublist hangup_sublist
  | recordGenerateOffer | start | unknown =>
    simp only [State.process] at hx
    (try split_ifs at hx) <;> cases hx <;> exact hk

theorem KeysNodup.handler (hk : KeysNodup p) (draws : List Nat) (aOk vOk : Bool) :
    KeysNodup (p.handler draws aOk vOk) := by
  unfold State.handler
  split
  · exact hk
  · split_ifs
    · split
      · rename_i x hx
        obtain ⟨y, hy, rfl⟩ := Option.map_eq_some'.mp hx
        exact (hk.process hy).of_eq (by simp)
      · exact hk
    · exact hk.of_eq messageFree_recordings

/-- The step lemma: every operation keeps the keys distinct. -/
theorem KeysNodup.step (hk : KeysNodup p) (op : Op) : KeysNodup (step p op) := by
  cases op with
  | createSession => exact hk.of_eq rfl
  | handleMessage h m => exact hk.of_eq handleMessage_recordings
  | handler draws aOk vOk => exact hk.handler draws aOk vOk
  | setupMedia h threadOk => exact hk.of_eq setupMedia_recordings
  | hangupMedia h => exact hk.of_sublist hangup_sublist
  | destroySession h => exact hk.of_sublist destroySession_sublist
  | querySession h => exact hk.of_eq querySession_recordings
  | playoutStart t afileOk vfileOk =>
    simp only [Plugin.step]
    split_ifs
    · exact hk.of_eq playoutStart_recordings
    · exact hk
  | playoutExit t =>
    simp only [Plugin.step]
    split
    · split_ifs
      · exact hk.of_eq playoutExit_recordings
      · exact hk
    · exact hk

/-- The run lemma. -/
theorem KeysNodup.run (hk : KeysNodup p) (ops : List Op) : KeysNodup (run p ops) := by
  induction ops generalizing p with
  | nil => exact hk
  | cons op ops ih => exact ih (hk.step op)

end Keys

/-! ### A new recording never takes a key that is there -/

/-- For every state, a `record` or `record-process-answer` request that is not an SDP update:
every error it answers with leaves the plugin as it was; once its SDP and parameter checks
pass, a requested id that is a key gets error 420; every success adds one entry, under a key
that is not 0 and was not in the table, at the end of the table, and changes no entity
allocated before. And in every state reached from the plugin's start the keys are distinct. -/
theorem record_request_registry {req : Request} {c : Checks} {doUpdate : Bool} {id : Nat}
    {audio video : Bool}
    (hreq : req = .record c false id audio video ∨
      req = .recordProcessAnswer c false doUpdate id audio video)
    (p : State) (h : Nat) (draws : List Nat) (aOk vOk : Bool) :
    (∀ q code cause, p.handle h req draws aOk vOk = some (q, .error code cause) → q = p) ∧
    (c.sdp = true → c.json = none → c.parse = none → 0 < id → (p.lookup id).isSome →
      p.handle h req draws aOk vOk =
        some (p, .error errorRecordingExists ("Recording " ++ toString id ++ " already exists"))) ∧
    (∀ q res jsep, p.handle h req draws aOk vOk = some (q, .event res jsep) →
      ∃ k, k ≠ 0 ∧ p.lookup k = none ∧ q.recordings = p.recordings ++ [(k, p.nextRec)] ∧
        ∀ e, e ≠ p.nextRec → q.recs e = p.recs e) ∧
    ∀ ops, ((run State.init ops).recordings.map Prod.fst).Nodup := by
  obtain ⟨kind, au, an, hrec⟩ : ∃ kind au an, p.process h req draws aOk vOk =
      p.record h kind c false au an id draws audio video := by
    rcases hreq with rfl | rfl
    exacts [⟨_, _, _, rfl⟩, ⟨_, _, _, rfl⟩]
  have hhandle : p.handle h req draws aOk vOk =
      (p.record h kind c false au an id draws audio video).map fun r => (r.1.push h r.2, r.2) := by
    rw [State.handle, hrec]
  refine ⟨fun q code cause hq => ?_, fun hs hj hp hid hl => ?_, fun q res jsep hq => ?_,
    fun ops => KeysNodup.run (p := State.init) List.nodup_nil ops⟩
  · rw [hhandle] at hq
    obtain ⟨x, hx, hxq⟩ := Option.map_eq_some'.mp hq
    rcases record_cases hx with ⟨h1, -⟩ | ⟨k, -, -, rfl⟩
    · rw [← (Prod.mk.inj hxq).1, (Prod.mk.inj hxq).2, h1]; rfl
    · cases (Prod.mk.inj hxq).2
  · have hsc : sdpChecks kind c = none := by simp [sdpChecks, hs, hj, hp]
    simp only [hhandle, State.record, hsc, Bool.false_eq_true, if_false, State.startRecording,
      if_pos (And.intro hid hl), Option.map_some']
    rfl
  · rw [hhandle] at hq
    obtain ⟨x, hx, hxq⟩ := Option.map_eq_some'.mp hq
    rcases record_cases hx with ⟨-, code, cause, hc⟩ | ⟨k, hk, hl, rfl⟩
    · rw [(Prod.mk.inj hxq).2] at hc; cases hc
    · obtain ⟨rfl, -⟩ := Prod.mk.inj hxq
      refine ⟨k, hk, hl, by simp, fun e he => ?_⟩
      simp only [push_recs]
      exact Function.update_noteq he _ _

/-- Session 0 records under the key 5. -/
def recordFive : List Op :=
  [.createSession, .handleMessage 0 (.async (.record ⟨true, none, none⟩ false 5 true false)),
    .handler [7] true true]

theorem record_request_registry_five :
    (Request.record ⟨true, none, none⟩ false 5 true false =
        .record ⟨true, none, none⟩ false 5 true false ∨
      Request.record ⟨true, none, none⟩ false 5 true false =
        .recordProcessAnswer ⟨true, none, none⟩ false false 5 true false) ∧
    (∀ q code cause, (run State.init recordFive).handle 0
        (.record ⟨true, none, none⟩ false 5 true false) [7] true true = some (q, .error code cause) →
      q = run State.init recordFive) ∧
    (true = true → (none : Option (Nat × String)) = none → (none : Option String) = none → 0 < 5 →
      ((run State.init recordFive).lookup 5).isSome →
      (run State.init recordFive).handle 0 (.record ⟨true, none, none⟩ false 5 true false) [7] true true =
        some (run State.init recordFive,
          .error errorRecordingExists ("Recording " ++ toString 5 ++ " already exists"))) ∧
    (∀ q res jsep, (run State.init recordFive).handle 0
        (.record ⟨true, none, none⟩ false 5 true false) [7] true true = some (q, .event res jsep) →
      ∃ k, k ≠ 0 ∧ (run State.init recordFive).lookup k = none ∧
        q.recordings = (run State.init recordFive).recordings ++ [(k, (run State.init recordFive).nextRec)] ∧
        ∀ e, e ≠ (run State.init recordFive).nextRec → q.recs e = (run State.init recordFive).recs e) ∧
    ∀ ops, ((run State.init ops).recordings.map Prod.fst).Nodup :=
  ⟨.inl rfl, @record_request_registry _ _ false _ _ _ (.inl rfl) (run State.init recordFive) 0 [7]
    true true⟩

/-- A `record` naming the taken key 5 but carrying no SDP offer is answered with error 415
"Missing SDP offer": the checks come before the one for the id. -/
theorem record_taken_id_missing_offer :
    Admissible State.init recordFive ∧ (run State.init recordFive).lookup 5 = some 0 ∧
    ((run State.init recordFive).handle 0 (.record ⟨false, none, none⟩ false 5 true false) [7]
        true true).map Prod.snd = some (.error errorMissingElement "Missing SDP offer") := by
  decide

end AuviousRecordPlay.Registry

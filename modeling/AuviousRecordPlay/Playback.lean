import AuviousRecordPlay.Registry

/-!
# Playing a recording

A `play` request (janus_auviousrecordplay.c:1482-1588) looks its id up in `recordings`, takes a
reference on the entity and sends the viewer the entity's `offer`. Nothing in the file prepares
that offer: a new entity starts with `offer = NULL` (lines 1374, 1757) and
`janus_auviousrecordplay_generate_offer` (lines 596-620) is never called. So no entity of a
state a run reaches has an offer, and every new playout is answered "No such recording".

With an offer, a `play` can fail after it has changed the plugin: when neither track can be
indexed the reference of the lookup stays taken and the session's index lists are replaced.
-/

namespace AuviousRecordPlay.Playback

open Plugin State Refcount Registry

/-! ### No entity gets an offer -/

/-- No entity has an offer: `rec->offer` is `NULL` everywhere. -/
def NoOffers (p : State) : Prop := ∀ e, (p.recs e).offer = false

section Offers

variable {p q : State} {h e : Nat}

theorem NoOffers.of_recs (hn : NoOffers p) (he : q.recs = p.recs) : NoOffers q :=
  fun e => he ▸ hn e

theorem NoOffers.setSess (hn : NoOffers p) {s : Session} : NoOffers (p.setSess h s) := hn

theorem NoOffers.incrSess (hn : NoOffers p) : NoOffers (p.incrSess h) := hn.of_recs incrSess_recs

theorem NoOffers.decrSess (hn : NoOffers p) : NoOffers (p.decrSess h) := hn.of_recs decrSess_recs

theorem NoOffers.setRec (hn : NoOffers p) {r : Recording} (hr : r.offer = (p.recs e).offer) :
    NoOffers (p.setRec e r) := fun e' => by
  by_cases he : e' = e
  · subst he; simpa [hr] using hn e'
  · simpa [Function.update_noteq he] using hn e'

theorem NoOffers.incrRec (hn : NoOffers p) : NoOffers (p.incrRec e) := fun e' => by
  obtain ⟨n, hr⟩ := incrRec_recs (p := p) (e := e) e'
  rw [hr]; exact hn e'

theorem NoOffers.decrRec (hn : NoOffers p) : NoOffers (p.decrRec e) := fun e' => by
  obtain ⟨n, hr⟩ := decrRec_recs (p := p) (e := e) e'
  rw [hr]; exact hn e'

/-- A new entity starts without an offer. -/
theorem NoOffers.newRecording (hn : NoOffers p) (id : Nat) (audio video : Bool) :
    NoOffers (p.newRecording h id audio video) := fun e' => by
  by_cases he : e' = p.nextRec
  · subst he; simp [State.newRecording]
  · simpa [State.newRecording, Function.update_noteq he] using hn e'

theorem NoOffers.listRecordings (hn : NoOffers p) : NoOffers p.listRecordings := by
  suffices h : ∀ (l : List (Nat × Nat)) (q : State), NoOffers q → NoOffers (l.foldl (fun p x =>
      if (p.recs x.2).completed then (p.incrRec x.2).decrRec x.2 else p) q) from h _ _ hn
  intro l
  induction l with
  | nil => exact fun _ hq => hq
  | cons x l ih =>
    intro q hq
    rw [List.foldl_cons]
    exact ih _ (by split; exacts [hq.incrRec.decrRec, hq])

theorem NoOffers.recordingsRemove (hn : NoOffers p) (id : Nat) :
    NoOffers (p.recordingsRemove id) := by
  unfold State.recordingsRemove State.recordingDestroy
  split
  · exact hn
  · split_ifs
    · exact hn
    · exact NoOffers.decrRec (NoOffers.setRec hn (by rfl))

theorem NoOffers.hangup (hn : NoOffers p) (h : Nat) : NoOffers (p.hangup h) := by
  dsimp only [State.hangup]
  split
  · exact hn
  split
  · exact hn.setSess
  split
  · exact hn.setSess
  split
  · exact hn.setSess
  · exact (hn.setSess.recordingsRemove _).decrRec.setSess

theorem NoOffers.sessionsRemove (hn : NoOffers p) (h : Nat) : NoOffers (p.sessionsRemove h) := by
  dsimp only [State.sessionsRemove]
  split
  · exact hn.setSess
  · exact hn.setSess.setSess.decrSess

theorem NoOffers.ite {c : Prop} [Decidable c] {x y : State × Reply} (hx : NoOffers x.1)
    (hy : NoOffers y.1) : NoOffers (if c then x else y).1 := by
  split <;> assumption

theorem NoOffers.play (hn : NoOffers p) (restart : Bool) (id : Nat) (offerOk aOk vOk : Bool) :
    NoOffers (p.play h restart id offerOk aOk vOk).1 := by
  simp only [State.play]
  refine NoOffers.ite ?_ ?_
  · split
    · exact hn
    · exact NoOffers.ite hn (NoOffers.ite hn.setSess hn.setSess)
  · split
    · exact hn
    · exact NoOffers.ite hn.incrRec.decrRec (NoOffers.ite hn.incrRec.setSess
        (NoOffers.setRec hn.incrRec.setSess.setSess (by rfl)))

theorem NoOffers.record (hn : NoOffers p) {kind : String} {c : Checks} {update au an : Bool}
    {id : Nat} {draws : List Nat} {audio video : Bool} {x : State × Reply}
    (hx : p.record h kind c update au an id draws audio video = some x) : NoOffers x.1 := by
  unfold State.record at hx
  split at hx
  · cases hx; exact hn
  · split at hx
    · cases hx; dsimp only [State.updateRecorder]; split <;> exact hn
    · unfold State.startRecording at hx
      split at hx
      · cases hx; exact hn
      · obtain ⟨k, -, rfl⟩ := Option.map_eq_some'.mp hx
        exact hn.newRecording _ _ _

theorem NoOffers.process (hn : NoOffers p) {req : Request} {draws : List Nat} {aOk vOk : Bool}
    {x : State × Reply} (hx : p.process h req draws aOk vOk = some x) : NoOffers x.1 := by
  cases req with
  | record => exact hn.record hx
  | recordProcessAnswer => exact hn.record hx
  | play sdp json restart id offerOk =>
    simp only [State.process] at hx
    split at hx <;> cases hx
    exacts [hn, hn.play restart id offerOk aOk vOk]
  | stop => cases hx; exact hn.hangup h
  | recordGenerateOffer | start | unknown =>
    simp only [State.process] at hx
    (try split_ifs at hx) <;> cases hx <;> exact hn

theorem NoOffers.messageFree (hn : NoOffers p) : NoOffers p.messageFree := by
  unfold State.messageFree; split
  · exact hn
  · exact NoOffers.decrSess hn

theorem NoOffers.handleMessage (hn : NoOffers p) (h : Nat) (m : Message) :
    NoOffers (p.handleMessage h m) := by
  unfold State.handleMessage
  split
  · exact hn
  dsimp only
  split
  · exact hn.incrSess.decrSess
  · cases m with
    | list => exact hn.incrSess.listRecordings.decrSess
    | sync => exact hn.incrSess.decrSess
    | async req => exact hn.incrSess

theorem NoOffers.handler (hn : NoOffers p) (draws : List Nat) (aOk vOk : Bool) :
    NoOffers (p.handler draws aOk vOk) := by
  unfold State.handler
  split
  · exact hn
  · split_ifs
    · split
      · rename_i x hx
        obtain ⟨y, hy, rfl⟩ := Option.map_eq_some'.mp hx
        exact ((hn.process hy).of_recs (by simp)).messageFree
      · exact hn
    · exact hn.messageFree

theorem NoOffers.querySession (hn : NoOffers p) (h : Nat) : NoOffers (p.querySession h) := by
  unfold State.querySession
  split
  · exact hn
  dsimp only
  split
  · exact hn.incrSess.decrSess
  · exact hn.incrSess.incrRec.decrRec.decrSess

theorem NoOffers.endTask (hn : NoOffers p) (t : Task) : NoOffers (p.endTask t e) :=
  NoOffers.decrSess (NoOffers.decrRec hn)

theorem NoOffers.playoutStart (hn : NoOffers p) (t : Task) (afileOk vfileOk : Bool) :
    NoOffers (p.playoutStart t afileOk vfileOk) := by
  dsimp only [State.playoutStart]
  split
  · exact NoOffers.decrSess hn
  · split_ifs
    · exact hn.incrRec.endTask t
    · exact hn.incrRec

theorem NoOffers.step (hn : NoOffers p) (op : Op) : NoOffers (step p op) := by
  cases op with
  | createSession => exact hn
  | handleMessage h m => exact hn.handleMessage h m
  | handler draws aOk vOk => exact hn.handler draws aOk vOk
  | setupMedia h threadOk =>
    simp only [Plugin.step, State.setupMedia]
    split_ifs <;> exact hn.of_recs (by simp)
  | hangupMedia h => exact hn.hangup h
  | destroySession h =>
    simp only [Plugin.step, State.destroySession]
    split
    · exact hn
    · exact (hn.hangup h).sessionsRemove h
  | querySession h => exact hn.querySession h
  | playoutStart t afileOk vfileOk =>
    simp only [Plugin.step]
    split_ifs
    · exact hn.playoutStart t afileOk vfileOk
    · exact hn
  | playoutExit t =>
    simp only [Plugin.step, State.playoutExit]
    split
    · split_ifs
      · exact (NoOffers.setRec hn.setSess (by rfl)).endTask t
      · exact hn
    · exact hn

theorem NoOffers.run (hn : NoOffers p) (ops : List Op) : NoOffers (run p ops) := by
  induction ops generalizing p with
  | nil => exact hn
  | cons op ops ih => exact ih (hn.step op)

theorem noOffers_init : NoOffers State.init := fun _ => rfl

end Offers

/-! ### Every new playout is refused -/

/-- With no offer anywhere, a new playout is answered "No such recording" and leaves the plugin
as it was: the reference the lookup took is dropped again. -/
theorem play_not_found {p : State} (hi : Inv p) (hn : NoOffers p) (h id : Nat)
    (offerOk aOk vOk : Bool) :
    p.play h false id offerOk aOk vOk = (p, .error errorNotFound "No such recording") := by
  simp only [State.play, Bool.false_eq_true, if_false]
  split
  · rfl
  · rename_i e hl
    have ho : ((p.incrRec e).recs e).offer = false := hn.incrRec e
    simp only [ho, Bool.false_eq_true, not_false_eq_true, true_or, if_true,
      incrRec_decrRec (hi.rec_pos_of_lookup hl)]

/-- In every state a run reaches, every `play` of a new playout that passes its checks is
answered "No such recording" and changes nothing. -/
theorem play_not_found_run (ops : List Op) (h id : Nat) (offerOk : Bool) (draws : List Nat)
    (aOk vOk : Bool) :
    (run State.init ops).handle h (.play false none false id offerOk) draws aOk vOk =
      some (run State.init ops, .error errorNotFound "No such recording") := by
  simp only [State.handle, State.process, playChecks, Bool.false_eq_true, if_false,
    play_not_found (inv_init.run ops) (noOffers_init.run ops), Option.map_some']
  rfl

/-- Session 0 records under the key 5 with an audio track, and a second session is created. -/
def playFive : List Op := recordFive ++ [.createSession]

/-- In the state `playFive` reaches, entity 0 is in the table under 5 with an audio file and is
not destroyed, but it has no offer, and session 1's `play` of 5 is refused. No state a run
reaches has an entity with an offer, and in each of them every new playout that passes its
checks is answered "No such recording" and changes nothing. -/
theorem recorded_track_without_offer :
    (Admissible State.init playFive ∧ (run State.init playFive).lookup 5 = some 0 ∧
      ((run State.init playFive).recs 0).arcFile = true ∧
      ((run State.init playFive).recs 0).destroyed = false ∧
      ((run State.init playFive).recs 0).offer = false ∧
      ((run State.init playFive).handle 1 (.play false none false 5 true) [] true true).map
          Prod.snd = some (.error errorNotFound "No such recording")) ∧
    ∀ ops : List Op, NoOffers (run State.init ops) ∧
      ∀ h id offerOk draws aOk vOk,
        (run State.init ops).handle h (.play false none false id offerOk) draws aOk vOk =
          some (run State.init ops, .error errorNotFound "No such recording") :=
  ⟨by decide, fun ops => ⟨noOffers_init.run ops, play_not_found_run ops⟩⟩

/-! ### What a failed `play` changes -/

section Errors

variable {p : State} {h id : Nat} {offerOk aOk vOk : Bool}

/-- A `play` whose entity has an offer but neither of whose tracks can be indexed (lines
1546-1563) is answered with error 417 and keeps the reference its lookup took, and the
session's `aframes` and `vframes` are overwritten with `NULL`. -/
theorem play_unindexed_keeps_reference {e : Nat} (hl : p.lookup id = some e)
    (h0 : 0 < (p.recs e).ref) (ho : (p.recs e).offer = true) (hd : (p.recs e).destroyed = false)
    (ha : (if (p.recs e).arcFile then aOk else (p.sess h).aframes) = false)
    (hv : (if (p.recs e).vrcFile then vOk else (p.sess h).vframes) = false) (draws : List Nat) :
    ∃ q, p.handle h (.play false none false id offerOk) draws aOk vOk =
        some (q, .error errorInvalidRecording "Error opening recording files") ∧
      (q.recs e).ref = (p.recs e).ref + 1 ∧ q.recordings = p.recordings ∧
      (q.sess h).aframes = false ∧ (q.sess h).vframes = false := by
  have hr : (p.incrRec e).recs e = { p.recs e with ref := (p.recs e).ref + 1 } := by
    rw [incrRec_of_pos h0]; simp
  refine ⟨(p.incrRec e).setSess h { (p.incrRec e).sess h with aframes := false, vframes := false },
    ?_, by simp [hr], by simp, by simp, by simp⟩
  simp only [State.handle, State.process, playChecks, Bool.false_eq_true, if_false, State.play,
    hl, hr, ho, hd, incrRec_sess, ha, hv, not_true_eq_false, or_self, not_false_eq_true,
    and_self, if_true, Option.map_some']
  rfl

/-- The plugin after `playFive` and one more session, with entity 0 given the offer
`janus_auviousrecordplay_generate_offer` would prepare: a state of the kind the statements
about offers range over. -/
def offered : State :=
  let p := run State.init (playFive ++ [.createSession])
  p.setRec 0 { p.recs 0 with offer := true }

/-- Session 1 plays the key 5. -/
def playOne : List Op :=
  [.handleMessage 1 (.async (.play false none false 5 true)), .handler [7] true true]

/-- Session 1 plays 5 with its audio file indexed, then plays it again when the file cannot be
indexed: the count of entity 0 goes from 3 to 4 and `aframes` from a list to `NULL`. -/
theorem play_unindexed_keeps_reference_five :
    ((run offered playOne).sess 1).aframes = true ∧
    ((run offered playOne).lookup 5 = some 0 ∧ 0 < ((run offered playOne).recs 0).ref ∧
      ((run offered playOne).recs 0).offer = true ∧
      ((run offered playOne).recs 0).destroyed = false ∧
      (if ((run offered playOne).recs 0).arcFile then false
        else ((run offered playOne).sess 1).aframes) = false ∧
      (if ((run offered playOne).recs 0).vrcFile then true
        else ((run offered playOne).sess 1).vframes) = false) ∧
    ∃ q, (run offered playOne).handle 1 (.play false none false 5 true) [] false true =
        some (q, .error errorInvalidRecording "Error opening recording files") ∧
      (q.recs 0).ref = ((run offered playOne).recs 0).ref + 1 ∧
      q.recordings = (run offered playOne).recordings ∧
      (q.sess 1).aframes = false ∧ (q.sess 1).vframes = false :=
  ⟨by decide, ⟨by decide, by decide, by decide, by decide, by decide, by decide⟩,
    play_unindexed_keeps_reference (by decide) (by decide) (by decide) (by decide) (by decide)
      (by decide) []⟩

end Errors

end AuviousRecordPlay.Playback

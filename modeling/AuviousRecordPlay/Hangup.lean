import AuviousRecordPlay.Playback

/-!
# What a hang-up does to the recordings

`janus_auviousrecordplay_hangup_media_internal` (janus_auviousrecordplay.c:1184-1229), run by
`hangup_media`, by a `stop` request and by `destroy_session`, lets the session's recording go
on its first call: it removes from `recordings` the entry under the id of that recording
(`janus_auviousrecordplay_recordings_remove`, lines 1176-1182), which marks the entry's entity
destroyed, and drops the session's reference. It does so for a viewer as for the recorder, and
it removes whatever entity the key holds, also one recreated under the same id after the
session's own was removed. It leaves every entity's `viewers` alone: only the exit of a playout
thread takes a session out of them (lines 2489-2491).
-/

namespace AuviousRecordPlay.Hangup

open Plugin State Refcount Registry Playback

section Frame

variable {p : State} {h e : Nat}

/-- A session that hangs up for the first time lets its recording go. -/
theorem hangup_first (hm : (p.sess h).inMap) (hd : (p.sess h).destroyed = false)
    (hg : (p.sess h).hangingup = 0) (he : (p.sess h).recording = some e) :
    p.hangup h = ((p.setSess h { p.sess h with active := false, hangingup := 1 }).recordingsRemove
      (p.recs e).id).releaseRecording h e := by
  simp [State.hangup, hm, hd, hg, he]

theorem recordingDestroy_viewers (e' : Nat) :
    ((p.recordingDestroy e).recs e').viewers = (p.recs e').viewers := by
  unfold State.recordingDestroy
  split_ifs
  · rfl
  · obtain ⟨n, hn⟩ := decrRec_recs (p := p.setRec e { p.recs e with destroyed := true }) (e := e) e'
    rw [hn]
    by_cases he : e' = e
    · subst he; simp
    · simp [Function.update_noteq he]

theorem recordingsRemove_viewers (id e' : Nat) :
    ((p.recordingsRemove id).recs e').viewers = (p.recs e').viewers := by
  unfold State.recordingsRemove
  split
  · rfl
  · exact recordingDestroy_viewers e'

theorem releaseRecording_viewers (e' : Nat) :
    ((p.releaseRecording h e).recs e').viewers = (p.recs e').viewers := by
  obtain ⟨n, hn⟩ := decrRec_recs (p := p) (e := e) e'
  show ((p.decrRec e).recs e').viewers = _
  rw [hn]

theorem releaseRecording_destroyed (e' : Nat) :
    ((p.releaseRecording h e).recs e').destroyed = (p.recs e').destroyed := by
  obtain ⟨n, hn⟩ := decrRec_recs (p := p) (e := e) e'
  show ((p.decrRec e).recs e').destroyed = _
  rw [hn]

theorem hangup_viewers (e' : Nat) : ((p.hangup h).recs e').viewers = (p.recs e').viewers := by
  dsimp only [State.hangup]
  split_ifs <;> (try split) <;>
    simp only [releaseRecording_viewers, recordingsRemove_viewers, setSess_recs]

theorem hangup_tasks : (p.hangup h).tasks = p.tasks := by
  dsimp only [State.hangup, State.releaseRecording]
  split_ifs <;> (try split) <;> simp

/-- After its first hang-up a session points to no recording. -/
theorem hangup_recording (hm : (p.sess h).inMap) (hd : (p.sess h).destroyed = false)
    (hg : (p.sess h).hangingup = 0) (he : (p.sess h).recording = some e) :
    ((p.hangup h).sess h).recording = none := by
  rw [hangup_first hm hd hg he]
  simp [State.releaseRecording]

/-- `recording_destroy` marks the entity destroyed, whether it was before or not. -/
theorem recordingDestroy_destroyed : ((p.recordingDestroy e).recs e).destroyed = true := by
  unfold State.recordingDestroy
  split_ifs with hd
  · exact hd
  · obtain ⟨n, hn⟩ := decrRec_recs (p := p.setRec e { p.recs e with destroyed := true }) (e := e) e
    rw [hn]
    simp

/-- `recordings_remove` of a key that is there drops the first entry under it and marks its
entity destroyed. -/
theorem recordingsRemove_of_find {id : Nat} {x : Nat × Nat}
    (hx : p.recordings.find? (·.1 = id) = some x) :
    (p.recordingsRemove id).recordings = p.recordings.erase x ∧
      ((p.recordingsRemove id).recs x.2).destroyed = true := by
  simp only [State.recordingsRemove, hx]
  exact ⟨by simp, recordingDestroy_destroyed⟩

end Frame

/-! ### Viewers are not taken out of the list -/

/-- The invariant of `viewers` the plugin is meant to keep: each entity lists each of its
viewers once, and a viewer is in `sessions`, is not destroyed, and points to the entity or has
a playout thread on it. -/
def ViewersOk (p : State) : Prop :=
  ∀ e, (p.recs e).viewers.Nodup ∧ ∀ h ∈ (p.recs e).viewers,
    (p.sess h).inMap = true ∧ (p.sess h).destroyed = false ∧
      ((p.sess h).recording = some e ∨ ⟨h, some e⟩ ∈ p.tasks)

/-- A viewer without a playout thread that hangs up for the first time stays in the entity's
`viewers` while it points to no recording any more: `ViewersOk` fails after the hang-up. -/
theorem viewer_hangup_breaks_viewers {p : State} {h e : Nat} (hv : h ∈ (p.recs e).viewers)
    (hm : (p.sess h).inMap) (hd : (p.sess h).destroyed = false) (hg : (p.sess h).hangingup = 0)
    (he : (p.sess h).recording = some e) (ht : ⟨h, some e⟩ ∉ p.tasks) :
    ¬ViewersOk (step p (.hangupMedia h)) := by
  intro hok
  change ViewersOk (p.hangup h) at hok
  have hv' : h ∈ ((p.hangup h).recs e).viewers := by rwa [hangup_viewers]
  rcases ((hok e).2 h hv').2.2 with hr | ht'
  · rw [hangup_recording hm hd hg he] at hr
    cases hr
  · rw [hangup_tasks] at ht'
    exact ht ht'

theorem inv_offered : Inv offered := by
  unfold offered
  exact (inv_init.run _).setRec_same (by decide) (by rfl)

theorem viewer_hangup_breaks_viewers_one :
    ViewersOk (run offered playOne) ∧
    (1 ∈ ((run offered playOne).recs 0).viewers ∧ ((run offered playOne).sess 1).inMap = true ∧
      ((run offered playOne).sess 1).destroyed = false ∧
      ((run offered playOne).sess 1).hangingup = 0 ∧
      ((run offered playOne).sess 1).recording = some 0 ∧
      (⟨1, some 0⟩ : Task) ∉ (run offered playOne).tasks) ∧
    ¬ViewersOk (step (run offered playOne) (.hangupMedia 1)) := by
  have hi : Inv (run offered playOne) := inv_offered.run playOne
  refine ⟨fun e => ?_, ⟨by decide, by decide, by decide, by decide, by decide, by decide⟩,
    @viewer_hangup_breaks_viewers (run offered playOne) 1 0 (by decide) (by decide) (by decide)
      (by decide) (by decide) (by decide)⟩
  rcases Nat.eq_zero_or_pos e with rfl | he
  · decide
  · have hn : (run offered playOne).nextRec = 1 := by decide
    rw [hi.1.recs e (by omega)]
    simp [Recording.none]

/-! ### A hang-up removes the entry under the recording's id -/

/-- A session's first hang-up removes from `recordings` the entry under the id of the session's
recording and marks the entity of that entry destroyed, whether the session recorded the
entity or views it, and whichever entity the entry holds. -/
theorem hangup_removes_by_id {p : State} {h e e' : Nat} (hm : (p.sess h).inMap)
    (hd : (p.sess h).destroyed = false) (hg : (p.sess h).hangingup = 0)
    (he : (p.sess h).recording = some e) (hl : p.lookup (p.recs e).id = some e') :
    (step p (.hangupMedia h)).recordings = p.recordings.erase ((p.recs e).id, e') ∧
      ((step p (.hangupMedia h)).recs e').destroyed = true := by
  obtain ⟨x, hx, rfl⟩ := Option.map_eq_some'.mp hl
  have hx1 : x.1 = (p.recs e).id := by simpa using List.find?_some hx
  obtain ⟨hr1, hr2⟩ := recordingsRemove_of_find
    (p := p.setSess h { p.sess h with active := false, hangingup := 1 }) hx
  change (p.hangup h).recordings = _ ∧ ((p.hangup h).recs x.2).destroyed = true
  rw [hangup_first hm hd hg he, releaseRecording_recordings, releaseRecording_destroyed]
  exact ⟨hr1.trans (by rw [← hx1]; rfl), hr2⟩

/-- Sessions 1 and 2 play the key 5. -/
def playTwo : List Op :=
  playOne ++ [.handleMessage 2 (.async (.play false none false 5 true)), .handler [7] true true]

/-- Session 2 plays 5; session 0, the recorder, hangs up, which removes entity 0; session 1
records anew under the key 5, entity 1. -/
def recreated : List Op :=
  [.handleMessage 2 (.async (.play false none false 5 true)), .handler [7] true true,
    .hangupMedia 0, .handleMessage 1 (.async (.record ⟨true, none, none⟩ false 5 false true)),
    .handler [7] true true]

/-- Viewer 1 hangs up while viewer 2 still plays entity 0, and entity 0 leaves the table and is
destroyed. Viewer 2 of the removed entity 0 hangs up after session 1 recorded entity 1 under
the same key, and entity 1, session 1's live recording, leaves the table and is destroyed. -/
theorem hangup_removes_by_id_five :
    (((run offered playTwo).sess 1).recorder = false ∧
      2 ∈ ((run offered playTwo).recs 0).viewers ∧
      ((run offered playTwo).sess 2).recording = some 0) ∧
    ((((run offered playTwo).sess 1).inMap = true ∧ ((run offered playTwo).sess 1).destroyed = false ∧
        ((run offered playTwo).sess 1).hangingup = 0 ∧
        ((run offered playTwo).sess 1).recording = some 0 ∧
        (run offered playTwo).lookup ((run offered playTwo).recs 0).id = some 0) ∧
      (step (run offered playTwo) (.hangupMedia 1)).recordings =
          (run offered playTwo).recordings.erase (((run offered playTwo).recs 0).id, 0) ∧
        ((step (run offered playTwo) (.hangupMedia 1)).recs 0).destroyed = true) ∧
    (((run offered recreated).sess 1).recording = some 1 ∧
      ((run offered recreated).recs 1).destroyed = false) ∧
    ((((run offered recreated).sess 2).inMap = true ∧
        ((run offered recreated).sess 2).destroyed = false ∧
        ((run offered recreated).sess 2).hangingup = 0 ∧
        ((run offered recreated).sess 2).recording = some 0 ∧
        (run offered recreated).lookup ((run offered recreated).recs 0).id = some 1) ∧
      (step (run offered recreated) (.hangupMedia 2)).recordings =
          (run offered recreated).recordings.erase (((run offered recreated).recs 0).id, 1) ∧
        ((step (run offered recreated) (.hangupMedia 2)).recs 1).destroyed = true) :=
  ⟨⟨by decide, by decide, by decide⟩,
    ⟨⟨by decide, by decide, by decide, by decide, by decide⟩,
      hangup_removes_by_id (by decide) (by decide) (by decide) (by decide) (by decide)⟩,
    ⟨by decide, by decide⟩,
    ⟨⟨by decide, by decide, by decide, by decide, by decide⟩,
      hangup_removes_by_id (by decide) (by decide) (by decide) (by decide) (by decide)⟩⟩

end AuviousRecordPlay.Hangup

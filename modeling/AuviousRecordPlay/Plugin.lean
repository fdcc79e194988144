import Mathlib.Data.List.Count
import Mathlib.Logic.Function.Basic

/-!
# The plugin's sessions and recordings (janus_auviousrecordplay.c:372-454, 780-1230, 1232-1918, 2231-2502)

The reference-counted objects of the plugin and every operation that takes or
drops a reference: `create_session`, `handle_message` (with the `list`
request and the queueing of the asynchronous ones), the handler thread's
processing of `record`, `record-process-answer`, `record-generate-offer`,
`play`, `start` and `stop`, `setup_media`, `hangup_media`,
`destroy_session`, `query_session`, and the start and the exit of a playout
thread.

Handles are the numbers `0, 1, ...` in creation order (the core gives each
session a new handle), recording entities the numbers `0, 1, ...` in
allocation order. A `janus_refcount_increase` or `_decrease` on a count of
0, an object already freed, sets `fault`. What the JSON and SDP libraries,
the recordings' files and the thread library decide is an input of the
operation. Each operation runs to its end before the next starts.
-/

namespace AuviousRecordPlay.Plugin

/-- A `janus_auviousrecordplay_session`: the fields the modelled operations read and write. -/
structure Session where
  /-- In the `sessions` table. -/
  inMap : Bool
  ref : Nat
  destroyed : Bool
  hangingup : Nat
  active : Bool
  recorder : Bool
  /-- The entity `recording` points to. -/
  recording : Option Nat
  /-- `aframes` is not `NULL`. -/
  aframes : Bool
  /-- `vframes` is not `NULL`. -/
  vframes : Bool
  sdpVersion : Nat
  deriving DecidableEq

/-- The memory of a handle no session was created for. -/
def Session.none : Session := ⟨false, 0, false, 0, false, false, .none, false, false, 0⟩

/-- A `janus_auviousrecordplay_recording`: the fields the modelled operations read and write. -/
structure Recording where
  /-- The key in the `recordings` table. -/
  id : Nat
  ref : Nat
  destroyed : Bool
  completed : Bool
  /-- `offer` is not `NULL`. -/
  offer : Bool
  /-- `arc_file` is not `NULL`. -/
  arcFile : Bool
  /-- `vrc_file` is not `NULL`. -/
  vrcFile : Bool
  /-- The sessions in `viewers`, as handles, in list order. -/
  viewers : List Nat
  deriving DecidableEq

/-- The memory of an entity not yet allocated. -/
def Recording.none : Recording := ⟨0, 0, false, false, false, false, false, []⟩

/-- What the JSON and SDP libraries decide about a `record` or `record-process-answer` request
before it changes anything: whether the jsep carries an SDP of the expected type, what
`JANUS_VALIDATE_JSON_OBJECT` reports (its code and cause), and the error text of
`janus_sdp_parse` when it fails. -/
structure Checks where
  sdp : Bool
  json : Option (Nat × String)
  parse : Option String
  deriving DecidableEq

/-- An asynchronous request as the handler thread reads it. `update` is `sdp_update`, `id` the
requested recording id (0 when absent), `audio` and `video` whether a codec was found for the
track. A `play` carries whether the message has an SDP, what the validation of its parameters
reports, `restart` (`sdp_update || do_restart`) and whether the stored offer parses; a `start`
whether the message has an SDP; an unknown request its text. -/
inductive Request
  | record (c : Checks) (update : Bool) (id : Nat) (audio video : Bool)
  | recordProcessAnswer (c : Checks) (update doUpdate : Bool) (id : Nat) (audio video : Bool)
  | recordGenerateOffer
  | play (sdp : Bool) (json : Option (Nat × String)) (restart : Bool) (id : Nat) (offerOk : Bool)
  | start (sdp : Bool)
  | stop
  | unknown (text : String)
  deriving DecidableEq

/-- The event the handler pushes for a request (lines 1892-1914): a `result` (its `status` and
its `id`; the one of `record-generate-offer` has neither) with or without a jsep, or an error
with its `error_code` and `error`. -/
inductive Reply
  | event (result : Option (String × Option Nat)) (jsep : Bool)
  | error (code : Nat) (cause : String)
  deriving DecidableEq

/-! The error codes (lines 646-656). -/

def errorInvalidRequest : Nat := 413
def errorInvalidElement : Nat := 414
def errorMissingElement : Nat := 415
def errorNotFound : Nat := 416
def errorInvalidRecording : Nat := 417
def errorInvalidState : Nat := 418
def errorInvalidSdp : Nat := 419
def errorRecordingExists : Nat := 420

/-- The checks of `record` (lines 1290-1310, `kind` "offer") and of `record-process-answer`
(lines 1673-1693, `kind` "answer"), in their order. -/
def sdpChecks (kind : String) (c : Checks) : Option (Nat × String) :=
  if ¬c.sdp then some (errorMissingElement, "Missing SDP " ++ kind)
  else match c.json with
    | some err => some err
    | none => c.parse.map fun err => (errorInvalidSdp, "Error parsing " ++ kind ++ ": " ++ err)

/-- The checks of `play` (lines 1483-1494). -/
def playChecks (sdp : Bool) (json : Option (Nat × String)) : Option (Nat × String) :=
  if sdp then some (errorInvalidElement, "A play request can\x27t contain an SDP") else json

/-- A request to `handle_message`: `list`, one of the other requests answered at once (`update`,
`configure`, an unknown or an invalid one), or one queued for the handler thread. -/
inductive Message
  | list
  | sync
  | async (req : Request)
  deriving DecidableEq

/-- A playout thread: its session and, once it has started, the recording it took a
reference on. -/
structure Task where
  session : Nat
  recording : Option Nat
  deriving DecidableEq

/-- The plugin's state. -/
structure State where
  sess : Nat → Session
  nextHandle : Nat
  recs : Nat → Recording
  nextRec : Nat
  /-- The `recordings` table: key and entity. -/
  recordings : List (Nat × Nat)
  /-- The `messages` queue: handle and request. -/
  messages : List (Nat × Request)
  tasks : List Task
  fault : Bool

/-- The plugin after `janus_auviousrecordplay_init`. -/
def State.init : State := ⟨fun _ => .none, 0, fun _ => .none, 0, [], [], [], false⟩

namespace State

variable (p : State)

/-! ### Reference counts -/

def setSess (h : Nat) (s : Session) : State := { p with sess := Function.update p.sess h s }

def setRec (e : Nat) (r : Recording) : State := { p with recs := Function.update p.recs e r }

section Simp

variable {h : Nat} {s : Session} {e : Nat} {r : Recording}

@[simp] theorem setSess_sess : (p.setSess h s).sess = Function.update p.sess h s := rfl
@[simp] theorem setSess_recs : (p.setSess h s).recs = p.recs := rfl
@[simp] theorem setSess_nextHandle : (p.setSess h s).nextHandle = p.nextHandle := rfl
@[simp] theorem setSess_nextRec : (p.setSess h s).nextRec = p.nextRec := rfl
@[simp] theorem setSess_recordings : (p.setSess h s).recordings = p.recordings := rfl
@[simp] theorem setSess_messages : (p.setSess h s).messages = p.messages := rfl
@[simp] theorem setSess_tasks : (p.setSess h s).tasks = p.tasks := rfl
@[simp] theorem setSess_fault : (p.setSess h s).fault = p.fault := rfl
@[simp] theorem setRec_sess : (p.setRec e r).sess = p.sess := rfl
@[simp] theorem setRec_recs : (p.setRec e r).recs = Function.update p.recs e r := rfl
@[simp] theorem setRec_nextHandle : (p.setRec e r).nextHandle = p.nextHandle := rfl
@[simp] theorem setRec_nextRec : (p.setRec e r).nextRec = p.nextRec := rfl
@[simp] theorem setRec_recordings : (p.setRec e r).recordings = p.recordings := rfl
@[simp] theorem setRec_messages : (p.setRec e r).messages = p.messages := rfl
@[simp] theorem setRec_tasks : (p.setRec e r).tasks = p.tasks := rfl
@[simp] theorem setRec_fault : (p.setRec e r).fault = p.fault := rfl

end Simp

/-- `janus_refcount_increase(&session->ref)`. -/
def incrSess (h : Nat) : State :=
  if (p.sess h).ref = 0 then { p with fault := true }
  else p.setSess h { p.sess h with ref := (p.sess h).ref + 1 }

/-- `janus_refcount_decrease(&session->ref)`. -/
def decrSess (h : Nat) : State :=
  if (p.sess h).ref = 0 then { p with fault := true }
  else p.setSess h { p.sess h with ref := (p.sess h).ref - 1 }

/-- `janus_refcount_increase(&rec->ref)`. -/
def incrRec (e : Nat) : State :=
  if (p.recs e).ref = 0 then { p with fault := true }
  else p.setRec e { p.recs e with ref := (p.recs e).ref + 1 }

/-- `janus_refcount_decrease(&rec->ref)`. -/
def decrRec (e : Nat) : State :=
  if (p.recs e).ref = 0 then { p with fault := true }
  else p.setRec e { p.recs e with ref := (p.recs e).ref - 1 }

section Counts

variable {p} {h e : Nat}

theorem incrSess_of_pos (h0 : 0 < (p.sess h).ref) :
    p.incrSess h = p.setSess h { p.sess h with ref := (p.sess h).ref + 1 } := by
  simp [incrSess, Nat.pos_iff_ne_zero.mp h0]

theorem decrSess_of_pos (h0 : 0 < (p.sess h).ref) :
    p.decrSess h = p.setSess h { p.sess h with ref := (p.sess h).ref - 1 } := by
  simp [decrSess, Nat.pos_iff_ne_zero.mp h0]

theorem incrRec_of_pos (h0 : 0 < (p.recs e).ref) :
    p.incrRec e = p.setRec e { p.recs e with ref := (p.recs e).ref + 1 } := by
  simp [incrRec, Nat.pos_iff_ne_zero.mp h0]

theorem decrRec_of_pos (h0 : 0 < (p.recs e).ref) :
    p.decrRec e = p.setRec e { p.recs e with ref := (p.recs e).ref - 1 } := by
  simp [decrRec, Nat.pos_iff_ne_zero.mp h0]

/-- A reference taken and dropped again leaves the session as it was. -/
theorem incrSess_decrSess (h0 : 0 < (p.sess h).ref) : (p.incrSess h).decrSess h = p := by
  rw [incrSess_of_pos h0, decrSess_of_pos (by simp)]
  cases p
  simp [setSess, Function.update_idem, Function.update_eq_self]

/-- A reference taken and dropped again leaves the recording as it was. -/
theorem incrRec_decrRec (h0 : 0 < (p.recs e).ref) : (p.incrRec e).decrRec e = p := by
  rw [incrRec_of_pos h0, decrRec_of_pos (by simp)]
  cases p
  simp [setRec, Function.update_idem, Function.update_eq_self]

end Counts

/-! ### The tables -/

/-- `g_hash_table_lookup(recordings, &id)`. -/
def lookup (id : Nat) : Option Nat := (p.recordings.find? (·.1 = id)).map (·.2)

/-- `janus_auviousrecordplay_recording_destroy` (lines 434-437), the value destructor of
`recordings`. -/
def recordingDestroy (e : Nat) : State :=
  if (p.recs e).destroyed then p else (p.setRec e { p.recs e with destroyed := true }).decrRec e

/-- `janus_auviousrecordplay_recordings_remove` (lines 1176-1182). -/
def recordingsRemove (id : Nat) : State :=
  match p.recordings.find? (·.1 = id) with
  | none => p
  | some x => { p with recordings := p.recordings.erase x }.recordingDestroy x.2

/-- `g_hash_table_remove(sessions, handle)` with its value destructor
`janus_auviousrecordplay_session_destroy` (lines 420-423). -/
def sessionsRemove (h : Nat) : State :=
  let p := p.setSess h { p.sess h with inMap := false }
  if (p.sess h).destroyed then p else (p.setSess h { p.sess h with destroyed := true }).decrSess h

/-- The session lets its recording go: `janus_refcount_decrease(&session->recording->ref);
session->recording = NULL;` (lines 1226-1227). -/
def releaseRecording (h e : Nat) : State :=
  let p := p.decrRec e
  p.setSess h { p.sess h with recording := none }

/-- A new recording entity for session `h` under the key `id` (lines 1369-1436): its count
is 1 for the table and 1 "for the user writing the recording", it has no offer and no viewers;
`session->recording` is overwritten and `sdp_version` is 1. -/
def newRecording (h id : Nat) (audio video : Bool) : State :=
  let e := p.nextRec
  let p := { p with
    recs := Function.update p.recs e ⟨id, 2, false, false, false, audio, video, []⟩,
    nextRec := e + 1, recordings := p.recordings ++ [(id, e)] }
  p.setSess h { p.sess h with recorder := true, recording := some e, sdpVersion := 1 }

/-- An event with a JSEP pushed to the session: `hangingup` is reset (line 1895). -/
def answered (h : Nat) : State := p.setSess h { p.sess h with hangingup := 0 }

/-! ### The operations -/

/-- `janus_auviousrecordplay_hangup_media_internal` (lines 1184-1230). -/
def hangup (h : Nat) : State :=
  let s := p.sess h
  if ¬s.inMap then p
  else if s.destroyed then p.setSess h { s with active := false }
  else if s.hangingup ≠ 0 then p.setSess h { s with active := false, hangingup := s.hangingup + 1 }
  else
    let p := p.setSess h { s with active := false, hangingup := 1 }
    match s.recording with
    | none => p
    | some e => (p.recordingsRemove (p.recs e).id).releaseRecording h e

/-- `janus_auviousrecordplay_create_session` (lines 788-817): the next handle. -/
def createSession : State :=
  let s : Session := ⟨true, 1, false, 0, false, false, none, false, false, 0⟩
  { p with sess := Function.update p.sess p.nextHandle s, nextHandle := p.nextHandle + 1 }

/-- The `list` request (lines 921-948): a reference on each completed recording while it is
listed. -/
def listRecordings : State :=
  p.recordings.foldl (fun p x => if (p.recs x.2).completed then (p.incrRec x.2).decrRec x.2 else p) p

/-- `janus_auviousrecordplay_handle_message` (lines 867-1023). -/
def handleMessage (h : Nat) (m : Message) : State :=
  if ¬(p.sess h).inMap then p
  else
    let p := p.incrSess h
    if (p.sess h).destroyed then p.decrSess h
    else match m with
      | .list => p.listRecordings.decrSess h
      | .sync => p.decrSess h
      | .async req => { p with messages := p.messages ++ [(h, req)] }

/-- The loop of lines 1360-1367 (and 1743-1750): the first of the random draws that is not 0
and not a key of `recordings`; `none` while the loop has not found one. -/
def randomId (draws : List Nat) : Option Nat :=
  draws.find? fun id => id ≠ 0 ∧ p.lookup id = none

/-- An SDP update of the session's own recording (lines 1326-1341, 1709-1724): `sdp_version`
goes up; `answer` is whether an SDP answer goes with the event. -/
def updateRecorder (h : Nat) (answer : Bool) : State × Reply :=
  let s := p.sess h
  match s.recording, s.recorder with
  | some e, true =>
    (p.setSess h { s with sdpVersion := s.sdpVersion + 1 },
      .event (some ("recording", some (p.recs e).id)) answer)
  | _, _ => (p, .error errorInvalidState "Not a recording session, can\x27t update")

/-- A new recording (lines 1343-1439, 1726-1822): a requested `id` must not be taken; without
one, the loop draws the key. `answer` is whether an SDP answer goes with the event. -/
def startRecording (h id : Nat) (draws : List Nat) (audio video answer : Bool) :
    Option (State × Reply) :=
  if 0 < id ∧ (p.lookup id).isSome then
    some (p, .error errorRecordingExists ("Recording " ++ toString id ++ " already exists"))
  else (if 0 < id then some id else p.randomId draws).map fun k =>
    (p.newRecording h k audio video, .event (some ("recording", some k)) answer)

/-- `record` (lines 1290-1481, `kind` "offer") and `record-process-answer` (lines 1673-1862,
`kind` "answer"): the checks, then an update of the session's recording or a new recording;
`answerUpdate` and `answerNew` are whether each of the two sends an SDP answer. -/
def record (h : Nat) (kind : String) (c : Checks) (update answerUpdate answerNew : Bool)
    (id : Nat) (draws : List Nat) (audio video : Bool) : Option (State × Reply) :=
  match sdpChecks kind c with
  | some (code, cause) => some (p, .error code cause)
  | none =>
    if update then some (p.updateRecorder h answerUpdate)
    else p.startRecording h id draws audio video answerNew

/-- The `play` request after its checks (lines 1495-1588); `offerOk` is whether the stored offer
parses, `aOk` and `vOk` whether `get_frames` gave a list for the audio and the video file. -/
def play (h : Nat) (restart : Bool) (id : Nat) (offerOk aOk vOk : Bool) : State × Reply :=
  let s := p.sess h
  if restart then
    match s.recording with
    | none => (p, .error errorInvalidState "Not a playout session, can\x27t restart")
    | some e =>
      if s.recorder ∨ ¬(p.recs e).offer then
        (p, .error errorInvalidState "Not a playout session, can\x27t restart")
      else
        let p := p.setSess h { s with sdpVersion := s.sdpVersion + 1 }
        if offerOk then (p, .event (some ("restarting", some (p.recs e).id)) true)
        else (p, .error errorInvalidState "Invalid, can\x27t restart")
  else
    match p.lookup id with
    | none => (p, .error errorNotFound "No such recording")
    | some e =>
      let p := p.incrRec e
      if ¬(p.recs e).offer ∨ (p.recs e).destroyed then
        (p.decrRec e, .error errorNotFound "No such recording")
      else
        let af := if (p.recs e).arcFile then aOk else s.aframes
        let vf := if (p.recs e).vrcFile then vOk else s.vframes
        let p := p.setSess h { p.sess h with aframes := af, vframes := vf }
        if ¬af ∧ ¬vf then (p, .error errorInvalidRecording "Error opening recording files")
        else
          let p := p.setSess h { p.sess h with recording := some e, recorder := false }
          (p.setRec e { p.recs e with viewers := (p.recs e).viewers ++ [h] },
            .event (some ("preparing", some id)) true)

/-- The handler's branch for the request `req` of the live session `h` (lines 1263-1891), up to
the event; `none` while the loop drawing a recording id has not ended. -/
def process (h : Nat) (req : Request) (draws : List Nat) (aOk vOk : Bool) :
    Option (State × Reply) :=
  let s := p.sess h
  match req with
  | .record c update id audio video => p.record h "offer" c update true true id draws audio video
  | .recordProcessAnswer c update doUpdate id audio video =>
    p.record h "answer" c update doUpdate false id draws audio video
  | .recordGenerateOffer => some (p, .event none true)
  | .play sdp json restart id offerOk =>
    match playChecks sdp json with
    | some (code, cause) => some (p, .error code cause)
    | none => some (p.play h restart id offerOk aOk vOk)
  | .start sdp =>
    if ¬s.aframes ∧ ¬s.vframes then
      some (p, .error errorInvalidState "Not a playout session, can\x27t start")
    else if ¬sdp then some (p, .error errorMissingElement "Missing SDP answer")
    else some (p, .event (some ("playing", none)) false)
  | .stop => some (p.hangup h, .event (some ("stopped", s.recording.map fun e => (p.recs e).id)) false)
  | .unknown text => some (p, .error errorInvalidRequest ("Unknown request \x27" ++ text ++ "\x27"))

/-- The event is pushed (lines 1892-1913); with a jsep, `hangingup` is reset first. -/
def push (h : Nat) : Reply → State
  | .event _ true => p.answered h
  | _ => p

/-- The handler on the request `req` of the live session `h`: its branch, then the event. -/
def handle (h : Nat) (req : Request) (draws : List Nat) (aOk vOk : Bool) :
    Option (State × Reply) :=
  (p.process h req draws aOk vOk).map fun r => (r.1.push h r.2, r.2)

/-- `janus_auviousrecordplay_message_free` (lines 622-640) on the message at the head of the
queue. -/
def messageFree : State :=
  match p.messages with
  | [] => p
  | (h, _) :: rest => { p with messages := rest }.decrSess h

/-- One iteration of `janus_auviousrecordplay_handler` (lines 1238-1916) on the message at the
head of the queue; `draws` are the random numbers the loop drawing a recording id reads. While
that loop has not ended the message stays at the head. -/
def handler (draws : List Nat) (aOk vOk : Bool) : State :=
  match p.messages with
  | [] => p
  | (h, req) :: _ =>
    if (p.sess h).inMap ∧ ¬(p.sess h).destroyed then
      match p.handle h req draws aOk vOk with
      | some r => r.1.messageFree
      | none => p
    else p.messageFree

/-- `janus_auviousrecordplay_setup_media` (lines 1025-1059); `threadOk` is whether the playout
thread could be created. -/
def setupMedia (h : Nat) (threadOk : Bool) : State :=
  if ¬(p.sess h).inMap ∨ (p.sess h).destroyed then p
  else
    let p := p.incrSess h
    let p := p.setSess h { p.sess h with hangingup := 0, active := true }
    let p :=
      if (p.sess h).recorder then p
      else if threadOk then { p.incrSess h with tasks := (p.incrSess h).tasks ++ [⟨h, none⟩] }
      else (p.incrSess h).decrSess h
    p.decrSess h

/-- `janus_auviousrecordplay_destroy_session` (lines 819-837). -/
def destroySession (h : Nat) : State :=
  if ¬(p.sess h).inMap then p else (p.hangup h).sessionsRemove h

/-- `janus_auviousrecordplay_query_session` (lines 839-865). -/
def querySession (h : Nat) : State :=
  if ¬(p.sess h).inMap then p
  else
    let p := p.incrSess h
    let p := match (p.sess h).recording with
      | none => p
      | some e => (p.incrRec e).decrRec e
    p.decrSess h

/-- The end of a playout thread: `t` leaves the list of threads and its references go. -/
def endTask (t : Task) (e : Nat) : State :=
  ({ p with tasks := p.tasks.erase t }.decrRec e).decrSess t.session

/-- The start of the playout thread `t` (lines 2231-2292); `afileOk` and `vfileOk` are whether
the audio and the video file could be opened. -/
def playoutStart (t : Task) (afileOk vfileOk : Bool) : State :=
  let s := p.sess t.session
  match s.recording with
  | none => { p with tasks := p.tasks.erase t }.decrSess t.session
  | some e =>
    let p := p.incrRec e
    if s.recorder ∨ (¬s.aframes ∧ ¬s.vframes) ∨ (s.aframes ∧ ¬afileOk) ∨ (s.vframes ∧ ¬vfileOk) then
      p.endTask t e
    else { p with tasks := (p.tasks.erase t) ++ [⟨t.session, some e⟩] }

/-- The exit of the running playout thread `t` (lines 2464-2501): the index lists are freed and
`aframes`, `vframes` set to `NULL`, and the session leaves the recording's `viewers`
(`g_list_remove` drops its first occurrence). -/
def playoutExit (t : Task) (e : Nat) : State :=
  let p := p.setSess t.session { p.sess t.session with aframes := false, vframes := false }
  (p.setRec e { p.recs e with viewers := (p.recs e).viewers.erase t.session }).endTask t e

/-! ### What the operations leave alone -/

section Frame

variable {p} {h e id : Nat}

@[simp] theorem incrRec_sess : (p.incrRec e).sess = p.sess := by unfold incrRec; split <;> rfl
@[simp] theorem decrRec_sess : (p.decrRec e).sess = p.sess := by unfold decrRec; split <;> rfl
@[simp] theorem incrRec_tasks : (p.incrRec e).tasks = p.tasks := by unfold incrRec; split <;> rfl
@[simp] theorem incrRec_nextHandle : (p.incrRec e).nextHandle = p.nextHandle := by
  unfold incrRec; split <;> rfl
@[simp] theorem incrSess_nextHandle : (p.incrSess h).nextHandle = p.nextHandle := by
  unfold incrSess; split <;> rfl
@[simp] theorem decrRec_tasks : (p.decrRec e).tasks = p.tasks := by unfold decrRec; split <;> rfl
@[simp] theorem incrSess_recs : (p.incrSess h).recs = p.recs := by unfold incrSess; split <;> rfl
@[simp] theorem decrSess_recs : (p.decrSess h).recs = p.recs := by unfold decrSess; split <;> rfl
@[simp] theorem incrSess_recordings : (p.incrSess h).recordings = p.recordings := by
  unfold incrSess; split <;> rfl
@[simp] theorem decrSess_recordings : (p.decrSess h).recordings = p.recordings := by
  unfold decrSess; split <;> rfl
@[simp] theorem incrRec_recordings : (p.incrRec e).recordings = p.recordings := by
  unfold incrRec; split <;> rfl
@[simp] theorem decrRec_recordings : (p.decrRec e).recordings = p.recordings := by
  unfold decrRec; split <;> rfl
@[simp] theorem recordingsRemove_sess : (p.recordingsRemove id).sess = p.sess := by
  unfold recordingsRemove recordingDestroy; split <;> (try split) <;> simp
@[simp] theorem recordingsRemove_tasks : (p.recordingsRemove id).tasks = p.tasks := by
  unfold recordingsRemove recordingDestroy; split <;> (try split) <;> simp

/-- Taking a reference changes a recording's count and nothing else. -/
theorem incrRec_recs (e' : Nat) : ∃ n, (p.incrRec e).recs e' = { p.recs e' with ref := n } := by
  unfold incrRec
  split
  · exact ⟨_, rfl⟩
  · by_cases he : e' = e
    · subst he; exact ⟨_, Function.update_same _ _ _⟩
    · exact ⟨(p.recs e').ref, Function.update_noteq he _ _⟩

/-- Dropping a reference changes a recording's count and nothing else. -/
theorem decrRec_recs (e' : Nat) : ∃ n, (p.decrRec e).recs e' = { p.recs e' with ref := n } := by
  unfold decrRec
  split
  · exact ⟨_, rfl⟩
  · by_cases he : e' = e
    · subst he; exact ⟨_, Function.update_same _ _ _⟩
    · exact ⟨(p.recs e').ref, Function.update_noteq he _ _⟩

/-- A hang-up leaves every session in or out of the `sessions` table. -/
theorem hangup_inMap (h' : Nat) : ((p.hangup h).sess h').inMap = (p.sess h').inMap := by
  simp only [hangup, releaseRecording]
  split_ifs <;> (try split) <;> simp [Function.update_apply] <;> split_ifs <;> simp_all

end Frame

end State

/-- The operations of the plugin, with the outcomes the environment decides. -/
inductive Op
  | createSession
  | handleMessage (h : Nat) (m : Message)
  | handler (draws : List Nat) (aOk vOk : Bool)
  | setupMedia (h : Nat) (threadOk : Bool)
  | hangupMedia (h : Nat)
  | destroySession (h : Nat)
  | querySession (h : Nat)
  | playoutStart (t : Task) (afileOk vfileOk : Bool)
  | playoutExit (t : Task)
  deriving DecidableEq

/-- One operation. A playout thread that has not started yet is the one to start, a running one
the one to exit. -/
def step (p : State) : Op → State
  | .createSession => p.createSession
  | .handleMessage h m => p.handleMessage h m
  | .handler draws aOk vOk => p.handler draws aOk vOk
  | .setupMedia h threadOk => p.setupMedia h threadOk
  | .hangupMedia h => p.hangup h
  | .destroySession h => p.destroySession h
  | .querySession h => p.querySession h
  | .playoutStart t afileOk vfileOk =>
    if t ∈ p.tasks ∧ t.recording = none then p.playoutStart t afileOk vfileOk else p
  | .playoutExit t =>
    match t.recording with
    | some e => if t ∈ p.tasks then p.playoutExit t e else p
    | none => p

/-- When an operation can happen: the handler's random draws hold a fresh non-zero key, on
which the loop of lines 1360-1367 ends. -/
def Enabled (p : State) : Op → Prop
  | .handler draws _ _ => (p.randomId draws).isSome
  | _ => True

instance (p : State) (op : Op) : Decidable (Enabled p op) :=
  match op with
  | .handler draws _ _ => inferInstanceAs (Decidable ((p.randomId draws).isSome = true))
  | .createSession | .handleMessage .. | .setupMedia .. | .hangupMedia _ | .destroySession _
  | .querySession _ | .playoutStart .. | .playoutExit _ => isTrue trivial

/-- The operations run one after the other. -/
def run (p : State) : List Op → State
  | [] => p
  | op :: ops => run (step p op) ops

/-- Each operation can happen in the state the ones before it leave. -/
def Admissible (p : State) : List Op → Prop
  | [] => True
  | op :: ops => Enabled p op ∧ Admissible (step p op) ops

instance decAdmissible (p : State) : (ops : List Op) → Decidable (Admissible p ops)
  | [] => isTrue trivial
  | op :: ops =>
    have := decAdmissible (step p op) ops
    inferInstanceAs (Decidable (Enabled p op ∧ Admissible (step p op) ops))

end AuviousRecordPlay.Plugin

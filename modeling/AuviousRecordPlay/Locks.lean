import AuviousRecordPlay.Plugin

/-!
# The plugin's mutexes across threads (janus_auviousrecordplay.c:391, 418, 788-1059, 1143-1260, 1344-1439, 1533-1537, 1727-1822, 2489-2492)

The core calls the plugin from threads of its own, the handler thread serves the queue of
messages and each playout runs on a thread of its own. What a call does to the mutexes is the
sequence of `janus_mutex_lock` and `janus_mutex_unlock` it performs; which branch it takes is
read off the plugin's state as `Plugin` models it. The threads interleave at every lock and
unlock. A mutex has at most one owner; a lock waits while the mutex is owned, also by the
caller itself (the mutexes are not recursive), and only the owner unlocks.

Every call keeps one discipline: it releases each mutex before it takes the next, except that
`recordings_mutex` and the per-object mutexes are taken and released while `sessions_mutex` is
held. Under it every run can be completed. The exception is `handle_message` on a handle that
is not in the `sessions` table: it takes `sessions_mutex` and returns through
`plugin_response` without releasing it (lines 877-884), and from then on no call gets
`sessions_mutex` again.
-/

namespace AuviousRecordPlay.Locks

open Plugin

/-- The mutexes: `sessions_mutex` and `recordings_mutex`, a session's `rec_mutex` and a
recording's `mutex`. -/
inductive Mutex
  | sessions
  | recordings
  | recMutex (h : Nat)
  | recording (e : Nat)
  deriving DecidableEq

/-- A `janus_mutex_lock` or a `janus_mutex_unlock`. -/
inductive Act
  | lock (m : Mutex)
  | unlock (m : Mutex)
  deriving DecidableEq

/-! ### What each call does to the mutexes -/

section Calls

variable (p : State)

/-- `janus_auviousrecordplay_hangup_media_internal` (lines 1184-1229): the session's
`rec_mutex` around the closing of its recorders, then `recordings_mutex` in
`recordings_remove` (lines 1176-1182) when the session has a recording. -/
def hangupMediaInternal (h : Nat) : List Act :=
  let s := p.sess h
  if ¬s.inMap ∨ s.destroyed ∨ s.hangingup ≠ 0 then []
  else [.lock (.recMutex h), .unlock (.recMutex h)] ++
    if s.recording.isSome then [.lock .recordings, .unlock .recordings] else []

/-- `janus_auviousrecordplay_hangup_media` (lines 1169-1174). -/
def hangupMedia (h : Nat) : List Act :=
  .lock .sessions :: (hangupMediaInternal p h ++ [.unlock .sessions])

/-- `janus_auviousrecordplay_create_session` (lines 788-817). -/
def createSession : List Act := [.lock .sessions, .unlock .sessions]

/-- `janus_auviousrecordplay_destroy_session` (lines 819-837). -/
def destroySession (h : Nat) : List Act :=
  if ¬(p.sess h).inMap then [.lock .sessions, .unlock .sessions]
  else .lock .sessions :: (hangupMediaInternal p h ++ [.unlock .sessions])

/-- `janus_auviousrecordplay_query_session` (lines 839-865): both branches release the mutex. -/
def querySession : List Act := [.lock .sessions, .unlock .sessions]

/-- `janus_auviousrecordplay_handle_message` (lines 867-1023). A handle that is not in the
`sessions` table goes to `plugin_response` with `sessions_mutex` still held; `list` holds
`recordings_mutex` while it walks the table. -/
def handleMessage (h : Nat) (m : Message) : List Act :=
  if ¬(p.sess h).inMap then [.lock .sessions]
  else [.lock .sessions, .unlock .sessions] ++
    if ¬(p.sess h).destroyed ∧ m = .list then [.lock .recordings, .unlock .recordings] else []

/-- `janus_auviousrecordplay_setup_media` (lines 1025-1059): each of the three branches releases
the mutex before the rest of the call. -/
def setupMedia : List Act := [.lock .sessions, .unlock .sessions]

/-- `janus_auviousrecordplay_slow_link` (lines 1143-1167). -/
def slowLink : List Act := [.lock .sessions, .unlock .sessions]

/-- The handler's branch for a request (lines 1263-1891): a new recording holds
`recordings_mutex` from the check of the requested id to its insertion, a new playout around
the lookup of the recording, and `stop` calls `hangup_media`. -/
def process (h : Nat) : Request → List Act
  | .record c update .. =>
    if (sdpChecks "offer" c).isNone ∧ ¬update then [.lock .recordings, .unlock .recordings]
    else []
  | .recordProcessAnswer c update .. =>
    if (sdpChecks "answer" c).isNone ∧ ¬update then [.lock .recordings, .unlock .recordings]
    else []
  | .play sdp json restart .. =>
    if (playChecks sdp json).isNone ∧ ¬restart then [.lock .recordings, .unlock .recordings]
    else []
  | .stop => hangupMedia p h
  | .recordGenerateOffer | .start _ | .unknown _ => []

/-- One iteration of `janus_auviousrecordplay_handler` (lines 1238-1916) on the message at the
head of the queue: `sessions_mutex` around the lookup of its session (every branch releases
it), then the request's branch when the session is live. -/
def handler : List Act :=
  match p.messages with
  | [] => []
  | (h, req) :: _ =>
    [.lock .sessions, .unlock .sessions] ++
      if (p.sess h).inMap ∧ ¬(p.sess h).destroyed then process p h req else []

/-- `janus_auviousrecordplay_destroy` (lines 728-750): once the handler thread has taken the
exit message and ended, `sessions_mutex` around the freeing of the two tables. -/
def destroy : List Act := [.lock .sessions, .unlock .sessions]

/-- The exit of a playout thread (lines 2489-2492): the recording's `mutex` around its removal
from `viewers`. -/
def playoutExit (e : Nat) : List Act := [.lock (.recording e), .unlock (.recording e)]

end Calls

/-- A call into the plugin: an operation of `Plugin`, or `slow_link` or the plugin's shutdown,
which change none of the modelled state. -/
inductive Call
  | op (o : Op)
  | slowLink (h : Nat)
  | destroy

/-- The mutex operations of a call whose branches read the plugin's state `p`. -/
def Call.locks (p : State) : Call → List Act
  | .op .createSession => createSession
  | .op (.handleMessage h m) => handleMessage p h m
  | .op (.handler ..) => handler p
  | .op (.setupMedia ..) => setupMedia
  | .op (.hangupMedia h) => hangupMedia p h
  | .op (.destroySession h) => destroySession p h
  | .op (.querySession _) => querySession
  | .op (.playoutStart ..) => []
  | .op (.playoutExit t) =>
    match t.recording with
    | some e => if t ∈ p.tasks then playoutExit e else []
    | none => []
  | .slowLink _ => Locks.slowLink
  | .destroy => Locks.destroy

/-- A call of `handle_message` on a handle that is not in the `sessions` table. -/
def Call.stale (p : State) : Call → Bool
  | .op (.handleMessage h _) => !(p.sess h).inMap
  | _ => false

/-! ### Threads -/

/-- The owner of each mutex, and what each thread has left of its current call. -/
structure Config where
  owner : Mutex → Option Nat
  rest : Nat → List Act

/-- No mutex owned, no thread in a call. -/
def Config.idle : Config := ⟨fun _ => none, fun _ => []⟩

/-- A move: thread `i`, done with its last call, calls `c` with its branches read off the plugin
state `p`; or thread `i` performs its next lock or unlock. -/
inductive Move
  | call (i : Nat) (p : State) (c : Call)
  | act (i : Nat)

namespace Config

variable (k : Config)

/-- One move; `none` when the thread is still in a call (for `call`), or has nothing left,
waits on an owned mutex, or unlocks one it does not own (for `act`). -/
def step : Move → Option Config
  | .call i p c =>
    if k.rest i = [] then some { k with rest := Function.update k.rest i (c.locks p) } else none
  | .act i =>
    match k.rest i with
    | [] => none
    | .lock m :: r =>
      if k.owner m = none then
        some ⟨Function.update k.owner m (some i), Function.update k.rest i r⟩
      else none
    | .unlock m :: r =>
      if k.owner m = some i then
        some ⟨Function.update k.owner m none, Function.update k.rest i r⟩
      else none

/-- A schedule of moves; a move that cannot happen when its turn comes is skipped. -/
def run : Config → List Move → Config
  | k, [] => k
  | k, mv :: mvs => run ((k.step mv).getD k) mvs

variable {k} {k' : Config} {i : Nat} {m : Mutex} {r : List Act}

theorem step_call_cases {p : State} {c : Call} (h : k.step (.call i p c) = some k') :
    k.rest i = [] ∧ k' = { k with rest := Function.update k.rest i (c.locks p) } := by
  simp only [step] at h
  split at h
  · exact ⟨‹_›, (Option.some.inj h).symm⟩
  · cases h

/-- What a lock or an unlock can do. -/
theorem step_act_cases (h : k.step (.act i) = some k') :
    (∃ m r, k.rest i = .lock m :: r ∧ k.owner m = none ∧
      k' = ⟨Function.update k.owner m (some i), Function.update k.rest i r⟩) ∨
    (∃ m r, k.rest i = .unlock m :: r ∧ k.owner m = some i ∧
      k' = ⟨Function.update k.owner m none, Function.update k.rest i r⟩) := by
  simp only [step] at h
  split at h
  · cases h
  · rename_i m r hr
    split at h
    · cases h
      exact .inl ⟨m, r, hr, ‹_›, rfl⟩
    · cases h
  · rename_i m r hr
    split at h
    · cases h
      exact .inr ⟨m, r, hr, ‹_›, rfl⟩
    · cases h

/-- A lock or an unlock takes the next step off the thread's call. -/
theorem step_act_rest (h : k.step (.act i) = some k') :
    ∃ a r, k.rest i = a :: r ∧ k'.rest = Function.update k.rest i r := by
  rcases step_act_cases h with ⟨m, r, hr, -, rfl⟩ | ⟨m, r, hr, -, rfl⟩
  · exact ⟨_, r, hr, rfl⟩
  · exact ⟨_, r, hr, rfl⟩

theorem step_act_lock (hr : k.rest i = .lock m :: r) (hm : k.owner m = none) :
    (k.step (.act i)).isSome := by
  simp [Config.step, hr, hm]

theorem step_act_unlock (hr : k.rest i = .unlock m :: r) (hm : k.owner m = some i) :
    (k.step (.act i)).isSome := by
  simp [Config.step, hr, hm]

/-- What holds of every configuration reachable by the moves of a schedule. -/
theorem run_induct (P : Config → Prop) (mvs : List Move)
    (hstep : ∀ k k' mv, mv ∈ mvs → P k → k.step mv = some k' → P k') (h0 : P k) :
    P (k.run mvs) := by
  induction mvs generalizing k with
  | nil => exact h0
  | cons mv mvs ih =>
    show P (run ((k.step mv).getD k) mvs)
    refine ih (fun k k' mv' hm => hstep k k' mv' (List.mem_cons_of_mem _ hm)) ?_
    cases hs : k.step mv with
    | none => exact h0
    | some k' => exact hstep k k' mv (List.mem_cons_self _ _) h0 hs

end Config

/-! ### After a call of `handle_message` on a stale handle -/

section Wedge

open Config

/-- What a thread has left either begins with taking `sessions_mutex` or never releases it. -/
def SessionsFirst (r : List Act) : Prop :=
  r.head? = some (.lock .sessions) ∨ .unlock .sessions ∉ r

theorem SessionsFirst.tail {a : Act} {r : List Act} (h : SessionsFirst (a :: r))
    (ha : a ≠ .lock .sessions) : SessionsFirst r ∧ a ≠ .unlock .sessions := by
  rcases h with h | h
  · exact absurd (Option.some.inj h) ha
  · exact ⟨.inr fun hr => h (List.mem_cons_of_mem _ hr), fun he => h (he ▸ List.mem_cons_self _ _)⟩

/-- Every call takes `sessions_mutex` before it releases it. -/
theorem sessionsFirst_locks (p : State) (c : Call) : SessionsFirst (c.locks p) := by
  have hmi (h : Nat) : .unlock .sessions ∉ hangupMediaInternal p h := by
    simp only [hangupMediaInternal]
    split_ifs <;> simp
  rcases c with ⟨_ | ⟨h, m⟩ | _ | _ | h | h | _ | _ | ⟨_, _ | e⟩⟩ | _ | _
  all_goals simp only [Call.locks, createSession, handleMessage, handler, setupMedia,
    hangupMedia, destroySession, querySession, playoutExit, slowLink, destroy]
  case op.handler =>
    split
    · exact .inr (List.not_mem_nil _)
    · exact .inl rfl
  case op.playoutExit.mk.some =>
    split
    · exact .inr (by simp)
    · exact .inr (List.not_mem_nil _)
  case op.handleMessage => split <;> exact .inl rfl
  case op.destroySession => split <;> exact .inl rfl
  all_goals first
    | exact .inl rfl
    | exact .inr (List.not_mem_nil _)

variable {k k' : Config} {i : Nat}

/-- Thread `i` owns `sessions_mutex` and cannot release it before it takes it again. -/
structure Wedged (i : Nat) (k : Config) : Prop where
  owner : k.owner .sessions = some i
  first : SessionsFirst (k.rest i)

/-- A lock or an unlock of another mutex keeps the wedge. -/
theorem Wedged.update (hw : Wedged i k) {m : Mutex} (hms : m ≠ .sessions) (v : Option Nat)
    {j : Nat} {a : Act} {r : List Act} (hr : k.rest j = a :: r) (ha : a ≠ .lock .sessions) :
    Wedged i ⟨Function.update k.owner m v, Function.update k.rest j r⟩ := by
  refine ⟨by simpa [Function.update_noteq hms.symm] using hw.owner, ?_⟩
  by_cases hij : i = j
  · subst hij
    simpa using ((hr ▸ hw.first).tail ha).1
  · simpa [Function.update_noteq hij] using hw.first

/-- Every move keeps a wedged `sessions_mutex` wedged: nobody else owns it, so nobody else
unlocks it, and its owner waits on it before it would. -/
theorem Wedged.step (hw : Wedged i k) {mv : Move} (h : k.step mv = some k') : Wedged i k' := by
  cases mv with
  | call j p c =>
    obtain ⟨-, rfl⟩ := step_call_cases h
    refine ⟨hw.owner, ?_⟩
    by_cases hij : i = j
    · subst hij
      simpa using sessionsFirst_locks p c
    · simpa [Function.update_noteq hij] using hw.first
  | act j =>
    rcases step_act_cases h with ⟨m, r, hr, hm, rfl⟩ | ⟨m, r, hr, hm, rfl⟩
    · have hms : m ≠ .sessions := by rintro rfl; simp [hw.owner] at hm
      exact hw.update hms _ hr (by simpa using hms)
    · have hms : m ≠ .sessions := by
        rintro rfl
        obtain rfl : i = j := Option.some.inj (hw.owner.symm.trans hm)
        exact ((hr ▸ hw.first).tail (by simp)).2 rfl
      exact hw.update hms _ hr (by simp)

/-- Once thread `i` has taken `sessions_mutex` in a call of `handle_message` on a handle that is
not in the `sessions` table, no schedule of any calls ever frees it again, and every thread
whose next step is to take it, `i` included, waits for ever: every later `create_session`,
`destroy_session`, `query_session`, `handle_message`, `setup_media`, `hangup_media`,
`slow_link`, every iteration of the handler thread, and the plugin's shutdown. -/
theorem stale_handle_message_wedges (k : Config) (i : Nat) (p : State) (h : Nat) (m : Message)
    (hh : (p.sess h).inMap = false) (hi : k.rest i = (Call.op (.handleMessage h m)).locks p)
    (hfree : k.owner .sessions = none) (mvs : List Move) (j : Nat) (r : List Act)
    (hj : (k.run (.act i :: mvs)).rest j = .lock .sessions :: r) :
    (k.run (.act i :: mvs)).step (.act j) = none := by
  have hi' : k.rest i = [.lock .sessions] := by simp [hi, Call.locks, handleMessage, hh]
  have h0 : Wedged i ((k.step (.act i)).getD k) := by
    simp only [Config.step, hi', hfree, if_true, Option.getD_some]
    exact ⟨by simp, .inr (by simp)⟩
  have hw : Wedged i (k.run (.act i :: mvs)) :=
    run_induct (Wedged i) mvs (fun _ _ _ _ hw h => hw.step h) h0
  simp [Config.step, hj, hw.owner]

/-- After a `handle_message` on a handle of no session, a `create_session` on another thread
never gets `sessions_mutex`. -/
theorem stale_handle_message_blocks_create :
    (State.init.sess 0).inMap = false ∧
      (Config.idle.run [.call 0 State.init (.op (.handleMessage 0 .list))]).rest 0 =
        (Call.op (.handleMessage 0 .list)).locks State.init ∧
      (Config.idle.run [.call 0 State.init (.op (.handleMessage 0 .list))]).owner .sessions =
        none ∧
      ((Config.idle.run [.call 0 State.init (.op (.handleMessage 0 .list))]).run
          (.act 0 :: [.call 1 State.init (.op .createSession)])).rest 1 =
        [.lock .sessions, .unlock .sessions] ∧
      ((Config.idle.run [.call 0 State.init (.op (.handleMessage 0 .list))]).run
          (.act 0 :: [.call 1 State.init (.op .createSession)])).step (.act 1) = none :=
  ⟨rfl, rfl, rfl, rfl, stale_handle_message_wedges _ 0 State.init 0 .list rfl rfl rfl _ 1 _ rfl⟩

end Wedge

/-! ### The discipline of every other call -/

section Discipline

open Config

/-- The discipline, from a point where `sessions_mutex` is held (`true`) or not (`false`):
sections that each take a mutex other than `sessions_mutex` and release it at once, inside or
outside one of `sessions_mutex`. -/
inductive Disc : Bool → List Act → Prop
  | nil : Disc false []
  | leaf {b : Bool} {m : Mutex} {r : List Act} : m ≠ .sessions → Disc b r →
      Disc b (.lock m :: .unlock m :: r)
  | lock {r : List Act} : Disc true r → Disc false (.lock .sessions :: r)
  | unlock {r : List Act} : Disc false r → Disc true (.unlock .sessions :: r)

variable (p : State)

theorem disc_hangupMediaInternal {b : Bool} {r : List Act} (h : Nat) (hr : Disc b r) :
    Disc b (hangupMediaInternal p h ++ r) := by
  simp only [hangupMediaInternal]
  split_ifs
  · exact hr
  · exact .leaf (by simp) (.leaf (by simp) hr)
  · exact .leaf (by simp) hr

theorem disc_hangupMedia (h : Nat) : Disc false (hangupMedia p h) :=
  .lock (disc_hangupMediaInternal p h (.unlock .nil))

theorem disc_process (h : Nat) (req : Request) : Disc false (process p h req) := by
  cases req <;> simp only [process]
  case stop => exact disc_hangupMedia p h
  all_goals first
    | exact .nil
    | split
      · exact .leaf (by simp) .nil
      · exact .nil

/-- Every call but a `handle_message` on a stale handle keeps the discipline. -/
theorem disc_locks (c : Call) (hc : c.stale p = false) : Disc false (c.locks p) := by
  rcases c with ⟨_ | ⟨h, m⟩ | _ | _ | h | h | _ | _ | ⟨_, _ | e⟩⟩ | _ | _
  all_goals simp only [Call.locks, createSession, handleMessage, handler, setupMedia,
    destroySession, querySession, playoutExit, slowLink, destroy]
  case op.handleMessage =>
    have hin : (p.sess h).inMap = true := by simpa [Call.stale] using hc
    simp only [hin, not_true_eq_false, if_false, List.cons_append, List.nil_append]
    refine .lock (.unlock ?_)
    split
    · exact .leaf (by simp) .nil
    · exact .nil
  case op.handler =>
    split
    · exact .nil
    · refine .lock (.unlock ?_)
      split
      · exact disc_process p _ _
      · exact .nil
  case op.hangupMedia => exact disc_hangupMedia p h
  case op.destroySession =>
    split
    · exact .lock (.unlock .nil)
    · exact disc_hangupMedia p h
  case op.playoutExit.mk.some =>
    split
    · exact .leaf (by simp) .nil
    · exact .nil
  all_goals first
    | exact .nil
    | exact .lock (.unlock .nil)

/-- Where a thread is in a call that keeps the discipline: the mutexes it owns, innermost
first, and what it has left. -/
inductive At : List Mutex → List Act → Prop
  | free {r : List Act} : Disc false r → At [] r
  | sessions {r : List Act} : Disc true r → At [.sessions] r
  | leaf {m : Mutex} {r : List Act} : m ≠ .sessions → Disc false r → At [m] (.unlock m :: r)
  | inner {m : Mutex} {r : List Act} : m ≠ .sessions → Disc true r →
      At [m, .sessions] (.unlock m :: r)

variable {ms : List Mutex} {m : Mutex} {r : List Act}

theorem At.eq_nil (h : At ms []) : ms = [] := by
  cases h with
  | free => rfl
  | sessions hr => cases hr

theorem At.lock (h : At ms (.lock m :: r)) : At (m :: ms) r := by
  cases h with
  | free hr =>
    cases hr with
    | leaf hm hr => exact .leaf hm hr
    | lock hr => exact .sessions hr
  | sessions hr =>
    cases hr with
    | leaf hm hr => exact .inner hm hr

/-- What a thread releases is the mutex it took last. -/
theorem At.unlock (h : At ms (.unlock m :: r)) : ∃ ms', ms = m :: ms' ∧ m ∉ ms' ∧ At ms' r := by
  cases h with
  | free hr => cases hr
  | sessions hr =>
    cases hr with
    | unlock hr => exact ⟨[], rfl, List.not_mem_nil _, .free hr⟩
  | leaf _ hr => exact ⟨[], rfl, List.not_mem_nil _, .free hr⟩
  | inner hm hr => exact ⟨[.sessions], rfl, by simpa using hm, .sessions hr⟩

/-- The owner of a mutex other than `sessions_mutex` has its release next. -/
theorem At.next_of_mem (h : At ms r) (hm : m ∈ ms) (hs : m ≠ .sessions) :
    ∃ r', r = .unlock m :: r' := by
  cases h with
  | free => simp at hm
  | sessions => simp_all
  | leaf => obtain rfl := List.mem_singleton.mp hm; exact ⟨_, rfl⟩
  | inner => obtain rfl : m = _ := by simpa [hs] using hm
             exact ⟨_, rfl⟩

/-- The owner of `sessions_mutex` has next a release, or the lock of another mutex. -/
theorem At.next_of_sessions (h : At ms r) (hm : .sessions ∈ ms) :
    (∃ m' r', r = .unlock m' :: r' ∧ m' ∈ ms) ∨ ∃ m' r', r = .lock m' :: r' ∧ m' ≠ .sessions := by
  cases h with
  | free => simp at hm
  | sessions hr =>
    cases hr with
    | leaf hm' => exact .inr ⟨_, _, rfl, hm'⟩
    | unlock => exact .inl ⟨_, _, rfl, List.mem_singleton_self _⟩
  | leaf => exact .inl ⟨_, _, rfl, List.mem_singleton_self _⟩
  | inner => exact .inl ⟨_, _, rfl, List.mem_cons_self _ _⟩

/-- Thread `i` owns exactly the mutexes `ms`. -/
def Owns (o : Mutex → Option Nat) (i : Nat) (ms : List Mutex) : Prop :=
  ∀ m, o m = some i ↔ m ∈ ms

variable {o : Mutex → Option Nat} {i j : Nat}

theorem Owns.lock (h : Owns o i ms) (hm : o m = none) :
    Owns (Function.update o m (some i)) i (m :: ms) := by
  intro x
  by_cases hx : x = m
  · subst hx; simp
  · simp [Function.update_noteq hx, h x, hx]

theorem Owns.lock_other (h : Owns o j ms) (hm : o m = none) (hij : j ≠ i) :
    Owns (Function.update o m (some i)) j ms := by
  intro x
  by_cases hx : x = m
  · subst hx; simp [← h x, hm, Ne.symm hij]
  · simp [Function.update_noteq hx, h x]

theorem Owns.unlock (h : Owns o i (m :: ms)) (hm : m ∉ ms) :
    Owns (Function.update o m none) i ms := by
  intro x
  by_cases hx : x = m
  · subst hx; simp [hm]
  · simp [Function.update_noteq hx, h x, hx]

theorem Owns.unlock_other (h : Owns o j ms) (hm : o m = some i) (hij : j ≠ i) :
    Owns (Function.update o m none) j ms := by
  intro x
  by_cases hx : x = m
  · subst hx; simp [← h x, hm, Ne.symm hij]
  · simp [Function.update_noteq hx, h x]

/-- Every thread is somewhere in a call that keeps the discipline, and owns what that place
says. -/
def Disciplined (k : Config) : Prop := ∀ i, ∃ ms, Owns k.owner i ms ∧ At ms (k.rest i)

variable {k k' : Config}

theorem disciplined_idle : Disciplined Config.idle :=
  fun _ => ⟨[], fun _ => by simp [Config.idle], .free .nil⟩

theorem Disciplined.step (hk : Disciplined k) {mv : Move}
    (hc : ∀ i p c, mv = .call i p c → c.stale p = false) (h : k.step mv = some k') :
    Disciplined k' := by
  cases mv with
  | call j p c =>
    obtain ⟨hj, rfl⟩ := step_call_cases h
    intro i
    obtain ⟨ms, ho, hat⟩ := hk i
    by_cases hij : i = j
    · subst hij
      rw [hj] at hat
      exact ⟨[], hat.eq_nil ▸ ho, by simpa using .free (disc_locks p c (hc _ _ _ rfl))⟩
    · exact ⟨ms, ho, by simpa [Function.update_noteq hij] using hat⟩
  | act j =>
    intro i
    obtain ⟨ms, ho, hat⟩ := hk i
    rcases step_act_cases h with ⟨m, r, hr, hm, rfl⟩ | ⟨m, r, hr, hm, rfl⟩
    · by_cases hij : i = j
      · subst hij
        rw [hr] at hat
        exact ⟨m :: ms, ho.lock hm, by simpa using hat.lock⟩
      · exact ⟨ms, ho.lock_other hm hij, by simpa [Function.update_noteq hij] using hat⟩
    · by_cases hij : i = j
      · subst hij
        rw [hr] at hat
        obtain ⟨ms', rfl, hm', hat'⟩ := hat.unlock
        exact ⟨ms', ho.unlock hm', by simpa using hat'⟩
      · exact ⟨ms, ho.unlock_other hm hij, by simpa [Function.update_noteq hij] using hat⟩

/-- The owner of a mutex other than `sessions_mutex` releases it next. -/
theorem Disciplined.release (hk : Disciplined k) (hm : k.owner m = some j)
    (hs : m ≠ .sessions) : (k.step (.act j)).isSome := by
  obtain ⟨ms, ho, hat⟩ := hk j
  obtain ⟨r', hr⟩ := hat.next_of_mem ((ho m).mp hm) hs
  exact step_act_unlock hr hm

/-- While a mutex is owned some thread can move: its owner, or the owner of the mutex the owner
of `sessions_mutex` waits on. -/
theorem Disciplined.owned_moves (hk : Disciplined k) (hm : k.owner m = some j) :
    ∃ j', (k.step (.act j')).isSome := by
  by_cases hs : m = .sessions
  · subst hs
    obtain ⟨ms, ho, hat⟩ := hk j
    rcases hat.next_of_sessions ((ho _).mp hm) with ⟨m', r', hr, hm'⟩ | ⟨m', r', hr, hs'⟩
    · exact ⟨j, step_act_unlock hr ((ho m').mpr hm')⟩
    · cases hm'o : k.owner m' with
      | none => exact ⟨j, step_act_lock hr hm'o⟩
      | some j' => exact ⟨j', hk.release hm'o hs'⟩
  · exact ⟨j, hk.release hm hs⟩

/-- No configuration of disciplined threads is stuck: while a thread has something left, some
thread can move. -/
theorem Disciplined.progress (hk : Disciplined k) (hi : k.rest i ≠ []) :
    ∃ j, (k.step (.act j)).isSome := by
  obtain ⟨ms, ho, hat⟩ := hk i
  obtain ⟨a, r, hr⟩ := List.exists_cons_of_ne_nil hi
  rw [hr] at hat
  cases a with
  | unlock m =>
    obtain ⟨ms', rfl, -, -⟩ := hat.unlock
    exact ⟨i, step_act_unlock hr ((ho m).mpr (List.mem_cons_self _ _))⟩
  | lock m =>
    cases hm : k.owner m with
    | none => exact ⟨i, step_act_lock hr hm⟩
    | some j => exact hk.owned_moves hm

theorem Disciplined.owner_eq_none (hk : Disciplined k) (h : ∀ i, k.rest i = []) (m : Mutex) :
    k.owner m = none := by
  cases hm : k.owner m with
  | none => rfl
  | some j =>
    obtain ⟨ms, ho, hat⟩ := hk j
    rw [h j] at hat
    simpa [hat.eq_nil] using (ho m).mp hm

/-- The lock and unlock operations left to the threads below `n`. -/
def work (rest : Nat → List Act) : Nat → Nat
  | 0 => 0
  | n + 1 => work rest n + (rest n).length

theorem work_congr {f g : Nat → List Act} {n : Nat} (h : ∀ i < n, f i = g i) :
    work f n = work g n := by
  induction n with
  | zero => rfl
  | succ n ih =>
    simp only [work, h n (Nat.lt_succ_self n), ih fun i hi => h i (Nat.lt_succ_of_lt hi)]

theorem work_update {rest : Nat → List Act} {n : Nat} {a : Act} (hj : j < n)
    (hr : rest j = a :: r) : work (Function.update rest j r) n + 1 = work rest n := by
  induction n with
  | zero => exact absurd hj (Nat.not_lt_zero _)
  | succ n ih =>
    simp only [work]
    rcases Nat.lt_succ_iff_lt_or_eq.mp hj with hj | rfl
    · rw [Function.update_noteq (Nat.ne_of_gt hj), ← ih hj]
      omega
    · rw [work_congr fun i hi => Function.update_noteq (Nat.ne_of_lt hi) _ _, hr]
      simp
      omega

/-- No thread from `n` on is in a call. -/
def Bounded (n : Nat) (k : Config) : Prop := ∀ i, n ≤ i → k.rest i = []

theorem Bounded.step {n : Nat} (hb : Bounded n k) {mv : Move} (h : k.step mv = some k') :
    ∃ n, Bounded n k' := by
  cases mv with
  | call j p c =>
    obtain ⟨-, rfl⟩ := step_call_cases h
    refine ⟨max n (j + 1), fun i hi => ?_⟩
    show Function.update k.rest j _ i = []
    rw [Function.update_noteq (by omega)]
    exact hb i (by omega)
  | act j =>
    obtain ⟨a, r, hr, hrest⟩ := step_act_rest h
    refine ⟨n, fun i hi => ?_⟩
    rw [hrest, Function.update_noteq (by rintro rfl; simp [hb _ hi] at hr)]
    exact hb i hi

/-- From a configuration of disciplined threads, some schedule of their own moves ends every
call in progress. -/
theorem Disciplined.complete {n : Nat} (hk : Disciplined k) (hb : Bounded n k) :
    ∃ mvs, Disciplined (k.run mvs) ∧ ∀ i, (k.run mvs).rest i = [] := by
  obtain ⟨w, hw⟩ : ∃ w, work k.rest n = w := ⟨_, rfl⟩
  induction w using Nat.strongRecOn generalizing k with
  | _ w ih =>
    by_cases hall : ∀ i < n, k.rest i = []
    · exact ⟨[], hk, fun i => if hi : i < n then hall i hi else hb i (Nat.le_of_not_lt hi)⟩
    · push_neg at hall
      obtain ⟨i, -, hi⟩ := hall
      obtain ⟨j, hj⟩ := hk.progress hi
      obtain ⟨k', hk'⟩ := Option.isSome_iff_exists.mp hj
      obtain ⟨a, r, hr, hrest⟩ := step_act_rest hk'
      have hjn : j < n := Nat.lt_of_not_le fun hn => by simp [hb j hn] at hr
      have hlt : work k'.rest n < w := by
        have := work_update hjn hr
        rw [← hrest] at this
        omega
      have hb' : Bounded n k' := fun i hi => by
        rw [hrest, Function.update_noteq (by rintro rfl; omega)]
        exact hb i hi
      obtain ⟨mvs, hmvs⟩ :=
        ih _ hlt (hk.step (fun _ _ _ h => Move.noConfusion h) hk') hb' rfl
      exact ⟨.act j :: mvs, by simpa [Config.run, hk'] using hmvs⟩

/-- For every schedule of calls of the plugin none of which is a `handle_message` on a handle
that is not in the `sessions` table, with their locks and unlocks interleaved in any order,
some schedule of the threads' own moves ends every call in progress and leaves every mutex
free: no run of such calls ever deadlocks. -/
theorem calls_never_deadlock (mvs : List Move)
    (hc : ∀ i p c, Move.call i p c ∈ mvs → c.stale p = false) :
    ∃ mvs', ∀ i m, ((Config.idle.run mvs).run mvs').rest i = [] ∧
      ((Config.idle.run mvs).run mvs').owner m = none := by
  have hk : Disciplined (Config.idle.run mvs) :=
    run_induct Disciplined mvs
      (fun _ _ mv hmv hk h => hk.step (fun i p c he => hc i p c (he ▸ hmv)) h) disciplined_idle
  obtain ⟨n, hb⟩ : ∃ n, Bounded n (Config.idle.run mvs) :=
    run_induct (fun k => ∃ n, Bounded n k) mvs
      (fun _ _ _ _ ⟨_, hb⟩ h => hb.step h) ⟨0, fun _ _ => rfl⟩
  obtain ⟨mvs', hk', hmvs'⟩ := hk.complete hb
  exact ⟨mvs', fun i m => ⟨hmvs' i, hk'.owner_eq_none hmvs' m⟩⟩

/-- A `hangup_media` of a live session on one thread while a `create_session` on another waits
for `sessions_mutex`. -/
theorem calls_never_deadlock_during_hangup :
    (∀ i p c, Move.call i p c ∈ [.call 0 State.init.createSession (.op (.hangupMedia 0)), .act 0,
        .call 1 State.init (.op .createSession), .act 1] → c.stale p = false) ∧
      ∃ mvs', ∀ i m,
        ((Config.idle.run [.call 0 State.init.createSession (.op (.hangupMedia 0)), .act 0,
          .call 1 State.init (.op .createSession), .act 1]).run mvs').rest i = [] ∧
        ((Config.idle.run [.call 0 State.init.createSession (.op (.hangupMedia 0)), .act 0,
          .call 1 State.init (.op .createSession), .act 1]).run mvs').owner m = none := by
  have hc : ∀ i p c, Move.call i p c ∈ [.call 0 State.init.createSession (.op (.hangupMedia 0)),
      .act 0, .call 1 State.init (.op .createSession), .act 1] → c.stale p = false := by
    intro i p c h
    simp only [List.mem_cons, Move.call.injEq, List.mem_singleton, List.not_mem_nil,
      reduceCtorEq, or_false, false_or] at h
    rcases h with ⟨-, rfl, rfl⟩ | ⟨-, rfl, rfl⟩ <;> rfl
  exact ⟨hc, calls_never_deadlock _ hc⟩

end Discipline

end AuviousRecordPlay.Locks

import AuviousRecordPlay.Plugin

/-!
# Reference counts cover their holders

The holders of a session are the `sessions` table, each queued message of it
and each of its playout threads; the holders of a recording entity are the
`recordings` table, each session whose `recording` points to it and each
playout thread that took a reference on it. Every operation keeps each count
at least the number of its holders, and takes or drops no reference on a
count of 0: `Inv` holds after every sequence of operations (`Inv.run`), one
lemma per operation (`Inv.step`). A count can exceed its holders: `play` keeps
the reference of its lookup when neither track file can be indexed, and a
second `record` overwrites `session->recording` without dropping its
reference.
-/

namespace AuviousRecordPlay.Refcount

open Plugin State

/-- The holders of session `h`: the `sessions` table, each queued message, each playout
thread. -/
def sessHolders (p : State) (h : Nat) : Nat :=
  (if (p.sess h).inMap then 1 else 0) + p.messages.countP (·.1 = h) + p.tasks.countP (·.session = h)

/-- The holders of recording `e`: the `recordings` table, each session whose `recording` is `e`,
each playout thread that took a reference on it. -/
def recHolders (p : State) (e : Nat) : Nat :=
  p.recordings.countP (·.2 = e) +
    (List.range p.nextHandle).countP (fun h => (p.sess h).recording = some e) +
    p.tasks.countP (·.recording = some e)

/-- Nothing refers to a handle or an entity not allocated yet. -/
structure Allocated (p : State) : Prop where
  sess : ∀ h, p.nextHandle ≤ h → p.sess h = .none
  recs : ∀ e, p.nextRec ≤ e → p.recs e = .none
  messages : ∀ x ∈ p.messages, x.1 < p.nextHandle
  tasks : ∀ t ∈ p.tasks, t.session < p.nextHandle ∧ ∀ e, t.recording = some e → e < p.nextRec
  recordings : ∀ x ∈ p.recordings, x.2 < p.nextRec
  recording : ∀ h e, (p.sess h).recording = some e → e < p.nextRec

/-- Each count is at least the number of its holders, and no count was taken or dropped at 0. -/
structure Counted (p : State) : Prop where
  fault : p.fault = false
  sess : ∀ h, sessHolders p h ≤ (p.sess h).ref
  recs : ∀ e, recHolders p e ≤ (p.recs e).ref

/-- The invariant of the plugin's reference counts. -/
def Inv (p : State) : Prop := Allocated p ∧ Counted p

/-! ### Counting over the handles -/

theorem countP_range_update {α : Type} (f : Nat → α) (q : α → Bool) (a : α) {n h : Nat}
    (hh : h < n) :
    (List.range n).countP (fun i => q (Function.update f h a i)) + (if q (f h) then 1 else 0) =
      (List.range n).countP (fun i => q (f i)) + (if q a then 1 else 0) := by
  induction n with
  | zero => exact absurd hh (Nat.not_lt_zero _)
  | succ n ih =>
    simp only [List.range_succ, List.countP_append, List.countP_singleton]
    rcases Nat.lt_or_ge h n with hlt | hge
    · rw [Function.update_noteq (by omega)]
      have := ih hlt
      omega
    · obtain rfl : h = n := by omega
      rw [List.countP_congr fun i hi => by
        rw [Function.update_noteq (Nat.ne_of_lt (List.mem_range.mp hi))], Function.update_same]
      omega

theorem countP_range_update_of_le {α : Type} (f : Nat → α) (q : α → Bool) (a : α) {n h : Nat}
    (hh : n ≤ h) :
    (List.range n).countP (fun i => q (Function.update f h a i)) =
      (List.range n).countP (fun i => q (f i)) :=
  List.countP_congr fun i hi => by
    rw [Function.update_noteq (by have := List.mem_range.mp hi; omega)]

theorem countP_erase_add {α : Type} [BEq α] [LawfulBEq α] {l : List α} {x : α} (hx : x ∈ l)
    (q : α → Bool) : (l.erase x).countP q + (if q x then 1 else 0) = l.countP q := by
  induction l with
  | nil => cases hx
  | cons y l ih =>
    by_cases hxy : y = x
    · subst hxy; simp [List.countP_cons]
    · have := ih (List.mem_of_ne_of_mem (Ne.symm hxy) hx)
      rw [List.erase_cons_tail (by simpa using hxy)]
      simp only [List.countP_cons]
      omega

/-! ### How the holders change -/

section Holders

variable {p : State} {h e : Nat} {s : Session} {r : Recording}

@[simp] theorem sessHolders_setRec : sessHolders (p.setRec e r) = sessHolders p := rfl

@[simp] theorem recHolders_setRec : recHolders (p.setRec e r) = recHolders p := rfl

theorem sessHolders_setSess (hm : s.inMap = (p.sess h).inMap) :
    sessHolders (p.setSess h s) = sessHolders p := by
  funext h'
  by_cases hh : h' = h
  · subst hh; simp [sessHolders, hm]
  · simp [sessHolders, Function.update_noteq hh]

theorem recHolders_setSess_add (hh : h < p.nextHandle) (e : Nat) :
    recHolders (p.setSess h s) e + (if (p.sess h).recording = some e then 1 else 0) =
      recHolders p e + (if s.recording = some e then 1 else 0) := by
  have := countP_range_update p.sess (fun x => decide (x.recording = some e)) s hh
  simp only [decide_eq_true_eq] at this
  simp only [recHolders, setSess_recordings, setSess_nextHandle, setSess_sess, setSess_tasks]
  omega

theorem recHolders_setSess (hrec : s.recording = (p.sess h).recording) :
    recHolders (p.setSess h s) = recHolders p := by
  funext e
  rcases Nat.lt_or_ge h p.nextHandle with hh | hh
  · have := recHolders_setSess_add (s := s) hh e
    rw [hrec] at this
    omega
  · simp only [recHolders, setSess_recordings, setSess_nextHandle, setSess_sess, setSess_tasks,
      countP_range_update_of_le p.sess (fun x => decide (x.recording = some e)) s hh]

/-- The session `h` itself: its entry in the table counts as its new one does. -/
theorem sessHolders_setSess_self :
    sessHolders (p.setSess h s) h + (if (p.sess h).inMap then 1 else 0) =
      sessHolders p h + (if s.inMap then 1 else 0) := by
  simp only [sessHolders, setSess_sess, Function.update_same, setSess_messages, setSess_tasks]
  omega

theorem sessHolders_setSess_of_ne {h' : Nat} (hh : h' ≠ h) :
    sessHolders (p.setSess h s) h' = sessHolders p h' := by
  simp [sessHolders, Function.update_noteq hh]

@[simp] theorem sessHolders_incrSess : sessHolders (p.incrSess h) = sessHolders p := by
  unfold incrSess; split
  · rfl
  · exact sessHolders_setSess rfl

@[simp] theorem sessHolders_decrSess : sessHolders (p.decrSess h) = sessHolders p := by
  unfold decrSess; split
  · rfl
  · exact sessHolders_setSess rfl

@[simp] theorem recHolders_incrSess : recHolders (p.incrSess h) = recHolders p := by
  unfold incrSess; split
  · rfl
  · exact recHolders_setSess rfl

@[simp] theorem recHolders_decrSess : recHolders (p.decrSess h) = recHolders p := by
  unfold decrSess; split
  · rfl
  · exact recHolders_setSess rfl

@[simp] theorem sessHolders_incrRec : sessHolders (p.incrRec e) = sessHolders p := by
  unfold incrRec; split <;> rfl

@[simp] theorem sessHolders_decrRec : sessHolders (p.decrRec e) = sessHolders p := by
  unfold decrRec; split <;> rfl

@[simp] theorem recHolders_incrRec : recHolders (p.incrRec e) = recHolders p := by
  unfold incrRec; split <;> rfl

@[simp] theorem recHolders_decrRec : recHolders (p.decrRec e) = recHolders p := by
  unfold decrRec; split <;> rfl

/-! The queue, the threads and the table: each entry holds one reference. -/

@[simp] theorem recHolders_setMessages (l : List (Nat × Request)) :
    recHolders { p with messages := l } = recHolders p := rfl

@[simp] theorem sessHolders_setRecordings (l : List (Nat × Nat)) :
    sessHolders { p with recordings := l } = sessHolders p := rfl

theorem sessHolders_pushMessage (x : Nat × Request) (h : Nat) :
    sessHolders { p with messages := p.messages ++ [x] } h =
      sessHolders p h + if x.1 = h then 1 else 0 := by
  simp only [sessHolders, List.countP_append, List.countP_singleton, decide_eq_true_eq]
  omega

theorem sessHolders_popMessage {x : Nat × Request} {rest : List (Nat × Request)}
    (hm : p.messages = x :: rest) (h : Nat) :
    sessHolders { p with messages := rest } h + (if x.1 = h then 1 else 0) = sessHolders p h := by
  simp only [sessHolders, hm, List.countP_cons, decide_eq_true_eq]
  omega

theorem sessHolders_pushTask (t : Task) (h : Nat) :
    sessHolders { p with tasks := p.tasks ++ [t] } h =
      sessHolders p h + if t.session = h then 1 else 0 := by
  simp only [sessHolders, List.countP_append, List.countP_singleton, decide_eq_true_eq]
  omega

theorem recHolders_pushTask (t : Task) (e : Nat) :
    recHolders { p with tasks := p.tasks ++ [t] } e =
      recHolders p e + if t.recording = some e then 1 else 0 := by
  simp only [recHolders, List.countP_append, List.countP_singleton, decide_eq_true_eq]
  omega

theorem sessHolders_eraseTask {t : Task} (ht : t ∈ p.tasks) (h : Nat) :
    sessHolders { p with tasks := p.tasks.erase t } h + (if t.session = h then 1 else 0) =
      sessHolders p h := by
  have := countP_erase_add ht fun t : Task => decide (t.session = h)
  simp only [decide_eq_true_eq] at this
  simp only [sessHolders]
  omega

theorem recHolders_eraseTask {t : Task} (ht : t ∈ p.tasks) (e : Nat) :
    recHolders { p with tasks := p.tasks.erase t } e + (if t.recording = some e then 1 else 0) =
      recHolders p e := by
  have := countP_erase_add ht fun t : Task => decide (t.recording = some e)
  simp only [decide_eq_true_eq] at this
  simp only [recHolders]
  omega

theorem recHolders_eraseRecording {x : Nat × Nat} (hx : x ∈ p.recordings) (e : Nat) :
    recHolders { p with recordings := p.recordings.erase x } e + (if x.2 = e then 1 else 0) =
      recHolders p e := by
  have := countP_erase_add hx fun x : Nat × Nat => decide (x.2 = e)
  simp only [decide_eq_true_eq] at this
  simp only [recHolders]
  omega

/-- The counts of a state whose holders did not grow more than its counts. -/
theorem Counted.of_le {p' : State} (hc : Counted p) (hf : p'.fault = false)
    (hs : ∀ h, sessHolders p' h + (p.sess h).ref ≤ sessHolders p h + (p'.sess h).ref)
    (hr : ∀ e, recHolders p' e + (p.recs e).ref ≤ recHolders p e + (p'.recs e).ref) :
    Counted p' :=
  ⟨hf, fun h => by have := hs h; have := hc.sess h; omega,
    fun e => by have := hr e; have := hc.recs e; omega⟩

theorem Allocated.setSess (ha : Allocated p) (hh : h < p.nextHandle)
    (hrec : ∀ e, s.recording = some e → e < p.nextRec) : Allocated (p.setSess h s) := by
  refine ⟨fun h' h1 => ?_, ha.recs, ha.messages, ha.tasks, ha.recordings, fun h' e he => ?_⟩
  · rw [setSess_nextHandle] at h1
    rw [setSess_sess, Function.update_noteq (by omega)]; exact ha.sess h' h1
  · by_cases hh' : h' = h
    · subst hh'; rw [setSess_sess, Function.update_same] at he; exact hrec e he
    · rw [setSess_sess, Function.update_noteq hh'] at he; exact ha.recording h' e he

theorem Allocated.setRec (ha : Allocated p) (he : e < p.nextRec) : Allocated (p.setRec e r) :=
  ⟨ha.sess, fun e' h1 => by
    rw [setRec_nextRec] at h1
    rw [setRec_recs, Function.update_noteq (by omega)]; exact ha.recs e' h1,
    ha.messages, ha.tasks, ha.recordings, ha.recording⟩

/-- A session that holds a reference is allocated. -/
theorem Allocated.lt_of_ref (ha : Allocated p) (h0 : 0 < (p.sess h).ref) : h < p.nextHandle := by
  by_contra hh
  rw [ha.sess h (by omega)] at h0
  exact absurd h0 (by decide)

/-- A session that points to a recording is allocated. -/
theorem Allocated.lt_of_recording (ha : Allocated p) (he : (p.sess h).recording = some e) :
    h < p.nextHandle := by
  by_contra hh
  rw [ha.sess h (by omega)] at he
  exact Option.noConfusion he

theorem Allocated.lt_of_rec_ref (ha : Allocated p) (h0 : 0 < (p.recs e).ref) : e < p.nextRec := by
  by_contra hh
  rw [ha.recs e (by omega)] at h0
  exact absurd h0 (by decide)

end Holders

/-! ### Steps that keep the invariant -/

section Steps

variable {p : State} {h e : Nat}

theorem Inv.sess_pos (hi : Inv p) (hm : (p.sess h).inMap) : 0 < (p.sess h).ref := by
  have := hi.2.sess h
  simp only [sessHolders, hm, if_true] at this
  omega

theorem Inv.lt_of_inMap (hi : Inv p) (hm : (p.sess h).inMap) : h < p.nextHandle :=
  hi.1.lt_of_ref (hi.sess_pos hm)

theorem Inv.rec_pos (hi : Inv p) {x : Nat × Nat} (hx : x ∈ p.recordings) : 0 < (p.recs x.2).ref := by
  have h1 := hi.2.recs x.2
  have h2 : 0 < p.recordings.countP (·.2 = x.2) := List.countP_pos_iff.mpr ⟨x, hx, by simp⟩
  simp only [recHolders] at h1
  omega

theorem Inv.rec_pos_of_lookup (hi : Inv p) {id : Nat} (hl : p.lookup id = some e) :
    0 < (p.recs e).ref := by
  obtain ⟨x, hx, rfl⟩ := Option.map_eq_some'.mp hl
  exact hi.rec_pos (List.mem_of_find?_eq_some hx)

/-- A recording a session points to holds a reference. -/
theorem Inv.rec_pos_of_recording (hi : Inv p) (he : (p.sess h).recording = some e) :
    0 < (p.recs e).ref := by
  have h1 := hi.2.recs e
  have h2 : 0 < (List.range p.nextHandle).countP (fun h => (p.sess h).recording = some e) :=
    List.countP_pos_iff.mpr ⟨h, List.mem_range.mpr (hi.1.lt_of_recording he), by simp [he]⟩
  simp only [recHolders] at h1
  omega

/-- A session may change in every field as long as its count stays at least its holders, and a
recording it comes to point to has a reference to spare. -/
theorem Inv.setSess {s : Session} (hi : Inv p) (hh : h < p.nextHandle)
    (hr : sessHolders (p.setSess h s) h ≤ s.ref)
    (hrec : ∀ e, s.recording = some e →
      (p.sess h).recording = some e ∨ e < p.nextRec ∧ recHolders p e < (p.recs e).ref) :
    Inv (p.setSess h s) := by
  refine ⟨hi.1.setSess hh fun e he => ?_, hi.2.fault, fun h' => ?_, fun e => ?_⟩
  · rcases hrec e he with he' | ⟨he', -⟩
    · exact hi.1.recording h e he'
    · exact he'
  · by_cases hh' : h' = h
    · subst hh'; simpa using hr
    · rw [sessHolders_setSess_of_ne hh']
      simpa [Function.update_noteq hh'] using hi.2.sess h'
  · have key := recHolders_setSess_add (s := s) hh e
    have := hi.2.recs e
    simp only [setSess_recs]
    by_cases hs : s.recording = some e
    · rcases hrec e hs with ho | ⟨-, hlt⟩
      · simp only [hs, ho, if_true] at key; omega
      · simp only [hs, if_true] at key; omega
    · simp only [hs, if_false] at key; omega

/-- A session whose entry in the table, count and recording stay as they were. -/
theorem Inv.setSess_same {s : Session} (hi : Inv p) (hh : h < p.nextHandle)
    (hm : s.inMap = (p.sess h).inMap) (hr : s.ref = (p.sess h).ref)
    (hrec : s.recording = (p.sess h).recording) : Inv (p.setSess h s) :=
  hi.setSess hh (by rw [sessHolders_setSess hm, hr]; exact hi.2.sess h) fun _ he => .inl (hrec ▸ he)

/-- A recording's fields other than its count are free, and its count may change as long as it
stays at least its holders. -/
theorem Inv.setRec {r : Recording} (hi : Inv p) (he : e < p.nextRec) (hr : recHolders p e ≤ r.ref) :
    Inv (p.setRec e r) :=
  ⟨hi.1.setRec he, ⟨hi.2.fault, fun h' => hi.2.sess h', fun e' => by
    by_cases he' : e' = e
    · subst he'; simpa using hr
    · simpa [Function.update_noteq he'] using hi.2.recs e'⟩⟩

/-- A recording's fields other than its count are free. -/
theorem Inv.setRec_same {r : Recording} (hi : Inv p) (he : e < p.nextRec)
    (hr : r.ref = (p.recs e).ref) : Inv (p.setRec e r) :=
  hi.setRec he (hr ▸ hi.2.recs e)

/-- A handle without a session is left as it is. -/
theorem Inv.answered (hi : Inv p) (h : Nat) : Inv (p.answered h) := by
  rcases Nat.lt_or_ge h p.nextHandle with hh | hh
  · exact hi.setSess_same hh rfl rfl rfl
  · have hu : Function.update p.sess h { p.sess h with hangingup := 0 } = p.sess :=
      Function.update_eq_self_iff.mpr (by rw [hi.1.sess h hh]; rfl)
    have : p.answered h = p := by simp only [State.answered, State.setSess, hu]
    rwa [this]

/-- A session's count may change as long as it stays at least its holders. -/
theorem Inv.setSess_ref (hi : Inv p) (hh : h < p.nextHandle) {r : Nat} (hr : sessHolders p h ≤ r) :
    Inv (p.setSess h { p.sess h with ref := r }) :=
  hi.setSess hh (by rw [sessHolders_setSess (s := { p.sess h with ref := r }) rfl]; exact hr)
    fun _ he => .inl he

theorem Inv.incrSess (hi : Inv p) (h0 : 0 < (p.sess h).ref) : Inv (p.incrSess h) := by
  rw [incrSess_of_pos h0]
  exact hi.setSess_ref (hi.1.lt_of_ref h0) (Nat.le_succ_of_le (hi.2.sess h))

theorem Inv.incrRec (hi : Inv p) (h0 : 0 < (p.recs e).ref) : Inv (p.incrRec e) := by
  rw [incrRec_of_pos h0]
  exact hi.setRec (hi.1.lt_of_rec_ref h0) (by have := hi.2.recs e; simp only; omega)

/-- A reference no holder accounts for can be dropped. -/
theorem Inv.decrSess (hi : Inv p) (hs : sessHolders p h < (p.sess h).ref) : Inv (p.decrSess h) := by
  rw [decrSess_of_pos (by omega)]
  exact hi.setSess_ref (hi.1.lt_of_ref (by omega)) (Nat.le_sub_one_of_lt hs)

theorem Inv.decrRec (hi : Inv p) (hs : recHolders p e < (p.recs e).ref) : Inv (p.decrRec e) := by
  rw [decrRec_of_pos (by omega)]
  exact hi.setRec (hi.1.lt_of_rec_ref (by omega)) (by simp only; omega)

theorem incrSess_spare (hi : Inv p) (h0 : 0 < (p.sess h).ref) :
    sessHolders (p.incrSess h) h < ((p.incrSess h).sess h).ref := by
  have := hi.2.sess h
  rw [sessHolders_incrSess, incrSess_of_pos h0]
  simp only [setSess_sess, Function.update_same]
  omega

theorem incrRec_spare (hi : Inv p) (h0 : 0 < (p.recs e).ref) :
    recHolders (p.incrRec e) e < ((p.incrRec e).recs e).ref := by
  have := hi.2.recs e
  rw [recHolders_incrRec, incrRec_of_pos h0]
  simp only [setRec_recs, Function.update_same]
  omega

/-! ### The queue, the threads and the table -/

theorem Inv.pushMessage (hi : Inv p) (hh : h < p.nextHandle) (hs : sessHolders p h < (p.sess h).ref)
    (req : Request) : Inv { p with messages := p.messages ++ [(h, req)] } := by
  refine ⟨⟨hi.1.sess, hi.1.recs, fun x hx => ?_, hi.1.tasks, hi.1.recordings, hi.1.recording⟩,
    hi.2.fault, fun h' => ?_, hi.2.recs⟩
  · rcases List.mem_append.mp hx with hx | hx
    · exact hi.1.messages x hx
    · rw [List.mem_singleton.mp hx]; exact hh
  · rw [sessHolders_pushMessage]
    split_ifs with hh'
    · subst hh'; exact hs
    · exact hi.2.sess h'

theorem Inv.popMessage (hi : Inv p) {x : Nat × Request} {rest : List (Nat × Request)}
    (hm : p.messages = x :: rest) :
    Inv { p with messages := rest } ∧ sessHolders { p with messages := rest } x.1 < (p.sess x.1).ref := by
  have key := sessHolders_popMessage hm
  refine ⟨⟨⟨hi.1.sess, hi.1.recs, fun y hy => hi.1.messages y (by simp [hm, hy]), hi.1.tasks,
    hi.1.recordings, hi.1.recording⟩, hi.2.of_le hi.2.fault (fun h' => ?_) fun e => by simp⟩, ?_⟩
  · have := key h'; simp only; omega
  · have := key x.1; have := hi.2.sess x.1; simp only [if_true] at *; omega

theorem Inv.eraseTask (hi : Inv p) {t : Task} (ht : t ∈ p.tasks) :
    Inv { p with tasks := p.tasks.erase t } ∧
      sessHolders { p with tasks := p.tasks.erase t } t.session < (p.sess t.session).ref := by
  have ks := sessHolders_eraseTask ht
  have kr := recHolders_eraseTask ht
  refine ⟨⟨⟨hi.1.sess, hi.1.recs, hi.1.messages, fun u hu => hi.1.tasks u (List.mem_of_mem_erase hu),
    hi.1.recordings, hi.1.recording⟩, hi.2.of_le hi.2.fault (fun h' => ?_) fun e => ?_⟩, ?_⟩
  · have := ks h'; simp only; omega
  · have := kr e; simp only; omega
  · have := ks t.session; have := hi.2.sess t.session; simp only [if_true] at *; omega

/-- A thread that joins the list takes the references it holds. -/
theorem Inv.pushTask (hi : Inv p) {t : Task} (hh : t.session < p.nextHandle)
    (hs : sessHolders p t.session < (p.sess t.session).ref)
    (hr : ∀ e, t.recording = some e → e < p.nextRec ∧ recHolders p e < (p.recs e).ref) :
    Inv { p with tasks := p.tasks ++ [t] } := by
  refine ⟨⟨hi.1.sess, hi.1.recs, hi.1.messages, fun u hu => ?_, hi.1.recordings, hi.1.recording⟩,
    hi.2.fault, fun h' => ?_, fun e => ?_⟩
  · rcases List.mem_append.mp hu with hu | hu
    · exact hi.1.tasks u hu
    · rw [List.mem_singleton.mp hu]; exact ⟨hh, fun e he => (hr e he).1⟩
  · rw [sessHolders_pushTask]
    split_ifs with hh'
    · subst hh'; exact hs
    · exact hi.2.sess h'
  · rw [recHolders_pushTask]
    split_ifs with he
    · exact (hr e he).2
    · exact hi.2.recs e

theorem Inv.eraseRecording (hi : Inv p) {x : Nat × Nat} (hx : x ∈ p.recordings) :
    Inv { p with recordings := p.recordings.erase x } ∧
      recHolders { p with recordings := p.recordings.erase x } x.2 < (p.recs x.2).ref := by
  have key := recHolders_eraseRecording hx
  refine ⟨⟨⟨hi.1.sess, hi.1.recs, hi.1.messages, hi.1.tasks,
    fun y hy => hi.1.recordings y (List.mem_of_mem_erase hy), hi.1.recording⟩,
    hi.2.of_le hi.2.fault (fun h' => by simp) fun e => ?_⟩, ?_⟩
  · have := key e; simp only; omega
  · have := key x.2; have := hi.2.recs x.2; simp only [if_true] at *; omega

end Steps

/-! ### The operations keep the invariant -/

section Operations

variable {p : State} {h e : Nat}

theorem foldl_fixed_of_mem {α β : Type} {f : α → β → α} {a : α} {l : List β}
    (hf : ∀ b ∈ l, f a b = a) : l.foldl f a = a := by
  induction l with
  | nil => rfl
  | cons b l ih =>
    rw [List.foldl_cons, hf b (List.mem_cons_self _ _)]
    exact ih fun c hc => hf c (List.mem_cons_of_mem _ hc)

/-- A session may come to point to a recording that has a reference to spare. -/
theorem Inv.pointTo {s : Session} (hi : Inv p) (hh : h < p.nextHandle) (he : e < p.nextRec)
    (hs : recHolders p e < (p.recs e).ref) (hm : s.inMap = (p.sess h).inMap)
    (hr : s.ref = (p.sess h).ref) (hrec : s.recording = some e) : Inv (p.setSess h s) :=
  hi.setSess hh (by rw [sessHolders_setSess hm, hr]; exact hi.2.sess h) fun e' he' =>
    .inr (Option.some.inj (hrec.symm.trans he') ▸ ⟨he, hs⟩)

theorem inv_init : Inv State.init :=
  ⟨⟨fun _ _ => rfl, fun _ _ => rfl, nofun, nofun, nofun, nofun⟩, rfl,
    fun _ => by simp [sessHolders, State.init, Session.none], fun _ => by simp [recHolders, State.init]⟩

/-- The new session's count 1 is the table's. -/
theorem Inv.createSession (hi : Inv p) : Inv p.createSession := by
  have hn : p.sess p.nextHandle = .none := hi.1.sess _ (Nat.le_refl _)
  have h0 := hi.2.sess p.nextHandle
  rw [hn] at h0
  have hq : Inv { p with nextHandle := p.nextHandle + 1 } := by
    refine ⟨⟨fun h' h1 => hi.1.sess h' (by simp only at h1; omega), hi.1.recs,
      fun x hx => Nat.lt_succ_of_lt (hi.1.messages x hx),
      fun t ht => ⟨Nat.lt_succ_of_lt (hi.1.tasks t ht).1, (hi.1.tasks t ht).2⟩,
      hi.1.recordings, hi.1.recording⟩, hi.2.fault, hi.2.sess, fun e => ?_⟩
    have := hi.2.recs e
    simpa [recHolders, List.range_succ, hn, Session.none] using this
  refine hq.setSess (Nat.lt_succ_self _) ?_ fun _ h => Option.noConfusion h
  simp only [sessHolders, setSess_sess, Function.update_same, setSess_messages, setSess_tasks,
    hn, Session.none] at h0 ⊢
  simp only [if_true, Bool.false_eq_true, if_false] at h0 ⊢
  omega

/-- The `list` request takes and drops a reference on each listed recording: it changes
nothing. -/
theorem Inv.listRecordings_eq (hi : Inv p) : p.listRecordings = p := by
  unfold State.listRecordings
  refine foldl_fixed_of_mem fun x hx => ?_
  dsimp only
  split_ifs
  · exact incrRec_decrRec (hi.rec_pos hx)
  · rfl

theorem Inv.handleMessage (hi : Inv p) (h : Nat) (m : Message) : Inv (p.handleMessage h m) := by
  by_cases hm : (p.sess h).inMap
  · have h0 := hi.sess_pos hm
    have hq := hi.incrSess h0
    have hs := incrSess_spare hi h0
    simp only [State.handleMessage, hm, not_true_eq_false, if_false]
    split_ifs
    · exact hq.decrSess hs
    · cases m with
      | list => rw [hq.listRecordings_eq]; exact hq.decrSess hs
      | sync => exact hq.decrSess hs
      | async req => exact hq.pushMessage (hq.1.lt_of_ref (by omega)) hs req
  · simpa [State.handleMessage, hm] using hi

theorem Inv.messageFree (hi : Inv p) : Inv p.messageFree := by
  unfold State.messageFree
  split
  · exact hi
  · rename_i h req rest hm
    obtain ⟨hq, hs⟩ := hi.popMessage hm
    exact hq.decrSess hs

/-- A new entity starts with a count of 2: the table's and the session's. -/
theorem Inv.newRecording (hi : Inv p) (hh : h < p.nextHandle) (id : Nat) (audio video : Bool) :
    Inv (p.newRecording h id audio video) := by
  have he : p.recs p.nextRec = .none := hi.1.recs _ (Nat.le_refl _)
  have h0 := hi.2.recs p.nextRec
  rw [he] at h0
  replace h0 : recHolders p p.nextRec = 0 := Nat.eq_zero_of_le_zero h0
  let q : State := { p with
    recs := Function.update p.recs p.nextRec ⟨id, 2, false, false, false, audio, video, []⟩,
    nextRec := p.nextRec + 1, recordings := p.recordings ++ [(id, p.nextRec)] }
  have kr : ∀ e, recHolders q e = recHolders p e + if p.nextRec = e then 1 else 0 := fun e => by
    simp only [q, recHolders, List.countP_append, List.countP_singleton, decide_eq_true_eq]
    omega
  have hq : Inv q := by
    refine ⟨⟨hi.1.sess, fun e h1 => ?_, hi.1.messages, fun t ht => ?_, fun x hx => ?_,
      fun h' e he' => Nat.lt_succ_of_lt (hi.1.recording h' e he')⟩, hi.2.fault, hi.2.sess, fun e => ?_⟩
    · simp only [q] at h1 ⊢
      rw [Function.update_noteq (by omega)]; exact hi.1.recs e (by omega)
    · exact ⟨(hi.1.tasks t ht).1, fun e he' => Nat.lt_succ_of_lt ((hi.1.tasks t ht).2 e he')⟩
    · rcases List.mem_append.mp hx with hx | hx
      · exact Nat.lt_succ_of_lt (hi.1.recordings x hx)
      · rw [List.mem_singleton.mp hx]; exact Nat.lt_succ_self _
    · rw [kr]
      split_ifs with he'
      · subst he'; simp [q, h0]
      · simpa [q, Function.update_noteq (Ne.symm he')] using hi.2.recs e
  exact hq.pointTo hh (Nat.lt_succ_self _) (by rw [kr]; simp [q, h0]) rfl rfl rfl

/-- Both branches keep the invariant. -/
theorem Inv.ite {c : Prop} [Decidable c] {x y : State × Reply} (hx : Inv x.1) (hy : Inv y.1) :
    Inv (if c then x else y).1 := by
  split <;> assumption

theorem Inv.play (hi : Inv p) (hh : h < p.nextHandle) (restart : Bool) (id : Nat)
    (offerOk aOk vOk : Bool) : Inv (p.play h restart id offerOk aOk vOk).1 := by
  simp only [State.play]
  refine Inv.ite ?_ ?_
  · split
    · exact hi
    · have hq := hi.setSess_same hh rfl rfl rfl
        (s := { p.sess h with sdpVersion := (p.sess h).sdpVersion + 1 })
      exact Inv.ite hi (Inv.ite hq hq)
  · split
    · exact hi
    · rename_i e hl
      have h0 := hi.rec_pos_of_lookup hl
      have hs := incrRec_spare hi h0
      have hq := hi.incrRec h0
      have hh' : h < (p.incrRec e).nextHandle := by simpa using hh
      have hq' := hq.setSess_same hh' rfl rfl rfl (s := { (p.incrRec e).sess h with
        aframes := if ((p.incrRec e).recs e).arcFile then aOk else (p.sess h).aframes,
        vframes := if ((p.incrRec e).recs e).vrcFile then vOk else (p.sess h).vframes })
      have he : e < (p.incrRec e).nextRec := hq.1.lt_of_rec_ref (by omega)
      refine Inv.ite (hq.decrRec hs) (Inv.ite hq' (Inv.setRec_same ?_ he (by rfl)))
      exact Inv.pointTo hq' hh' he (by rw [recHolders_setSess]; exacts [hs, rfl]) (by rfl) (by rfl)
        (by rfl)

theorem Inv.recordingsRemove (hi : Inv p) (id : Nat) : Inv (p.recordingsRemove id) := by
  unfold State.recordingsRemove
  split
  · exact hi
  · rename_i x hx
    obtain ⟨hq, hs⟩ := hi.eraseRecording (List.mem_of_find?_eq_some hx)
    unfold State.recordingDestroy
    split_ifs
    · exact hq
    · refine Inv.decrRec (Inv.setRec hq (hq.1.lt_of_rec_ref (Nat.lt_of_le_of_lt (Nat.zero_le _) hs))
        (Nat.le_of_lt hs)) ?_
      simpa using hs

theorem releaseRecording_eq (h0 : 0 < (p.recs e).ref) :
    p.releaseRecording h e = (p.setSess h { p.sess h with recording := none }).decrRec e := by
  simp only [State.releaseRecording, decrRec_of_pos h0,
    decrRec_of_pos (show 0 < ((p.setSess h { p.sess h with recording := none }).recs e).ref from h0)]
  rfl

/-- A session that stops pointing to its recording leaves it a reference to spare. -/
theorem Inv.unpoint {s : Session} (hi : Inv p) (he : (p.sess h).recording = some e)
    (hm : s.inMap = (p.sess h).inMap) (hr : s.ref = (p.sess h).ref) (hn : s.recording = none) :
    Inv (p.setSess h s) ∧ recHolders (p.setSess h s) e < (p.recs e).ref := by
  have hh := hi.1.lt_of_recording he
  have key := recHolders_setSess_add (s := s) hh e
  have := hi.2.recs e
  simp only [he, hn, if_true, reduceCtorEq, if_false] at key
  refine ⟨hi.setSess hh (by rw [sessHolders_setSess hm, hr]; exact hi.2.sess h) fun _ h => ?_, by omega⟩
  exact Option.noConfusion (hn.symm.trans h)

/-- The session lets its recording go: the reference it drops is the one it held. -/
theorem Inv.releaseRecording (hi : Inv p) (he : (p.sess h).recording = some e) :
    Inv (p.releaseRecording h e) := by
  rw [releaseRecording_eq (hi.rec_pos_of_recording he)]
  obtain ⟨hq, hs⟩ := hi.unpoint (s := { p.sess h with recording := none }) he rfl rfl rfl
  exact hq.decrRec hs

theorem Inv.hangup (hi : Inv p) (h : Nat) : Inv (p.hangup h) := by
  dsimp only [State.hangup]
  split
  · exact hi
  rename_i hm
  have hh := hi.lt_of_inMap (by simpa using hm)
  split
  · exact hi.setSess_same hh rfl rfl rfl
  split
  · exact hi.setSess_same hh rfl rfl rfl
  have hq := hi.setSess_same hh (s := { p.sess h with active := false, hangingup := 1 }) rfl rfl rfl
  split
  · exact hq
  · rename_i e he
    exact (hq.recordingsRemove _).releaseRecording (by simpa using he)

theorem Inv.updateRecorder (hi : Inv p) (hh : h < p.nextHandle) (answer : Bool) :
    Inv (p.updateRecorder h answer).1 := by
  dsimp only [State.updateRecorder]
  split
  · exact hi.setSess_same hh rfl rfl rfl
  · exact hi

theorem Inv.startRecording (hi : Inv p) (hh : h < p.nextHandle) {id : Nat} {draws : List Nat}
    {audio video answer : Bool} {x : State × Reply}
    (hx : p.startRecording h id draws audio video answer = some x) : Inv x.1 := by
  unfold State.startRecording at hx
  split at hx
  · cases hx; exact hi
  · obtain ⟨k, -, rfl⟩ := Option.map_eq_some'.mp hx
    exact hi.newRecording hh _ _ _

theorem Inv.record (hi : Inv p) (hh : h < p.nextHandle) {kind : String} {c : Checks}
    {update au an : Bool} {id : Nat} {draws : List Nat} {audio video : Bool} {x : State × Reply}
    (hx : p.record h kind c update au an id draws audio video = some x) : Inv x.1 := by
  unfold State.record at hx
  split at hx
  · cases hx; exact hi
  · split at hx
    · cases hx; exact hi.updateRecorder hh au
    · exact hi.startRecording hh hx

theorem Inv.process (hi : Inv p) (hh : h < p.nextHandle) {req : Request} {draws : List Nat}
    {aOk vOk : Bool} {x : State × Reply} (hx : p.process h req draws aOk vOk = some x) : Inv x.1 := by
  cases req with
  | record => exact hi.record hh hx
  | recordProcessAnswer => exact hi.record hh hx
  | recordGenerateOffer => cases hx; exact hi
  | play sdp json restart id offerOk =>
    simp only [State.process] at hx
    split at hx <;> cases hx
    exacts [hi, hi.play hh restart id offerOk aOk vOk]
  | start => simp only [State.process] at hx; split_ifs at hx <;> cases hx <;> exact hi
  | stop => cases hx; exact hi.hangup h
  | unknown => cases hx; exact hi

theorem Inv.push (hi : Inv p) (h : Nat) (r : Reply) : Inv (p.push h r) := by
  unfold State.push
  split
  · exact hi.answered h
  · exact hi

theorem Inv.handle (hi : Inv p) (hh : h < p.nextHandle) {req : Request} {draws : List Nat}
    {aOk vOk : Bool} {x : State × Reply} (hx : p.handle h req draws aOk vOk = some x) : Inv x.1 := by
  obtain ⟨y, hy, rfl⟩ := Option.map_eq_some'.mp hx
  exact (hi.process hh hy).push h y.2

theorem Inv.handler (hi : Inv p) (draws : List Nat) (aOk vOk : Bool) :
    Inv (p.handler draws aOk vOk) := by
  unfold State.handler
  split
  · exact hi
  · rename_i h req rest hm
    have hh : h < p.nextHandle := hi.1.messages _ (hm ▸ List.mem_cons_self _ _)
    split_ifs
    · split
      · rename_i x hx
        exact (hi.handle hh hx).messageFree
      · exact hi
    · exact hi.messageFree

theorem incrSess_ref (h0 : 0 < (p.sess h).ref) : ((p.incrSess h).sess h).ref = (p.sess h).ref + 1 := by
  rw [incrSess_of_pos h0]; simp

/-- A session's other fields may change without touching its spare references. -/
theorem spare_setSess_same {s : Session} (hm : s.inMap = (p.sess h).inMap) (hr : s.ref = (p.sess h).ref)
    (hs : sessHolders p h < (p.sess h).ref) :
    sessHolders (p.setSess h s) h < ((p.setSess h s).sess h).ref := by
  rw [sessHolders_setSess hm]
  simpa [hr] using hs

theorem Inv.setupMedia (hi : Inv p) (h : Nat) (threadOk : Bool) : Inv (p.setupMedia h threadOk) := by
  by_cases hl : ¬(p.sess h).inMap ∨ (p.sess h).destroyed
  · simp only [State.setupMedia, hl, if_true]; exact hi
  · have hm : (p.sess h).inMap := by simp only [not_or, not_not] at hl; exact hl.1
    have h0 := hi.sess_pos hm
    have hh := hi.lt_of_inMap hm
    simp only [State.setupMedia, hl, if_false]
    have hq := (hi.incrSess h0).setSess_same (by simpa using hh)
      (s := { (p.incrSess h).sess h with hangingup := 0, active := true }) rfl rfl rfl
    have hs := spare_setSess_same (s := { (p.incrSess h).sess h with hangingup := 0, active := true })
      rfl rfl (incrSess_spare hi h0)
    have h0' := Nat.lt_of_le_of_lt (Nat.zero_le _) hs
    split
    · exact hq.decrSess hs
    split
    · refine (((hq.incrSess h0').pushTask (t := ⟨h, none⟩) (by simpa using hh)
        (incrSess_spare hq h0') fun _ h => Option.noConfusion h)).decrSess ?_
      rw [sessHolders_pushTask]
      dsimp only at hs ⊢
      simp only [if_true, sessHolders_incrSess, incrSess_ref h0']
      omega
    · rw [incrSess_decrSess h0']; exact hq.decrSess hs

/-- The table lets the session go: the reference it drops is the table's. -/
theorem Inv.sessionsRemove (hi : Inv p) (hm : (p.sess h).inMap) : Inv (p.sessionsRemove h) := by
  have hh := hi.lt_of_inMap hm
  have key := sessHolders_setSess_self (p := p) (h := h) (s := { p.sess h with inMap := false })
  have := hi.2.sess h
  simp only [hm, if_true, Bool.false_eq_true, if_false] at key
  have hq := hi.setSess hh (s := { p.sess h with inMap := false }) (by simp only; omega)
    fun _ he => .inl he
  dsimp only [State.sessionsRemove]
  split
  · exact hq
  · let q := p.setSess h { p.sess h with inMap := false }
    refine (hq.setSess_same (s := { q.sess h with destroyed := true }) hh rfl rfl rfl).decrSess
      (spare_setSess_same (s := { q.sess h with destroyed := true }) rfl rfl ?_)
    simp only [q, setSess_sess, Function.update_same]
    omega

theorem Inv.destroySession (hi : Inv p) (h : Nat) : Inv (p.destroySession h) := by
  unfold State.destroySession
  split
  · exact hi
  · rename_i hm
    exact (hi.hangup h).sessionsRemove (by rw [hangup_inMap]; simpa using hm)

theorem Inv.querySession (hi : Inv p) (h : Nat) : Inv (p.querySession h) := by
  by_cases hm : (p.sess h).inMap
  · have h0 := hi.sess_pos hm
    have hq := hi.incrSess h0
    have hs := incrSess_spare hi h0
    simp only [State.querySession, hm, not_true_eq_false, if_false]
    split
    · exact hq.decrSess hs
    · rename_i e he
      rw [incrRec_decrRec (hq.rec_pos_of_recording he)]
      exact hq.decrSess hs
  · simpa [State.querySession, hm] using hi

/-- A playout thread that ends drops its two references; the one on the recording is its own or
one to spare. -/
theorem Inv.endTask (hi : Inv p) {t : Task} (ht : t ∈ p.tasks)
    (he : t.recording = some e ∨ recHolders p e < (p.recs e).ref) : Inv (p.endTask t e) := by
  obtain ⟨hq, hs⟩ := hi.eraseTask ht
  have kr := recHolders_eraseTask ht e
  have := hi.2.recs e
  refine (hq.decrRec ?_).decrSess (by simpa using hs)
  simp only
  rcases he with he | he
  · simp only [he, if_true] at kr; omega
  · split_ifs at kr <;> omega

theorem Inv.playoutStart (hi : Inv p) {t : Task} (ht : t ∈ p.tasks) (hn : t.recording = none)
    (afileOk vfileOk : Bool) : Inv (p.playoutStart t afileOk vfileOk) := by
  have hh := (hi.1.tasks t ht).1
  simp only [State.playoutStart]
  split
  · obtain ⟨hq, hs⟩ := hi.eraseTask ht
    exact hq.decrSess hs
  · rename_i e he
    have h0 := hi.rec_pos_of_recording he
    have hs := incrRec_spare hi h0
    have hq := hi.incrRec h0
    have ht' : t ∈ (p.incrRec e).tasks := by simpa using ht
    split_ifs
    · exact hq.endTask ht' (.inr hs)
    · obtain ⟨hq', hs'⟩ := hq.eraseTask ht'
      have kr := recHolders_eraseTask ht' e
      simp only [hn, reduceCtorEq, if_false, Nat.add_zero] at kr
      refine hq'.pushTask (hq.1.tasks t ht').1 hs' fun e' he' => ?_
      obtain rfl : e = e' := Option.some.inj he'
      exact ⟨hq.1.lt_of_rec_ref (by omega), by rw [kr]; exact hs⟩

theorem Inv.playoutExit (hi : Inv p) {t : Task} (ht : t ∈ p.tasks) (he : t.recording = some e) :
    Inv (p.playoutExit t e) := by
  have hq := hi.setSess_same (s := { p.sess t.session with aframes := false, vframes := false })
    (hi.1.tasks t ht).1 rfl rfl rfl
  exact (hq.setRec_same ((hi.1.tasks t ht).2 e he) (by rfl)).endTask ht (.inl he)

theorem Inv.step (hi : Inv p) (op : Op) : Inv (step p op) := by
  cases op with
  | createSession => exact hi.createSession
  | handleMessage h m => exact hi.handleMessage h m
  | handler draws aOk vOk => exact hi.handler draws aOk vOk
  | setupMedia h threadOk => exact hi.setupMedia h threadOk
  | hangupMedia h => exact hi.hangup h
  | destroySession h => exact hi.destroySession h
  | querySession h => exact hi.querySession h
  | playoutStart t afileOk vfileOk =>
    simp only [Plugin.step]
    split_ifs with ht
    · exact hi.playoutStart ht.1 ht.2 afileOk vfileOk
    · exact hi
  | playoutExit t =>
    simp only [Plugin.step]
    split
    · split_ifs with ht
      · exact hi.playoutExit ht ‹_›
      · exact hi
    · exact hi

theorem Inv.run (hi : Inv p) (ops : List Op) : Inv (run p ops) := by
  induction ops generalizing p with
  | nil => exact hi
  | cons op ops ih => exact ih (hi.step op)

end Operations

/-! ### Every reachable state -/

/-- After any sequence of operations every count is at least its holders, and no count was
taken or dropped at 0. It holds for every sequence, also one whose handler keys are not fresh. -/
theorem refcounts_cover_holders (ops : List Op) : Counted (run State.init ops) :=
  (inv_init.run ops).2

/-! ### A recording the session forgets -/

/-- A session records twice: the second `record` overwrites `session->recording`, and the hang-up
only releases the second entity. -/
def recordTwice : List Op :=
  [.createSession, .handleMessage 0 (.async (.record ⟨true, none, none⟩ false 0 true false)),
    .handler [5] true true, .handleMessage 0 (.async (.record ⟨true, none, none⟩ false 0 true false)),
    .handler [6] true true, .hangupMedia 0]

/-- After session 0 created entity 0 under key 5, recorded again and hung up, entity 0 is still
in the table with a count of 2 and one holder. -/
theorem record_twice_leaks :
    Admissible State.init recordTwice ∧
      ((run State.init (recordTwice.take 3)).sess 0).recording = some 0 ∧
      ((run State.init recordTwice).sess 0).hangingup = 1 ∧
      (run State.init recordTwice).lookup 5 = some 0 ∧
      ((run State.init recordTwice).recs 0).ref = 2 ∧ recHolders (run State.init recordTwice) 0 = 1 := by
  decide

end AuviousRecordPlay.Refcount

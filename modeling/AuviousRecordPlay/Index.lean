import AuviousRecordPlay.Container
import Mathlib.Data.List.Nodup
import Mathlib.Data.List.Chain

/-!
# The frame index: a doubly linked list built by backward-scan insertion

`janus_auviousrecordplay_frame_packet` (lines 363-370) and pass 2's insertion
loop (lines 2143-2205). Packets live in a heap indexed by allocation order,
each node holding its frame data and its `next`/`prev` links; `list` and
`last` are the two ends. A new packet is linked right after the first node,
scanning from `last` toward the head, that it goes after (`goesAfter`), or
becomes the new head.

The abstract side is `insertRev`, the same insertion on a plain list given
tail first. `Links` says the heap links the allocated nodes in the order of a
list of node ids; `insert_links` shows one heap insertion keeps it, with the
id list changing by `insertRev`.
-/

namespace AuviousRecordPlay.Index

/-- The data fields of a frame packet: RTP sequence number, extended timestamp, payload
length and payload offset in the file. -/
structure Frame where
  seq : Nat
  ts : Nat
  len : Nat
  offset : Nat
  seq_lt : seq < 2 ^ 16
deriving DecidableEq

instance : Inhabited Frame := ⟨⟨0, 0, 0, 0, by decide⟩⟩

/-- A frame packet in memory: its data and its two links (`NULL` is `none`). -/
structure Node where
  frame : Frame
  next : Option Nat
  prev : Option Nat

instance : Inhabited Node := ⟨⟨default, none, none⟩⟩

/-- The packets allocated so far (the `k`-th `g_malloc` at address `k`) and the two ends of
the list, `list` and `last` in the source. -/
structure FrameList where
  mem : Nat → Node
  size : Nat
  list : Option Nat
  last : Option Nat

/-- No packet yet: `list = last = NULL`. -/
def FrameList.empty : FrameList := ⟨fun _ => default, 0, none, none⟩

/-- The sequence test of the scan (lines 2170 and 2184): `a` is before `b` when it is smaller
and within 10000, or larger by more than 10000 (the 16-bit counter wrapped). -/
def seqBefore (a b : Nat) : Bool :=
  (a < b && Int.natAbs ((a : Int) - b) < 10000) || (a > b && Int.natAbs ((a : Int) - b) > 10000)

/-- The scan's test (lines 2153-2195): the new packet `p` is linked right after `t`. -/
def goesAfter (t p : Frame) : Bool :=
  t.ts < p.ts || (t.ts == p.ts && seqBefore t.seq p.seq)

/-- `tmp->next = v` on node `a`. -/
def setNext (mem : Nat → Node) (a : Nat) (v : Option Nat) : Nat → Node :=
  Function.update mem a { mem a with next := v }

/-- `tmp->prev = v` on node `a`. -/
def setPrev (mem : Nat → Node) (a : Nat) (v : Option Nat) : Nat → Node :=
  Function.update mem a { mem a with prev := v }

/-- The backward scan from `tmp` along `prev` (lines 2150-2199): the first node `p` goes
after, or `none` when the scan passes the head. `fuel` bounds the walk. -/
def scan (mem : Nat → Node) (p : Frame) : Nat → Option Nat → Option Nat
  | _, none => none
  | 0, some _ => none
  | fuel + 1, some t => if goesAfter (mem t).frame p then some t else scan mem p fuel (mem t).prev

/-- Link the new node `i` right after `t` (lines 2157-2166). -/
def linkAfter (l : FrameList) (i t : Nat) : FrameList :=
  let l := match (l.mem t).next with
    | some u => { l with mem := setNext (setPrev l.mem u (some i)) i (some u) }
    | none => { l with last := some i }
  { l with mem := setPrev (setNext l.mem t (some i)) i (some t) }

/-- Make the new node `i` the head, before `hd` (lines 2200-2204). -/
def linkHead (l : FrameList) (i hd : Nat) : FrameList :=
  { l with mem := setPrev (setNext l.mem i (some hd)) hd (some i), list := some i }

/-- One insertion of pass 2 (lines 2143-2205): allocate `p` at address `l.size`, then
scan back from `last` over the `l.size` nodes already there. -/
def FrameList.insert (l : FrameList) (p : Frame) : FrameList :=
  let i := l.size
  let l' : FrameList := { l with mem := Function.update l.mem i ⟨p, none, none⟩, size := i + 1 }
  match l.list with
  | none => { l' with list := some i, last := some i }
  | some hd =>
    match scan l'.mem p i l.last with
    | some t => linkAfter l' i t
    | none => linkHead l' i hd

/-- Pass 2's insertions of a sequence of packets into an empty list. -/
def insertAll (ps : List Frame) : FrameList := ps.foldl FrameList.insert .empty

/-- Walk the list from `c` along `next`, at most `fuel` nodes (the playout task's cursor). -/
def walk (mem : Nat → Node) : Nat → Option Nat → List Nat
  | _, none => []
  | 0, some _ => []
  | fuel + 1, some c => c :: walk mem fuel (mem c).next

/-- The node ids from `list` to `last`. -/
def FrameList.toList (l : FrameList) : List Nat := walk l.mem l.size l.list

/-- The frame of the packet at address `i`. -/
def FrameList.frameAt (l : FrameList) (i : Nat) : Frame := (l.mem i).frame

/-- Offset, length and sequence number of a packet. -/
def Frame.place (f : Frame) : Nat × Nat × Nat := (f.offset, f.len, f.seq)

/-- The frames from `list` to `last`. -/
def FrameList.frames (l : FrameList) : List Frame := l.toList.map l.frameAt

/-! ### The abstract insertion -/

/-- The backward-scan insertion on a list given tail first: `p` is put in front of the first
element `f` accepts, at the end if there is none. -/
def insertRev {α : Type} (f : α → Bool) (p : α) : List α → List α
  | [] => [p]
  | t :: ts => if f t then p :: t :: ts else t :: insertRev f p ts

theorem insertRev_map {α β : Type} {f : α → Bool} {k : β → Bool} {g : α → β} (p : α)
    {l : List α} (h : ∀ t ∈ l, f t = k (g t)) :
    (insertRev f p l).map g = insertRev k (g p) (l.map g) := by
  induction l with
  | nil => rfl
  | cons t ts ih =>
    have ht := h t (by simp)
    by_cases hf : f t <;> simp [insertRev, hf, ← ht, ih fun x hx => h x (by simp [hx])]

theorem insertRev_perm {α : Type} (f : α → Bool) (p : α) (l : List α) :
    (insertRev f p l).Perm (p :: l) := by
  induction l with
  | nil => rfl
  | cons t ts ih =>
    by_cases h : f t
    · simp [insertRev, h]
    · simpa [insertRev, h] using (ih.cons t).trans (List.Perm.swap p t ts)

theorem insertRev_of_find_some {α : Type} {f : α → Bool} {p t : α} {l : List α}
    (h : l.find? f = some t) :
    ∃ as bs, l = as ++ t :: bs ∧ insertRev f p l = as ++ p :: t :: bs := by
  induction l with
  | nil => simp at h
  | cons x xs ih =>
    by_cases hx : f x
    · have : x = t := by simpa [hx] using h
      subst this
      exact ⟨[], xs, rfl, by simp [insertRev, hx]⟩
    · obtain ⟨as, bs, rfl, h2⟩ := ih (by simpa [hx] using h)
      exact ⟨x :: as, bs, rfl, by simp [insertRev, hx, h2]⟩

theorem insertRev_of_find_none {α : Type} {f : α → Bool} {p : α} {l : List α}
    (h : l.find? f = none) : insertRev f p l = l ++ [p] := by
  induction l with
  | nil => rfl
  | cons x xs ih =>
    have hx : f x = false := by simpa using (List.find?_eq_none.mp h) x (by simp)
    simp [insertRev, hx, ih (by simpa [hx] using h)]

/-- The abstract index: the frames, tail first, after the backward-scan insertions of `ps`. -/
def indexRev (ps : List Frame) : List Frame :=
  ps.foldl (fun acc p => insertRev (goesAfter · p) p acc) []

/-! ### The list invariant -/

/-- The nodes `ids` are linked in this order: the first one's `prev` is `p`, each one's `next`
is the node after it, and the last one's `next` is `n`. -/
def Seg (mem : Nat → Node) (p : Option Nat) : List Nat → Option Nat → Prop
  | [], _ => True
  | i :: rest, n => (mem i).prev = p ∧ (mem i).next = rest.head?.or n ∧ Seg mem (some i) rest n

@[simp] theorem seg_nil (mem : Nat → Node) (p n : Option Nat) : Seg mem p [] n := trivial

@[simp] theorem seg_cons (mem : Nat → Node) (p n : Option Nat) (i : Nat) (rest : List Nat) :
    Seg mem p (i :: rest) n ↔
      (mem i).prev = p ∧ (mem i).next = rest.head?.or n ∧ Seg mem (some i) rest n := Iff.rfl

theorem seg_append (mem : Nat → Node) (xs ys : List Nat) :
    ∀ p n, Seg mem p (xs ++ ys) n ↔ Seg mem p xs (ys.head?.or n) ∧ Seg mem (xs.getLast?.or p) ys n := by
  induction xs with
  | nil => simp
  | cons x xs ih =>
    intro p n
    have hlast : (x :: xs).getLast?.or p = xs.getLast?.or (some x) := by
      cases h : xs.getLast? <;> simp [List.getLast?_cons, h]
    simp only [List.cons_append, seg_cons, ih, List.head?_append, Option.or_assoc, hlast, and_assoc]

/-- Only the links of the nodes in `ids` matter. -/
theorem seg_congr {mem mem' : Nat → Node} {ids : List Nat}
    (h : ∀ i ∈ ids, (mem' i).prev = (mem i).prev ∧ (mem' i).next = (mem i).next) :
    ∀ p n, Seg mem' p ids n ↔ Seg mem p ids n := by
  induction ids with
  | nil => simp
  | cons i rest ih =>
    intro p n
    obtain ⟨h1, h2⟩ := h i (by simp)
    simp only [seg_cons, h1, h2, ih fun j hj => h j (by simp [hj])]

theorem seg_update_of_not_mem {mem : Nat → Node} {ids : List Nat} {j : Nat} (hj : j ∉ ids)
    (v : Node) (p n : Option Nat) : Seg (Function.update mem j v) p ids n ↔ Seg mem p ids n :=
  seg_congr (fun i hi => by rw [Function.update_noteq (ne_of_mem_of_not_mem hi hj)]; simp) p n

/-- The list invariant of pass 2: the allocated nodes are linked from `list` to `last` in the
order `ids`, each exactly once; the first `prev` and the last `next` are `NULL`. -/
structure Links (l : FrameList) (ids : List Nat) : Prop where
  seg : Seg l.mem none ids none
  head : l.list = ids.head?
  last : l.last = ids.getLast?
  nodup : ids.Nodup
  mem_iff : ∀ i, i ∈ ids ↔ i < l.size

theorem links_empty : Links .empty [] := ⟨trivial, rfl, rfl, List.nodup_nil, by simp [FrameList.empty]⟩

/-- Following `prev` from the last of `ids` visits `ids` backwards. -/
theorem scan_eq_find (mem : Nat → Node) (p : Frame) (ids : List Nat) :
    ∀ n fuel, Seg mem none ids n → ids.length ≤ fuel →
      scan mem p fuel ids.getLast? = ids.reverse.find? fun t => goesAfter (mem t).frame p := by
  induction ids using List.reverseRecOn with
  | nil => intro n fuel _ _; cases fuel <;> rfl
  | append_singleton ys t ih =>
    intro n fuel hs hf
    rw [seg_append] at hs
    obtain ⟨hys, hprev, -, -⟩ := hs
    obtain ⟨fuel, rfl⟩ : ∃ f, fuel = f + 1 := ⟨fuel - 1, by simp at hf; omega⟩
    have hprev' : (mem t).prev = ys.getLast? := by cases h : ys.getLast? <;> simp_all
    simp only [List.getLast?_concat, scan, hprev', List.reverse_append, List.reverse_singleton,
      List.singleton_append, List.find?_cons]
    cases goesAfter (mem t).frame p
    · exact ih _ fuel hys (by simp at hf; omega)
    · rfl

/-! ### One insertion keeps the invariant -/

section Links

variable {mem : Nat → Node} {a b : Nat} {v : Option Nat}

@[simp] theorem setNext_frame : (setNext mem a v b).frame = (mem b).frame := by
  by_cases h : b = a <;> simp [setNext, Function.update_apply, h]

@[simp] theorem setNext_prev : (setNext mem a v b).prev = (mem b).prev := by
  by_cases h : b = a <;> simp [setNext, Function.update_apply, h]

@[simp] theorem setNext_next_self : (setNext mem a v a).next = v := by simp [setNext]

theorem setNext_next_of_ne (h : b ≠ a) : (setNext mem a v b).next = (mem b).next := by
  simp [setNext, Function.update_noteq h]

@[simp] theorem setPrev_frame : (setPrev mem a v b).frame = (mem b).frame := by
  by_cases h : b = a <;> simp [setPrev, Function.update_apply, h]

@[simp] theorem setPrev_next : (setPrev mem a v b).next = (mem b).next := by
  by_cases h : b = a <;> simp [setPrev, Function.update_apply, h]

@[simp] theorem setPrev_prev_self : (setPrev mem a v a).prev = v := by simp [setPrev]

theorem setPrev_prev_of_ne (h : b ≠ a) : (setPrev mem a v b).prev = (mem b).prev := by
  simp [setPrev, Function.update_noteq h]

theorem Links.length_eq {l : FrameList} {ids : List Nat} (h : Links l ids) : ids.length = l.size := by
  have hp : ids.Perm (List.range l.size) :=
    (List.perm_ext_iff_of_nodup h.nodup (List.nodup_range _)).mpr fun i => by
      simp [h.mem_iff]
  simpa using hp.length_eq

/-- The links `linkAfter` leaves: `i` between `t` and the node that followed it. -/
theorem seg_linkAfter {l : FrameList} {i t : Nat} {xs zs : List Nat}
    (hseg : Seg l.mem none (xs ++ t :: zs) none) (hnd : (xs ++ t :: zs).Nodup)
    (hi : i ∉ xs ++ t :: zs) (hinit : (l.mem i).next = none) :
    Seg (linkAfter l i t).mem none (xs ++ t :: i :: zs) none := by
  rw [seg_append] at hseg ⊢
  obtain ⟨hxs, htprev, htnext, hzs⟩ := hseg
  obtain ⟨-, hnd', hdisj⟩ := List.nodup_append.mp hnd
  simp only [List.mem_append, List.mem_cons, not_or] at hi
  obtain ⟨hixs, hit, hizs⟩ := hi
  have htzs : t ∉ zs := (List.nodup_cons.mp hnd').1
  have hxs_ne : ∀ j ∈ xs, j ≠ t ∧ j ≠ i ∧ j ∉ zs := fun j hj =>
    ⟨fun h => hdisj hj (h ▸ List.mem_cons_self t zs), fun h => hixs (h ▸ hj),
      fun h => hdisj hj (List.mem_cons_of_mem t h)⟩
  cases zs with
  | nil =>
    simp only [List.head?_nil, Option.or_none] at htnext
    simp only [linkAfter, htnext]
    refine ⟨(seg_congr (fun j hj => ?_) _ _).mpr hxs, ?_⟩
    · obtain ⟨h1, h2, -⟩ := hxs_ne j hj
      simp [setPrev_prev_of_ne, setNext_next_of_ne, h1, h2]
    · simp [setPrev_prev_of_ne, setNext_next_of_ne, Ne.symm hit, hit, htprev, hinit]
  | cons z zs =>
    simp only [List.head?_cons, Option.or_some] at htnext
    simp only [seg_cons] at hzs
    obtain ⟨hzprev, hznext, hrest⟩ := hzs
    simp only [List.mem_cons, not_or] at htzs hizs
    have hzs_ne : ∀ j ∈ zs, j ≠ t ∧ j ≠ i ∧ j ≠ z := fun j hj =>
      ⟨fun h => htzs.2 (h ▸ hj), fun h => hizs.2 (h ▸ hj),
        fun h => (List.nodup_cons.mp (List.nodup_cons.mp hnd').2).1 (h ▸ hj)⟩
    simp only [linkAfter, htnext]
    refine ⟨(seg_congr (fun j hj => ?_) _ _).mpr hxs, ?_⟩
    · obtain ⟨h1, h2, h3⟩ := hxs_ne j hj
      have h3 : j ≠ z := fun h => h3 (h ▸ List.mem_cons_self z zs)
      simp [setPrev_prev_of_ne, setNext_next_of_ne, h1, h2, h3]
    · simp only [seg_cons]
      refine ⟨?_, ?_, ?_, ?_, ?_, ?_, (seg_congr (fun j hj => ?_) _ _).mpr hrest⟩
      · simp [setPrev_prev_of_ne, Ne.symm hit, htzs.1, htprev]
      · simp [setNext_next_of_ne, Ne.symm hit]
      · simp
      · simp [setNext_next_of_ne, hit]
      · simp [setPrev_prev_of_ne, Ne.symm hizs.1]
      · simp [setNext_next_of_ne, Ne.symm hizs.1, Ne.symm htzs.1, hznext]
      · obtain ⟨h1, h2, h3⟩ := hzs_ne j hj
        simp [setPrev_prev_of_ne, setNext_next_of_ne, h1, h2, h3]

/-- The links `linkHead` leaves: `i` in front of the old head. -/
theorem seg_linkHead {l : FrameList} {i hd : Nat} {rest : List Nat}
    (hseg : Seg l.mem none (hd :: rest) none) (hnd : (hd :: rest).Nodup)
    (hi : i ∉ hd :: rest) (hinit : (l.mem i).prev = none) :
    Seg (linkHead l i hd).mem none (i :: hd :: rest) none := by
  simp only [seg_cons] at hseg
  obtain ⟨-, hnext, hrest⟩ := hseg
  simp only [List.mem_cons, not_or] at hi
  have hrest_ne : ∀ j ∈ rest, j ≠ i ∧ j ≠ hd := fun j hj =>
    ⟨fun h => hi.2 (h ▸ hj), fun h => (List.nodup_cons.mp hnd).1 (h ▸ hj)⟩
  simp only [linkHead, seg_cons]
  refine ⟨?_, ?_, ?_, ?_, (seg_congr (fun j hj => ?_) _ _).mpr hrest⟩
  · simp [setPrev_prev_of_ne, hi.1, hinit]
  · simp
  · simp
  · simp [setNext_next_of_ne, Ne.symm hi.1, hnext]
  · obtain ⟨h1, h2⟩ := hrest_ne j hj
    simp [setPrev_prev_of_ne, setNext_next_of_ne, h1, h2]

theorem linkAfter_frame (l : FrameList) (i t j : Nat) :
    ((linkAfter l i t).mem j).frame = (l.mem j).frame := by
  unfold linkAfter; split <;> simp

theorem linkHead_frame (l : FrameList) (i hd j : Nat) :
    ((linkHead l i hd).mem j).frame = (l.mem j).frame := by
  simp [linkHead]

/-- Insertion only links: every node keeps its frame, the new one holds `p`. -/
theorem insert_frame (l : FrameList) (p : Frame) (j : Nat) :
    ((l.insert p).mem j).frame = (Function.update l.mem l.size ⟨p, none, none⟩ j).frame := by
  simp only [FrameList.insert]
  split
  · rfl
  · split <;> simp only [linkAfter_frame, linkHead_frame]

@[simp] theorem insert_size (l : FrameList) (p : Frame) : (l.insert p).size = l.size + 1 := by
  simp only [FrameList.insert, linkAfter]
  split
  · rfl
  · split
    · split <;> rfl
    · rfl

theorem find?_congr {α : Type} {f g : α → Bool} {l : List α} (h : ∀ x ∈ l, f x = g x) :
    l.find? f = l.find? g := by
  induction l with
  | nil => rfl
  | cons x xs ih =>
    simp only [List.find?_cons, h x (by simp), ih fun y hy => h y (by simp [hy])]

/-- One insertion keeps the invariant, the ids being reordered by the abstract insertion of
the new node `l.size` into the reversed list. -/
theorem insert_links {l : FrameList} {ids : List Nat} (h : Links l ids) (p : Frame) :
    Links (l.insert p)
      (insertRev (fun t => goesAfter (l.mem t).frame p) l.size ids.reverse).reverse := by
  set f := fun t => goesAfter (l.mem t).frame p
  set m0 := Function.update l.mem l.size ⟨p, none, none⟩
  have hi : l.size ∉ ids := fun hm => lt_irrefl _ ((h.mem_iff _).mp hm)
  have hperm : (insertRev f l.size ids.reverse).reverse.Perm (l.size :: ids) :=
    (List.reverse_perm _).trans ((insertRev_perm _ _ _).trans ((List.reverse_perm _).cons _))
  have hnd : (insertRev f l.size ids.reverse).reverse.Nodup :=
    hperm.nodup_iff.mpr (List.nodup_cons.mpr ⟨hi, h.nodup⟩)
  have hmem : ∀ j, j ∈ (insertRev f l.size ids.reverse).reverse ↔ j < (l.insert p).size := by
    intro j; rw [hperm.mem_iff, insert_size, List.mem_cons, h.mem_iff]; omega
  have hm0 : ∀ t ∈ ids, m0 t = l.mem t := fun t ht =>
    Function.update_noteq (fun e : t = l.size => hi (e ▸ ht)) _ _
  have hseg0 : Seg m0 none ids none := (seg_update_of_not_mem hi _ _ _).mpr h.seg
  cases hl : l.list with
  | none =>
    have hids : ids = [] := List.head?_eq_none_iff.mp (h.head ▸ hl)
    subst hids
    refine ⟨?_, ?_, ?_, hnd, hmem⟩ <;> simp [FrameList.insert, hl, insertRev, m0]
  | some hd =>
    have hscan : scan m0 p l.size l.last = ids.reverse.find? f := by
      rw [h.last, scan_eq_find m0 p ids none l.size hseg0 h.length_eq.le]
      exact find?_congr fun t ht => by simp only [f, hm0 t (List.mem_reverse.mp ht)]
    cases hf : ids.reverse.find? f with
    | some t =>
      obtain ⟨as, bs, hrev, hins⟩ := insertRev_of_find_some (p := l.size) hf
      have hids : ids = bs.reverse ++ t :: as.reverse := by
        simpa using congrArg List.reverse hrev
      have hins' : (insertRev f l.size ids.reverse).reverse =
          bs.reverse ++ t :: l.size :: as.reverse := by simp [hins]
      rw [hins'] at hnd hmem ⊢
      have hseg := hseg0
      rw [hids] at hseg hi
      have htnext : (m0 t).next = as.reverse.head? := by
        have := ((seg_append m0 _ _ none none).mp hseg).2
        simpa using this.2.1
      have hsegl := seg_linkAfter (l := { l with mem := m0, size := l.size + 1 }) hseg
        (hids ▸ h.nodup) hi (by simp [m0])
      refine ⟨?_, ?_, ?_, hnd, hmem⟩
      · simpa [FrameList.insert, hl, hscan, hf] using hsegl
      · have hhead : (bs.reverse ++ t :: as.reverse).head? = some hd := hids ▸ h.head ▸ hl
        simp only [List.head?_append, List.head?_cons, List.head?_reverse] at hhead
        simp only [FrameList.insert, hl, hscan, hf, linkAfter]
        split <;> simp [List.head?_append, hhead]
      · have hlast : l.last = (bs.reverse ++ t :: as.reverse).getLast? := hids ▸ h.last
        have htn : (Function.update l.mem l.size ⟨p, none, none⟩ t).next = as.reverse.head? :=
          htnext
        simp only [FrameList.insert, hl, hscan, hf, linkAfter, htn]
        cases has : as.reverse with
        | nil => simp
        | cons z zs => simp [hlast, List.getLast?_append, has]
    | none =>
      obtain ⟨rest, hids⟩ : ∃ rest, ids = hd :: rest :=
        ⟨ids.tail, (List.eq_cons_of_mem_head? (h.head ▸ hl : hd ∈ ids.head?))⟩
      have hins' : (insertRev f l.size ids.reverse).reverse = l.size :: ids := by
        simp [insertRev_of_find_none hf]
      rw [hins'] at hnd hmem ⊢
      rw [hids] at hseg0 hi ⊢
      have hsegl := seg_linkHead (l := { l with mem := m0, size := l.size + 1 }) hseg0
        (hids ▸ h.nodup) hi (by simp [m0])
      refine ⟨?_, ?_, ?_, hids ▸ hnd, hids ▸ hmem⟩
      · simpa [FrameList.insert, hl, hscan, hf] using hsegl
      · simp [FrameList.insert, hl, hscan, hf, linkHead]
      · simp only [FrameList.insert, hl, hscan, hf, linkHead]
        simp [h.last, hids, List.getLast?_cons]

/-- Following `next` from the head of `ids` visits `ids`. -/
theorem walk_eq (mem : Nat → Node) (ids : List Nat) :
    ∀ q fuel, Seg mem q ids none → ids.length ≤ fuel → walk mem fuel ids.head? = ids := by
  induction ids with
  | nil => intro q fuel _ _; cases fuel <;> rfl
  | cons i rest ih =>
    intro q fuel hs hf
    obtain ⟨fuel, rfl⟩ : ∃ f, fuel = f + 1 := ⟨fuel - 1, by simp at hf; omega⟩
    obtain ⟨-, hnext, hrest⟩ := hs
    simp only [List.head?_cons, walk, hnext, Option.or_none, ih _ fuel hrest (by simp at hf; omega)]

theorem Links.toList_eq {l : FrameList} {ids : List Nat} (h : Links l ids) : l.toList = ids := by
  rw [FrameList.toList, h.head]
  exact walk_eq l.mem ids none l.size h.seg h.length_eq.le

/-- Along `ids`, each node's `next` is the node after it, the last one's is `n`. -/
theorem seg_next {mem : Nat → Node} {ids : List Nat} : ∀ {p n : Option Nat}, Seg mem p ids n →
    ∀ k (hk : k < ids.length), (mem ids[k]).next = ids[k + 1]?.or n := by
  induction ids with
  | nil => intro _ _ _ k hk; exact absurd hk (Nat.not_lt_zero k)
  | cons i rest ih =>
    intro p n hs k hk
    obtain ⟨-, hnext, hrest⟩ := hs
    cases k with
    | zero => simpa [List.head?_eq_getElem?] using hnext
    | succ k => simpa using ih hrest k (by simpa using hk)

/-- Along `ids`, each node's `prev` is the node before it. -/
theorem seg_prev {mem : Nat → Node} {ids : List Nat} : ∀ {p n : Option Nat}, Seg mem p ids n →
    ∀ k (hk : k + 1 < ids.length), (mem ids[k + 1]).prev = some ids[k] := by
  induction ids with
  | nil => intro _ _ _ k hk; exact absurd hk (Nat.not_lt_zero _)
  | cons i rest ih =>
    intro p n hs k hk
    obtain ⟨-, -, hrest⟩ := hs
    cases k with
    | zero =>
      obtain ⟨j, rest, rfl⟩ := List.exists_cons_of_length_pos (by simpa using hk)
      exact hrest.1
    | succ k => simpa using ih hrest k (by simpa using hk)

theorem Links.next_eq {l : FrameList} {ids : List Nat} (h : Links l ids) {k : Nat}
    (hk : k < ids.length) : (l.mem ids[k]).next = ids[k + 1]? := by
  simpa using seg_next h.seg k hk

theorem Links.prev_eq {l : FrameList} {ids : List Nat} (h : Links l ids) {k : Nat}
    (hk : k + 1 < ids.length) : (l.mem ids[k + 1]).prev = some ids[k] :=
  seg_prev h.seg k hk

/-- The head of the list is the first of `ids` and no other: `ids` has no repeats. -/
theorem Links.head_eq_iff {l : FrameList} {ids : List Nat} (h : Links l ids) {k : Nat}
    (hk : k < ids.length) : some ids[k] = l.list ↔ k = 0 := by
  rw [h.head, List.head?_eq_getElem?, List.getElem?_eq_getElem (by omega), Option.some_inj,
    h.nodup.getElem_inj_iff]

theorem insert_frameAt (l : FrameList) (p : Frame) (j : Nat) :
    (l.insert p).frameAt j = if j = l.size then p else l.frameAt j := by
  simp only [FrameList.frameAt, insert_frame, Function.update_apply]
  split <;> rfl

/-- One insertion on the frames in list order, tail first: the abstract insertion of `p`. -/
theorem insert_index {l : FrameList} {ids : List Nat} (h : Links l ids) (p : Frame) :
    ((insertRev (fun t => goesAfter (l.mem t).frame p) l.size ids.reverse).reverse.map
      (l.insert p).frameAt).reverse = insertRev (goesAfter · p) p (ids.map l.frameAt).reverse := by
  have hold : ∀ j ∈ ids, (l.insert p).frameAt j = l.frameAt j := fun j hj => by
    rw [insert_frameAt, if_neg (fun e => lt_irrefl _ (e ▸ (h.mem_iff j).mp hj))]
  rw [List.map_reverse, List.reverse_reverse, insertRev_map (k := (goesAfter · p)) _ fun t ht => by
    rw [hold t (List.mem_reverse.mp ht)]; rfl]
  rw [insert_frameAt, if_pos rfl, ← List.map_reverse]
  exact congrArg _ (List.map_congr_left fun j hj => hold j (List.mem_reverse.mp hj))

/-- The run lemma of pass 2's insertions: the invariant holds after each of them, the frames
in list order are the abstract index, and the frames in allocation order are the packets. -/
theorem foldl_insert_links {l : FrameList} {ids : List Nat} (h : Links l ids) (ps : List Frame) :
    ∃ ids', Links (ps.foldl FrameList.insert l) ids' ∧
      (ids'.map (ps.foldl FrameList.insert l).frameAt).reverse =
        ps.foldl (fun acc p => insertRev (goesAfter · p) p acc) (ids.map l.frameAt).reverse ∧
      (List.range (l.size + ps.length)).map (ps.foldl FrameList.insert l).frameAt =
        (List.range l.size).map l.frameAt ++ ps := by
  induction ps generalizing l ids with
  | nil => exact ⟨ids, h, rfl, by simp⟩
  | cons p ps ih =>
    obtain ⟨ids', h', hrev, halloc⟩ := ih (insert_links h p)
    refine ⟨ids', h', ?_, ?_⟩
    · rw [List.foldl_cons, hrev, insert_index h p]
      rfl
    · simp only [List.foldl_cons, List.length_cons, insert_size] at halloc ⊢
      rw [show l.size + (ps.length + 1) = l.size + 1 + ps.length by omega, halloc,
        List.range_succ, List.map_append, List.map_singleton, insert_frameAt, if_pos rfl,
        List.append_assoc, List.singleton_append]
      exact congrArg (· ++ p :: ps) (List.map_congr_left fun j hj => by
        rw [insert_frameAt, if_neg (Nat.ne_of_lt (List.mem_range.mp hj))])

theorem insertAll_size (ps : List Frame) : (insertAll ps).size = ps.length := by
  suffices ∀ l : FrameList, (ps.foldl FrameList.insert l).size = l.size + ps.length by
    simpa [FrameList.empty] using this .empty
  induction ps with
  | nil => simp
  | cons p ps ih => intro l; simp [ih]; omega

/-- Pass 2's insertions of `ps` from the empty list: the list links every packet once, in the
order of the abstract index, and packet `i` sits at address `i`. -/
theorem insertAll_links (ps : List Frame) :
    ∃ ids, Links (insertAll ps) ids ∧ (insertAll ps).frames = (indexRev ps).reverse ∧
      (List.range ps.length).map (insertAll ps).frameAt = ps := by
  obtain ⟨ids, h, hrev, halloc⟩ := foldl_insert_links links_empty ps
  refine ⟨ids, h, ?_, by simpa [FrameList.empty] using halloc⟩
  rw [FrameList.frames, insertAll, h.toList_eq, ← List.reverse_reverse (ids.map _)]
  exact congrArg List.reverse hrev

end Links

end AuviousRecordPlay.Index

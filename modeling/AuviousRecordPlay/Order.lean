import AuviousRecordPlay.Index
import Mathlib.Data.List.Sort

/-!
# What the backward scan keeps in order

Two facts about pass 2's insertion (lines 2143-2205). First, for every
insertion order, no adjacent pair of the list is inverted under the scan's own
test (`goesAfter`): an insertion only creates the pairs it checked. Second,
when the packets of each extended timestamp have distinct sequence numbers
less than 10000 apart around the 16-bit wrap, the scan's test is a strict
total order on them, the order (extended timestamp, unwrapped sequence
number), and the list is sorted by it whatever the insertion order.
-/

namespace AuviousRecordPlay.Order

open AuviousRecordPlay.Index

theorem goesAfter_asymm {t p : Frame} (h : goesAfter t p = true) : goesAfter p t = false := by
  rw [Bool.eq_false_iff]; intro h'
  simp only [goesAfter, seqBefore, Bool.or_eq_true, Bool.and_eq_true, decide_eq_true_eq,
    beq_iff_eq] at h h'
  omega

theorem insertRev_head? {α : Type} (f : α → Bool) (p : α) (l : List α) :
    (insertRev f p l).head? = some p ∨ (insertRev f p l).head? = l.head? := by
  cases l with
  | nil => simp [insertRev]
  | cons t ts => by_cases h : f t <;> simp [insertRev, h]

/-- No inverted neighbours, tail first: of two neighbours, the later does not go after the
earlier. -/
def NoInversion (l : List Frame) : Prop := l.Chain' fun x y => goesAfter x y = false

theorem insertRev_noInversion (p : Frame) {l : List Frame} (h : NoInversion l) :
    NoInversion (insertRev (goesAfter · p) p l) := by
  induction l with
  | nil => exact List.chain'_singleton p
  | cons t ts ih =>
    rw [NoInversion, List.chain'_cons'] at h
    by_cases ht : goesAfter t p
    · simpa [insertRev, ht, NoInversion, List.chain'_cons', goesAfter_asymm ht] using h
    · simp only [insertRev, ht, Bool.false_eq_true, if_false, NoInversion]
      refine (ih h.2).cons' fun y hy => ?_
      rcases insertRev_head? (goesAfter · p) p ts with hp | hp <;> rw [hp] at hy
      · cases hy; simpa using ht
      · exact h.1 y hy

theorem indexRev_noInversion (ps : List Frame) : NoInversion (indexRev ps) := by
  suffices ∀ acc, NoInversion acc →
      NoInversion (ps.foldl (fun acc p => insertRev (goesAfter · p) p acc) acc) from
    this [] List.chain'_nil
  induction ps with
  | nil => exact fun _ h => h
  | cons p ps ih => exact fun acc h => ih _ (insertRev_noInversion p h)

/-- Every insertion order leaves no adjacent pair `a, b` of the list with `a` going after `b`. -/
theorem insertAll_frames_chain (ps : List Frame) :
    (insertAll ps).frames.Chain' fun a b => goesAfter b a = false := by
  obtain ⟨ids, -, hframes, -⟩ := insertAll_links ps
  rw [hframes, List.chain'_reverse]
  exact indexRev_noInversion ps

/-! ### Sequence numbers around the wrap -/

/-- How far `b` is ahead of `a` on the 16-bit sequence counter. -/
def arc (a b : Nat) : Nat := (b + 2 ^ 16 - a) % 2 ^ 16

/-- The distance of two sequence numbers around the 16-bit wrap. -/
def cyclicDist (a b : Nat) : Nat := min (arc b a) (arc a b)

/-- Two packets of one extended timestamp carry distinct sequence numbers less than 10000
apart around the wrap. -/
def Close (x y : Frame) : Prop := x.ts = y.ts → x.seq ≠ y.seq ∧ cyclicDist x.seq y.seq < 10000

instance : DecidableRel Close := fun _ _ => inferInstanceAs (Decidable (_ → _))

/-- The order (extended timestamp, unwrapped sequence number): in one timestamp, `b` comes
after `a` when it is less than 10000 ahead of it on the counter. -/
def TsSeqLt (a b : Frame) : Prop :=
  a.ts < b.ts ∨ (a.ts = b.ts ∧ 0 < arc a.seq b.seq ∧ arc a.seq b.seq < 10000)

theorem close_symm {x y : Frame} (h : Close x y) : Close y x := by
  intro hts
  obtain ⟨hne, hd⟩ := h hts.symm
  exact ⟨hne.symm, by simp only [cyclicDist] at hd ⊢; omega⟩

theorem seqBefore_iff {a b : Nat} (ha : a < 2 ^ 16) (hb : b < 2 ^ 16) (hne : a ≠ b)
    (hd : cyclicDist a b < 10000) : seqBefore a b = true ↔ arc a b < 10000 := by
  simp only [cyclicDist, arc] at hd
  simp only [seqBefore, arc, Bool.or_eq_true, Bool.and_eq_true, decide_eq_true_eq]
  omega

theorem arc_trans {a b c : Nat} (ha : a < 2 ^ 16) (hb : b < 2 ^ 16) (hc : c < 2 ^ 16)
    (hd : cyclicDist a c < 10000) (h1 : arc a b < 10000) (h2 : arc b c < 10000) :
    arc a c < 10000 := by
  simp only [cyclicDist, arc] at *
  omega

theorem goesAfter_iff {x y : Frame} (h : Close x y) :
    goesAfter x y = true ↔ x.ts < y.ts ∨ (x.ts = y.ts ∧ arc x.seq y.seq < 10000) := by
  simp only [goesAfter, Bool.or_eq_true, Bool.and_eq_true, decide_eq_true_eq, beq_iff_eq]
  constructor
  · rintro (h1 | ⟨h1, h2⟩)
    · exact .inl h1
    · obtain ⟨hne, hd⟩ := h h1
      exact .inr ⟨h1, (seqBefore_iff x.seq_lt y.seq_lt hne hd).mp h2⟩
  · rintro (h1 | ⟨h1, h2⟩)
    · exact .inl h1
    · obtain ⟨hne, hd⟩ := h h1
      exact .inr ⟨h1, (seqBefore_iff x.seq_lt y.seq_lt hne hd).mpr h2⟩

theorem goesAfter_total {x y : Frame} (h : Close x y) :
    goesAfter x y = true ∨ goesAfter y x = true := by
  rw [goesAfter_iff h, goesAfter_iff (close_symm h)]
  have := x.seq_lt; have := y.seq_lt
  by_cases hts : x.ts = y.ts
  · obtain ⟨hne, hd⟩ := h hts
    simp only [cyclicDist, arc] at hd ⊢
    omega
  · omega

theorem goesAfter_trans {x y z : Frame} (hxy : Close x y) (hyz : Close y z) (hxz : Close x z)
    (h1 : goesAfter x y = true) (h2 : goesAfter y z = true) : goesAfter x z = true := by
  rw [goesAfter_iff hxy] at h1
  rw [goesAfter_iff hyz] at h2
  rw [goesAfter_iff hxz]
  rcases h1 with h1 | ⟨h1, a1⟩ <;> rcases h2 with h2 | ⟨h2, a2⟩
  · exact .inl (h1.trans h2)
  · exact .inl (h2 ▸ h1)
  · exact .inl (h1 ▸ h2)
  · exact .inr ⟨h1.trans h2, arc_trans x.seq_lt y.seq_lt z.seq_lt (hxz (h1.trans h2)).2 a1 a2⟩

theorem goesAfter_tsSeqLt {x y : Frame} (h : Close x y) (hg : goesAfter x y = true) :
    TsSeqLt x y := by
  rw [goesAfter_iff h] at hg
  rcases hg with hg | ⟨hts, ha⟩
  · exact .inl hg
  · have hne := (h hts).1
    have := x.seq_lt; have := y.seq_lt
    exact .inr ⟨hts, by simp only [arc] at ha ⊢; omega, ha⟩

theorem tsSeqLt_asymm {x y : Frame} (h1 : TsSeqLt x y) (h2 : TsSeqLt y x) : False := by
  have := x.seq_lt; have := y.seq_lt
  simp only [TsSeqLt, arc] at h1 h2
  omega

/-! ### Sorted whatever the insertion order -/

/-- Tail first, every element goes after each element behind it. -/
def SortedRev (l : List Frame) : Prop := l.Pairwise fun x y => goesAfter y x = true

theorem insertRev_sortedRev {p : Frame} {acc : List Frame} (hs : SortedRev acc)
    (hc : (p :: acc).Pairwise Close) : SortedRev (insertRev (goesAfter · p) p acc) := by
  induction acc with
  | nil => simp [SortedRev, insertRev]
  | cons t ts ih =>
    rw [SortedRev, List.pairwise_cons] at hs
    simp only [List.pairwise_cons, List.mem_cons, forall_eq_or_imp] at hc
    obtain ⟨⟨hpt, hpts⟩, htts, hts⟩ := hc
    by_cases ht : goesAfter t p
    · simp only [insertRev, ht, if_true, SortedRev]
      refine List.pairwise_cons.mpr ⟨fun y hy => ?_, List.pairwise_cons.mpr hs⟩
      rcases List.mem_cons.mp hy with rfl | hy
      · exact ht
      · exact goesAfter_trans (close_symm (htts y hy)) (close_symm hpt) (close_symm (hpts y hy))
          (hs.1 y hy) ht
    · simp only [insertRev, ht, Bool.false_eq_true, if_false, SortedRev, List.pairwise_cons]
      refine ⟨fun y hy => ?_, ih hs.2 (List.pairwise_cons.mpr ⟨hpts, hts⟩)⟩
      rcases List.mem_cons.mp ((insertRev_perm _ _ _).mem_iff.mp hy) with rfl | hy
      · simpa [ht] using goesAfter_total (close_symm hpt)
      · exact hs.1 y hy

theorem indexRev_perm (ps : List Frame) : (indexRev ps).Perm ps.reverse := by
  suffices ∀ acc, (ps.foldl (fun acc p => insertRev (goesAfter · p) p acc) acc).Perm
      (ps.reverse ++ acc) by simpa using this []
  induction ps with
  | nil => simp
  | cons p ps ih =>
    intro acc
    simpa using (ih _).trans ((insertRev_perm _ _ _).append_left _)

theorem indexRev_sortedRev (ps : List Frame) (hc : ps.Pairwise Close) : SortedRev (indexRev ps) := by
  suffices ∀ acc, SortedRev acc → (acc ++ ps).Pairwise Close →
      SortedRev (ps.foldl (fun acc p => insertRev (goesAfter · p) p acc) acc) from
    this [] List.Pairwise.nil hc
  clear hc
  induction ps with
  | nil => exact fun _ h _ => h
  | cons p ps ih =>
    intro acc hs hc
    have hsym : ∀ {x y : Frame}, Close x y → Close y x := close_symm
    have hc' : (acc ++ [p] ++ ps).Pairwise Close := by simpa using hc
    have hpacc : (p :: acc).Pairwise Close :=
      ((List.perm_append_singleton p acc).pairwise_iff hsym).mp
        (hc'.sublist (List.sublist_append_left _ _))
    refine ih _ (insertRev_sortedRev hs hpacc) ?_
    exact ((((insertRev_perm _ _ _).append_right ps).trans
      List.perm_middle.symm).pairwise_iff hsym).mpr hc

/-- When the packets of each extended timestamp carry distinct sequence numbers less than
10000 apart around the wrap, pass 2's list holds the packets sorted by (extended timestamp,
unwrapped sequence number), and any other order of the same packets gives the same list. -/
theorem insertAll_sorted_of_close (ps qs : List Frame) (hc : ps.Pairwise Close)
    (hpq : ps.Perm qs) :
    (insertAll ps).frames.Perm ps ∧ (insertAll ps).frames.Sorted TsSeqLt ∧
      (insertAll ps).frames = (insertAll qs).frames := by
  have hsym : ∀ {x y : Frame}, Close x y → Close y x := close_symm
  have key : ∀ rs : List Frame, rs.Pairwise Close →
      (insertAll rs).frames.Perm rs ∧ (insertAll rs).frames.Sorted TsSeqLt := by
    intro rs hrs
    obtain ⟨-, -, hframes, -⟩ := insertAll_links rs
    have hperm : (insertAll rs).frames.Perm rs := by
      rw [hframes]
      exact (List.reverse_perm _).trans ((indexRev_perm rs).trans (List.reverse_perm rs))
    have hsorted : (insertAll rs).frames.Pairwise fun x y => goesAfter x y = true := by
      rw [hframes, List.pairwise_reverse]; exact indexRev_sortedRev rs hrs
    refine ⟨hperm, (hsorted.and ((hperm.pairwise_iff hsym).mpr hrs)).imp fun h =>
      goesAfter_tsSeqLt h.2 h.1⟩
  obtain ⟨hp1, hs1⟩ := key ps hc
  obtain ⟨hp2, hs2⟩ := key qs ((hpq.pairwise_iff hsym).mp hc)
  haveI : IsAntisymm Frame TsSeqLt := ⟨fun _ _ h1 h2 => (tsSeqLt_asymm h1 h2).elim⟩
  exact ⟨hp1, hs1, List.eq_of_perm_of_sorted ((hp1.trans hpq).trans hp2.symm) hs1 hs2⟩

/-- Two packets of one timestamp with sequence numbers 10 and 65530: 65530 goes first. -/
def acrossWrap : List Frame := [⟨10, 3000, 12, 10, by decide⟩, ⟨65530, 3000, 12, 32, by decide⟩]

theorem insertAll_sorted_across_wrap :
    acrossWrap.Pairwise Close ∧ (insertAll acrossWrap).frames.map Frame.seq = [65530, 10] ∧
      (insertAll acrossWrap).frames.Perm acrossWrap ∧
      (insertAll acrossWrap).frames.Sorted TsSeqLt ∧
      (insertAll acrossWrap).frames = (insertAll acrossWrap.reverse).frames :=
  ⟨by decide, rfl,
    insertAll_sorted_of_close acrossWrap acrossWrap.reverse (by decide) (List.reverse_perm _).symm⟩

end AuviousRecordPlay.Order

import Mathlib

/- Activities that take steps in any order.

   A pool is a list of activities, each at some point of its work. One step takes any one
   of them and puts in its place what it goes on as, which may be nothing, or several. -/
namespace HotelPms.Lib

variable {α : Type*}

/-- One occurrence of `a` is replaced by the activities `new`. -/
def Replaces (a : α) (new as as' : List α) : Prop :=
  ∃ before after, as = before ++ a :: after ∧ as' = before ++ new ++ after

namespace Replaces

variable {a b : α} {new as as' : List α}

theorem mem (h : Replaces a new as as') : a ∈ as := by
  obtain ⟨before, after, rfl, -⟩ := h
  simp

theorem mem_new (h : Replaces a new as as') (hb : b ∈ new) : b ∈ as' := by
  obtain ⟨before, after, -, rfl⟩ := h
  simp [hb]

theorem mem_or (h : Replaces a new as as') (hb : b ∈ as') : b ∈ new ∨ b ∈ as := by
  obtain ⟨before, after, rfl, rfl⟩ := h
  simp only [List.mem_append, List.mem_cons] at hb ⊢
  tauto

theorem eq_or_mem (h : Replaces a new as as') (hb : b ∈ as) : b = a ∨ b ∈ as' := by
  obtain ⟨before, after, rfl, rfl⟩ := h
  simp only [List.mem_append, List.mem_cons] at hb ⊢
  tauto

theorem countP (h : Replaces a new as as') (p : α → Bool) :
    as'.countP p + (if p a then 1 else 0) = as.countP p + new.countP p := by
  obtain ⟨before, after, rfl, rfl⟩ := h
  simp only [List.countP_append, List.countP_cons]
  omega

theorem countP_eq (h : Replaces a new as as') {p : α → Bool}
    (hnew : new.countP p = if p a then 1 else 0) : as'.countP p = as.countP p := by
  have := h.countP p
  omega

theorem count_flatMap {β : Type*} [BEq β] (h : Replaces a new as as') (carried : α → List β) (x : β) :
    (as'.flatMap carried).count x + (carried a).count x =
      (as.flatMap carried).count x + (new.flatMap carried).count x := by
  obtain ⟨before, after, rfl, rfl⟩ := h
  simp only [List.flatMap_append, List.flatMap_cons, List.count_append]
  omega

theorem filter_self (h : Replaces a new as as') {p : α → Bool} (hp : p a = true)
    (honly : as.filter p = [a]) : as'.filter p = new.filter p := by
  obtain ⟨before, after, rfl, rfl⟩ := h
  rw [List.filter_append, List.filter_cons_of_pos hp, List.append_eq_singleton_iff] at honly
  rcases honly with ⟨hbefore, hafter⟩ | ⟨-, hafter⟩
  · rw [List.filter_append, List.filter_append, hbefore, (List.cons.inj hafter).2, List.nil_append,
      List.append_nil]
  · cases hafter

theorem filter_of_not (h : Replaces a new as as') {p : α → Bool} (hp : p a = false)
    (hnone : as.filter p = [] ∨ new.filter p = []) : as'.filter p = as.filter p ++ new.filter p := by
  obtain ⟨before, after, rfl, rfl⟩ := h
  simp only [List.filter_append, List.filter_cons, hp, Bool.false_eq_true, if_false] at hnone ⊢
  rcases hnone with hnone | hnone
  · obtain ⟨hbefore, hafter⟩ := List.append_eq_nil_iff.1 hnone
    rw [hbefore, hafter, List.append_nil]
    rfl
  · rw [hnone, List.append_nil, List.append_nil]

/-- A pool that has the same activities and some more can take the same step. -/
theorem perm (h : Replaces a new as as') {bs more : List α} (hperm : bs.Perm (as ++ more)) :
    ∃ bs', Replaces a new bs bs' ∧ bs'.Perm (as' ++ more) := by
  obtain ⟨before, after, rfl, rfl⟩ := h
  have hmem : a ∈ bs := hperm.mem_iff.2 (by simp)
  obtain ⟨l, r, rfl⟩ := List.append_of_mem hmem
  refine ⟨l ++ new ++ r, ⟨l, r, rfl, rfl⟩, ?_⟩
  have hothers : (l ++ r).Perm (before ++ after ++ more) := by
    refine List.Perm.cons_inv (a := a) (List.perm_middle.symm.trans (hperm.trans ?_))
    simp
  have hfirst : ∀ xs ys : List α, (xs ++ new ++ ys).Perm (new ++ (xs ++ ys)) := by
    intro xs ys
    rw [← List.append_assoc]
    exact List.perm_append_comm.append_right ys
  calc List.Perm (l ++ new ++ r) (new ++ (l ++ r)) := hfirst l r
    List.Perm _ (new ++ (before ++ (after ++ more))) := by
      rw [← List.append_assoc before]
      exact hothers.append_left new
    List.Perm _ (before ++ new ++ (after ++ more)) := (hfirst before (after ++ more)).symm
    List.Perm _ (before ++ new ++ after ++ more) := .of_eq (List.append_assoc ..).symm

end Replaces

theorem eq_of_countP_eq_one {as : List α} {p : α → Bool} (h : as.countP p = 1) {a b : α} (ha : a ∈ as)
    (hb : b ∈ as) (hpa : p a = true) (hpb : p b = true) : b = a := by
  rw [List.countP_eq_length_filter] at h
  obtain ⟨x, hx⟩ := List.length_eq_one_iff.1 h
  have honly : ∀ c ∈ as, p c = true → c = x := by
    intro c hc hpc
    have hmem := List.mem_filter.2 ⟨hc, hpc⟩
    rw [hx] at hmem
    exact List.mem_singleton.1 hmem
  exact (honly b hb hpb).trans (honly a ha hpa).symm

end HotelPms.Lib

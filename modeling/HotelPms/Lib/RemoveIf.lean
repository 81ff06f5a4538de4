import Mathlib

/- `std::remove_if` on a vector of objects that can only be moved.

   A slot that was moved from is `none`. The elements that stay are moved to the
   front one by one; what a slot held when another element is moved into it is
   given up by the assignment, and is not in the vector any more. What `erase`
   then destroys is the tail: slots that were moved from, and removed elements that
   nothing was moved over. -/
namespace HotelPms.Lib

variable {α : Type*}

/-- The loop behind the first element that is removed. `gap` are the slots from
    `first` on that were passed. -/
def closeGap (pred : Option α → Bool) :
    List (Option α) → List (Option α) → List (Option α) × List (Option α)
  | gap, [] => ([], gap)
  | gap, x :: rest =>
    if pred x then closeGap pred (gap ++ [x]) rest
    else
      let (kept, tail) := closeGap pred (gap.tail ++ [none]) rest
      (x :: kept, tail)

/-- The vector in front of the iterator that is returned, and the tail behind it. -/
def removeIf (pred : Option α → Bool) : List (Option α) → List (Option α) × List (Option α)
  | [] => ([], [])
  | x :: rest =>
    if pred x then closeGap pred [x] rest
    else
      let (kept, tail) := removeIf pred rest
      (x :: kept, tail)

variable {pred : Option α → Bool}

theorem closeGap_kept (gap v : List (Option α)) :
    (closeGap pred gap v).1 = v.filter fun x => !pred x := by
  induction v generalizing gap with
  | nil => rfl
  | cons x rest ih =>
    unfold closeGap
    by_cases hx : pred x = true
    · simp [hx, ih]
    · simp [hx, ih]

theorem removeIf_kept (v : List (Option α)) : (removeIf pred v).1 = v.filter fun x => !pred x := by
  induction v with
  | nil => rfl
  | cons x rest ih =>
    unfold removeIf
    by_cases hx : pred x = true
    · simp [hx, closeGap_kept]
    · simp [hx, ih]

/-- A slot of the tail was moved from, or its element is to be removed. -/
def Discarded (pred : Option α → Bool) (x : Option α) : Prop := x = none ∨ pred x = true

theorem closeGap_tail {gap : List (Option α)} (hgap : ∀ x ∈ gap, Discarded pred x)
    (v : List (Option α)) : ∀ x ∈ (closeGap pred gap v).2, Discarded pred x := by
  induction v generalizing gap with
  | nil => exact hgap
  | cons x rest ih =>
    unfold closeGap
    by_cases hx : pred x = true
    · rw [if_pos hx]
      apply ih
      intro y hy
      rcases List.mem_append.1 hy with hy | hy
      · exact hgap y hy
      · exact Or.inr (List.mem_singleton.1 hy ▸ hx)
    · rw [if_neg hx]
      apply ih
      intro y hy
      rcases List.mem_append.1 hy with hy | hy
      · exact hgap y (List.mem_of_mem_tail hy)
      · exact Or.inl (List.mem_singleton.1 hy)

/-- Nothing that stays is destroyed. -/
theorem removeIf_tail (v : List (Option α)) : ∀ x ∈ (removeIf pred v).2, Discarded pred x := by
  induction v with
  | nil => exact fun x hx => absurd hx List.not_mem_nil
  | cons x rest ih =>
    unfold removeIf
    by_cases hx : pred x = true
    · rw [if_pos hx]
      apply closeGap_tail
      intro y hy
      exact Or.inr (List.mem_singleton.1 hy ▸ hx)
    · rw [if_neg hx]
      exact ih

/-- Both elements that are removed are moved over, and neither is destroyed. -/
example : removeIf (fun x => x = some 1 ∨ x = some 2) [some 1, some 2, some 3, some 4] =
    ([some 3, some 4], [none, none]) := by decide

end HotelPms.Lib

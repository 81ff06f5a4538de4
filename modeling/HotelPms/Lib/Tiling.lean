import Mathlib

/- Lists of intervals that tile a stretch of a line.

   Each entry `x` of a list stands for `[top x, bottom x)`. A list tiles `[lo, hi)` if the
   first interval begins at `lo`, each ends where the next one begins, the last ends at
   `hi`, and none is empty. Then every point of the stretch is in exactly one of them
   (`Tiles.filter_eq_singleton`), which a search from the front finds (`Tiles.find?_eq`). -/
namespace HotelPms.Lib

variable {α β : Type*} [LinearOrder β] (top bottom : α → β)

/-- The intervals of the list follow one another without a gap, from `lo` to `hi`. -/
def Tiles : β → List α → β → Prop
  | lo, [], hi => lo = hi
  | lo, x :: xs, hi => top x = lo ∧ lo < bottom x ∧ Tiles (bottom x) xs hi

/-- The interval of `x` contains `p`. -/
def covers (p : β) (x : α) : Bool := decide (top x ≤ p) && decide (p < bottom x)

variable {top bottom} {lo mid hi p : β} {xs ys : List α} {x : α}

theorem covers_iff : covers top bottom p x = true ↔ top x ≤ p ∧ p < bottom x := by
  rw [covers, Bool.and_eq_true, decide_eq_true_eq, decide_eq_true_eq]

namespace Tiles

theorem append (h : Tiles top bottom lo xs mid) (h' : Tiles top bottom mid ys hi) :
    Tiles top bottom lo (xs ++ ys) hi := by
  induction xs generalizing lo with
  | nil =>
    cases h
    exact h'
  | cons x xs ih => exact ⟨h.1, h.2.1, ih h.2.2⟩

theorem concat (h : Tiles top bottom lo xs (top x)) (hx : top x < bottom x) :
    Tiles top bottom lo (xs ++ [x]) (bottom x) := h.append ⟨rfl, hx, rfl⟩

theorem of_concat (h : Tiles top bottom lo (xs ++ [x]) hi) : Tiles top bottom lo xs (top x) := by
  induction xs generalizing lo with
  | nil => exact h.1.symm
  | cons y xs ih => exact ⟨h.1, h.2.1, ih h.2.2⟩

theorem bottom_last (h : Tiles top bottom lo (xs ++ [x]) hi) : bottom x = hi := by
  induction xs generalizing lo with
  | nil => exact h.2.2
  | cons y xs ih => exact ih h.2.2

theorem le_top (h : Tiles top bottom lo xs hi) (hx : x ∈ xs) : lo ≤ top x := by
  induction xs generalizing lo with
  | nil => cases hx
  | cons y xs ih =>
    obtain ⟨hy, hlt, hxs⟩ := h
    rcases List.mem_cons.1 hx with rfl | hx
    · exact hy.ge
    · exact hlt.le.trans (ih hxs hx)

theorem filter_eq_nil (h : Tiles top bottom lo xs hi) (hp : p < lo) :
    xs.filter (covers top bottom p) = [] := by
  refine List.filter_eq_nil_iff.2 fun x hx hcovers => ?_
  have hle := (h.le_top hx).trans (covers_iff.1 hcovers).1
  exact absurd hp hle.not_gt

/-- Every point of the stretch is in exactly one interval. -/
theorem filter_eq_singleton (h : Tiles top bottom lo xs hi) (hlo : lo ≤ p) (hhi : p < hi) :
    ∃ x, xs.filter (covers top bottom p) = [x] := by
  induction xs generalizing lo with
  | nil =>
    cases h
    exact absurd hhi hlo.not_gt
  | cons x xs ih =>
    obtain ⟨hx, -, hxs⟩ := h
    by_cases hp : p < bottom x
    · refine ⟨x, ?_⟩
      rw [List.filter_cons_of_pos (covers_iff.2 ⟨hx.trans_le hlo, hp⟩), hxs.filter_eq_nil hp]
    · rw [List.filter_cons_of_neg fun hcovers => hp (covers_iff.1 hcovers).2]
      exact ih hxs (not_lt.1 hp)

theorem find?_eq (h : Tiles top bottom lo xs hi) (hlo : lo ≤ p) (hhi : p < hi) :
    ∃ x, xs.find? (covers top bottom p) = some x ∧ xs.filter (covers top bottom p) = [x] := by
  obtain ⟨x, hx⟩ := h.filter_eq_singleton hlo hhi
  refine ⟨x, ?_, hx⟩
  rw [← List.head?_filter, hx]
  rfl

end Tiles

end HotelPms.Lib

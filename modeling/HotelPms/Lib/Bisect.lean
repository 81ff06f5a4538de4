import Mathlib

/- Binary search in a list.

   `upperBound` halves the list as `std::upper_bound` does. On a list in which no
   item that is not later than the value follows one that is, it finds the first
   later item (`upperBound_eq`). -/
namespace HotelPms.Lib

variable {α : Type*} (later : α → Bool)

/-- The list from the item on that the search for the first later item ends at. -/
def upperBound (xs : List α) : List α :=
  match _hdrop : xs.drop (xs.length / 2) with
  | [] => []
  | x :: rest =>
    if later x then upperBound (xs.take (xs.length / 2)) ++ x :: rest else upperBound rest
termination_by xs.length
decreasing_by
  · have hlength := congrArg List.length _hdrop
    rw [List.length_drop, List.length_cons] at hlength
    rw [List.length_take]
    omega
  · have hlength := congrArg List.length _hdrop
    rw [List.length_drop, List.length_cons] at hlength
    omega

/-- No item after a later one is not later. -/
def Partitioned (xs : List α) : Prop := xs.Pairwise fun a b => later a = true → later b = true

variable {later}

theorem upperBound_eq {xs : List α} (h : Partitioned later xs) :
    upperBound later xs = xs.dropWhile fun x => !later x := by
  fun_induction upperBound later xs with
  | case1 xs hdrop =>
    have hempty : xs = [] := by
      have hlength := List.drop_eq_nil_iff.1 hdrop
      rw [← List.length_eq_zero_iff]
      omega
    rw [hempty]
    rfl
  | case2 xs x rest hdrop hlater ih =>
    have hsplit : xs = xs.take (xs.length / 2) ++ x :: rest := by
      rw [← hdrop, List.take_append_drop]
    have hfirst := ih (h.sublist (List.take_sublist _ _))
    rw [hfirst]
    conv_rhs => rw [hsplit, List.dropWhile_append]
    have hrest : (x :: rest).dropWhile (fun x => !later x) = x :: rest := by
      rw [List.dropWhile_cons_of_neg]
      simp [hlater]
    rw [hrest]
    split
    · next hnone => rw [List.isEmpty_iff.1 hnone, List.nil_append]
    · rfl
  | case3 xs x rest hdrop hearlier ih =>
    have hsplit : xs = xs.take (xs.length / 2) ++ x :: rest := by
      rw [← hdrop, List.take_append_drop]
    rw [hsplit] at h
    obtain ⟨-, hrest, hbefore⟩ := List.pairwise_append.1 h
    -- what stands before an item that is not later is not later either
    have hfirst : (xs.take (xs.length / 2)).dropWhile (fun x => !later x) = [] := by
      rw [List.dropWhile_eq_nil_iff]
      intro y hy
      rw [Bool.not_eq_true', ← Bool.not_eq_true]
      exact fun hylater => hearlier (hbefore y hy x List.mem_cons_self hylater)
    rw [ih (List.pairwise_cons.1 hrest).2]
    conv_rhs => rw [hsplit, List.dropWhile_append, hfirst]
    rw [List.isEmpty_nil, if_pos rfl, List.dropWhile_cons_of_pos]
    simpa using hearlier

end HotelPms.Lib

import Mathlib

/- Merging neighbours of equal key in a list.

   `coalesceLoop` works in place: an index goes over the list, and where the entry
   before it has the same key, the two are merged into that one, the entry at the
   index is erased, and the index stays. It ends after as many turns as the list has
   entries (`coalesceLoop_eq`), with what `coalesce` computes from left to right: no
   two neighbours of one key (`isChain_coalesce`), and a list of which that holds
   already stays as it is (`coalesce_of_isChain`). -/
namespace HotelPms.Lib

variable {α κ : Type*} [DecidableEq κ] (key : α → κ) (merge : α → α → α)

/-- The loop from an index on; `none` after `fuel` turns. -/
def coalesceLoop : Nat → List α → Nat → Option (List α)
  | 0, _, _ => none
  | fuel + 1, xs, i =>
    if i < xs.length then
      match xs[i - 1]?, xs[i]? with
      | some a, some b =>
        if key a = key b then
          coalesceLoop fuel ((xs.set (i - 1) (merge a b)).eraseIdx i) (i - 1 + 1)
        else coalesceLoop fuel xs (i + 1)
      | _, _ => none
    else some xs

/-- From an entry on: it is merged with the next one as long as that has its key. -/
def coalesceFrom : α → List α → List α
  | a, [] => [a]
  | a, b :: rest => if key a = key b then coalesceFrom (merge a b) rest else a :: coalesceFrom b rest

def coalesce : List α → List α
  | [] => []
  | a :: rest => coalesceFrom key merge a rest

variable {key merge}

/-- From the entry after `a` on, with `finished` before `a`. -/
theorem coalesceLoop_at (rest : List α) : ∀ (finished : List α) (a : α) (fuel : Nat),
    rest.length < fuel → coalesceLoop key merge fuel (finished ++ a :: rest) (finished.length + 1) =
      some (finished ++ coalesceFrom key merge a rest) := by
  induction rest with
  | nil =>
    intro finished a fuel hfuel
    obtain ⟨fuel, rfl⟩ := Nat.exists_eq_succ_of_ne_zero (by omega : fuel ≠ 0)
    simp [coalesceLoop, coalesceFrom]
  | cons b rest ih =>
    intro finished a fuel hfuel
    obtain ⟨fuel, rfl⟩ := Nat.exists_eq_succ_of_ne_zero (by omega : fuel ≠ 0)
    rw [List.length_cons, Nat.succ_lt_succ_iff] at hfuel
    have hlt : finished.length + 1 < (finished ++ a :: b :: rest).length := by simp
    have hbefore : (finished ++ a :: b :: rest)[finished.length + 1 - 1]? = some a := by simp
    have hat : (finished ++ a :: b :: rest)[finished.length + 1]? = some b := by simp
    rw [coalesceLoop, if_pos hlt, hbefore, hat]
    dsimp only
    by_cases hkey : key a = key b
    · have herased : ((finished ++ a :: b :: rest).set (finished.length + 1 - 1) (merge a b)).eraseIdx
          (finished.length + 1) = finished ++ merge a b :: rest := by
        simp [List.eraseIdx_append]
      rw [if_pos hkey, herased, coalesceFrom, if_pos hkey]
      exact ih finished (merge a b) fuel hfuel
    · have hnext := ih (finished ++ [a]) b fuel hfuel
      rw [List.append_assoc, List.singleton_append, List.length_append] at hnext
      rw [if_neg hkey, coalesceFrom, if_neg hkey, ← List.singleton_append (x := a),
        ← List.append_assoc]
      simpa using hnext

/-- The loop ends, with one turn for each entry, and computes `coalesce`. -/
theorem coalesceLoop_eq {xs : List α} (hne : xs ≠ []) {fuel : Nat} (hfuel : xs.length ≤ fuel) :
    coalesceLoop key merge fuel xs 1 = some (coalesce key merge xs) := by
  cases xs with
  | nil => exact absurd rfl hne
  | cons a rest => exact coalesceLoop_at rest [] a fuel hfuel

section
variable (hmerge : ∀ a b, key (merge a b) = key a)
include hmerge

theorem head_coalesceFrom (rest : List α) : ∀ a : α,
    (coalesceFrom key merge a rest).head?.map key = some (key a) := by
  induction rest with
  | nil => exact fun a => rfl
  | cons b rest ih =>
    intro a
    rw [coalesceFrom]
    split
    · rw [ih, hmerge]
    · rfl

theorem isChain_coalesceFrom (rest : List α) : ∀ a : α,
    (coalesceFrom key merge a rest).IsChain fun x y => key x ≠ key y := by
  induction rest with
  | nil => exact fun a => List.isChain_singleton a
  | cons b rest ih =>
    intro a
    rw [coalesceFrom]
    split
    · exact ih (merge a b)
    · next hkey =>
      rw [List.isChain_cons]
      refine ⟨fun y hy => ?_, ih b⟩
      have hhead := head_coalesceFrom hmerge rest b
      rw [Option.mem_def.1 hy, Option.map_some] at hhead
      rw [Option.some.inj hhead]
      exact hkey

theorem isChain_coalesce (xs : List α) :
    (coalesce key merge xs).IsChain fun x y => key x ≠ key y := by
  cases xs with
  | nil => exact List.isChain_nil
  | cons a rest => exact isChain_coalesceFrom hmerge rest a

end

theorem coalesceFrom_of_isChain (rest : List α) : ∀ a : α,
    (a :: rest).IsChain (fun x y => key x ≠ key y) → coalesceFrom key merge a rest = a :: rest := by
  induction rest with
  | nil => exact fun a _ => rfl
  | cons b rest ih =>
    intro a h
    obtain ⟨hne, hrest⟩ := List.isChain_cons_cons.1 h
    rw [coalesceFrom, if_neg hne, ih b hrest]

theorem coalesce_of_isChain {xs : List α} (h : xs.IsChain fun x y => key x ≠ key y) :
    coalesce key merge xs = xs := by
  cases xs with
  | nil => rfl
  | cons a rest => exact coalesceFrom_of_isChain rest a h

end HotelPms.Lib

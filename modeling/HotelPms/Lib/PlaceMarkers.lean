import Mathlib

/- Texts with place markers.

   A place marker is a percent sign, perhaps an `L`, and a number of one or two digits. `arg`
   puts a text in the place of the markers with the lowest number, as `QString::arg` does.
   What was put in is text like any other: a marker in it is replaced by the next call if its
   number is the lowest then. So a chain of calls fills a template as meant if what was put in
   has no markers below those that are left (`arg_of_lowest`). -/
namespace HotelPms.Lib.PlaceMarkers

/-- The value of a digit. -/
def digit (c : Char) : Option Nat := if c.isDigit then some (c.toNat - '0'.toNat) else none

/-- The number of one or two digits that a text begins with, and how many they are. -/
def number : List Char → Option (Nat × Nat)
  | [] => none
  | c :: text =>
    match digit c, text.head?.bind digit with
    | none, _ => none
    | some n, none => some (n, 1)
    | some n, some m => some (10 * n + m, 2)

/-- The marker that begins with a percent sign: its number, and its length without the sign. -/
def marker : List Char → Option (Nat × Nat)
  | 'L' :: text => (number text).map fun (n, length) => (n, length + 1)
  | text => number text

/-- The numbers of the markers of a text. -/
def markers : List Char → List Nat
  | [] => []
  | c :: text => (if c = '%' then ((marker text).map Prod.fst).toList else []) ++ markers text

/-- The text with its markers of one number replaced; `skip` characters are left out first. -/
def fill (n : Nat) (a : List Char) : Nat → List Char → List Char
  | _, [] => []
  | skip + 1, _ :: text => fill n a skip text
  | 0, c :: text =>
    match if c = '%' then marker text else none with
    | some (m, length) => if m = n then a ++ fill n a length text else c :: fill n a 0 text
    | none => c :: fill n a 0 text

/-- The text with its markers of the lowest number replaced. -/
def arg (text a : List Char) : List Char :=
  match (markers text).min? with
  | some n => fill n a 0 text
  | none => text

/-! ## Texts that follow a marker or not -/

/-- No marker goes on into the text. -/
def Breaks (text : List Char) : Prop := ∀ c ∈ text.head?, digit c = none ∧ c ≠ 'L'

instance : DecidablePred Breaks
  | [] => isTrue (by rintro c ⟨⟩)
  | c :: _ => decidable_of_iff (digit c = none ∧ c ≠ 'L') (by simp [Breaks])

variable {text xs ys a : List Char} {n m : Nat}

theorem breaks_percent (text : List Char) : Breaks ('%' :: text) := by
  rintro c ⟨⟩
  exact ⟨rfl, by decide⟩

theorem Breaks.head (h : Breaks ys) : ys.head?.bind digit = none := by
  cases ys with
  | nil => rfl
  | cons c ys => exact (h c rfl).1

theorem number_append (h : Breaks ys) (xs : List Char) : number (xs ++ ys) = number xs := by
  have hhead := h.head
  rcases xs with _ | ⟨c, _ | ⟨d, xs⟩⟩
  · cases ys with
    | nil => rfl
    | cons c ys => simp [number, (h c rfl).1]
  · simp [number, hhead]
  · rfl

theorem marker_of_ne {c : Char} (hc : c ≠ 'L') (text : List Char) : marker (c :: text) = number (c :: text) := by
  unfold marker
  split
  · next heq => exact absurd (List.cons.inj heq).1 hc
  · rfl

theorem marker_digit {d : Char} (hd : digit d = some n) (h : Breaks ys) : marker (d :: ys) = some (n, 1) := by
  have hne : d ≠ 'L' := by
    rintro rfl
    cases hd
  simp [marker_of_ne hne, number, hd, h.head]

theorem marker_append (h : Breaks ys) (xs : List Char) : marker (xs ++ ys) = marker xs := by
  cases xs with
  | nil =>
    cases ys with
    | nil => rfl
    | cons c ys => exact (marker_of_ne (h c rfl).2 ys).trans (number_append h [])
  | cons c xs =>
    by_cases hc : c = 'L'
    · subst hc
      show (number (xs ++ ys)).map _ = (number xs).map _
      rw [number_append h]
    · rw [List.cons_append, marker_of_ne hc, marker_of_ne hc]
      exact number_append h (c :: xs)

theorem markers_append (h : Breaks ys) (xs : List Char) : markers (xs ++ ys) = markers xs ++ markers ys := by
  induction xs with
  | nil => rfl
  | cons c xs ih => rw [List.cons_append, markers, markers, ih, marker_append h, List.append_assoc]

theorem markers_of_not_mem (h : '%' ∉ xs) : markers (xs ++ ys) = markers ys := by
  induction xs with
  | nil => rfl
  | cons c xs ih =>
    rw [List.mem_cons, not_or] at h
    rw [List.cons_append, markers, if_neg (Ne.symm h.1), List.nil_append, ih h.2]

theorem length_le_of_number {length : Nat} (h : number text = some (n, length)) : length ≤ text.length := by
  cases text with
  | nil => cases h
  | cons c text =>
    rw [number] at h
    split at h
    · cases h
    · cases h
      exact Nat.succ_le_succ (Nat.zero_le _)
    · next hd =>
      cases h
      cases text with
      | nil => cases hd
      | cons d text => exact Nat.succ_le_succ (Nat.succ_le_succ (Nat.zero_le _))

theorem length_le_of_marker {length : Nat} (h : marker text = some (n, length)) : length ≤ text.length := by
  unfold marker at h
  split at h
  · obtain ⟨⟨m, k⟩, hnumber, heq⟩ := Option.map_eq_some_iff.1 h
    cases heq
    exact Nat.succ_le_succ (length_le_of_number hnumber)
  · exact length_le_of_number h

/-! ## What `fill` replaces -/

theorem fill_append (n : Nat) (a : List Char) (h : Breaks ys) {skip : Nat} (hskip : skip ≤ xs.length) :
    fill n a skip (xs ++ ys) = fill n a skip xs ++ fill n a 0 ys := by
  induction xs generalizing skip with
  | nil =>
    obtain rfl := Nat.le_zero.1 hskip
    rfl
  | cons c xs ih =>
    cases skip with
    | succ skip => exact ih (Nat.le_of_succ_le_succ hskip)
    | zero =>
      rw [List.cons_append, fill, fill, marker_append h]
      split
      · next m length hmarker =>
        have hlength : length ≤ xs.length := by
          split at hmarker
          · exact length_le_of_marker hmarker
          · cases hmarker
        split
        · rw [ih hlength, List.append_assoc]
        · rw [ih (Nat.zero_le _), List.cons_append]
      · rw [ih (Nat.zero_le _), List.cons_append]

/-- A text without such a marker stays as it is. -/
theorem fill_of_not_mem (a : List Char) (h : n ∉ markers text) : fill n a 0 text = text := by
  induction text with
  | nil => rfl
  | cons c text ih =>
    rw [markers, List.mem_append, not_or] at h
    rw [fill, ih h.2]
    split
    · next m length hmarker =>
      split at hmarker
      · next hc =>
        have hne : m ≠ n := by
          rintro rfl
          rw [if_pos hc, hmarker] at h
          exact h.1 (List.mem_singleton_self _)
        rw [if_neg hne]
      · cases hmarker
    · rfl

theorem markers_digit {d : Char} (hd : digit d = some n) (h : Breaks ys) :
    markers ('%' :: d :: ys) = n :: markers ys := by
  have hne : d ≠ '%' := by
    rintro rfl
    cases hd
  rw [markers, if_pos rfl, marker_digit hd h, markers, if_neg hne]
  rfl

theorem fill_digit {d : Char} (hd : digit d = some n) (h : Breaks ys) (a : List Char) :
    fill n a 0 ('%' :: d :: ys) = a ++ fill n a 0 ys := by
  rw [fill, if_pos rfl, marker_digit hd h]
  exact if_pos rfl

/-- A marker with the lowest number is replaced, whatever stands around it. -/
theorem arg_of_lowest {d : Char} (hd : digit d = some n) (h : Breaks ys)
    (hbefore : ∀ m ∈ markers xs, n ≤ m) (hafter : ∀ m ∈ markers ys, n ≤ m) (a : List Char) :
    arg (xs ++ '%' :: d :: ys) a = fill n a 0 xs ++ (a ++ fill n a 0 ys) := by
  have hmin : (markers (xs ++ '%' :: d :: ys)).min? = some n := by
    rw [markers_append (breaks_percent _), markers_digit hd h, List.min?_eq_some_iff]
    refine ⟨by simp, fun m hm => ?_⟩
    rcases List.mem_append.1 hm with hm | hm
    · exact hbefore m hm
    · rcases List.mem_cons.1 hm with rfl | hm
      · exact le_rfl
      · exact hafter m hm
  rw [arg, hmin]
  show fill n a 0 _ = _
  rw [fill_append n a (breaks_percent _) (Nat.zero_le _), fill_digit hd h]

theorem arg_of_lower {d : Char} (hd : digit d = some n) (h : Breaks ys)
    (hbefore : ∀ m ∈ markers xs, n < m) (hafter : ∀ m ∈ markers ys, n < m) (a : List Char) :
    arg (xs ++ '%' :: d :: ys) a = xs ++ (a ++ ys) := by
  rw [arg_of_lowest hd h (fun m hm => (hbefore m hm).le) (fun m hm => (hafter m hm).le),
    fill_of_not_mem a fun hn => lt_irrefl n (hbefore n hn),
    fill_of_not_mem a fun hn => lt_irrefl n (hafter n hn)]

end HotelPms.Lib.PlaceMarkers

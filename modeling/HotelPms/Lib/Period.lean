import Mathlib

/- Half-open periods over a linear order, and rows of pairwise disjoint periods.

   A `Period` is `[begin_, end_)`; it is null when it holds no point. Two
   periods that are not null intersect exactly when each begins before the
   other ends (`intersects_iff`), so intersection is symmetric and touching
   periods do not intersect.

   A row is a list of entries, each with a period. `Kept` says that the row is
   what a calendar row should be: no null period, no two entries intersecting,
   sorted strictly by begin. Adding an entry that meets nothing and sorting
   again keeps a row (`Kept.insert`), dropping entries keeps it
   (`Kept.sublist`), and a kept row is determined by the entries it holds
   (`Kept.eq_of_perm`). -/
namespace HotelPms.Lib

/-- The points from `begin_` on and before `end_`. -/
structure Period (α : Type*) where
  begin_ : α
  end_ : α
  deriving DecidableEq

namespace Period
variable {α : Type*} [LinearOrder α]

/-- No point lies in the period. -/
def isNull (p : Period α) : Bool := decide (p.end_ ≤ p.begin_)

def contains (p : Period α) (x : α) : Bool := decide (p.begin_ ≤ x) && decide (x < p.end_)

def intersects (p q : Period α) : Bool :=
  p.contains q.begin_ || q.contains p.begin_ ||
    (decide (q.begin_ < p.begin_) && decide (p.begin_ < q.end_))

theorem isNull_eq_false {p : Period α} : p.isNull = false ↔ p.begin_ < p.end_ := by
  simp [isNull]

theorem intersects_iff {p q : Period α} (hp : p.isNull = false) (hq : q.isNull = false) :
    p.intersects q = true ↔ p.begin_ < q.end_ ∧ q.begin_ < p.end_ := by
  rw [isNull_eq_false] at hp hq
  simp only [intersects, contains, Bool.or_eq_true, Bool.and_eq_true, decide_eq_true_eq]
  constructor
  · rintro ((⟨h₁, h₂⟩ | ⟨h₁, h₂⟩) | ⟨h₁, h₂⟩)
    · exact ⟨lt_of_le_of_lt h₁ hq, h₂⟩
    · exact ⟨h₂, lt_of_le_of_lt h₁ hp⟩
    · exact ⟨h₂, lt_trans h₁ hp⟩
  · rintro ⟨h₁, h₂⟩
    rcases le_or_gt p.begin_ q.begin_ with h | h
    · exact Or.inl (Or.inl ⟨h, h₂⟩)
    · exact Or.inr ⟨h, h₁⟩

/-- Boost's third disjunct adds nothing, so intersection is symmetric also for null periods. -/
theorem intersects_comm (p q : Period α) : p.intersects q = q.intersects p := by
  rw [Bool.eq_iff_iff]
  simp only [intersects, contains, Bool.or_eq_true, Bool.and_eq_true, decide_eq_true_eq]
  constructor
  · rintro ((h | h) | ⟨h₁, h₂⟩)
    · exact Or.inl (Or.inr h)
    · exact Or.inl (Or.inl h)
    · exact Or.inl (Or.inl ⟨le_of_lt h₁, h₂⟩)
  · rintro ((h | h) | ⟨h₁, h₂⟩)
    · exact Or.inl (Or.inr h)
    · exact Or.inl (Or.inl h)
    · exact Or.inl (Or.inl ⟨le_of_lt h₁, h₂⟩)

theorem intersects_of_end_le {p q : Period α} (hp : p.isNull = false) (hq : q.isNull = false)
    (h : p.end_ ≤ q.begin_) : p.intersects q = false := by
  rw [← Bool.not_eq_true, intersects_iff hp hq]
  exact fun ⟨_, h₂⟩ => absurd h₂ (not_lt_of_ge h)

theorem intersects_iff_exists {p q : Period α} (hp : p.isNull = false) (hq : q.isNull = false) :
    p.intersects q = true ↔ ∃ x, p.contains x = true ∧ q.contains x = true := by
  rw [intersects_iff hp hq]
  rw [isNull_eq_false] at hp hq
  simp only [contains, Bool.and_eq_true, decide_eq_true_eq]
  constructor
  · rintro ⟨h₁, h₂⟩
    exact ⟨max p.begin_ q.begin_, ⟨le_max_left _ _, max_lt hp h₂⟩, le_max_right _ _, max_lt h₁ hq⟩
  · rintro ⟨x, ⟨h₁, h₂⟩, h₃, h₄⟩
    exact ⟨lt_of_le_of_lt h₁ h₄, lt_of_le_of_lt h₃ h₂⟩

/-- `span`: the shortest period around both. -/
def span (p q : Period α) : Period α where
  begin_ := if p.begin_ < q.begin_ then p.begin_ else q.begin_
  end_ := if p.end_ < q.end_ then q.end_ else p.end_

theorem span_eq {p q : Period α} (hp : p.isNull = false) (hq : q.isNull = false)
    (h : p.end_ = q.begin_) : p.span q = ⟨p.begin_, q.end_⟩ := by
  rw [isNull_eq_false] at hp hq
  rw [span, if_pos (h ▸ hp), if_pos (h ▸ hq)]

theorem contains_join {p q : Period α} (hp : p.isNull = false) (hq : q.isNull = false)
    (h : p.end_ = q.begin_) (x : α) :
    (Period.mk p.begin_ q.end_).contains x = true ↔ p.contains x = true ∨ q.contains x = true := by
  rw [isNull_eq_false] at hp hq
  simp only [contains, Bool.and_eq_true, decide_eq_true_eq]
  constructor
  · rintro ⟨h₁, h₂⟩
    rcases lt_or_ge x p.end_ with hx | hx
    · exact Or.inl ⟨h₁, hx⟩
    · exact Or.inr ⟨h ▸ hx, h₂⟩
  · rintro (⟨h₁, h₂⟩ | ⟨h₁, h₂⟩)
    · exact ⟨h₁, lt_trans h₂ (h ▸ hq)⟩
    · exact ⟨le_trans (le_of_lt (h ▸ hp)) h₁, h₂⟩

/-- What meets two periods that touch, joined to one, meets one of them. -/
theorem intersects_join {p q : Period α} (hp : p.isNull = false) (hq : q.isNull = false)
    (h : p.end_ = q.begin_) (r : Period α) :
    (Period.mk p.begin_ q.end_).intersects r = (p.intersects r || q.intersects r) := by
  rw [isNull_eq_false] at hp hq
  rw [Bool.eq_iff_iff]
  simp only [intersects, contains, Bool.or_eq_true, Bool.and_eq_true, decide_eq_true_eq]
  rcases lt_or_ge r.begin_ p.begin_ with hb | hb
  · -- `r` begins before both, so that it meets them by its end
    grind
  · rcases lt_or_ge r.begin_ p.end_ with hm | hm
    · -- it begins in the first one
      grind
    · -- it begins in the second one, or later
      grind

end Period

/-! Rows of entries that carry a period. -/

section Rows
variable {α β : Type*} [LinearOrder α] (period : β → Period α)

/-- A row with no null period, no overlap, and sorted strictly by begin. -/
structure Kept (row : List β) : Prop where
  nonempty : ∀ x ∈ row, (period x).isNull = false
  disjoint : row.Pairwise fun x y => (period x).intersects (period y) = false
  sorted : row.Pairwise fun x y => (period x).begin_ < (period y).begin_

/-- The row sorted by begin. -/
def sortByBegin (row : List β) : List β :=
  row.insertionSort fun x y => (period x).begin_ ≤ (period y).begin_

theorem sortByBegin_perm (row : List β) : (sortByBegin period row).Perm row :=
  List.perm_insertionSort _ row

/-- Disjoint periods that are not null begin at different points, so sorting
    by begin sorts them strictly. -/
theorem Kept.sort {row : List β} (hne : ∀ x ∈ row, (period x).isNull = false)
    (hd : row.Pairwise fun x y => (period x).intersects (period y) = false) :
    Kept period (sortByBegin period row) := by
  have hp := sortByBegin_perm period row
  have hne' : ∀ x ∈ sortByBegin period row, (period x).isNull = false :=
    fun x hx => hne x (hp.mem_iff.1 hx)
  have hd' : (sortByBegin period row).Pairwise
      fun x y => (period x).intersects (period y) = false := by
    refine (hp.pairwise_iff ?_).2 hd
    intro x y h
    rw [Period.intersects_comm]
    exact h
  have hle : (sortByBegin period row).Pairwise
      fun x y => (period x).begin_ ≤ (period y).begin_ := by
    have : IsTrans β fun x y => (period x).begin_ ≤ (period y).begin_ := ⟨fun _ _ _ => le_trans⟩
    have : Std.Total fun x y : β => (period x).begin_ ≤ (period y).begin_ :=
      ⟨fun _ _ => le_total _ _⟩
    exact List.pairwise_insertionSort _ row
  refine ⟨hne', hd', ?_⟩
  refine List.Pairwise.imp_of_mem ?_ (hle.and hd')
  rintro x y hx hy ⟨h₁, h₂⟩
  refine lt_of_le_of_ne h₁ fun he => ?_
  rw [← Bool.not_eq_true, Period.intersects_iff (hne' x hx) (hne' y hy)] at h₂
  exact h₂ ⟨he ▸ Period.isNull_eq_false.1 (hne' y hy), he ▸ Period.isNull_eq_false.1 (hne' x hx)⟩

theorem Kept.nil : Kept period ([] : List β) :=
  ⟨by simp, List.Pairwise.nil, List.Pairwise.nil⟩

/-- An entry that meets no entry of the row is pushed and the row sorted again. -/
theorem Kept.insert {row : List β} (hr : Kept period row) {x : β}
    (hx : (period x).isNull = false) (hfree : ∀ y ∈ row, (period y).intersects (period x) = false) :
    Kept period (sortByBegin period (row ++ [x])) := by
  apply Kept.sort
  · intro y hy
    rcases List.mem_append.1 hy with hy | hy
    · exact hr.nonempty y hy
    · rw [List.mem_singleton.1 hy]
      exact hx
  · rw [List.pairwise_append]
    refine ⟨hr.disjoint, List.pairwise_singleton _ _, ?_⟩
    intro y hy z hz
    rw [List.mem_singleton.1 hz]
    exact hfree y hy

theorem Kept.ordered {row : List β} (hr : Kept period row) :
    row.Pairwise fun x y => (period x).end_ ≤ (period y).begin_ := by
  apply (hr.disjoint.and hr.sorted).imp_of_mem
  rintro x y hx hy ⟨hapart, hxy⟩
  rw [← Bool.not_eq_true, Period.intersects_iff (hr.nonempty x hx) (hr.nonempty y hy)] at hapart
  by_contra hlt
  have hy' := Period.isNull_eq_false.1 (hr.nonempty y hy)
  exact hapart ⟨lt_trans hxy hy', not_le.1 hlt⟩

theorem Kept.sublist {row row' : List β} (hr : Kept period row) (h : row'.Sublist row) :
    Kept period row' :=
  ⟨fun x hx => hr.nonempty x (h.subset hx), hr.disjoint.sublist h, hr.sorted.sublist h⟩

/-- A kept row is determined by the entries it holds. -/
theorem Kept.eq_of_perm {row row' : List β} (hr : Kept period row) (hr' : Kept period row')
    (h : row.Perm row') : row = row' := by
  refine h.eq_of_pairwise ?_ hr.sorted hr'.sorted
  intro x y _ _ h₁ h₂
  exact absurd h₁ (lt_asymm h₂)

theorem Kept.map {γ : Type*} {f : γ → β} {row : List γ} (hr : Kept (fun x => period (f x)) row) :
    Kept period (row.map f) :=
  ⟨by simpa using hr.nonempty, List.pairwise_map.2 hr.disjoint, List.pairwise_map.2 hr.sorted⟩

end Rows

end HotelPms.Lib

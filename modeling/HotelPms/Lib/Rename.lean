import Mathlib.Data.List.Basic
import Mathlib.Logic.Function.Basic

/- Lists of items with a key, under other keys.

   A partial function gives some of the keys a new one; the items of the other keys
   are left out. Where no two keys get the same one, renaming goes with every
   selection by key (`renameKeys_filter`), and a key that no item has may be given a
   new one without changing anything (`renameKeys_update`). -/
namespace HotelPms.Lib

/-- The items whose key gets a new one, with this key. -/
def renameKeys {α κ : Type*} (key : α → κ) (setKey : α → κ → α) (f : κ → Option κ) (items : List α) : List α :=
  items.filterMap fun item => (f (key item)).map (setKey item)

/-- No two keys get the same one. -/
def Unambiguous {κ : Type*} (f : κ → Option κ) : Prop := ∀ a b k, f a = some k → f b = some k → a = b

section
variable {α κ : Type*} {key : α → κ} {setKey : α → κ → α} {f : κ → Option κ} {items : List α} {k : κ}

@[simp] theorem renameKeys_nil : renameKeys key setKey f [] = [] := rfl

@[simp] theorem renameKeys_append (as bs : List α) :
    renameKeys key setKey f (as ++ bs) = renameKeys key setKey f as ++ renameKeys key setKey f bs :=
  List.filterMap_append

theorem renameKeys_cons_some {item : α} (hk : f (key item) = some k) (items : List α) :
    renameKeys key setKey f (item :: items) = setKey item k :: renameKeys key setKey f items := by
  simp [renameKeys, hk]

theorem renameKeys_cons_none {item : α} (hnone : f (key item) = none) (items : List α) :
    renameKeys key setKey f (item :: items) = renameKeys key setKey f items := by
  simp [renameKeys, hnone]

theorem renameKeys_of_some {a : κ} (hk : f a = some k) (hkeys : ∀ item ∈ items, key item = a) :
    renameKeys key setKey f items = items.map fun item => setKey item k := by
  rw [renameKeys, ← List.filterMap_eq_map]
  apply List.filterMap_congr
  intro item hmem
  rw [hkeys item hmem, hk]
  rfl

theorem renameKeys_of_none (hnone : ∀ item ∈ items, f (key item) = none) :
    renameKeys key setKey f items = [] := by
  apply List.filterMap_eq_nil_iff.2
  intro item hmem
  rw [hnone item hmem]
  rfl

theorem mem_renameKeys {item : α} :
    item ∈ renameKeys key setKey f items ↔ ∃ old ∈ items, ∃ k, f (key old) = some k ∧ setKey old k = item := by
  simp [renameKeys, List.mem_filterMap, Option.map_eq_some_iff]

/-- Renaming goes with a selection by key. -/
theorem renameKeys_filter (hset : ∀ item k, key (setKey item k) = k) {p q : κ → Bool}
    (hpq : ∀ a k, f a = some k → p a = q k) (items : List α) :
    renameKeys key setKey f (items.filter fun item => p (key item)) =
      (renameKeys key setKey f items).filter fun item => q (key item) := by
  induction items with
  | nil => rfl
  | cons item items ih =>
    cases hk : f (key item) with
    | none =>
      rw [renameKeys_cons_none hk, List.filter_cons]
      split
      · rw [renameKeys_cons_none hk, ih]
      · exact ih
    | some k =>
      rw [renameKeys_cons_some hk, List.filter_cons, List.filter_cons, hset, ← hpq _ k hk]
      split
      · rw [renameKeys_cons_some hk, ih]
      · exact ih

/-- Renaming a key that no item has changes nothing. -/
theorem renameKeys_update [DecidableEq κ] {a : κ} (v : Option κ) (hne : ∀ item ∈ items, key item ≠ a) :
    renameKeys key setKey (Function.update f a v) items = renameKeys key setKey f items := by
  apply List.filterMap_congr
  intro item hmem
  rw [Function.update_of_ne (hne item hmem)]

/-- Two keys are the same exactly if their new ones are. -/
theorem Unambiguous.eq_iff (hf : Unambiguous f) {a b k l : κ} (ha : f a = some k) (hb : f b = some l) :
    a = b ↔ k = l := by
  constructor
  · intro hab
    rw [hab, hb] at ha
    exact (Option.some.inj ha).symm
  · intro hkl
    rw [hkl] at ha
    exact hf a b l ha hb

/-- A key may be given a new one that no other has. -/
theorem Unambiguous.update [DecidableEq κ] (hf : Unambiguous f) {a k : κ} (hfresh : ∀ b, f b ≠ some k) :
    Unambiguous (Function.update f a (some k)) := by
  intro b c l hb hc
  by_cases hba : b = a
  · rw [hba, Function.update_self] at hb
    by_cases hca : c = a
    · rw [hba, hca]
    · rw [Function.update_of_ne hca, ← hb] at hc
      exact absurd hc (hfresh c)
  · rw [Function.update_of_ne hba] at hb
    by_cases hca : c = a
    · rw [hca, Function.update_self] at hc
      rw [← hc] at hb
      exact absurd hb (hfresh b)
    · rw [Function.update_of_ne hca] at hc
      exact hf b c l hb hc

theorem Unambiguous.mem_filterMap (hf : Unambiguous f) {a : κ} (hk : f a = some k) (keys : List κ) :
    k ∈ keys.filterMap f ↔ a ∈ keys := by
  rw [List.mem_filterMap]
  constructor
  · intro hex
    obtain ⟨b, hmem, hb⟩ := hex
    rwa [hf a b k hk hb]
  · intro hmem
    exact ⟨a, hmem, hk⟩

theorem filter_renameKeys [DecidableEq κ] (hf : Unambiguous f) (hset : ∀ item k, key (setKey item k) = k) {a : κ}
    (hk : f a = some k) (items : List α) :
    (renameKeys key setKey f items).filter (fun item => key item == k) =
      (items.filter fun item => key item == a).map fun item => setKey item k := by
  rw [← renameKeys_filter hset (p := fun b => b == a) (q := fun b => b == k)]
  · apply renameKeys_of_some hk
    intro item hmem
    exact beq_iff_eq.1 (List.mem_filter.1 hmem).2
  · intro b l hb
    rw [Bool.eq_iff_iff, beq_iff_eq, beq_iff_eq]
    exact hf.eq_iff hb hk

/-- An item has a key exactly if one has its new key. -/
theorem any_renameKeys [DecidableEq κ] (hf : Unambiguous f) (hset : ∀ item k, key (setKey item k) = k) {a : κ}
    (hk : f a = some k) (items : List α) :
    ((renameKeys key setKey f items).any fun item => key item == k) = items.any fun item => key item == a := by
  induction items with
  | nil => rfl
  | cons item items ih =>
    cases hitem : f (key item) with
    | none =>
      -- an item that is left out does not have the key
      have hne : key item ≠ a := by
        intro he
        rw [he, hk] at hitem
        cases hitem
      rw [renameKeys_cons_none hitem, ih, List.any_cons, beq_false_of_ne hne, Bool.false_or]
    | some l =>
      have hbeq : (l == k) = (key item == a) := by
        rw [Bool.eq_iff_iff, beq_iff_eq, beq_iff_eq]
        exact (hf.eq_iff hitem hk).symm
      rw [renameKeys_cons_some hitem, List.any_cons, List.any_cons, hset, hbeq, ih]

end

end HotelPms.Lib

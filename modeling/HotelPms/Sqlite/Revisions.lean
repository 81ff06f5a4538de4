import HotelPms.Sqlite.Worker

/- Optimistic locking.

   A stored hotel or reservation begins with revision 1, an update succeeds only
   if it carries the stored revision, and then increments it. So, as long as
   nothing is erased, the committed updates of one item carry the revisions
   1, 2, 3, ... in this order, and the stored revision is the next one
   (`Counted`, `counted_effect`): no revision is used up twice
   (`optimistic_locking`). -/
namespace HotelPms
open Lib SqliteStorage DataStreamManager SqliteBackend

/-- What an update can name. -/
inductive Item where
  | hotel (id : Int)
  | reservation (id : Int)
  deriving DecidableEq

/-- The revision the database holds for an item. -/
def Item.storedRevision (db : Database) : Item → Option Int
  | .hotel id => (db.hotel.get? id).map (·.revision)
  | .reservation id => (db.reservation.get? id).map (·.revision)

/-- The item an update names and the revision it carries. -/
def Operation.updated : Operation → Option (Item × Int)
  | .update (.hotel (some hotel)) => some (.hotel hotel.id, hotel.revision)
  | .update (.reservation (some r)) => some (.reservation r.id, r.revision)
  | _ => none

/-- The revisions carried by the updates of an item, in order. -/
def revisionsOf (item : Item) (ops : Operations) : List Int :=
  (ops.filterMap Operation.updated).filterMap fun u => if u.1 = item then some u.2 else none

/-- The updates of an item used up the revisions from 1 on, and the next one is stored. -/
def Counted (item : Item) (ops : Operations) (db : Database) : Prop :=
  ∃ n : Nat, revisionsOf item ops = (List.range n).map (fun i : Nat => (i : Int) + 1) ∧
    (item.storedRevision db = some (n + 1 : Int) ∨ n = 0 ∧ item.storedRevision db = none)

theorem revisionsOf_append (item : Item) (past : Operations) (op : Operation) :
    revisionsOf item (past ++ [op]) = revisionsOf item past ++
      match op.updated with
      | some u => if u.1 = item then [u.2] else []
      | none => [] := by
  rw [revisionsOf, List.filterMap_append, List.filterMap_append]
  congr 1
  cases h : op.updated with
  | none => simp [h]
  | some u =>
    by_cases hu : u.1 = item
    · simp [h, hu]
    · simp [h, hu]

theorem Counted.same {item : Item} {past : Operations} {db db' : Database} {op : Operation}
    (h : Counted item past db) (hop : ∀ u, op.updated = some u → u.1 ≠ item)
    (hrevision : item.storedRevision db' = item.storedRevision db) :
    Counted item (past ++ [op]) db' := by
  obtain ⟨n, hn, hstored⟩ := h
  refine ⟨n, ?_, by rw [hrevision]; exact hstored⟩
  rw [revisionsOf_append, hn]
  cases hu : op.updated with
  | none => simp
  | some u => simp [hop u hu]

/-- The stored revision is used up, and the next one is stored. -/
theorem Counted.next {item : Item} {past : Operations} {db db' : Database} {op : Operation}
    {revision : Int} (h : Counted item past db) (hop : op.updated = some (item, revision))
    (hbefore : item.storedRevision db = some revision)
    (hafter : item.storedRevision db' = some (revision + 1)) : Counted item (past ++ [op]) db' := by
  obtain ⟨n, hn, hstored⟩ := h
  have hrevision : revision = n + 1 := by
    rcases hstored with hstored | ⟨-, hstored⟩
    · exact Option.some.inj (hbefore.symm.trans hstored)
    · rw [hbefore] at hstored
      cases hstored
  refine ⟨n + 1, ?_, Or.inl ?_⟩
  · rw [revisionsOf_append, hn, hop, List.range_succ, List.map_append, hrevision]
    simp
  · rw [hafter, hrevision]
    push_cast
    rfl

theorem Counted.stored {item : Item} {past : Operations} {db db' : Database} {op : Operation}
    (h : Counted item past db) (hop : op.updated = none) (hbefore : item.storedRevision db = none)
    (hafter : item.storedRevision db' = some 1) : Counted item (past ++ [op]) db' := by
  obtain ⟨n, hn, hstored⟩ := h
  have hzero : n = 0 := by
    rcases hstored with hstored | ⟨hzero, -⟩
    · rw [hbefore] at hstored
      cases hstored
    · exact hzero
  subst hzero
  refine ⟨0, ?_, Or.inl ?_⟩
  · rw [revisionsOf_append, hn, hop]
    rfl
  · rw [hafter]
    rfl

section
variable {build : Build} {boost : BoostDate} {item : Item} {past : Operations}
  {db db' : Database}

theorem Counted.of_insert {ρ : Type} {t : Table ρ} {revisionOf : ρ → Int} {row : ρ} {id : Int}
    {op : Operation} (h : Counted item past db) (hop : op.updated = none)
    (hone : revisionOf row = 1) (hbefore : item.storedRevision db = (t.get? id).map revisionOf)
    (hafter : item.storedRevision db' = ((t.insert row).get? id).map revisionOf) :
    Counted item (past ++ [op]) db' := by
  rw [Table.get?_insert] at hafter
  by_cases hid : id = t.nextId
  · rw [if_pos hid, Option.map_some, hone] at hafter
    -- the id is new, so the item was not there
    have hnone : t.get? id = none := by
      apply Table.get?_of_lt
      rw [hid]
      exact Int.lt_succ _
    rw [hnone] at hbefore
    exact h.stored hop hbefore hafter
  · rw [if_neg hid] at hafter
    apply h.same
    · intro u hu
      rw [hop] at hu
      cases hu
    · rw [hafter, hbefore]

theorem Counted.of_update {ρ : Type} {t : Table ρ} {revisionOf : ρ → Int} {change : ρ → ρ}
    {id target revision : Int} {op : Operation} {named : Item} (h : Counted item past db)
    (hop : op.updated = some (named, revision)) (hnamed : named = item ↔ id = target)
    (hrow : ∃ row, t.get? target = some row ∧ revisionOf row = revision)
    (hchange : ∀ row, revisionOf (change row) = revisionOf row + 1)
    (hbefore : item.storedRevision db = (t.get? id).map revisionOf)
    (hafter : item.storedRevision db' =
      ((t.update (fun i row => i == target && revisionOf row == revision) change).get? id).map
        revisionOf) :
    Counted item (past ++ [op]) db' := by
  rw [Table.get?_update] at hafter
  by_cases hid : id = target
  · obtain ⟨row, hget, hrevision⟩ := hrow
    rw [hid, hget] at hbefore hafter
    obtain rfl := hnamed.2 hid
    apply h.next hop
    · rw [hbefore, Option.map_some, hrevision]
    · simp [hafter, hrevision, hchange]
  · apply h.same
    · intro u hu
      rw [hop] at hu
      cases hu
      exact fun heq => hid (hnamed.1 heq)
    · rw [hbefore, hafter]
      simp [hid]

/-- Every operation of a committed batch that does not erase everything keeps the count. -/
theorem counted_effect {op : Operation} {notices : List Notice} (hop : op ≠ .eraseAllData)
    (h : Counted item past db) (he : Effect build boost db op db' notices) :
    Counted item (past ++ [op]) db' := by
  have hother : op.updated = none → item.storedRevision db' = item.storedRevision db →
      Counted item (past ++ [op]) db' := by
    intro hnone hsame
    apply h.same _ hsame
    intro u hu
    rw [hnone] at hu
    cases hu
  cases he with
  | eraseAllData => exact absurd rfl hop
  | storeNull new null => exact hother rfl rfl
  | storeHotel hotel =>
    cases item with
    | hotel id => exact h.of_insert (t := db.hotel) rfl rfl rfl rfl
    | reservation id => exact hother rfl rfl
  | storeReservation r r' db' stored =>
    obtain ⟨status, -, rfl, -⟩ := of_storeNewReservationAndAtoms stored
    cases item with
    | hotel id => exact hother rfl rfl
    | reservation id => exact h.of_insert (t := db.reservation) rfl rfl rfl rfl
  | updateHotel hotel hotel' db' hasId updated =>
    obtain ⟨hrow, rfl, -⟩ := of_updateHotel updated
    cases item with
    | hotel id =>
      exact h.of_update (t := db.hotel) rfl (by rw [Item.hotel.injEq, eq_comm]) hrow (fun _ => rfl)
        rfl rfl
    | reservation id =>
      apply h.same _ rfl
      intro u hu
      cases hu
      exact Item.noConfusion
  | updateReservation r r' db' hasId updated =>
    obtain ⟨status, -, hrow, rfl, -⟩ := of_updateReservation updated
    cases item with
    | hotel id =>
      apply h.same _ rfl
      intro u hu
      cases hu
      exact Item.noConfusion
    | reservation id =>
      exact h.of_update (t := db.reservation) rfl (by rw [Item.reservation.injEq, eq_comm]) hrow
        (fun _ => rfl) rfl rfl
  | deleteReservation id =>
    apply hother rfl
    cases item with
    | hotel id => rfl
    | reservation id => rfl

theorem update_conflict {op : Operation} {revision : Int} {e : Executed}
    (hop : op.updated = some (item, revision)) (hstored : item.storedRevision db ≠ some revision)
    (he : executeOperation build boost db op = .ok e) : e.result.succeeded = false := by
  by_contra hs
  rw [Bool.not_eq_false] at hs
  have heffect := effect_of_succeeded he hs
  apply hstored
  generalize e.db = db' at heffect
  generalize e.notices = notices at heffect
  cases heffect with
  | eraseAllData => cases hop
  | storeNull new null => cases hop
  | storeHotel hotel => cases hop
  | storeReservation r r' db' stored => cases hop
  | deleteReservation id => cases hop
  | updateHotel hotel hotel' db' hasId updated =>
    obtain ⟨⟨row, hget, hrevision⟩, -⟩ := of_updateHotel updated
    cases hop
    rw [Item.storedRevision, hget, Option.map_some, hrevision]
  | updateReservation r r' db' hasId updated =>
    obtain ⟨status, -, ⟨row, hget, hrevision⟩, -⟩ := of_updateReservation updated
    cases hop
    rw [Item.storedRevision, hget, Option.map_some, hrevision]

end

/-- The updates of the committed batches, each with its item and revision. -/
def committedUpdates (rs : List BatchRecord) : List (Item × Int) :=
  (committedOps rs).filterMap Operation.updated

theorem count_eq_revisionsOf (item : Item) (revision : Int) (ops : Operations) :
    (ops.filterMap Operation.updated).count (item, revision) =
      (revisionsOf item ops).count revision := by
  rw [revisionsOf]
  induction ops.filterMap Operation.updated with
  | nil => rfl
  | cons u us ih =>
    obtain ⟨named, carried⟩ := u
    rw [List.count_cons, ih, List.filterMap_cons]
    by_cases hnamed : named = item
    · simp [hnamed, List.count_cons]
    · simp [hnamed]

theorem countP_eq_revisionsOf (item : Item) (ops : Operations) :
    (ops.filterMap Operation.updated).countP (fun u => u.1 = item) =
      (revisionsOf item ops).length := by
  rw [revisionsOf]
  induction ops.filterMap Operation.updated with
  | nil => rfl
  | cons u us ih =>
    obtain ⟨named, carried⟩ := u
    rw [List.countP_cons, ih, List.filterMap_cons]
    by_cases hnamed : named = item
    · simp [hnamed]
    · simp [hnamed]

namespace Backend

variable {build : Build} {boost : BoostDate}

/-- In every run in which nothing is erased the updates of every item are counted. -/
theorem reached_counted {s : Backend} (h : Reached build boost {} s)
    (hno : ∀ r ∈ s.executed, Operation.eraseAllData ∉ r.operations) (item : Item) :
    Counted item (committedOps s.executed) s.storage.current := by
  have hhistory := (reached_sound h).history
  have halong : AlongHistory build boost (fun _ op => op ≠ .eraseAllData) s.executed := by
    intro r hr _
    apply Along.of_forall
    intro _ op hop heq
    exact hno r hr (heq ▸ hop)
  apply hhistory.induction _ _ halong
  · refine ⟨0, rfl, Or.inr ⟨rfl, ?_⟩⟩
    cases item with
    | hotel id => rfl
    | reservation id => rfl
  · intro past db op db' notices hop hpast heffect
    exact counted_effect hop hpast heffect

/-- On a new database, in every interleaving in which nothing is erased: of the
    committed updates of an item at most one carried any given revision, and the
    stored revision is one more than their number. An update that carries another
    revision than the stored one returns an error, and its batch leaves the storage
    and the change queue as they were. -/
theorem optimistic_locking {s : Backend} (h : Reached build boost {} s)
    (hno : ∀ r ∈ s.executed, Operation.eraseAllData ∉ r.operations) :
    (∀ item revision, (committedUpdates s.executed).count (item, revision) ≤ 1) ∧
    (∀ (item : Item) (revision : Int), item.storedRevision s.storage.current = some revision →
      revision = 1 + (committedUpdates s.executed).countP fun u => u.1 = item) ∧
    ∀ streams db changeList before op after db' rs cs item revision,
      Succeed build boost streams db before db' rs cs →
      Operation.updated op = some (item, revision) →
      item.storedRevision db' ≠ some revision →
      (Runs build op → ∃ out, processTask build boost streams { current := db } changeList
        (before ++ op :: after) = .ok out) ∧
      ∀ out, processTask build boost streams { current := db } changeList
          (before ++ op :: after) = .ok out →
        out.storage = { current := db } ∧ out.changeList = changeList ∧ out.committed = false ∧
          ∃ e : TaskResult, e.status = .error ∧ out.results = rs ++ [e] := by
  refine ⟨fun item revision => ?_, fun item revision hstored => ?_, ?_⟩
  · obtain ⟨n, hn, -⟩ := reached_counted h hno item
    rw [committedUpdates, count_eq_revisionsOf, hn]
    apply List.nodup_iff_count_le_one.1
    apply List.Nodup.map _ List.nodup_range
    intro i j hij
    dsimp only at hij
    omega
  · obtain ⟨n, hn, hcases⟩ := reached_counted h hno item
    rw [committedUpdates, countP_eq_revisionsOf, hn, List.length_map, List.length_range]
    rcases hcases with hsome | ⟨-, hnone⟩
    · rw [hsome] at hstored
      have := Option.some.inj hstored
      omega
    · rw [hnone] at hstored
      cases hstored
  · intro streams db changeList before op after db' rs cs item revision hsucceed hop hstale
    constructor
    · intro hruns
      obtain ⟨e, he⟩ := executeOperation_ok boost db' hruns
      exact ⟨_, processTask_fails hsucceed he (update_conflict hop hstale he) after changeList⟩
    · intro out hout
      cases he : executeOperation build boost db' op with
      | ok e =>
        have hf := update_conflict hop hstale he
        rw [processTask_fails hsucceed he hf] at hout
        cases hout
        refine ⟨rfl, rfl, rfl, e.result, ?_, rfl⟩
        simpa [TaskResult.succeeded] using hf
      | error fault =>
        -- an operation that stops the program has no results, so that there is no outcome
        have hrun : runOperations build boost streams db (before ++ op :: after) = .error fault := by
          rw [runOperations_append hsucceed, runOperations, he]
          rfl
        have hfault : processTask build boost streams { current := db } changeList
            (before ++ op :: after) = .error fault := by
          show (runOperations build boost streams db (before ++ op :: after) >>= _) = _
          rw [hrun]
          rfl
        rw [hfault] at hout
        cases hout

/-- A hotel is stored, and updated once with revision 1. -/
theorem optimistic_locking_oneUpdate : ∃ s : Backend,
    Item.storedRevision s.storage.current (.hotel 1) = some 2 ∧
    (committedUpdates s.executed).count (.hotel 1, 1) ≤ 1 ∧
    (2 : Int) = 1 + (committedUpdates s.executed).countP fun u => u.1 = .hotel 1 := by
  let hotel : Hotel := { name := "Hotel" }
  let updatedHotel : Hotel := { id := 1, revision := 1, name := "Hotel Paradiso" }
  have h₀ : Reached .debug .gregorian {} { storage := { current := {} } } := .init rfl
  have h₁ := h₀.step (.queueOperations _ [.storeNew (.hotel (some hotel))])
  have h₂ := h₁.step (.queueOperations _ [.update (.hotel (some updatedHotel))])
  have h₃ := h₂.step (.swap _ rfl)
  have h₄ := h₃.step (.collect _ rfl)
  have h₅ := h₄.step (.process _ rfl rfl)
  have h₆ := h₅.step (.executeTask _ rfl _ _ rfl _ [] rfl rfl)
  have h₇ := h₆.step (.executeTask _ rfl _ _ rfl _ [] rfl rfl)
  obtain ⟨hcount, hrevision, -⟩ := optimistic_locking h₇ (by decide)
  exact ⟨_, rfl, hcount (.hotel 1) 1, hrevision (.hotel 1) 2 rfl⟩

end Backend

end HotelPms

import HotelPms.Sqlite.Revisions

/- Identity of items.

   A client keeps a copy of an item and names it by its id and its revision. The id
   is all that ties the copy to the stored row: `EraseAllData` drops the tables, and
   with them the counters, so that the items stored afterwards get the ids 1, 2, 3, ...
   again. `creatorOf` says which operation created the item that now has an id.

   As long as no item of a kind is created both before and after some `EraseAllData`,
   what is done with a copy is done to the item it was taken from, or to nothing
   (`same_item`). Otherwise an old copy can overwrite another item (`other_item`). -/
namespace HotelPms
open Lib SqliteStorage DataStreamManager SqliteBackend

/-! ## Who created an item -/

/-- The kinds of items that are stored. -/
inductive ItemKind where
  | hotel
  | reservation
  deriving DecidableEq

def Item.kind : Item → ItemKind
  | .hotel _ => .hotel
  | .reservation _ => .reservation

def Item.id : Item → Int
  | .hotel id => id
  | .reservation id => id

/-- The kind of the item that an operation creates. -/
def Operation.creates : Operation → Option ItemKind
  | .storeNew (.hotel (some _)) => some .hotel
  | .storeNew (.reservation (some _)) => some .reservation
  | _ => none

/-- The positions of the operations that created the items of a kind which are there after
    some operations, by ascending id. -/
def creators (kind : ItemKind) (ops : Operations) : List Nat :=
  (ops.zipIdx.foldl (fun ids op =>
    if op.1 = .eraseAllData then [] else if op.1.creates = some kind then ids ++ [op.2] else ids) [])

/-- The position of the operation that created the item which an id names. -/
def creatorOf (item : Item) (ops : Operations) : Option Nat :=
  if 0 < item.id then (creators item.kind ops)[(item.id - 1).toNat]? else none

/-- Items of one kind are created before and after everything was erased. -/
def Reissues (ops : Operations) : Prop :=
  ∃ kind before after, ops = before ++ .eraseAllData :: after ∧
    (∃ op ∈ before, op.creates = some kind) ∧ ∃ op ∈ after, op.creates = some kind

/-- The largest id given out for a kind. -/
def ItemKind.seq (db : Database) : ItemKind → Int
  | .hotel => db.hotel.seq
  | .reservation => db.reservation.seq

/-- Nothing but the item was changed. -/
def OnlyChanges (db db' : Database) : Item → Prop
  | .hotel id =>
    db'.roomCategory = db.roomCategory ∧ db'.room = db.room ∧ db'.reservation = db.reservation ∧
      db'.reservationAtom = db.reservationAtom ∧
      ∀ other, other ≠ id → db'.hotel.get? other = db.hotel.get? other
  | .reservation id =>
    db'.hotel = db.hotel ∧ db'.roomCategory = db.roomCategory ∧ db'.room = db.room ∧
      ∀ other, other ≠ id → db'.reservation.get? other = db.reservation.get? other ∧
        atomsOf db' other = atomsOf db other

section
variable {build : Build} {boost : BoostDate} {item : Item} {kind : ItemKind} {past ops : Operations}
  {db db' : Database}

theorem creators_append (kind : ItemKind) (past : Operations) (op : Operation) :
    creators kind (past ++ [op]) =
      if op = .eraseAllData then []
      else if op.creates = some kind then creators kind past ++ [past.length] else creators kind past := by
  rw [creators, List.zipIdx_append, List.foldl_append]
  simp only [List.zipIdx_cons, List.zipIdx_nil, List.foldl_cons, List.foldl_nil, Nat.zero_add]
  rfl

theorem creators_prefix (kind : ItemKind) (past : Operations) {later : Operations}
    (h : .eraseAllData ∉ later) : creators kind past <+: creators kind (past ++ later) := by
  induction later using List.reverseRecOn with
  | nil => rw [List.append_nil]
  | append_singleton later op ih =>
    have hlater : .eraseAllData ∉ later := fun hmem => h (List.mem_append_left _ hmem)
    have hop : op ≠ .eraseAllData := fun heq => h (by simp [heq])
    rw [← List.append_assoc, creators_append, if_neg hop]
    split
    · exact (ih hlater).trans (List.prefix_append _ _)
    · exact ih hlater

theorem exists_creates (h : creators kind past ≠ []) : ∃ op ∈ past, op.creates = some kind := by
  induction past using List.reverseRecOn with
  | nil => exact absurd rfl h
  | append_singleton past op ih =>
    rw [creators_append] at h
    split at h
    · exact absurd rfl h
    · split at h
      · next hop => exact ⟨op, by simp, hop⟩
      · obtain ⟨op', hop', hcreates⟩ := ih h
        exact ⟨op', List.mem_append_left _ hop', hcreates⟩

theorem creators_erased (before : Operations) {after : Operations}
    (h : ∀ op ∈ after, op.creates ≠ some kind) : creators kind (before ++ .eraseAllData :: after) = [] := by
  induction after using List.reverseRecOn with
  | nil => rw [creators_append, if_pos rfl]
  | append_singleton after op ih =>
    have hafter := ih fun op' hop' => h op' (List.mem_append_left _ hop')
    have hop := h op (by simp)
    rw [← List.cons_append, ← List.append_assoc, creators_append, if_neg hop, hafter, ite_self]

/-! ## Ids in the database -/

/-- The ids are those of the items that were created, and every atom belongs to one of them. -/
def Named (past : Operations) (db : Database) : Prop :=
  (∀ kind : ItemKind, ((creators kind past).length : Int) = kind.seq db) ∧
    ∀ atom ∈ db.reservationAtom.rows, 0 < atom.2.reservationId ∧ atom.2.reservationId ≤ db.reservation.seq

theorem named_new : Named [] {} := by
  constructor
  · intro kind
    cases kind <;> rfl
  · exact nofun

theorem creators_same {op : Operation} (kind : ItemKind) (past : Operations) (herase : op ≠ .eraseAllData)
    (hcreates : op.creates = none) : creators kind (past ++ [op]) = creators kind past := by
  rw [creators_append, if_neg herase, hcreates, if_neg nofun]

theorem atoms_insertAtoms {boost : BoostDate} {r : Reservation} {seq : Int}
    (h : ∀ atom ∈ db.reservationAtom.rows, 0 < atom.2.reservationId ∧ atom.2.reservationId ≤ seq)
    (hr : 0 < r.id ∧ r.id ≤ seq) : ∀ atom ∈ (insertAtoms boost db r).1.reservationAtom.rows,
      0 < atom.2.reservationId ∧ atom.2.reservationId ≤ seq := by
  intro atom hatom
  have hrows : (insertAtoms boost db r).1.reservationAtom.rows =
      db.reservationAtom.rows ++ insertedAtoms boost db r := Table.insertAll_rows _ _
  rw [hrows] at hatom
  rcases List.mem_append.1 hatom with hold | hnew
  · exact h atom hold
  · rw [reservationId_insertedAtoms atom hnew]
    exact hr

theorem named_effect {op : Operation} {notices : List Notice} (h : Named past db)
    (he : Effect build boost db op db' notices) : Named (past ++ [op]) db' := by
  obtain ⟨hseq, hatoms⟩ := h
  -- an operation creates an item of one kind or of none, and its table counts it
  have hsame : op ≠ .eraseAllData → op.creates = none → (∀ kind : ItemKind, kind.seq db' = kind.seq db) →
      ∀ kind : ItemKind, ((creators kind (past ++ [op])).length : Int) = kind.seq db' := by
    intro herase hcreates hdb kind
    rw [creators_same kind past herase hcreates, hdb]
    exact hseq kind
  have hmore : ∀ created : ItemKind, op ≠ .eraseAllData → op.creates = some created →
      (∀ kind : ItemKind, kind.seq db' = kind.seq db + if created = kind then 1 else 0) →
      ∀ kind : ItemKind, ((creators kind (past ++ [op])).length : Int) = kind.seq db' := by
    intro created herase hcreates hdb kind
    rw [creators_append, if_neg herase, hcreates, hdb, ← hseq kind]
    by_cases hkind : created = kind
    · simp [hkind]
    · simp [hkind]
  cases he with
  | eraseAllData =>
    refine ⟨fun kind => ?_, nofun⟩
    rw [creators_append, if_pos rfl]
    cases kind <;> rfl
  | storeNull new null =>
    have hcreates : (Operation.storeNew new).creates = none := by
      cases new with
      | hotel item => cases item with
        | none => rfl
        | some hotel => cases null
      | reservation item => cases item with
        | none => rfl
        | some r => cases null
      | person item => rfl
    exact ⟨hsame nofun hcreates fun _ => rfl, hatoms⟩
  | storeHotel hotel =>
    refine ⟨hmore .hotel nofun rfl fun kind => ?_, hatoms⟩
    cases kind with
    | hotel => rfl
    | reservation => exact (add_zero _).symm
  | storeReservation r r' db' stored =>
    obtain ⟨status, -, rfl, -⟩ := of_storeNewReservationAndAtoms stored
    refine ⟨hmore .reservation nofun rfl fun kind => ?_, ?_⟩
    · cases kind with
      | hotel => exact (add_zero _).symm
      | reservation => rfl
    · have hpos := db.reservation.nonneg
      apply atoms_insertAtoms
      · intro atom hatom
        have hold := hatoms atom hatom
        show _ ∧ _ ≤ db.reservation.seq + 1
        omega
      · show 0 < db.reservation.seq + 1 ∧ db.reservation.seq + 1 ≤ db.reservation.seq + 1
        omega
  | updateHotel hotel hotel' db' hasId updated =>
    obtain ⟨-, rfl, -⟩ := of_updateHotel updated
    exact ⟨hsame nofun rfl fun kind => by cases kind <;> rfl, hatoms⟩
  | updateReservation r r' db' hasId updated =>
    obtain ⟨status, -, ⟨row, hget, -⟩, rfl, -⟩ := of_updateReservation updated
    refine ⟨hsame nofun rfl fun kind => by cases kind <;> rfl, ?_⟩
    apply atoms_insertAtoms
    · exact fun atom hatom => hatoms atom (List.mem_of_mem_filter hatom)
    · have hrange : 0 < r.id ∧ r.id ≤ db.reservation.seq := Table.get?_isSome_le hget
      exact hrange
  | deleteReservation id =>
    exact ⟨hsame nofun rfl fun kind => by cases kind <;> rfl,
      fun atom hatom => hatoms atom (List.mem_of_mem_filter hatom)⟩

theorem named_history {rs : List BatchRecord} (h : History build boost {} rs db) :
    Named (committedOps rs) db :=
  h.induction named_new (fun _ _ _ _ _ (_ : True) hpast he => named_effect hpast he)
    fun _ _ _ => Along.of_forall (fun _ _ _ => trivial) _

theorem named_succeed {streams : List DataStream} {rs : List TaskResult}
    {cs : List DataStreamDifferential} (h : Named past db)
    (hs : Succeed build boost streams db ops db' rs cs) : Named (past ++ ops) db' :=
  Succeed.induction (fun _ _ _ _ _ (_ : True) hpast he => named_effect hpast he) hs
    (Along.of_forall (fun _ _ _ => trivial) _) past h

theorem Named.creator (h : Named past db) {revision : Int}
    (hstored : item.storedRevision db = some revision) :
    0 < item.id ∧ (item.id - 1).toNat < (creators item.kind past).length := by
  have hrange : 0 < item.id ∧ item.id ≤ item.kind.seq db := by
    cases item with
    | hotel id =>
      obtain ⟨row, hrow, -⟩ := Option.map_eq_some_iff.1 hstored
      exact Table.get?_isSome_le hrow
    | reservation id =>
      obtain ⟨row, hrow, -⟩ := Option.map_eq_some_iff.1 hstored
      exact Table.get?_isSome_le hrow
  have hlength := h.1 item.kind
  omega

theorem Named.none_stored (h : Named past db) (hnone : creators item.kind past = []) :
    item.storedRevision db = none := by
  cases hstored : item.storedRevision db with
  | none => rfl
  | some revision =>
    have hcreator := (h.creator hstored).2
    rw [hnone] at hcreator
    exact absurd hcreator (Nat.not_lt_zero _)

/-! ## What an operation on an item changes -/

/-- An update that succeeds carries the stored revision, and changes its item only. -/
theorem update_effect {op : Operation} {notices : List Notice} {revision : Int}
    (he : Effect build boost db op db' notices) (hop : op.updated = some (item, revision)) :
    item.storedRevision db = some revision ∧ OnlyChanges db db' item := by
  cases he with
  | eraseAllData => cases hop
  | storeNull new null => cases hop
  | storeHotel hotel => cases hop
  | storeReservation r r' db' stored => cases hop
  | deleteReservation id => cases hop
  | updateHotel hotel hotel' db' hasId updated =>
    obtain ⟨⟨row, hget, hrevision⟩, rfl, -⟩ := of_updateHotel updated
    cases hop
    refine ⟨?_, rfl, rfl, rfl, rfl, fun other hother => ?_⟩
    · rw [Item.storedRevision, hget, Option.map_some, hrevision]
    · show (updatedHotels db hotel).get? other = _
      rw [updatedHotels, Table.get?_update]
      simp [hother]
  | updateReservation r r' db' hasId updated =>
    obtain ⟨status, -, ⟨row, hget, hrevision⟩, rfl, -⟩ := of_updateReservation updated
    cases hop
    refine ⟨?_, rfl, rfl, rfl, fun other hother => ⟨?_, ?_⟩⟩
    · rw [Item.storedRevision, hget, Option.map_some, hrevision]
    · show (updatedReservations db r status).get? other = _
      rw [updatedReservations, Table.get?_update]
      simp [hother]
    · rw [atomsOf_insertAtoms, if_neg hother.symm, List.append_nil]
      show atomsOf { db with reservationAtom := otherAtoms db r.id } other = _
      rw [atomsOf_otherAtoms, if_neg hother]

theorem delete_only (db : Database) (id : Int) :
    OnlyChanges db (deleteReservationById db id) (.reservation id) := by
  refine ⟨rfl, rfl, rfl, fun other hother => ⟨rfl, ?_⟩⟩
  rw [deleteReservationById_eq, atomsOf_otherAtoms, if_neg hother]

theorem Named.delete_none (h : Named past db) (hnone : creators .reservation past = []) (id : Int) :
    deleteReservationById db id = db := by
  have hseq := h.1 .reservation
  rw [hnone] at hseq
  have hseq : (0 : Int) = db.reservation.seq := hseq
  have hrows : db.reservationAtom.rows = [] := by
    apply List.eq_nil_iff_forall_not_mem.2
    intro atom hatom
    have hrange := h.2 atom hatom
    omega
  have hatoms : (db.reservationAtom.delete fun _ atom => atom.reservationId == id) = db.reservationAtom := by
    apply Table.ext
    · rfl
    · show db.reservationAtom.rows.filter _ = _
      rw [hrows]
      rfl
  rw [deleteReservationById, hatoms]

/-- Between a copy and its use, either nothing was erased and the id names the same item, or
    there is no item of the kind. -/
theorem creatorOf_same {later : Operations} (hbefore : creatorOf item past ≠ none)
    (hno : ¬ Reissues (past ++ later)) :
    creatorOf item (past ++ later) = creatorOf item past ∨ creators item.kind (past ++ later) = [] := by
  by_cases herase : .eraseAllData ∈ later
  · right
    obtain ⟨between, after, rfl⟩ := List.append_of_mem herase
    have hcreated : ∃ op ∈ past, op.creates = some item.kind := by
      apply exists_creates
      intro hnone
      apply hbefore
      rw [creatorOf, hnone]
      simp
    obtain ⟨op, hop, hcreates⟩ := hcreated
    rw [← List.append_assoc] at hno ⊢
    apply creators_erased
    intro op' hop' hcreates'
    exact hno ⟨item.kind, past ++ between, after, rfl, ⟨op, List.mem_append_left _ hop, hcreates⟩,
      op', hop', hcreates'⟩
  · left
    obtain ⟨more, hmore⟩ := creators_prefix item.kind past herase
    rw [creatorOf, creatorOf, ← hmore]
    by_cases hid : 0 < item.id
    · rw [creatorOf, if_pos hid] at hbefore
      have hlt : (item.id - 1).toNat < (creators item.kind past).length := by
        by_contra hge
        exact hbefore (List.getElem?_eq_none (not_lt.1 hge))
      rw [if_pos hid, if_pos hid, List.getElem?_append_left hlt]
    · rw [if_neg hid, if_neg hid]

end

namespace Backend

variable {build : Build} {boost : BoostDate}

/-- A copy is taken of an item that is stored after some batches. In every run in which no
    items of a kind are created both before and after an erasure, an update with the
    copy's id and revision that succeeds changes the item that the copy was taken from and
    nothing else, and a deletion with its id this item or nothing. -/
theorem same_item {s : Backend} (h : Reached build boost {} s) {k : Nat} (hk : k ≤ s.executed.length)
    (item : Item) (revision : Int)
    (hcopied : item.storedRevision (databaseAfter {} s.executed k) = some revision)
    {streams : List DataStream} {before : Operations} {db : Database} {rs : List TaskResult}
    {cs : List DataStreamDifferential}
    (hbefore : Succeed build boost streams s.storage.current before db rs cs)
    (hno : ¬ Reissues (committedOps s.executed ++ before)) (op : Operation) {e : Executed}
    (he : executeOperation build boost db op = .ok e) (hs : e.result.succeeded = true) :
    (op.updated = some (item, revision) →
      creatorOf item (committedOps s.executed ++ before) =
        creatorOf item (committedOps (s.executed.take k)) ∧ OnlyChanges db e.db item) ∧
    (∀ id, item = .reservation id → op = .delete .reservation id → e.db = db ∨
      creatorOf item (committedOps s.executed ++ before) =
        creatorOf item (committedOps (s.executed.take k)) ∧ OnlyChanges db e.db item) := by
  have hhistory := (reached_sound h).history
  have hthen := named_history (hhistory.split hk).1
  have hnow := named_succeed (named_history hhistory) hbefore
  -- the operations since the copy was taken
  have hsplit : committedOps s.executed ++ before = committedOps (s.executed.take k) ++
      (committedOps (s.executed.drop k) ++ before) := by
    rw [← List.append_assoc, committedOps, committedOps, committedOps, ← List.flatMap_append,
      List.take_append_drop]
  have hcreated : creatorOf item (committedOps (s.executed.take k)) ≠ none := by
    obtain ⟨hid, hlt⟩ := hthen.creator hcopied
    rw [creatorOf, if_pos hid, List.getElem?_eq_getElem hlt]
    exact Option.some_ne_none _
  rw [hsplit] at hno hnow ⊢
  have hcases := creatorOf_same hcreated hno
  have heffect := effect_of_succeeded he hs
  constructor
  · intro hop
    obtain ⟨hstored, honly⟩ := update_effect heffect hop
    rcases hcases with hsame | hnone
    · exact ⟨hsame, honly⟩
    · rw [hnow.none_stored hnone] at hstored
      cases hstored
  · rintro id rfl rfl
    cases he
    rcases hcases with hsame | hnone
    · exact Or.inr ⟨hsame, delete_only db id⟩
    · exact Or.inl (hnow.delete_none hnone id)

/-- The update of a copy of the hotel with id 1. -/
def renamed : Operation :=
  .update (.hotel (some { id := 1, revision := 1, name := "Renamed", owned := Hotel.noRooms }))

/-- A hotel is stored, copied, and updated. -/
theorem same_item_renamed : ∃ (s : Backend) (e : Executed),
    executeOperation .debug .gregorian s.storage.current renamed = .ok e ∧
    creatorOf (.hotel 1) (committedOps s.executed ++ []) = some 0 ∧
    OnlyChanges s.storage.current e.db (.hotel 1) := by
  have h₀ : Reached .debug .gregorian {} { storage := { current := {} } } := .init rfl
  have h₁ := h₀.step (.queueOperations _ [.storeNew (.hotel (some { name := "Old" }))])
  have h₂ := h₁.step (.swap _ rfl)
  have h₃ := h₂.step (.collect _ rfl)
  have h₄ := h₃.step (.process _ rfl rfl)
  have h₅ := h₄.step (.executeTask _ rfl _ _ rfl _ [] rfl rfl)
  have hno : ¬ Reissues [.storeNew (.hotel (some { name := "Old" }))] := by
    rintro ⟨kind, before, after, heq, -⟩
    have hmem : Operation.eraseAllData ∈ [Operation.storeNew (.hotel (some { name := "Old" }))] := by
      rw [heq]
      simp
    simp at hmem
  have hnothing : ∀ db, Succeed .debug .gregorian [] db [] db [] [] := .nil
  obtain ⟨hsame, honly⟩ := (same_item h₅ le_rfl (.hotel 1) 1 rfl (hnothing _) hno renamed rfl rfl).1 rfl
  exact ⟨_, _, rfl, rfl, honly⟩

/-- A hotel is stored and copied, everything is erased, and another hotel is stored. The
    update of the copy succeeds, and renames the other hotel. -/
theorem other_item : ∃ (s : Backend) (e : Executed), Reached .debug .gregorian {} s ∧
    Item.storedRevision (databaseAfter {} s.executed 1) (.hotel 1) = some 1 ∧
    executeOperation .debug .gregorian s.storage.current renamed = .ok e ∧ e.result.succeeded = true ∧
    creatorOf (.hotel 1) (committedOps (s.executed.take 1)) = some 0 ∧
    creatorOf (.hotel 1) (committedOps s.executed) = some 2 ∧
    s.storage.current.hotel.rows = [(1, { revision := 1, name := "New" })] ∧
    e.db.hotel.rows = [(1, { revision := 2, name := "Renamed" })] := by
  have h₀ : Reached .debug .gregorian {} { storage := { current := {} } } := .init rfl
  have h₁ := h₀.step (.queueOperations _ [.storeNew (.hotel (some { name := "Old" }))])
  have h₂ := h₁.step (.queueOperations _ [.eraseAllData])
  have h₃ := h₂.step (.queueOperations _ [.storeNew (.hotel (some { name := "New" }))])
  have h₄ := h₃.step (.swap _ rfl)
  have h₅ := h₄.step (.collect _ rfl)
  have h₆ := h₅.step (.process _ rfl rfl)
  have h₇ := h₆.step (.executeTask _ rfl _ _ rfl _ [] rfl rfl)
  have h₈ := h₇.step (.executeTask _ rfl _ _ rfl _ [] rfl rfl)
  have h₉ := h₈.step (.executeTask _ rfl _ _ rfl _ [] rfl rfl)
  exact ⟨_, _, h₉, rfl, rfl, rfl, rfl, rfl, rfl, rfl⟩

end Backend

end HotelPms

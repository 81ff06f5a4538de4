import HotelPms.Sqlite.Backend

/- A batch when SQLite may fail.

   `Storage.lean` takes every statement to execute. Here SQLite is what it answers:
   each execution of a statement has an answer in an arbitrary assignment, a result
   code and, for a statement that completes, the rows it changed and the id it
   inserted; so have BEGIN, COMMIT and what `deleteAll` prepares. What the statements'
   arguments are makes no difference to the program, so they are left out; so are the
   statements that only read.

   A statement is stepped only if it was prepared and its last execution ended
   well (`prepareForQuery`); a statement that failed once is never stepped again.
   Nobody looks at the result of an execution. An update looks at the number of
   changed rows, which is that of the last statement that completed.

   So the states before the statements decide what a batch reports: an operation is
   refused exactly if `Refuses` says so, and otherwise it has issued its statements
   (`executeOperation_spec`). -/
namespace HotelPms
open SqliteStorage DataStreamManager

namespace ResultCodes

inductive ResultCode where
  | ok
  | row
  | done
  | busy
  | constraint
  | other (code : Int)
  deriving DecidableEq

/-- What SQLite answers. -/
structure Answer where
  code : ResultCode
  /-- the rows the statement changed, if it completes -/
  changedRows : Int := 0
  /-- the id of the row the statement inserted, if it completes -/
  insertedId : Int := 0

/-- The keys of `_statements`. -/
inductive Query where
  | hotelInsert
  | hotelUpdate
  | hotelAll
  | hotelById
  | roomCategoryInsert
  | roomCategoryByHotelId
  | roomInsert
  | roomByHotelId
  | reservationAndAtomsAll
  | reservationAndAtomsByReservationId
  | reservationInsert
  | reservationUpdate
  | reservationDeleteAtoms
  | reservationDelete
  | reservationAtomInsert
  deriving DecidableEq

def Query.inserts : Query → Bool
  | .hotelInsert | .roomCategoryInsert | .roomInsert | .reservationInsert
  | .reservationAtomInsert => true
  | _ => false

structure SqliteStatement where
  /-- `_statement` is not null -/
  prepared : Bool
  lastResult : ResultCode := .ok
  deriving DecidableEq

/-- `prepareForQuery`: a statement that is done is reset, one that failed is not. -/
def SqliteStatement.prepareForQuery (statement : SqliteStatement) : Bool × SqliteStatement :=
  if !statement.prepared then (false, statement)
  else
    let lastResult := if statement.lastResult = .done then .ok else statement.lastResult
    (lastResult = .ok, { statement with lastResult })

/-- An INSERT, UPDATE or DELETE that was issued, with the code its step returned if
    it was stepped, or a COMMIT. -/
inductive Issue where
  | statement (query : Query) (result : Option ResultCode)
  | commit (result : ResultCode)
  deriving DecidableEq

/-- `SqliteStorage` and its connection. -/
structure Storage where
  /-- The answers, by number. That to a statement which is not stepped is not looked at. -/
  answers : Nat → Answer
  calls : Nat := 0
  /-- `sqlite3_changes` -/
  changes : Int := 0
  /-- `sqlite3_last_insert_rowid` -/
  lastInsertId : Int := 0
  statements : Query → SqliteStatement := fun _ => { prepared := true }
  /-- history: what the batch issued -/
  issued : List Issue := []

namespace Storage

/-- The answer to the next call. -/
def answer (s : Storage) : Answer := s.answers s.calls

def call (s : Storage) : Storage := { s with calls := s.calls + 1 }

/-- `query(key).execute(...)`; whether it was executed is ignored. -/
def execute (s : Storage) (query : Query) : Storage :=
  let (ready, statement) := (s.statements query).prepareForQuery
  if ready then
    { s.call with
      statements := Function.update s.statements query { statement with lastResult := s.answer.code }
      changes := if s.answer.code = .done then s.answer.changedRows else s.changes
      lastInsertId :=
        if s.answer.code = .done ∧ query.inserts then s.answer.insertedId else s.lastInsertId
      issued := s.issued ++ [.statement query (some s.answer.code)] }
  else
    { s.call with
      statements := Function.update s.statements query statement
      issued := s.issued ++ [.statement query none] }

/-- `executeSQL`: a statement of its own is prepared, and stepped if it could be. Nobody looks
    at either answer. -/
def executeSQL (s : Storage) : Storage := s.call.call

/-- The order of `prepareQueries`. -/
def queries : List Query :=
  [.hotelInsert, .hotelUpdate, .hotelAll, .hotelById, .roomCategoryInsert, .roomCategoryByHotelId,
   .roomInsert, .roomByHotelId, .reservationAndAtomsAll, .reservationAndAtomsByReservationId,
   .reservationInsert, .reservationUpdate, .reservationDeleteAtoms, .reservationDelete,
   .reservationAtomInsert]

/-- `_statements.emplace` of one query. -/
def prepareQuery (s : Storage) (query : Query) : Storage :=
  { s.call with
    statements := Function.update s.statements query { prepared := s.answer.code = .ok } }

def prepareQueries (s : Storage) : Storage := queries.foldl prepareQuery s

/-- `deleteAll`: five tables are dropped and created again. -/
def deleteAll (s : Storage) : Storage :=
  let s := { s with statements := fun _ => { prepared := false } }
  let s := executeSQL^[5] s
  -- `createSchema`
  let s := executeSQL^[5] s
  prepareQueries s

/-- An INSERT for each of some items: the ids read after each. -/
def insertEach (s : Storage) (query : Query) : Nat → Storage × List Int
  | 0 => (s, [])
  | n + 1 =>
    let s := s.execute query
    let (after, ids) := insertEach s query n
    (after, s.lastInsertId :: ids)

def storeNewHotel (s : Storage) (hotel : Hotel) : Storage × Hotel :=
  let s := s.execute .hotelInsert
  let hotel := { hotel with id := s.lastInsertId, revision := 1 }
  let (s, ids) := s.insertEach .roomCategoryInsert hotel.categories.length
  let hotel := setCategoryIds hotel ids
  let (s, ids) := s.insertEach .roomInsert hotel.rooms.length
  (s, setRoomIds hotel ids)

/-- The loop over `reservation.atoms()`. -/
def insertAtoms (s : Storage) (reservation : Reservation) : Storage × Reservation :=
  let (s, ids) := s.insertEach .reservationAtomInsert reservation.atoms.length
  (s, { reservation with
        atoms := List.zipWith (fun atom id => { atom with id }) reservation.atoms ids })

def storeNewReservationAndAtoms (build : Build) (s : Storage) (reservation : Reservation) :
    Except Fault (Storage × Reservation) := do
  let _ ← serializeReservationStatus build reservation.status
  let s := s.execute .reservationInsert
  return s.insertAtoms { reservation with id := s.lastInsertId, revision := 1 }

/-- `update<hotel::Hotel>` -/
def updateHotel (s : Storage) (value : Hotel) : Bool × Storage × Hotel :=
  let s := s.execute .hotelUpdate
  if s.changes = 1 then (true, s, { value with revision := value.revision + 1 })
  else (false, s, value)

/-- `update<hotel::Reservation>` -/
def updateReservation (build : Build) (s : Storage) (value : Reservation) :
    Except Fault (Bool × Storage × Reservation) := do
  let _ ← serializeReservationStatus build value.status
  let s := s.execute .reservationUpdate
  if s.changes ≠ 1 then return (false, s, value)
  let s := s.execute .reservationDeleteAtoms
  let (s, value) := s.insertAtoms value
  return (true, s, { value with revision := value.revision + 1 })

def deleteReservationById (s : Storage) (_ : Int) : Storage := s.execute .reservationDelete

/-- `beginTransaction`; the history of a batch begins here. -/
def beginTransaction (s : Storage) : Storage := { s.call with issued := [] }

def commitTransaction (s : Storage) : Storage :=
  { s.call with issued := s.issued ++ [.commit s.answer.code] }

def rollbackTransaction (s : Storage) : Storage := s.call

end Storage

/-! ## Operations and batches -/

/-- What `executeOperation` leaves behind. -/
structure Executed where
  storage : Storage
  result : TaskResult
  notices : List Notice := []

section
variable (build : Build)

/-- `executeOperation(op::StoreNew&)` -/
def executeStoreNew (s : Storage) (newItem : StreamableTypePtr) : Except Fault Executed := do
  build.assert (!newItem.isNull) "!isNull"
  match newItem with
  | .hotel (some hotel) =>
    let (storage, hotel) := s.storeNewHotel hotel
    let added ← hotel.copy
    return { storage, result := .successful (.obj [("id", .int hotel.id)])
             notices := [⟨.hotel, .itemsAdded (.hotels [added])⟩] }
  | .reservation (some reservation) =>
    let (storage, reservation) ← s.storeNewReservationAndAtoms build reservation
    return { storage, result := .successful (.obj [("id", .int reservation.id)])
             notices := [⟨.reservation, .itemsAdded (.reservations [reservation])⟩] }
  | .person (some _) => return { storage := s, result := .error "Not implemented yet!" }
  | _ =>
    let result := TaskResult.successful (.obj [("message", .str "Trying to store empty item")])
    return { storage := s, result }

/-- `executeOperation(op::Update&)` -/
def executeUpdate (s : Storage) (updatedItem : StreamableTypePtr) : Except Fault Executed :=
  let failed := fun storage : Storage => (.ok
    { storage, result := .error "Could not update item (internal db error)" } : Except Fault Executed)
  match updatedItem with
  | .hotel (some hotel) =>
    if hotel.id = 0 then .ok { storage := s, result := .error "Cannot update hotel without id" } else do
      let (updated, storage, hotel) := s.updateHotel hotel
      if !updated then failed storage else
        let copied ← hotel.copy
        return { storage, result := .successful .null
                 notices := [⟨.hotel, .itemsUpdated (.hotels [copied])⟩] }
  | .reservation (some reservation) =>
    if reservation.id = 0 then
      .ok { storage := s, result := .error "Cannot update hotel without id" }
    else do
      let (updated, storage, reservation) ← s.updateReservation build reservation
      if !updated then failed storage else
        return { storage, result := .successful .null
                 notices := [⟨.reservation, .itemsUpdated (.reservations [reservation])⟩] }
  | .person (some person) =>
    if person.id = 0 then .ok { storage := s, result := .error "Cannot update hotel without id" }
    else failed s
  | _ => .ok { storage := s, result := .error "Trying to update empty item" }

/-- `executeOperation`, all overloads. -/
def executeOperation (s : Storage) : Operation → Except Fault Executed
  | .eraseAllData =>
    .ok { storage := s.deleteAll, result := .successful .null
          notices := [⟨.reservation, .cleared⟩, ⟨.hotel, .cleared⟩] }
  | .storeNew newItem => executeStoreNew build s newItem
  | .update updatedItem => executeUpdate build s updatedItem
  | .delete .reservation id =>
    .ok { storage := s.deleteReservationById id, result := .successful (.obj [("id", .int id)])
          notices := [⟨.reservation, .itemsRemoved [id]⟩] }
  | .delete _ _ => do
    build.assert false "false"
    return { storage := s, result := .error "Unknown data type" }

/-- The loop over the operations of a batch. -/
def runOperations (activeStreams : List DataStream) (s : Storage) :
    Operations → Except Fault (Storage × List DataStreamDifferential × List TaskResult × Bool)
  | [] => .ok (s, [], [], false)
  | operation :: operations => do
    let executed ← executeOperation build s operation
    let changes ← announce build activeStreams executed.notices
    if executed.result.succeeded then
      let (storage, changes', results, rollback) ←
        runOperations activeStreams executed.storage operations
      return (storage, changes ++ changes', executed.result :: results, rollback)
    else
      return (executed.storage, changes, [executed.result], true)

/-- What a batch leaves behind, and whether its stream changes were published. -/
structure TaskOutcome where
  storage : Storage
  changeList : List DataStreamDifferential
  results : List TaskResult
  published : Bool

/-- One turn of the loop over `newTasks` in `threadMain`. -/
def processTask (activeStreams : List DataStream) (s : Storage)
    (changeList : List DataStreamDifferential) (operations : Operations) :
    Except Fault TaskOutcome := do
  let (s, changes, results, rollback) ←
    runOperations build activeStreams s.beginTransaction operations
  if rollback then
    return { storage := s.rollbackTransaction, changeList, results, published := false }
  else
    return { storage := s.commitTransaction, changeList := SqliteBackend.addChanges changeList changes
             results, published := true }

end

/-! ## What a state decides -/

namespace Storage

/-- The statement is stepped and completes. -/
def Completes (s : Storage) (query : Query) : Prop :=
  (s.statements query).prepareForQuery.1 = true ∧ s.answer.code = .done

instance (s : Storage) (query : Query) : Decidable (s.Completes query) :=
  inferInstanceAs (Decidable (_ ∧ _))

/-- The changed rows that are read after the statement: its own, or those of the
    statement that completed last. -/
def rowsAfter (s : Storage) (query : Query) : Int :=
  if s.Completes query then s.answer.changedRows else s.changes

/-- The statements complete one after another. -/
def AllComplete (s : Storage) : List Query → Prop
  | [] => True
  | query :: queries => s.Completes query ∧ (s.execute query).AllComplete queries

/-- The operation reports an error. -/
def Refuses (s : Storage) : Operation → Prop
  | .storeNew (.person (some _)) => True
  | .update (.hotel (some hotel)) => hotel.id = 0 ∨ s.rowsAfter .hotelUpdate ≠ 1
  | .update (.reservation (some r)) => r.id = 0 ∨ s.rowsAfter .reservationUpdate ≠ 1
  | .update _ => True
  | .delete .reservation _ => False
  | .delete _ _ => True
  | _ => False

end Storage

/-- The statements that an operation issues if it is not refused. -/
def statementsOf : Operation → List Query
  | .storeNew (.hotel (some hotel)) =>
    .hotelInsert :: List.replicate hotel.categories.length .roomCategoryInsert ++
      List.replicate hotel.rooms.length .roomInsert
  | .storeNew (.reservation (some r)) =>
    .reservationInsert :: List.replicate r.atoms.length .reservationAtomInsert
  | .update (.hotel (some _)) => [.hotelUpdate]
  | .update (.reservation (some r)) =>
    .reservationUpdate :: .reservationDeleteAtoms ::
      List.replicate r.atoms.length .reservationAtomInsert
  | .delete .reservation _ => [.reservationDelete]
  | _ => []

namespace Storage

/-- The storage after an operation that is not refused. -/
def after (s : Storage) (operation : Operation) : Storage :=
  if operation = .eraseAllData then s.deleteAll else (statementsOf operation).foldl execute s

/-- Some operation of the batch is refused when it is its turn. -/
def RefusesOne (s : Storage) : Operations → Prop
  | [] => False
  | operation :: operations => s.Refuses operation ∨ (s.after operation).RefusesOne operations

/-- All statements of the batch complete and COMMIT succeeds. -/
def CompletesAll (s : Storage) : Operations → Prop
  | [] => s.answer.code = .ok
  | operation :: operations =>
    s.AllComplete (statementsOf operation) ∧ (s.after operation).CompletesAll operations

end Storage

/-! ## What executing statements leaves behind -/

/-- All statements among the issued ones completed. -/
def AllDone (issued : List Issue) : Prop :=
  ∀ query result, Issue.statement query result ∈ issued → result = some .done

/-- Every INSERT, UPDATE and DELETE was executed to completion, and COMMIT succeeded. -/
structure Completed (issued : List Issue) : Prop where
  statements : AllDone issued
  commit : Issue.commit .ok ∈ issued

theorem allDone_append {is js : List Issue} : AllDone (is ++ js) ↔ AllDone is ∧ AllDone js := by
  simp only [AllDone, List.mem_append, or_imp, forall_and]

theorem allDone_statement {query : Query} {result : Option ResultCode} :
    AllDone [.statement query result] ↔ result = some .done := by
  simp [AllDone]

theorem allDone_commit (result : ResultCode) : AllDone [.commit result] := by
  simp [AllDone]

namespace Storage
variable {s : Storage}

theorem execute_changes (s : Storage) (query : Query) :
    (s.execute query).changes = s.rowsAfter query := by
  cases hready : (s.statements query).prepareForQuery.1 with
  | false => simp [execute, rowsAfter, Completes, hready, call]
  | true => simp [execute, rowsAfter, Completes, hready]

/-- What a run issued: no COMMIT, and statements of which all completed exactly if `all`. -/
def Issues (s s' : Storage) (all : Prop) : Prop :=
  ∃ new, s'.issued = s.issued ++ new ∧ (AllDone new ↔ all) ∧ ∀ result, .commit result ∉ new

theorem Issues.refl (s : Storage) : s.Issues s True :=
  ⟨[], (List.append_nil _).symm, by simp [AllDone], by simp⟩

theorem Issues.trans {s' s'' : Storage} {all all' : Prop} (h : s.Issues s' all)
    (h' : s'.Issues s'' all') : s.Issues s'' (all ∧ all') := by
  obtain ⟨new, hissued, hall, hcommit⟩ := h
  obtain ⟨new', hissued', hall', hcommit'⟩ := h'
  refine ⟨new ++ new', ?_, ?_, fun result => ?_⟩
  · rw [hissued', hissued, List.append_assoc]
  · rw [allDone_append, hall, hall']
  · rw [List.mem_append, not_or]
    exact ⟨hcommit result, hcommit' result⟩

theorem execute_issues (s : Storage) (query : Query) :
    s.Issues (s.execute query) (s.Completes query) := by
  cases hready : (s.statements query).prepareForQuery.1 with
  | false =>
    refine ⟨[.statement query none], ?_, ?_, by simp⟩
    · simp [execute, hready, call]
    · simp [allDone_statement, Completes, hready]
  | true =>
    refine ⟨[.statement query (some s.answer.code)], ?_, ?_, by simp⟩
    · simp [execute, hready, call]
    · simp [allDone_statement, Completes, hready]

theorem executeAll_issues (s : Storage) (queries : List Query) :
    s.Issues (queries.foldl execute s) (s.AllComplete queries) := by
  induction queries generalizing s with
  | nil => exact .refl s
  | cons query queries ih => exact (execute_issues s query).trans (ih (s.execute query))

theorem deleteAll_issued (s : Storage) : s.deleteAll.issued = s.issued := by
  have hprepare : ∀ (queries : List Query) (s : Storage),
      (queries.foldl prepareQuery s).issued = s.issued := by
    intro queries
    induction queries with
    | nil => exact fun _ => rfl
    | cons query queries ih => exact fun s => ih (s.prepareQuery query)
  have hsql : ∀ (n : Nat) (s : Storage), (executeSQL^[n] s).issued = s.issued := by
    intro n
    induction n with
    | zero => exact fun _ => rfl
    | succ n ih =>
      intro s
      rw [Function.iterate_succ_apply, ih]
      rfl
  rw [deleteAll, prepareQueries, hprepare, hsql, hsql]

theorem insertEach_eq (s : Storage) (query : Query) (n : Nat) :
    (s.insertEach query n).1 = (List.replicate n query).foldl execute s := by
  induction n generalizing s with
  | zero => rfl
  | succ n ih => exact ih (s.execute query)

theorem storeNewHotel_eq (s : Storage) (hotel : Hotel) :
    (s.storeNewHotel hotel).1 = s.after (.storeNew (.hotel (some hotel))) := by
  have hrooms : ∀ (hotel : Hotel) ids, (setCategoryIds hotel ids).rooms.length = hotel.rooms.length :=
    fun _ _ => rfl
  simp only [storeNewHotel, insertEach_eq, hrooms, after, statementsOf, reduceCtorEq, if_false,
    List.cons_append, List.foldl_cons, List.foldl_append]

theorem storeNewReservation_eq {build : Build} {r : Reservation} {out : Storage × Reservation}
    (h : s.storeNewReservationAndAtoms build r = .ok out) :
    out.1 = s.after (.storeNew (.reservation (some r))) := by
  obtain ⟨status, -, h⟩ := Except.bind_eq_ok.1 h
  cases h
  simp only [insertAtoms, insertEach_eq, after, statementsOf, reduceCtorEq, if_false, List.foldl_cons]

theorem updateHotel_eq (s : Storage) (hotel : Hotel) :
    (s.updateHotel hotel).1 = decide (s.rowsAfter .hotelUpdate = 1) ∧
      (s.updateHotel hotel).2.1 = s.after (.update (.hotel (some hotel))) := by
  rw [← execute_changes]
  simp only [updateHotel]
  split
  · next h => exact ⟨(decide_eq_true h).symm, rfl⟩
  · next h => exact ⟨(decide_eq_false h).symm, rfl⟩

theorem updateReservation_ok {build : Build} {r : Reservation} {out : Bool × Storage × Reservation}
    (h : s.updateReservation build r = .ok out) :
    out.1 = decide (s.rowsAfter .reservationUpdate = 1) ∧
      (out.1 = true → out.2.1 = s.after (.update (.reservation (some r)))) := by
  obtain ⟨status, -, h⟩ := Except.bind_eq_ok.1 h
  rw [← execute_changes]
  dsimp only at h
  split at h
  · next hrows =>
    cases h
    exact ⟨(decide_eq_false hrows).symm, fun hfalse => absurd hfalse Bool.false_ne_true⟩
  · next hrows =>
    cases h
    refine ⟨(decide_eq_true (not_not.1 hrows)).symm, fun _ => ?_⟩
    simp only [insertAtoms, insertEach_eq, after, statementsOf, reduceCtorEq, if_false,
      List.foldl_cons]

theorem after_issues (s : Storage) (operation : Operation) :
    s.Issues (s.after operation) (s.AllComplete (statementsOf operation)) := by
  rw [after]
  split
  · next herase =>
    rw [herase]
    exact ⟨[], by rw [deleteAll_issued, List.append_nil], by simp [AllDone, statementsOf, AllComplete],
      by simp⟩
  · exact executeAll_issues s _

end Storage

/-! ## Operations -/

section
variable {build : Build} {s : Storage}

theorem executeStoreNew_spec {item : StreamableTypePtr} {e : Executed} (h : executeStoreNew build s item = .ok e) :
    (s.Refuses (.storeNew item) ∧ e.result.status = .error) ∨
      (¬ s.Refuses (.storeNew item) ∧ e.result.succeeded = true ∧ e.storage = s.after (.storeNew item)) := by
  obtain ⟨_, -, h⟩ := Except.bind_eq_ok.1 h
  cases item with
  | hotel item =>
    cases item with
    | none =>
      cases h
      exact Or.inr ⟨id, rfl, rfl⟩
    | some hotel =>
      obtain ⟨added, -, h⟩ := Except.bind_eq_ok.1 h
      cases h
      exact Or.inr ⟨id, rfl, Storage.storeNewHotel_eq s hotel⟩
  | reservation item =>
    cases item with
    | none =>
      cases h
      exact Or.inr ⟨id, rfl, rfl⟩
    | some r =>
      obtain ⟨out, hout, h⟩ := Except.bind_eq_ok.1 h
      cases h
      exact Or.inr ⟨id, rfl, Storage.storeNewReservation_eq hout⟩
  | person item =>
    cases item with
    | none =>
      cases h
      exact Or.inr ⟨id, rfl, rfl⟩
    | some person =>
      cases h
      exact Or.inl ⟨trivial, rfl⟩

theorem executeUpdate_spec {item : StreamableTypePtr} {e : Executed} (h : executeUpdate build s item = .ok e) :
    (s.Refuses (.update item) ∧ e.result.status = .error) ∨
      (¬ s.Refuses (.update item) ∧ e.result.succeeded = true ∧ e.storage = s.after (.update item)) := by
  cases item with
  | hotel item =>
    cases item with
    | none =>
      cases h
      exact Or.inl ⟨trivial, rfl⟩
    | some hotel =>
      simp only [executeUpdate] at h
      split at h
      · next hid =>
        cases h
        exact Or.inl ⟨Or.inl hid, rfl⟩
      · next hid =>
        -- the rows that are counted decide
        obtain ⟨hupdated, hafter⟩ := Storage.updateHotel_eq s hotel
        by_cases hrows : s.rowsAfter .hotelUpdate = 1
        · rw [hupdated, decide_eq_true hrows] at h
          obtain ⟨copied, -, h⟩ := Except.bind_eq_ok.1 h
          cases h
          exact Or.inr ⟨not_or.2 ⟨hid, not_not.2 hrows⟩, rfl, hafter⟩
        · rw [hupdated, decide_eq_false hrows] at h
          cases h
          exact Or.inl ⟨Or.inr hrows, rfl⟩
  | reservation item =>
    cases item with
    | none =>
      cases h
      exact Or.inl ⟨trivial, rfl⟩
    | some r =>
      simp only [executeUpdate] at h
      split at h
      · next hid =>
        cases h
        exact Or.inl ⟨Or.inl hid, rfl⟩
      · next hid =>
        obtain ⟨⟨updated, storage, r'⟩, hout, h⟩ := Except.bind_eq_ok.1 h
        obtain ⟨hupdated, hafter⟩ := Storage.updateReservation_ok hout
        dsimp only at hupdated hafter h
        cases updated with
        | true =>
          cases h
          exact Or.inr ⟨not_or.2 ⟨hid, not_not.2 (of_decide_eq_true hupdated.symm)⟩, rfl, hafter rfl⟩
        | false =>
          cases h
          exact Or.inl ⟨Or.inr (of_decide_eq_false hupdated.symm), rfl⟩
  | person item =>
    cases item with
    | none =>
      cases h
      exact Or.inl ⟨trivial, rfl⟩
    | some person =>
      simp only [executeUpdate] at h
      split at h
      · cases h
        exact Or.inl ⟨trivial, rfl⟩
      · cases h
        exact Or.inl ⟨trivial, rfl⟩

/-- An operation reports an error exactly if it is refused; otherwise it issued its statements. -/
theorem executeOperation_spec {op : Operation} {e : Executed}
    (h : executeOperation build s op = .ok e) :
    (s.Refuses op ∧ e.result.status = .error) ∨
      (¬ s.Refuses op ∧ e.result.succeeded = true ∧ e.storage = s.after op) := by
  cases op with
  | eraseAllData =>
    cases h
    exact Or.inr ⟨id, rfl, (if_pos rfl).symm⟩
  | storeNew item => exact executeStoreNew_spec h
  | update item => exact executeUpdate_spec h
  | delete type id =>
    cases type with
    | reservation =>
      cases h
      exact Or.inr ⟨fun hr => hr, rfl, rfl⟩
    | hotel =>
      obtain ⟨_, -, h⟩ := Except.bind_eq_ok.1 h
      cases h
      exact Or.inl ⟨trivial, rfl⟩
    | person =>
      obtain ⟨_, -, h⟩ := Except.bind_eq_ok.1 h
      cases h
      exact Or.inl ⟨trivial, rfl⟩

/-- A batch without a refused operation issues the statements of all of them. -/
theorem runOperations_spec {streams : List DataStream} {ops : Operations} {s' : Storage}
    {cs : List DataStreamDifferential} {rs : List TaskResult} {rollback : Bool}
    (h : runOperations build streams s ops = .ok (s', cs, rs, rollback)) :
    (rollback = true ∧ s.RefusesOne ops ∧ ∃ r ∈ rs, r.status = .error) ∨
      (rollback = false ∧ ¬ s.RefusesOne ops ∧ (∀ r ∈ rs, r.status ≠ .error) ∧
        ∃ all, s.Issues s' all ∧ (s.CompletesAll ops ↔ all ∧ s'.answer.code = .ok)) := by
  induction ops generalizing s s' cs rs rollback with
  | nil =>
    cases h
    exact Or.inr ⟨rfl, id, by simp, True, .refl _, by simp [Storage.CompletesAll]⟩
  | cons op ops ih =>
    obtain ⟨e, he, h⟩ := Except.bind_eq_ok.1 h
    obtain ⟨changes, -, h⟩ := Except.bind_eq_ok.1 h
    rcases executeOperation_spec he with ⟨hrefused, herror⟩ | ⟨hpassed, hsucceeded, hafter⟩
    · have hfailed : e.result.succeeded = false := by simp [TaskResult.succeeded, herror]
      rw [hfailed] at h
      cases h
      exact Or.inl ⟨rfl, Or.inl hrefused, e.result, List.mem_cons_self, herror⟩
    · rw [hsucceeded, if_pos rfl] at h
      obtain ⟨⟨s₁, cs₁, rs₁, rollback₁⟩, hrun, h⟩ := Except.bind_eq_ok.1 h
      cases h
      rw [hafter] at hrun
      rcases ih hrun with ⟨hrollback, hrefused, r, hr, herror⟩ |
        ⟨hrollback, hpassed', herrors, all, hissues, hall⟩
      · exact Or.inl ⟨hrollback, Or.inr hrefused, r, List.mem_cons_of_mem _ hr, herror⟩
      · refine Or.inr ⟨hrollback, not_or.2 ⟨hpassed, hpassed'⟩, ?_, _,
          (Storage.after_issues s op).trans hissues, ?_⟩
        · exact List.forall_mem_cons.2 ⟨by simpa [TaskResult.succeeded] using hsucceeded, herrors⟩
        · rw [Storage.CompletesAll, hall, and_assoc]

end

end ResultCodes

end HotelPms

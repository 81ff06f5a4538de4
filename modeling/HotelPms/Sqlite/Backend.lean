import HotelPms.Sqlite.Streams

/- `persistence::sqlite::SqliteBackend`: the operations and the batch.

   `executeOperation` is one operation on the storage. The calls it makes on the
   data stream manager are returned as notices, and the loop over a batch
   (`runOperations`) makes them before the next operation. `processTask` is one
   turn of the loop over `newTasks` in `threadMain`: a transaction around the
   batch.

   What a successful operation does is said once, by `Effect`
   (`effect_of_succeeded`); the invariants of the storage are all derived from
   it. `batch_atomicity` is the transaction as its caller sees it. -/
namespace HotelPms
open Lib SqliteStorage DataStreamManager

namespace SqliteBackend

/-- What `executeOperation` leaves behind. -/
structure Executed where
  db : Database
  result : TaskResult
  notices : List Notice := []

section
variable (build : Build) (boost : BoostDate)

/-- `executeStoreNew(hotel::Hotel&)` -/
def executeStoreNewHotel (db : Database) (hotel : Hotel) : Except Fault Executed := do
  let (db, hotel) := storeNewHotel db hotel
  let added ← hotel.copy
  return { db, result := .successful (.obj [("id", .int hotel.id)])
           notices := [⟨.hotel, .itemsAdded (.hotels [added])⟩] }

/-- `executeStoreNew(hotel::Reservation&)` -/
def executeStoreNewReservation (db : Database) (reservation : Reservation) :
    Except Fault Executed := do
  let (db, reservation) ← storeNewReservationAndAtoms build boost db reservation
  return { db, result := .successful (.obj [("id", .int reservation.id)])
           notices := [⟨.reservation, .itemsAdded (.reservations [reservation])⟩] }

/-- `executeOperation(op::StoreNew&)` -/
def executeStoreNew (db : Database) (newItem : StreamableTypePtr) : Except Fault Executed := do
  build.assert (!newItem.isNull) "!isNull"
  match newItem with
  | .hotel (some hotel) => executeStoreNewHotel db hotel
  | .reservation (some reservation) => executeStoreNewReservation build boost db reservation
  | .person (some _) => return { db, result := .error "Not implemented yet!" }
  | _ =>
    let result := TaskResult.successful (.obj [("message", .str "Trying to store empty item")])
    return { db, result }

/-- `executeOperation(op::Update&)` -/
def executeUpdate (db : Database) (updatedItem : StreamableTypePtr) : Except Fault Executed :=
  let failed := fun db : Database => (.ok
    { db, result := .error "Could not update item (internal db error)" } : Except Fault Executed)
  match updatedItem with
  | .hotel (some hotel) =>
    if hotel.id = 0 then .ok { db, result := .error "Cannot update hotel without id" } else do
      let (updated, db, hotel) := updateHotel db hotel
      if !updated then failed db else
        let copied ← hotel.copy
        return { db, result := .successful .null
                 notices := [⟨.hotel, .itemsUpdated (.hotels [copied])⟩] }
  | .reservation (some reservation) =>
    if reservation.id = 0 then .ok { db, result := .error "Cannot update hotel without id" } else do
      let (updated, db, reservation) ← updateReservation build boost db reservation
      if !updated then failed db else
        return { db, result := .successful .null
                 notices := [⟨.reservation, .itemsUpdated (.reservations [reservation])⟩] }
  | .person (some person) =>
    if person.id = 0 then .ok { db, result := .error "Cannot update hotel without id" } else failed db
  | _ => .ok { db, result := .error "Trying to update empty item" }

/-- `executeOperation`, all overloads. -/
def executeOperation (db : Database) : Operation → Except Fault Executed
  | .eraseAllData =>
    .ok { db := deleteAll db, result := .successful .null
          notices := [⟨.reservation, .cleared⟩, ⟨.hotel, .cleared⟩] }
  | .storeNew newItem => executeStoreNew build boost db newItem
  | .update updatedItem => executeUpdate build boost db updatedItem
  | .delete .reservation id =>
    .ok { db := deleteReservationById db id, result := .successful (.obj [("id", .int id)])
          notices := [⟨.reservation, .itemsRemoved [id]⟩] }
  | .delete _ _ => do
    build.assert false "false"
    return { db, result := .error "Unknown data type" }

/-- The loop over the operations of a batch: the database, the stream changes, the
    results, and whether to roll back. -/
def runOperations (activeStreams : List DataStream) (db : Database) :
    Operations → Except Fault (Database × List DataStreamDifferential × List TaskResult × Bool)
  | [] => .ok (db, [], [], false)
  | operation :: operations => do
    let executed ← executeOperation build boost db operation
    let changes ← announce build activeStreams executed.notices
    if executed.result.succeeded then
      let (db, changes', results, rollback) ← runOperations activeStreams executed.db operations
      return (db, changes ++ changes', executed.result :: results, rollback)
    else
      return (executed.db, changes, [executed.result], true)

end

/-- `ChangeQueue::addChanges` -/
def addChanges (changeList list : List DataStreamDifferential) : List DataStreamDifferential :=
  if list.isEmpty then changeList else changeList ++ list

/-- The storage and the change queue after a batch, and what its promise is resolved with. -/
structure TaskOutcome where
  storage : Connection Database
  changeList : List DataStreamDifferential
  results : List TaskResult
  committed : Bool

/-- One turn of the loop over `newTasks` in `threadMain`. -/
def processTask (build : Build) (boost : BoostDate) (activeStreams : List DataStream)
    (storage : Connection Database) (changeList : List DataStreamDifferential)
    (operations : Operations) : Except Fault TaskOutcome := do
  let storage := storage.begin_
  let (db, changes, results, rollback) ←
    runOperations build boost activeStreams storage.current operations
  let storage := storage.write db
  if rollback then
    return { storage := storage.rollback, changeList, results, committed := false }
  else
    return { storage := storage.commit, changeList := addChanges changeList changes, results
             committed := true }

@[simp] theorem addChanges_eq (changeList list : List DataStreamDifferential) :
    addChanges changeList list = changeList ++ list := by
  cases list <;> simp [addChanges]

/-! ## What a successful operation does -/

/-- The effect of a successful operation on the database, and what it announces. -/
inductive Effect (build : Build) (boost : BoostDate) (db : Database) :
    Operation → Database → List Notice → Prop where
  | eraseAllData :
    Effect build boost db .eraseAllData {} [⟨.reservation, .cleared⟩, ⟨.hotel, .cleared⟩]
  | storeNull (item : StreamableTypePtr) (null : item.isNull = true) :
    Effect build boost db (.storeNew item) db []
  | storeHotel (hotel : Hotel) :
    Effect build boost db (.storeNew (.hotel (some hotel))) (storeNewHotel db hotel).1
      [⟨.hotel, .itemsAdded (.hotels [(storeNewHotel db hotel).2.reattach])⟩]
  | storeReservation (r r' : Reservation) (db' : Database)
      (stored : storeNewReservationAndAtoms build boost db r = .ok (db', r')) :
    Effect build boost db (.storeNew (.reservation (some r))) db'
      [⟨.reservation, .itemsAdded (.reservations [r'])⟩]
  | updateHotel (hotel hotel' : Hotel) (db' : Database) (hasId : hotel.id ≠ 0)
      (updated : SqliteStorage.updateHotel db hotel = (true, db', hotel')) :
    Effect build boost db (.update (.hotel (some hotel))) db'
      [⟨.hotel, .itemsUpdated (.hotels [hotel'.reattach])⟩]
  | updateReservation (r r' : Reservation) (db' : Database) (hasId : r.id ≠ 0)
      (updated : SqliteStorage.updateReservation build boost db r = .ok (true, db', r')) :
    Effect build boost db (.update (.reservation (some r))) db'
      [⟨.reservation, .itemsUpdated (.reservations [r'])⟩]
  | deleteReservation (id : Int) :
    Effect build boost db (.delete .reservation id) (deleteReservationById db id)
      [⟨.reservation, .itemsRemoved [id]⟩]

variable {build : Build} {boost : BoostDate}

theorem effect_of_storeNew {db : Database} {item : StreamableTypePtr} {e : Executed}
    (h : executeStoreNew build boost db item = .ok e) (hs : e.result.succeeded = true) :
    Effect build boost db (.storeNew item) e.db e.notices := by
  obtain ⟨_, -, h⟩ := Except.bind_eq_ok.1 h
  cases item with
  | hotel item =>
    cases item with
    | none => cases h; exact .storeNull _ rfl
    | some hotel =>
      obtain ⟨added, hcopy, h⟩ := Except.bind_eq_ok.1 h
      rw [Hotel.copy_eq] at hcopy
      cases hcopy
      cases h
      exact .storeHotel hotel
  | reservation item =>
    cases item with
    | none => cases h; exact .storeNull _ rfl
    | some r =>
      obtain ⟨⟨db', r'⟩, hstored, h⟩ := Except.bind_eq_ok.1 h
      cases h
      exact .storeReservation r r' db' hstored
  | person item =>
    cases item with
    | none => cases h; exact .storeNull _ rfl
    | some person => cases h; cases hs

theorem effect_of_update {db : Database} {item : StreamableTypePtr} {e : Executed}
    (h : executeUpdate build boost db item = .ok e) (hs : e.result.succeeded = true) :
    Effect build boost db (.update item) e.db e.notices := by
  cases item with
  | hotel item =>
    cases item with
    | none => cases h; cases hs
    | some hotel =>
      simp only [executeUpdate] at h
      split at h
      · cases h; cases hs
      · next hid =>
        cases hu : SqliteStorage.updateHotel db hotel with
        | mk updated rest =>
          obtain ⟨db', hotel'⟩ := rest
          rw [hu] at h
          cases updated with
          | false => cases h; cases hs
          | true =>
            obtain ⟨copied, hcopy, h⟩ := Except.bind_eq_ok.1 h
            rw [Hotel.copy_eq] at hcopy
            cases hcopy
            cases h
            exact .updateHotel hotel hotel' db' hid hu
  | reservation item =>
    cases item with
    | none => cases h; cases hs
    | some r =>
      simp only [executeUpdate] at h
      split at h
      · cases h; cases hs
      · next hid =>
        obtain ⟨⟨updated, db', r'⟩, hu, h⟩ := Except.bind_eq_ok.1 h
        cases updated with
        | false => cases h; cases hs
        | true => cases h; exact .updateReservation r r' db' hid hu
  | person item =>
    cases item with
    | none => cases h; cases hs
    | some person =>
      simp only [executeUpdate] at h
      split at h
      · cases h; cases hs
      · cases h; cases hs

theorem effect_of_succeeded {db : Database} {op : Operation} {e : Executed}
    (h : executeOperation build boost db op = .ok e) (hs : e.result.succeeded = true) :
    Effect build boost db op e.db e.notices := by
  cases op with
  | eraseAllData => cases h; exact .eraseAllData
  | storeNew item => exact effect_of_storeNew h hs
  | update item => exact effect_of_update h hs
  | delete type id =>
    cases type with
    | reservation => cases h; exact .deleteReservation id
    | hotel =>
      obtain ⟨_, -, h⟩ := Except.bind_eq_ok.1 h
      cases h
      cases hs
    | person =>
      obtain ⟨_, -, h⟩ := Except.bind_eq_ok.1 h
      cases h
      cases hs

/-- An operation that returns an error announces nothing. -/
theorem notices_of_failed {db : Database} {op : Operation} {e : Executed}
    (h : executeOperation build boost db op = .ok e) (hf : e.result.succeeded = false) :
    e.notices = [] := by
  cases op with
  | eraseAllData => cases h; cases hf
  | storeNew item =>
    obtain ⟨_, -, h⟩ := Except.bind_eq_ok.1 h
    cases item with
    | hotel item =>
      cases item with
      | none => cases h; rfl
      | some hotel =>
        obtain ⟨added, -, h⟩ := Except.bind_eq_ok.1 h
        cases h
        cases hf
    | reservation item =>
      cases item with
      | none => cases h; rfl
      | some r =>
        obtain ⟨stored, -, h⟩ := Except.bind_eq_ok.1 h
        cases h
        cases hf
    | person item =>
      cases item with
      | none => cases h; rfl
      | some person => cases h; rfl
  | update item =>
    cases item with
    | hotel item =>
      cases item with
      | none => cases h; rfl
      | some hotel =>
        simp only [executeOperation, executeUpdate] at h
        split at h
        · cases h; rfl
        · split at h
          · cases h; rfl
          · obtain ⟨copied, -, h⟩ := Except.bind_eq_ok.1 h
            cases h
            cases hf
    | reservation item =>
      cases item with
      | none => cases h; rfl
      | some r =>
        simp only [executeOperation, executeUpdate] at h
        split at h
        · cases h; rfl
        · obtain ⟨⟨updated, db', r'⟩, -, h⟩ := Except.bind_eq_ok.1 h
          cases updated with
          | false => cases h; rfl
          | true => cases h; cases hf
    | person item =>
      cases item with
      | none => cases h; rfl
      | some person =>
        simp only [executeOperation, executeUpdate] at h
        split at h
        · cases h; rfl
        · cases h; rfl
  | delete type id =>
    cases type with
    | reservation => cases h; cases hf
    | hotel => obtain ⟨_, -, h⟩ := Except.bind_eq_ok.1 h; cases h; rfl
    | person => obtain ⟨_, -, h⟩ := Except.bind_eq_ok.1 h; cases h; rfl

/-! ## Operations that reach no assertion -/

/-- The operation fails an assertion on its way: the item is missing, its status
    has no text in the database, or its type cannot be deleted. -/
def asserts : Operation → Bool
  | .storeNew (.reservation (some r)) => r.status == .temporary
  | .storeNew item => item.isNull
  | .update (.reservation (some r)) => r.id != 0 && r.status == .temporary
  | .delete .reservation _ => false
  | .delete _ _ => true
  | _ => false

/-- In this build the operation stops on no assertion. -/
def Runs (build : Build) (op : Operation) : Prop := build.ndebug = true ∨ asserts op = false

theorem assert_ok {b : Build} {c : Bool} (h : b.ndebug = true ∨ c = true) (what : String) :
    b.assert c what = .ok () := by
  unfold Build.assert
  rw [if_pos (by simpa using h)]

theorem serializeReservationStatus_ok {status : ReservationStatus}
    (h : build.ndebug = true ∨ status ≠ .temporary) :
    ∃ text, serializeReservationStatus build status = .ok text := by
  cases status with
  | temporary =>
    have hassert := assert_ok (b := build) (c := false) (h.imp_right (fun hne => absurd rfl hne)) "false"
    exact ⟨_, by rw [serializeReservationStatus, Except.bind_ok hassert]; rfl⟩
  | _ => exact ⟨_, rfl⟩

theorem executeOperation_ok (boost : BoostDate) (db : Database) {op : Operation} (h : Runs build op) :
    ∃ e, executeOperation build boost db op = .ok e := by
  cases op with
  | eraseAllData => exact ⟨_, rfl⟩
  | storeNew item =>
    cases item with
    | hotel item =>
      cases item with
      | none =>
        have hassert := assert_ok (c := false) (h.imp_right (by simp [asserts, StreamableTypePtr.isNull])) "!isNull"
        exact ⟨_, Except.bind_ok hassert _⟩
      | some hotel =>
        exact ⟨_, (Except.bind_ok (build.assert_true _) _).trans (Except.bind_ok (Hotel.copy_eq _) _)⟩
    | reservation item =>
      cases item with
      | none =>
        have hassert := assert_ok (c := false) (h.imp_right (by simp [asserts, StreamableTypePtr.isNull])) "!isNull"
        exact ⟨_, Except.bind_ok hassert _⟩
      | some r =>
        have hstatus : build.ndebug = true ∨ r.status ≠ .temporary := h.imp_right (by simp [asserts])
        obtain ⟨text, htext⟩ := serializeReservationStatus_ok hstatus
        exact ⟨_, (Except.bind_ok (build.assert_true _) _).trans
          (Except.bind_ok (storeNewReservationAndAtoms_eq htext db) _)⟩
    | person item =>
      cases item with
      | none =>
        have hassert := assert_ok (c := false) (h.imp_right (by simp [asserts, StreamableTypePtr.isNull])) "!isNull"
        exact ⟨_, Except.bind_ok hassert _⟩
      | some person => exact ⟨_, Except.bind_ok (build.assert_true _) _⟩
  | update item =>
    simp only [executeOperation, executeUpdate]
    cases item with
    | hotel item =>
      cases item with
      | none => exact ⟨_, rfl⟩
      | some hotel =>
        dsimp only
        split
        · exact ⟨_, rfl⟩
        · split
          · exact ⟨_, rfl⟩
          · exact ⟨_, Except.bind_ok (Hotel.copy_eq _) _⟩
    | reservation item =>
      cases item with
      | none => exact ⟨_, rfl⟩
      | some r =>
        dsimp only
        split
        · exact ⟨_, rfl⟩
        · next hid =>
          have hstatus : build.ndebug = true ∨ r.status ≠ .temporary :=
            h.imp_right (by simp [asserts, hid])
          obtain ⟨text, htext⟩ := serializeReservationStatus_ok hstatus
          rw [SqliteStorage.updateReservation, Except.bind_ok htext]
          dsimp only
          split
          · exact ⟨_, rfl⟩
          · exact ⟨_, rfl⟩
    | person item =>
      cases item with
      | none => exact ⟨_, rfl⟩
      | some person =>
        dsimp only
        split
        · exact ⟨_, rfl⟩
        · exact ⟨_, rfl⟩
  | delete type id =>
    cases type with
    | reservation => exact ⟨_, rfl⟩
    | hotel => exact ⟨_, Except.bind_ok (assert_ok (h.imp_right (by simp [asserts])) _) _⟩
    | person => exact ⟨_, Except.bind_ok (assert_ok (h.imp_right (by simp [asserts])) _) _⟩

/-! ## The batch as a transaction -/

/-- All operations succeed in order: the database, the results and the stream changes. -/
inductive Succeed (build : Build) (boost : BoostDate) (streams : List DataStream) :
    Database → Operations → Database → List TaskResult → List DataStreamDifferential → Prop where
  | nil (db : Database) : Succeed build boost streams db [] db [] []
  | cons {db db' : Database} {op : Operation} {ops : Operations} {e : Executed}
      {cs cs' : List DataStreamDifferential} {rs : List TaskResult}
      (executed : executeOperation build boost db op = .ok e)
      (succeeded : e.result.succeeded = true)
      (announced : announce build streams e.notices = .ok cs)
      (rest : Succeed build boost streams e.db ops db' rs cs') :
    Succeed build boost streams db (op :: ops) db' (e.result :: rs) (cs ++ cs')

/-- The operations before some `op` succeed and `op` returns an error. -/
structure FailsAt (build : Build) (boost : BoostDate) (streams : List DataStream) (db : Database)
    (ops : Operations) (results : List TaskResult) : Prop where
  split : ∃ before op after db' rs cs e, ops = before ++ op :: after ∧
    Succeed build boost streams db before db' rs cs ∧
    executeOperation build boost db' op = .ok e ∧ e.result.status = .error ∧
    results = rs ++ [e.result]

/-- The batch comes to an operation: those before it succeed. -/
def ComesTo (build : Build) (boost : BoostDate) (streams : List DataStream) (db : Database)
    (ops : Operations) (op : Operation) : Prop :=
  ∃ before after db' rs cs, ops = before ++ op :: after ∧ Succeed build boost streams db before db' rs cs

variable {streams : List DataStream}

theorem ComesTo.head (db : Database) (op : Operation) (ops : Operations) :
    ComesTo build boost streams db (op :: ops) op := ⟨[], ops, db, [], [], rfl, .nil db⟩

theorem ComesTo.tail {db : Database} {op op' : Operation} {ops : Operations} {e : Executed}
    {cs : List DataStreamDifferential} (executed : executeOperation build boost db op = .ok e)
    (succeeded : e.result.succeeded = true) (announced : announce build streams e.notices = .ok cs)
    (h : ComesTo build boost streams e.db ops op') : ComesTo build boost streams db (op :: ops) op' := by
  obtain ⟨before, after, db', rs, cs', rfl, hsucceed⟩ := h
  exact ⟨op :: before, after, db', _, _, rfl, .cons executed succeeded announced hsucceed⟩

theorem ComesTo.mem {db : Database} {op : Operation} {ops : Operations}
    (h : ComesTo build boost streams db ops op) : op ∈ ops := by
  obtain ⟨before, after, -, -, -, rfl, -⟩ := h
  exact List.mem_append_right _ List.mem_cons_self

theorem Succeed.length {db db' : Database} {ops : Operations} {rs : List TaskResult}
    {cs : List DataStreamDifferential} (h : Succeed build boost streams db ops db' rs cs) :
    rs.length = ops.length := by
  induction h with
  | nil => rfl
  | cons _ _ _ _ ih => simp [ih]

theorem Succeed.results {db db' : Database} {ops : Operations} {rs : List TaskResult}
    {cs : List DataStreamDifferential} (h : Succeed build boost streams db ops db' rs cs) :
    ∀ r ∈ rs, r.status ≠ .error := by
  induction h with
  | nil => simp
  | cons _ hs _ _ ih =>
    rw [List.forall_mem_cons]
    exact ⟨by simpa [TaskResult.succeeded] using hs, ih⟩

theorem Succeed.drop {db db' db'' : Database} {before rest : Operations} {rs rs' : List TaskResult}
    {cs cs' : List DataStreamDifferential} (h : Succeed build boost streams db before db' rs cs)
    (hall : Succeed build boost streams db (before ++ rest) db'' rs' cs') :
    ∃ rs'' cs'', Succeed build boost streams db' rest db'' rs'' cs'' := by
  induction h generalizing rs' cs' with
  | nil db => exact ⟨_, _, hall⟩
  | cons executed _ _ _ ih =>
    cases hall with
    | cons executed' _ _ hrest =>
      cases executed.symm.trans executed'
      exact ih hrest

/-- Every run of the loop either went through or stopped at the first error. -/
theorem runOperations_cases {db db' : Database} {ops : Operations}
    {cs : List DataStreamDifferential} {rs : List TaskResult} {rollback : Bool}
    (h : runOperations build boost streams db ops = .ok (db', cs, rs, rollback)) :
    rollback = false ∧ Succeed build boost streams db ops db' rs cs ∨
      rollback = true ∧ FailsAt build boost streams db ops rs := by
  induction ops generalizing db db' cs rs rollback with
  | nil =>
    cases h
    exact Or.inl ⟨rfl, .nil _⟩
  | cons op ops ih =>
    obtain ⟨e, he, h⟩ := Except.bind_eq_ok.1 h
    obtain ⟨changes, ha, h⟩ := Except.bind_eq_ok.1 h
    cases hs : e.result.succeeded with
    | false =>
      rw [hs] at h
      cases h
      refine Or.inr ⟨rfl, ⟨[], op, ops, db, [], [], e, rfl, .nil _, he, ?_, rfl⟩⟩
      simpa [TaskResult.succeeded] using hs
    | true =>
      rw [hs, if_pos rfl] at h
      obtain ⟨⟨db₁, cs₁, rs₁, rollback₁⟩, hrun, h⟩ := Except.bind_eq_ok.1 h
      cases h
      rcases ih hrun with ⟨hr, hsucceed⟩ | ⟨hr, hfails⟩
      · exact Or.inl ⟨hr, .cons he hs ha hsucceed⟩
      · obtain ⟨before, op', after, db₂, rs₂, cs₂, e₂, rfl, hsucceed, he₂, herror, rfl⟩ := hfails.split
        exact Or.inr ⟨hr, ⟨op :: before, op', after, db₂, e.result :: rs₂, changes ++ cs₂, e₂, rfl,
          .cons he hs ha hsucceed, he₂, herror, rfl⟩⟩

theorem runOperations_ok {db : Database} (hregistered : ∀ s ∈ streams, Registered s) {ops : Operations}
    (hruns : ∀ op, ComesTo build boost streams db ops op → Runs build op) :
    ∃ out, runOperations build boost streams db ops = .ok out := by
  induction ops generalizing db with
  | nil => exact ⟨_, rfl⟩
  | cons op ops ih =>
    obtain ⟨e, he⟩ := executeOperation_ok boost db (hruns op (.head db op ops))
    obtain ⟨changes, ha⟩ := announce_ok build hregistered e.notices
    rw [runOperations, Except.bind_ok he, Except.bind_ok ha]
    split
    · next hsucceeded =>
      obtain ⟨out, hout⟩ := ih fun op' hop' => hruns op' (hop'.tail he hsucceeded ha)
      exact ⟨_, Except.bind_ok hout _⟩
    · exact ⟨_, rfl⟩

theorem runOperations_append {db db' : Database} {before : Operations} {rs : List TaskResult}
    {cs : List DataStreamDifferential} (h : Succeed build boost streams db before db' rs cs)
    (rest : Operations) : runOperations build boost streams db (before ++ rest) = (do
      let (db'', cs', rs', rollback) ← runOperations build boost streams db' rest
      return (db'', cs ++ cs', rs ++ rs', rollback)) := by
  induction h with
  | nil db =>
    cases hrest : runOperations build boost streams db rest with
    | error fault => exact hrest
    | ok out => exact hrest
  | cons executed succeeded announced _ ih =>
    rw [List.cons_append, runOperations, Except.bind_ok executed, Except.bind_ok announced,
      if_pos succeeded, ih]
    cases hrest : runOperations build boost streams _ rest with
    | error fault => rfl
    | ok out =>
      obtain ⟨db'', cs', rs', rollback⟩ := out
      show Except.ok _ = Except.ok _
      rw [List.append_assoc]
      rfl

theorem processTask_cases {storage : Connection Database} (hidle : storage.Idle)
    {changeList : List DataStreamDifferential} {ops : Operations} {out : TaskOutcome}
    (h : processTask build boost streams storage changeList ops = .ok out) :
    (∃ db changes, Succeed build boost streams storage.current ops db out.results changes ∧
      out.storage = { current := db } ∧ out.changeList = changeList ++ changes ∧
      out.committed = true) ∨
    (FailsAt build boost streams storage.current ops out.results ∧ out.storage = storage ∧
      out.changeList = changeList ∧ out.committed = false) := by
  have hcurrent : storage.begin_.current = storage.current := by
    obtain ⟨_, _⟩ := storage
    cases hidle
    rfl
  simp only [processTask, hcurrent] at h
  obtain ⟨⟨db, changes, results, rollback⟩, hrun, h⟩ := Except.bind_eq_ok.1 h
  rcases runOperations_cases hrun with ⟨rfl, hsucceed⟩ | ⟨rfl, hfails⟩
  · cases h
    exact Or.inl ⟨db, changes, hsucceed, Connection.commit_begin_ hidle db, addChanges_eq _ _, rfl⟩
  · cases h
    exact Or.inr ⟨hfails, Connection.rollback_begin_ hidle db, rfl, rfl⟩

theorem processTask_fails {db db' : Database} {before : Operations} {rs : List TaskResult}
    {cs : List DataStreamDifferential} (hs : Succeed build boost streams db before db' rs cs)
    {op : Operation} {e : Executed} (he : executeOperation build boost db' op = .ok e)
    (hf : e.result.succeeded = false) (after : Operations)
    (changeList : List DataStreamDifferential) :
    processTask build boost streams { current := db } changeList (before ++ op :: after) =
      .ok { storage := { current := db }, changeList, results := rs ++ [e.result], committed := false } := by
  have hrest : runOperations build boost streams db' (op :: after) =
      .ok (e.db, [], [e.result], true) := by
    rw [runOperations, Except.bind_ok he, notices_of_failed he hf]
    show (if e.result.succeeded = true then _ else _) = _
    rw [hf]
    rfl
  have hrun : runOperations build boost streams db (before ++ op :: after) =
      .ok (e.db, cs ++ [], rs ++ [e.result], true) := by
    rw [runOperations_append hs, Except.bind_ok hrest]
    rfl
  exact Except.bind_ok hrun _

/-- A batch that comes to no operation which stops on an assertion is executed to its end:
    either all operations succeed, and the storage and the change queue are what they make
    of them in order, or the first error ends it and nothing else is left of it. -/
theorem batch_atomicity (build : Build) (boost : BoostDate) (streams : List DataStream)
    (hregistered : ∀ s ∈ streams, Registered s) (db : Database)
    (changeList : List DataStreamDifferential) (ops : Operations)
    (hruns : ∀ op, ComesTo build boost streams db ops op → Runs build op) :
    ∃ out, processTask build boost streams { current := db } changeList ops = .ok out ∧
      ((∃ db' changes, Succeed build boost streams db ops db' out.results changes ∧
          out.storage = { current := db' } ∧ out.changeList = changeList ++ changes) ∨
        ∃ before op after db' rs changes e, ops = before ++ op :: after ∧
          Succeed build boost streams db before db' rs changes ∧
          executeOperation build boost db' op = .ok e ∧ e.result.status = .error ∧
          out.results = rs ++ [e.result] ∧ out.results.length = before.length + 1 ∧
          (∀ r ∈ rs, r.status ≠ .error) ∧
          out.storage = { current := db } ∧ out.changeList = changeList) := by
  obtain ⟨⟨db', changes, rs, rollback⟩, hrun⟩ := runOperations_ok hregistered hruns
  obtain ⟨out, hout⟩ :
      ∃ out, processTask build boost streams { current := db } changeList ops = .ok out := by
    rw [processTask, Except.bind_ok (show runOperations build boost streams
      (Connection.begin_ { current := db }).current ops = _ from hrun)]
    cases rollback
    · exact ⟨_, rfl⟩
    · exact ⟨_, rfl⟩
  refine ⟨out, hout, ?_⟩
  rcases processTask_cases (show Connection.Idle { current := db } from rfl) hout with
    ⟨db', changes, hsucceed, hstorage, hlist, -⟩ | ⟨hfails, hstorage, hlist, -⟩
  · exact Or.inl ⟨db', changes, hsucceed, hstorage, hlist⟩
  · obtain ⟨before, op, after, db', rs, cs, e, hsplit, hsucceed, he, herror, hresults⟩ := hfails.split
    refine Or.inr ⟨before, op, after, db', rs, cs, e, hsplit, hsucceed, he, herror, hresults, ?_,
      hsucceed.results, hstorage, hlist⟩
    rw [hresults, List.length_append, hsucceed.length]
    rfl

/-- The default stream of all reservations. -/
def reservationStream (streamId : Int) : DataStream :=
  { streamId, streamType := .reservation, endpoint := "", options := .null }

theorem registered_reservationStream (streamId : Int) : Registered (reservationStream streamId) :=
  ⟨.default, rfl, by simp⟩

/-- Everything is erased, a person cannot be stored, and a hotel would be deleted. -/
def eraseThenFail : Operations :=
  [.eraseAllData, .storeNew (.person (some ⟨{}, "", ""⟩)), .delete .hotel 1]

section
variable {db db' : Database} {rs : List TaskResult} {cs : List DataStreamDifferential}

theorem not_succeed_eraseThenFail {rest : Operations} : ¬ Succeed .debug .gregorian streams db
    (.eraseAllData :: .storeNew (.person (some ⟨{}, "", ""⟩)) :: rest) db' rs cs := by
  intro hsucceed
  cases hsucceed with
  | cons _ _ _ rest =>
    cases rest with
    | cons executed succeeded _ _ =>
      cases executed
      cases succeeded

theorem comesTo_eraseThenFail {before after : Operations} {op : Operation}
    (hsplit : eraseThenFail = before ++ op :: after)
    (hsucceed : Succeed .debug .gregorian streams db before db' rs cs) :
    before.length = 0 ∧ op = .eraseAllData ∨
      before.length = 1 ∧ op = .storeNew (.person (some ⟨{}, "", ""⟩)) := by
  rcases before with _ | ⟨first, _ | ⟨second, before⟩⟩
  · exact Or.inl ⟨rfl, (List.cons.inj hsplit).1.symm⟩
  · obtain ⟨-, hrest⟩ := List.cons.inj hsplit
    exact Or.inr ⟨rfl, (List.cons.inj hrest).1.symm⟩
  · obtain ⟨hfirst, hrest⟩ := List.cons.inj hsplit
    obtain ⟨hsecond, -⟩ := List.cons.inj hrest
    rw [← hfirst, ← hsecond] at hsucceed
    exact absurd hsucceed not_succeed_eraseThenFail

end

/-- A reservation is stored. A batch erases everything, fails to store a person, and so does
    not come to the hotel it would stop at: the reservation is still there. -/
theorem batch_atomicity_eraseThenFail :
    ∃ (db : Database) (r : Reservation) (out : TaskOutcome),
      storeNewReservationAndAtoms .debug .gregorian {} Reservation.oneNight = .ok (db, r) ∧
      db.reservation.rows.length = 1 ∧ db.reservationAtom.rows.length = 1 ∧
      processTask .debug .gregorian [reservationStream 1] { current := db } [] eraseThenFail = .ok out ∧
      out.storage = { current := db } ∧ out.changeList = [] ∧ out.results.length = 2 := by
  obtain ⟨db, r, hstored, hrows, hatoms⟩ : ∃ (db : Database) (r : Reservation),
      storeNewReservationAndAtoms .debug .gregorian {} Reservation.oneNight = .ok (db, r) ∧
        db.reservation.rows.length = 1 ∧ db.reservationAtom.rows.length = 1 := ⟨_, _, rfl, rfl, rfl⟩
  obtain ⟨out, hout, ⟨db', changes, hsucceed, -⟩ |
      ⟨before, op, after, db', rs, changes, e, hsplit, hsucceed, he, herror, -, hlength, -, hstorage, hlist⟩⟩ :=
    batch_atomicity .debug .gregorian [reservationStream 1] (by simpa using registered_reservationStream 1)
      db [] eraseThenFail (by
        rintro op ⟨before, after, db', rs, cs, hsplit, hsucceed⟩
        rcases comesTo_eraseThenFail hsplit hsucceed with ⟨-, rfl⟩ | ⟨-, rfl⟩
        · exact Or.inr rfl
        · exact Or.inr rfl)
  · exact absurd hsucceed not_succeed_eraseThenFail
  · refine ⟨db, r, out, hstored, hrows, hatoms, hout, hstorage, hlist, ?_⟩
    rcases comesTo_eraseThenFail hsplit hsucceed with ⟨-, rfl⟩ | ⟨hone, -⟩
    · cases he
      cases herror
    · rw [hlength, hone]

/-- With assertions, deleting a hotel stops the worker in the middle of the transaction. -/
theorem deleteHotel_stops : (Operation.delete .hotel 1).nonNull = true ∧
    ¬ ∃ out, processTask .debug .gregorian [] { current := {} } [] [.delete .hotel 1] = .ok out := by
  refine ⟨rfl, ?_⟩
  rintro ⟨out, hout⟩
  cases hout

end SqliteBackend

end HotelPms

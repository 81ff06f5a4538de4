import HotelPms.Net.Messages
import HotelPms.Sqlite.Backend

/- Batches over the network: `NetClientBackend::queueOperations` and
   `NetClientSession::runScheduleOperations`.

   The session hands the operations that it can decode to its backend, and leaves
   the others out of the batch. What arrives is the batch that was queued if and only
   if all its items are hotels with distinct short codes or reservations without
   owner and with contiguous atoms; then the backend does what it would have done
   with the batch itself (`network_transparency`). -/
namespace HotelPms
open Lib JsonSerializer SqliteStorage DataStreamManager SqliteBackend

/-! ## The two ends of a batch -/

namespace NetClientBackend

/-- The message of a batch; there is none if an item is a null pointer. -/
def scheduleMessage (boost : BoostDate) (id : Int) (operations : Operations) : Option Json := do
  let operationsArray ← operations.mapM (serializeOperation boost)
  return .obj [("op", .str "schedule_operations"), ("id", .int id), ("operations", .arr operationsArray)]

/-- `queueOperations`: the client, and the message that it submits. -/
def queueOperations (boost : BoostDate) (client : NetClientBackend) (operations : Operations) :
    Option (NetClientBackend × Json) := do
  let nextOperationId := client.nextOperationId + 1
  let message ← scheduleMessage boost nextOperationId operations
  return ({ client with nextOperationId, tasks := client.tasks ++ [nextOperationId] }, message)

end NetClientBackend

namespace NetClientSession

/-- `static_cast<persistence::StreamableType>` -/
def streamableTypeOfInt (type : Int) : StreamableType :=
  if type = 0 then .nullStream
  else if type = 1 then .hotel
  else if type = 2 then .reservation
  else .other type

/-- What a command has the session do. -/
inductive Command where
  | createStream (clientId : Int) (type : StreamableType) (service : String) (options : Json)
  | removeStream (clientId : Int)
  /-- `_backend.queueOperations`, and the id that the results are sent with -/
  | queueOperations (operations : Operations) (id : Json)
  | unknown

/-- The loop of `runScheduleOperations`. -/
def readOperations (build : Build) (boost : BoostDate) : List Json → Except Fault Operations
  | [] => .ok []
  | operationObj :: rest => do
    match ← deserializeOperation build boost operationObj with
    | some operation => return operation :: (← readOperations build boost rest)
    | none => readOperations build boost rest

def runScheduleOperations (build : Build) (boost : BoostDate) (obj : Json) : Except Fault Command := do
  let operations ← readOperations build boost (← obj.field "operations").elements
  return .queueOperations operations (← obj.field "id")

def runCreateStream (obj : Json) : Except Fault Command := do
  let clientId ← (← obj.field "id").toInt
  let type ← (← obj.field "type").toInt
  let service ← (← obj.field "service").toStr
  return .createStream clientId (streamableTypeOfInt type) service (← obj.field "options")

def runCommand (build : Build) (boost : BoostDate) (obj : Json) : Except Fault Command := do
  let operation ← (← obj.field "op").toStr
  if operation = "create_stream" then runCreateStream obj
  else if operation = "remove_stream" then return .removeStream (← (← obj.field "id").toInt)
  else if operation = "schedule_operations" then runScheduleOperations build boost obj
  else return .unknown

/-- The body of a message that was read. -/
def readBody (build : Build) (boost : BoostDate) (text : JsonText) (message : String) :
    Except Fault Command := do
  runCommand build boost (← text.parse message)

end NetClientSession

/-! ## What arrives -/

section
variable {build : Build} {boost : BoostDate}

theorem serializeOperation_some (boost : BoostDate) {op : Operation} (h : op.nonNull = true) :
    ∃ o, serializeOperation boost op = some o := by
  have hitem : ∀ item : StreamableTypePtr, (!item.isNull) = true →
      ∃ o, serializeItem boost item = some o := by
    intro item hitem
    cases item with
    | hotel item =>
      cases item with
      | none => cases hitem
      | some hotel => exact ⟨_, rfl⟩
    | reservation item =>
      cases item with
      | none => cases hitem
      | some r => exact ⟨_, rfl⟩
    | person item =>
      cases item with
      | none => cases hitem
      | some person => exact ⟨_, rfl⟩
  cases op with
  | eraseAllData => exact ⟨_, rfl⟩
  | storeNew item =>
    obtain ⟨o, ho⟩ := hitem item h
    exact ⟨_, by rw [serializeOperation, ho]; rfl⟩
  | update item =>
    obtain ⟨o, ho⟩ := hitem item h
    exact ⟨_, by rw [serializeOperation, ho]; rfl⟩
  | delete type id => exact ⟨_, rfl⟩

namespace NetClientSession

/-- The operations that are read are at most as many as were written, and if they are
    as many, each of them came back. -/
theorem readOperations_length {ops : Operations} {os : List Json}
    (hos : List.Forall₂ (fun op o => serializeOperation boost op = some o) ops os)
    {ops' : Operations} (hok : readOperations build boost os = .ok ops') :
    ops'.length ≤ ops.length ∧ (ops.length ≤ ops'.length → ∀ op ∈ ops, Readable op) := by
  induction hos generalizing ops' with
  | nil =>
    cases hok
    exact ⟨le_rfl, fun _ => nofun⟩
  | @cons op o ops os ho _ ih =>
    rw [readOperations] at hok
    obtain ⟨decoded, hdecoded, hok⟩ := Except.bind_eq_ok.1 hok
    cases decoded with
    | none =>
      obtain ⟨hle, -⟩ := ih hok
      refine ⟨Nat.le_succ_of_le hle, fun hlength => ?_⟩
      rw [List.length_cons] at hlength
      omega
    | some decoded =>
      obtain ⟨rest, hrest, hok⟩ := Except.bind_eq_ok.1 hok
      cases hok
      obtain ⟨hle, hall⟩ := ih hrest
      refine ⟨Nat.succ_le_succ hle, fun hlength => ?_⟩
      exact List.forall_mem_cons.2 ⟨deserializeOperation_ok ho hdecoded,
        hall (Nat.le_of_succ_le_succ hlength)⟩

theorem readOperations_serialize (build : Build) {ops : Operations} {os : List Json}
    (hos : List.Forall₂ (fun op o => serializeOperation boost op = some o) ops os)
    (h : ∀ op ∈ ops, Readable op) :
    readOperations build boost os = .ok (ops.map sentOperation) := by
  induction hos with
  | nil => rfl
  | cons ho _ ih =>
    obtain ⟨hop, hops⟩ := List.forall_mem_cons.1 h
    rw [readOperations, Except.bind_ok (deserializeOperation_serialize build ho hop)]
    exact Except.bind_ok (ih hops) _

end NetClientSession

/-! ## What the backend does with it -/

/-- A reservation without what is lost on the way and never stored. -/
def unrevise (r : Reservation) : Reservation :=
  { r with reservationOwnerPersonId := none, atoms := r.atoms.map fun a => { a with revision := 0 } }

/-- The notices with their reservations without what is lost on the way. -/
def unreviseNotices (notices : List Notice) : List Notice :=
  notices.map fun n => ⟨n.type, n.change.mapReservations unrevise⟩

theorem insertAtoms_sent (boost : BoostDate) (db : Database) (r : Reservation) :
    insertAtoms boost db (sent r) =
      ((insertAtoms boost db r).1, unrevise (insertAtoms boost db r).2) := by
  have hrows : (sent r).atoms.map (atomRow boost (sent r).id) = r.atoms.map (atomRow boost r.id) := by
    rw [sent, List.map_map]
    rfl
  rw [insertAtoms, hrows, insertAtoms]
  refine Prod.ext rfl ?_
  simp only [unrevise, sent, List.zipWith_map_left, List.map_zipWith, Reservation.unstored]

theorem storeNewReservationAndAtoms_sent (build : Build) (boost : BoostDate) (db : Database)
    (r : Reservation) : storeNewReservationAndAtoms build boost db (sent r) =
      (storeNewReservationAndAtoms build boost db r).map fun p => (p.1, unrevise p.2) := by
  simp only [storeNewReservationAndAtoms, show (sent r).status = r.status from rfl]
  cases HotelPms.serializeReservationStatus build r.status with
  | error fault => rfl
  | ok status =>
    have hinserted := insertAtoms_sent boost (withRow db r status) (numbered db r)
    exact congrArg Except.ok hinserted

theorem updateReservation_sent (build : Build) (boost : BoostDate) (db : Database)
    (r : Reservation) : updateReservation build boost db (sent r) =
      (updateReservation build boost db r).map fun p =>
        (p.1, p.2.1, if p.1 then unrevise p.2.2 else sent p.2.2) := by
  cases hstatus : HotelPms.serializeReservationStatus build r.status with
  | error fault =>
    rw [updateReservation, updateReservation, show (sent r).status = r.status from rfl, hstatus]
    rfl
  | ok status =>
    have hinserted := insertAtoms_sent boost (withoutAtoms db r status) r
    have hsent : updateReservation build boost db (sent r) = _ := updateReservation_eq (r := sent r) hstatus db
    simp only [show (sent r).id = r.id from rfl, show (sent r).revision = r.revision from rfl,
      show withoutAtoms db (sent r) status = withoutAtoms db r status from rfl, hinserted] at hsent
    rw [hsent, updateReservation_eq hstatus]
    by_cases hone : (db.reservation.changes fun id row => id == r.id && row.revision == r.revision) = 1
    · rw [if_pos hone, if_pos hone]
      rfl
    · rw [if_neg hone, if_neg hone]
      rfl

theorem sentOperation_eq {op : Operation} (h : op.reservation = none) : sentOperation op = op := by
  cases op with
  | eraseAllData => rfl
  | storeNew item =>
    cases item with
    | hotel item => rfl
    | reservation item => cases h; rfl
    | person item => rfl
  | update item =>
    cases item with
    | hotel item => rfl
    | reservation item => cases h; rfl
    | person item => rfl
  | delete type id => rfl

theorem unreviseNotices_eq {db : Database} {op : Operation} {e : Executed} (hnone : op.reservation = none)
    (h : executeOperation build boost db op = .ok e) : unreviseNotices e.notices = e.notices := by
  cases hs : e.result.succeeded with
  | false => rw [notices_of_failed h hs]; rfl
  | true =>
    have heffect := effect_of_succeeded h hs
    generalize e.db = db' at heffect
    generalize e.notices = notices at heffect ⊢
    cases heffect with
    | storeReservation r r' db' stored => cases hnone
    | updateReservation r r' db' hasId updated => cases hnone
    | _ => rfl

/-- The storage does the same with what arrives as with what was sent. -/
theorem executeOperation_sent (build : Build) (boost : BoostDate) (db : Database) (op : Operation) :
    executeOperation build boost db (sentOperation op) =
      (executeOperation build boost db op).map fun e =>
        { e with notices := unreviseNotices e.notices } := by
  cases hcarried : op.reservation with
  | none =>
    rw [sentOperation_eq hcarried]
    cases he : executeOperation build boost db op with
    | error fault => rfl
    | ok e =>
      show Except.ok e = Except.ok { e with notices := unreviseNotices e.notices }
      rw [unreviseNotices_eq hcarried he]
  | some r =>
    cases op with
    | eraseAllData => cases hcarried
    | delete type id => cases hcarried
    | storeNew item =>
      cases item with
      | hotel item => cases hcarried
      | person item => cases hcarried
      | reservation item =>
        cases hcarried
        have hstore : ∀ r, executeOperation build boost db (.storeNew (.reservation (some r))) =
            executeStoreNewReservation build boost db r :=
          fun r => Except.bind_ok (build.assert_true "!isNull") _
        rw [sentOperation, sentItem, Option.map_some, hstore, hstore, executeStoreNewReservation,
          storeNewReservationAndAtoms_sent, executeStoreNewReservation]
        cases storeNewReservationAndAtoms build boost db r with
        | error fault => rfl
        | ok out => rfl
    | update item =>
      cases item with
      | hotel item => cases hcarried
      | person item => cases hcarried
      | reservation item =>
        cases hcarried
        rw [sentOperation, sentItem, Option.map_some, executeOperation, executeOperation]
        simp only [executeUpdate, show (sent r).id = r.id from rfl, updateReservation_sent]
        split
        · rfl
        · cases updateReservation build boost db r with
          | error fault => rfl
          | ok out =>
            obtain ⟨updated, db', r'⟩ := out
            cases updated with
            | false => rfl
            | true => rfl

theorem runOperations_sent (build : Build) (boost : BoostDate) (streams : List DataStream)
    (db : Database) (ops : Operations) :
    runOperations build boost streams db (ops.map sentOperation) =
      (runOperations build boost streams db ops).map fun p =>
        (p.1, p.2.1.map (·.mapReservations unrevise), p.2.2) := by
  induction ops generalizing db with
  | nil => rfl
  | cons op ops ih =>
    rw [List.map_cons, runOperations, runOperations, executeOperation_sent]
    cases executeOperation build boost db op with
    | error fault => rfl
    | ok e =>
      have hannounced : announce build streams (unreviseNotices e.notices) =
          (announce build streams e.notices).map (List.map (·.mapReservations unrevise)) :=
        announce_mapReservations (f := unrevise) (fun _ => rfl) build streams e.notices
      show (announce build streams (unreviseNotices e.notices) >>= _) =
        Except.map _ (announce build streams e.notices >>= _)
      rw [hannounced]
      cases announce build streams e.notices with
      | error fault => rfl
      | ok changes =>
        show (if e.result.succeeded then _ else _) = Except.map _ (if e.result.succeeded then _ else _)
        split
        · rw [ih]
          cases runOperations build boost streams e.db ops with
          | error fault => rfl
          | ok out =>
            show Except.ok (_, _ ++ _, _) = Except.ok (_, List.map _ (_ ++ _), _)
            rw [List.map_append]
        · rfl

/-- What a batch does to the storage, what its promise is resolved with, and whether
    it was committed. -/
def TaskOutcome.effects (o : TaskOutcome) : Connection Database × List TaskResult × Bool :=
  (o.storage, o.results, o.committed)

theorem processTask_sent (build : Build) (boost : BoostDate) (streams : List DataStream)
    (storage : Connection Database) (changeList : List DataStreamDifferential) (ops : Operations) :
    (processTask build boost streams storage changeList (ops.map sentOperation)).map TaskOutcome.effects =
      (processTask build boost streams storage changeList ops).map TaskOutcome.effects := by
  rw [processTask, processTask, runOperations_sent]
  cases runOperations build boost streams storage.begin_.current ops with
  | error fault => rfl
  | ok out =>
    obtain ⟨db, changes, results, rollback⟩ := out
    cases rollback with
    | false => rfl
    | true => rfl

end

/-! ## Network transparency -/

/-- Equal items of one identity and revision. -/
def SameItem : StreamableTypePtr → StreamableTypePtr → Prop
  | .hotel item, .hotel item' => item = item'
  | .reservation item, .reservation item' => Option.Rel Reservation.Same item item'
  | .person item, .person item' => item = item'
  | _, _ => False

/-- Equal operations. -/
def SameOperation : Operation → Operation → Prop
  | .storeNew item, .storeNew item' => SameItem item item'
  | .update item, .update item' => SameItem item item'
  | op, op' => op = op'

theorem SameItem.refl (item : StreamableTypePtr) : SameItem item item := by
  cases item with
  | hotel item => rfl
  | person item => rfl
  | reservation item =>
    cases item with
    | none => exact Option.Rel.none
    | some r => exact Option.Rel.some (Reservation.Same.refl r)

theorem SameOperation.refl (op : Operation) : SameOperation op op := by
  cases op with
  | eraseAllData => rfl
  | storeNew item => exact SameItem.refl item
  | update item => exact SameItem.refl item
  | delete type id => rfl

/-- The operation comes back as it was sent: its item is a hotel with distinct short codes,
    or a reservation without owner and with contiguous atoms. -/
def Transmissible (op : Operation) : Prop :=
  Readable op ∧ ∀ r ∈ op.reservation, r.reservationOwnerPersonId = none

/-- No atom of the operation's reservation has an id or a revision. -/
def AtomsUnstored (op : Operation) : Prop :=
  ∀ r ∈ op.reservation, ∀ a ∈ r.atoms, a.id = 0 ∧ a.revision = 0

theorem same_sent_iff {r : Reservation} : r.Same (sent r) ↔ r.reservationOwnerPersonId = none := by
  constructor
  · exact fun hsame => (Reservation.equals_iff.1 hsame.equals).2.2.1
  · intro howner
    refine ⟨rfl, rfl, Reservation.equals_iff.2 ⟨rfl, rfl, howner, rfl, rfl, ?_⟩⟩
    simp [sent, Reservation.places, Reservation.unstored]

/-- The operations that come back differ in their reservations only, and these in the owner. -/
theorem sameOperation_sent_iff (op : Operation) :
    SameOperation op (sentOperation op) ↔ ∀ r ∈ op.reservation, r.reservationOwnerPersonId = none := by
  cases hcarried : op.reservation with
  | none =>
    rw [sentOperation_eq hcarried]
    exact ⟨fun _ => nofun, fun _ => SameOperation.refl op⟩
  | some r =>
    have hsame : SameOperation op (sentOperation op) ↔ r.Same (sent r) := by
      cases op with
      | eraseAllData => cases hcarried
      | delete type id => cases hcarried
      | storeNew item =>
        cases item with
        | hotel item => cases hcarried
        | person item => cases hcarried
        | reservation item =>
          cases hcarried
          exact Option.rel_some_some
      | update item =>
        cases item with
        | hotel item => cases hcarried
        | person item => cases hcarried
        | reservation item =>
          cases hcarried
          exact Option.rel_some_some
    rw [hsame, same_sent_iff]
    simp

/-- Nothing is lost on the way if and only if there was nothing to lose. -/
theorem sentOperation_eq_iff {op : Operation} : sentOperation op = op ↔
    (∀ r ∈ op.reservation, r.reservationOwnerPersonId = none) ∧ AtomsUnstored op := by
  cases hcarried : op.reservation with
  | none =>
    rw [AtomsUnstored, hcarried]
    exact ⟨fun _ => ⟨nofun, nofun⟩, fun _ => sentOperation_eq hcarried⟩
  | some r =>
    have heq : sentOperation op = op ↔ sent r = r := by
      cases op with
      | eraseAllData => cases hcarried
      | delete type id => cases hcarried
      | storeNew item =>
        cases item with
        | hotel item => cases hcarried
        | person item => cases hcarried
        | reservation item =>
          cases hcarried
          exact (by simp [sentOperation, sentItem])
      | update item =>
        cases item with
        | hotel item => cases hcarried
        | person item => cases hcarried
        | reservation item =>
          cases hcarried
          exact (by simp [sentOperation, sentItem])
    rw [heq, sent_eq_iff, AtomsUnstored, hcarried]
    simp

theorem queueOperations_some (boost : BoostDate) (client : NetClientBackend) {ops : Operations}
    (h : ∀ op ∈ ops, op.nonNull = true) : ∃ client' os,
      client.queueOperations boost ops = some (client', .obj
        [("op", .str "schedule_operations"), ("id", .int (client.nextOperationId + 1)),
         ("operations", .arr os)]) ∧
      List.Forall₂ (fun op o => serializeOperation boost op = some o) ops os := by
  have hall : ∃ os, ops.mapM (serializeOperation boost) = some os ∧
      List.Forall₂ (fun op o => serializeOperation boost op = some o) ops os := by
    induction ops with
    | nil => exact ⟨[], rfl, .nil⟩
    | cons op ops ih =>
      obtain ⟨hop, hops⟩ := List.forall_mem_cons.1 h
      obtain ⟨o, ho⟩ := serializeOperation_some boost hop
      obtain ⟨os, hos, hrest⟩ := ih hops
      refine ⟨o :: os, ?_, .cons ho hrest⟩
      rw [List.mapM_cons, ho, hos]
      rfl
  obtain ⟨os, hos, hrest⟩ := hall
  refine ⟨{ client with nextOperationId := client.nextOperationId + 1
                        tasks := client.tasks ++ [client.nextOperationId + 1] }, os, ?_, hrest⟩
  rw [NetClientBackend.queueOperations, NetClientBackend.scheduleMessage, hos]
  rfl

/-- The session reads a batch of which nothing is left out exactly if all of it is readable. -/
theorem readBody_iff (build : Build) {boost : BoostDate} {text : JsonText} {ops ops' : Operations}
    {os : List Json} {id id' : Json}
    (hos : List.Forall₂ (fun op o => serializeOperation boost op = some o) ops os)
    (hundone : text.parse (text.dump (.obj [("op", .str "schedule_operations"), ("id", id),
        ("operations", .arr os)])) = .ok (.obj [("op", .str "schedule_operations"), ("id", id),
        ("operations", .arr os)])) (hlength : ops.length = ops'.length) :
    NetClientSession.readBody build boost text (text.dump (.obj [("op", .str "schedule_operations"),
        ("id", id), ("operations", .arr os)])) = .ok (.queueOperations ops' id') ↔
      (∀ op ∈ ops, Readable op) ∧ ops' = ops.map sentOperation ∧ id' = id := by
  have hread : NetClientSession.readBody build boost text (text.dump (.obj
      [("op", .str "schedule_operations"), ("id", id), ("operations", .arr os)])) = (do
        let operations ← NetClientSession.readOperations build boost os
        return .queueOperations operations id) := Except.bind_ok hundone _
  rw [hread]
  constructor
  · intro hok
    obtain ⟨read, hoperations, hok⟩ := Except.bind_eq_ok.1 hok
    cases hok
    have hreadable := (NetClientSession.readOperations_length hos hoperations).2 hlength.le
    rw [NetClientSession.readOperations_serialize build hos hreadable] at hoperations
    exact ⟨hreadable, (Except.ok.inj hoperations).symm, rfl⟩
  · rintro ⟨hreadable, rfl, rfl⟩
    exact Except.bind_ok (NetClientSession.readOperations_serialize build hos hreadable) _

/-- A batch of operations on items that are there is handed to the server's backend,
    in the same order and with equal operations, if and only if each of them is
    transmissible; and as it was given, if and only if besides no atom has an id or a
    revision. The backend then does to its storage what it would have done with the
    batch itself, with the same results. -/
theorem network_transparency (build : Build) (boost : BoostDate) (text : JsonText)
    (client : NetClientBackend) (ops : Operations) (hnonNull : ∀ op ∈ ops, op.nonNull = true)
    (hundone : ∀ client' message, client.queueOperations boost ops = some (client', message) →
      text.parse (text.dump message) = .ok message) :
    ∃ client' message, client.queueOperations boost ops = some (client', message) ∧
      ((∃ ops' id,
          NetClientSession.readBody build boost text (text.dump message) = .ok (.queueOperations ops' id) ∧
          List.Forall₂ SameOperation ops ops' ∧
          ∀ streams storage changeList,
            (processTask build boost streams storage changeList ops').map TaskOutcome.effects =
              (processTask build boost streams storage changeList ops).map TaskOutcome.effects) ↔
        ∀ op ∈ ops, Transmissible op) ∧
      ((∃ id,
          NetClientSession.readBody build boost text (text.dump message) = .ok (.queueOperations ops id)) ↔
        ∀ op ∈ ops, Transmissible op ∧ AtomsUnstored op) := by
  obtain ⟨client', os, hqueued, hos⟩ := queueOperations_some boost client hnonNull
  have hundone := hundone _ _ hqueued
  refine ⟨client', _, hqueued, ⟨?_, ?_⟩, ?_, ?_⟩
  · rintro ⟨ops', id, hok, hsame, -⟩
    obtain ⟨hreadable, rfl, -⟩ := (readBody_iff build hos hundone hsame.length_eq).1 hok
    rw [List.forall₂_map_right_iff, List.forall₂_same] at hsame
    exact fun op hop => ⟨hreadable op hop, (sameOperation_sent_iff op).1 (hsame op hop)⟩
  · intro h
    have hok := (readBody_iff build hos hundone (List.length_map sentOperation).symm).2
      ⟨fun op hop => (h op hop).1, rfl, rfl⟩
    refine ⟨_, _, hok, ?_, fun streams storage changeList => ?_⟩
    · rw [List.forall₂_map_right_iff, List.forall₂_same]
      exact fun op hop => (sameOperation_sent_iff op).2 (h op hop).2
    · exact processTask_sent build boost streams storage changeList ops
  · rintro ⟨id, hok⟩
    obtain ⟨hreadable, heq, -⟩ := (readBody_iff build hos hundone rfl).1 hok
    intro op hop
    have hlost := sentOperation_eq_iff.1 (map_eq_self_iff.1 heq.symm op hop)
    exact ⟨⟨hreadable op hop, hlost.1⟩, hlost.2⟩
  · intro h
    refine ⟨_, (readBody_iff build hos hundone rfl).2 ⟨fun op hop => (h op hop).1.1, ?_, rfl⟩⟩
    rw [map_eq_self_iff.2 fun op hop =>
      sentOperation_eq_iff.2 ⟨(h op hop).1.2, (h op hop).2⟩]

/-- A batch that stores a hotel and updates a reservation, its message, and its text. -/
def storeAndUpdate : Operations :=
  [.eraseAllData, .storeNew (.hotel (some Hotel.oneRoom)),
    .update (.reservation (some { Reservation.twoRooms with id := 3, revision := 2 }))]

def storeAndUpdateMessage : Json :=
  .obj [("op", .str "schedule_operations"), ("id", .int 2),
        ("operations", .arr [.obj [("op", .str "erase_all_data")],
          .obj [("op", .str "store"), ("t", .str "hotel"), ("o", JsonSerializer.serializeHotel Hotel.oneRoom)],
          .obj [("op", .str "update"), ("t", .str "reservation"),
            ("o", JsonSerializer.serializeReservation .gregorian
              { Reservation.twoRooms with id := 3, revision := 2 })]])]

def storeAndUpdateText : String :=
  "\x7b\"id\":2,\"op\":\"schedule_operations\",\"operations\":[\x7b\"op\":\"erase_all_data\"\x7d," ++
  "\x7b\"o\":\x7b\"categories\":[\x7b\"id\":1,\"name\":\"Double\",\"rev\":1,\"short_code\":\"D\"\x7d]," ++
    "\"id\":1,\"name\":\"Hotel\",\"rev\":1," ++
    "\"rooms\":[\x7b\"category_id\":\"D\",\"id\":1,\"name\":\"101\",\"rev\":1\x7d]\x7d," ++
    "\"op\":\"store\",\"t\":\"hotel\"\x7d," ++
  "\x7b\"o\":\x7b\"adults\":0," ++
    "\"atoms\":[\x7b\"from\":\"2017-01-01\",\"id\":0,\"rev\":0,\"room_id\":1,\"to\":\"2017-01-03\"\x7d," ++
      "\x7b\"from\":\"2017-01-03\",\"id\":0,\"rev\":0,\"room_id\":2,\"to\":\"2017-01-04\"\x7d]," ++
    "\"children\":0,\"description\":\"two rooms\",\"id\":3,\"rev\":2,\"status\":\"unknown\"\x7d," ++
    "\"op\":\"update\",\"t\":\"reservation\"\x7d]\x7d"

theorem network_transparency_storeAndUpdate : ∃ id, NetClientSession.readBody .debug .gregorian
    (NetClientBackend.oneMessage storeAndUpdateMessage storeAndUpdateText) storeAndUpdateText =
      .ok (.queueOperations storeAndUpdate id) := by
  have hcontiguous := ((Reservation.isValid_iff (r := Reservation.twoRooms)).1 rfl).2
  obtain ⟨client', message, hqueued, -, hexact⟩ := network_transparency .debug .gregorian
    (NetClientBackend.oneMessage storeAndUpdateMessage storeAndUpdateText) {} storeAndUpdate
    (by decide)
    (by
      intro client' message hqueued
      cases hqueued
      exact NetClientBackend.parse_oneMessage storeAndUpdateMessage storeAndUpdateText)
  cases hqueued
  apply hexact.2
  refine List.forall_mem_cons.2 ⟨⟨⟨trivial, by rintro r ⟨⟩⟩, by rintro r ⟨⟩⟩, List.forall_mem_cons.2
    ⟨⟨⟨⟨_, rfl, by decide⟩, by rintro r ⟨⟩⟩, by rintro r ⟨⟩⟩,
      List.forall_mem_singleton.2 ⟨⟨⟨_, rfl, hcontiguous⟩, ?_⟩, ?_⟩⟩⟩
  · rintro r ⟨⟩
    rfl
  · rintro r ⟨⟩
    decide

/-- A batch that erases everything and stores a person, its message, and its text. -/
def eraseAndStore : Operations :=
  [.eraseAllData, .storeNew (.person (some { firstName := "first", lastName := "last" }))]

def eraseAndStoreMessage : Json :=
  .obj [("op", .str "schedule_operations"), ("id", .int 2),
        ("operations", .arr [.obj [("op", .str "erase_all_data")],
          .obj [("op", .str "store"), ("t", .str "person"), ("o", .obj [("Person", .str "Person")])]])]

def eraseAndStoreText : String :=
  "\x7b\"id\":2,\"op\":\"schedule_operations\",\"operations\":[\x7b\"op\":\"erase_all_data\"\x7d," ++
  "\x7b\"o\":\x7b\"Person\":\"Person\"\x7d,\"op\":\"store\",\"t\":\"person\"\x7d]\x7d"

/-- The person is left out of the batch, and the rest of it is committed, where the
    batch itself would have been rolled back. With assertions the server stops. -/
theorem person_is_left_out :
    NetClientBackend.queueOperations .gregorian {} eraseAndStore =
      some ({ tasks := [2], nextOperationId := 2 }, eraseAndStoreMessage) ∧
    NetClientSession.readBody .release .gregorian
      (NetClientBackend.oneMessage eraseAndStoreMessage eraseAndStoreText) eraseAndStoreText =
        .ok (.queueOperations [.eraseAllData] (.int 2)) ∧
    NetClientSession.readBody .debug .gregorian
      (NetClientBackend.oneMessage eraseAndStoreMessage eraseAndStoreText) eraseAndStoreText =
        .error (.assertion "false") ∧
    (processTask .release .gregorian [] { current := {} } [] eraseAndStore).map (·.committed) =
      .ok false ∧
    (processTask .release .gregorian [] { current := {} } [] [.eraseAllData]).map (·.committed) =
      .ok true :=
  ⟨rfl, rfl, rfl, rfl, rfl⟩

end HotelPms

import HotelPms.Sqlite.History

/- Deleting a reservation.

   The statement text of `reservation.delete` holds two statements, and only the
   first is compiled, so the atoms are deleted and the row of the reservation stays.
   Nothing shows it, since loading joins the tables; but a later update of the id
   still finds the row, and brings the reservation back. A reservation is deleted
   as it should be exactly if the row was not there in the first place, or the rest
   of the batch erases everything (`deleted_iff`). -/
namespace HotelPms
open Lib SqliteStorage DataStreamManager SqliteBackend Reservation

/-- Neither a reservation row nor an atom row with this reservation id. -/
def Gone (id : Int) (db : Database) : Prop :=
  db.reservation.get? id = none ∧ atomsOf db id = []

/-- The operation stores a new reservation, and it gets this id. -/
def Assigns (id : Int) (db : Database) (op : Operation) : Prop :=
  ∃ r, op = .storeNew (.reservation (some r)) ∧ db.reservation.nextId = id

/-- Whatever update of the id is executed returns an error. -/
def UpdatesFail (build : Build) (boost : BoostDate) (id : Int) (db : Database) : Prop :=
  ∀ r : Reservation, r.id = id →
    (Runs build (.update (.reservation (some r))) →
      ∃ e, executeOperation build boost db (.update (.reservation (some r))) = .ok e) ∧
    ∀ e, executeOperation build boost db (.update (.reservation (some r))) = .ok e →
      e.result.status = .error

/-- What deleting a reservation is to achieve, given the database the delete left and
    the rest of its batch: when the batch is done, and after any batches that follow,
    it is gone and every update of it fails, unless a new reservation got its id. -/
def Deleted (build : Build) (boost : BoostDate) (id : Int) (db : Database) (rest : Operations)
    (db' : Database) : Prop :=
  Along build boost (fun db op => ¬ Assigns id db op) db rest →
    ∀ rs db'', History build boost db' rs db'' →
      AlongHistory build boost (fun db op => ¬ Assigns id db op) rs →
        Gone id db'' ∧ UpdatesFail build boost id db''

section
variable {build : Build} {boost : BoostDate} {id : Int} {db db' : Database}

/-- A reservation that is gone stays so until a new one gets its id. -/
theorem gone_effect {op : Operation} {notices : List Notice} (hop : ¬ Assigns id db op)
    (h : Gone id db) (he : Effect build boost db op db' notices) : Gone id db' := by
  obtain ⟨hrow, hatoms⟩ := h
  cases he with
  | eraseAllData => exact ⟨rfl, rfl⟩
  | storeNull item null => exact ⟨hrow, hatoms⟩
  | storeHotel hotel => exact ⟨hrow, hatoms⟩
  | updateHotel hotel hotel' db' hasId updated =>
    obtain ⟨-, rfl, -⟩ := of_updateHotel updated
    exact ⟨hrow, hatoms⟩
  | storeReservation r r' db' stored =>
    obtain ⟨status, -, rfl, -⟩ := of_storeNewReservationAndAtoms stored
    have hnew : (numbered db r).id ≠ id := fun heq => hop ⟨r, rfl, heq⟩
    constructor
    · rw [insertAtoms_reservation, withRow, Table.get?_insert]
      exact (if_neg (Ne.symm hnew)).trans hrow
    · rw [atomsOf_insertAtoms, if_neg hnew, List.append_nil]
      exact hatoms
  | updateReservation r r' db' hasId updated =>
    obtain ⟨status, -, ⟨row, hget, -⟩, rfl, -⟩ := of_updateReservation updated
    -- the row that is updated is there, so it is another one
    have hother : r.id ≠ id := by
      intro heq
      rw [heq, hrow] at hget
      cases hget
    constructor
    · rw [insertAtoms_reservation]
      show (updatedReservations db r status).get? id = none
      rw [updatedReservations, Table.get?_update, hrow]
      rfl
    · rw [atomsOf_insertAtoms, if_neg hother, List.append_nil]
      show atomsOf { db with reservationAtom := otherAtoms db r.id } id = []
      rw [atomsOf_otherAtoms, if_neg (Ne.symm hother)]
      exact hatoms
  | deleteReservation other =>
    refine ⟨hrow, ?_⟩
    rw [deleteReservationById_eq, atomsOf_otherAtoms, hatoms]
    exact ite_self _

theorem row_effect {op : Operation} {notices : List Notice} (hop : op ≠ .eraseAllData)
    (h : db.reservation.get? id ≠ none) (he : Effect build boost db op db' notices) :
    db'.reservation.get? id ≠ none := by
  cases he with
  | eraseAllData => exact absurd rfl hop
  | storeNull item null => exact h
  | storeHotel hotel => exact h
  | deleteReservation other => exact h
  | updateHotel hotel hotel' db' hasId updated =>
    obtain ⟨-, rfl, -⟩ := of_updateHotel updated
    exact h
  | storeReservation r r' db' stored =>
    obtain ⟨status, -, rfl, -⟩ := of_storeNewReservationAndAtoms stored
    rw [insertAtoms_reservation, withRow, Table.get?_insert]
    split
    · exact Option.some_ne_none _
    · exact h
  | updateReservation r r' db' hasId updated =>
    obtain ⟨status, -, -, rfl, -⟩ := of_updateReservation updated
    rw [insertAtoms_reservation]
    show (updatedReservations db r status).get? id ≠ none
    rw [updatedReservations, Table.get?_update]
    exact fun hnone => h (Option.map_eq_none_iff.1 hnone)

theorem updatesFail_of_gone (boost : BoostDate) (h : Gone id db) : UpdatesFail build boost id db := by
  intro r hr
  refine ⟨executeOperation_ok boost db, fun e he => ?_⟩
  cases hs : e.result.succeeded with
  | false => simpa [TaskResult.succeeded] using hs
  | true =>
    have heffect := effect_of_succeeded he hs
    generalize e.db = db' at heffect
    generalize e.notices = notices at heffect
    cases heffect with
    | updateReservation r r' db' hasId updated =>
      obtain ⟨status, -, ⟨row, hget, -⟩, -⟩ := of_updateReservation updated
      rw [hr, h.1] at hget
      cases hget

/-- A reservation that is gone stays so over any batches, and all its updates fail. -/
theorem gone_history {rs : List BatchRecord} (h : Gone id db)
    (hhistory : History build boost db rs db')
    (hnot : AlongHistory build boost (fun db op => ¬ Assigns id db op) rs) :
    Gone id db' ∧ UpdatesFail build boost id db' := by
  have hgone := hhistory.induction (P := fun _ db => Gone id db) h
    (fun _ _ _ _ _ hop hgone heffect => gone_effect hop hgone heffect) hnot
  exact ⟨hgone, updatesFail_of_gone boost hgone⟩

theorem gone_succeed {streams : List DataStream} {ops : Operations} {rs : List TaskResult}
    {cs : List DataStreamDifferential} (h : Gone id db)
    (hsucceed : Succeed build boost streams db ops db' rs cs)
    (hnot : Along build boost (fun db op => ¬ Assigns id db op) db ops) : Gone id db' :=
  Succeed.induction (P := fun _ db => Gone id db)
    (fun _ _ _ _ _ hop hgone heffect => gone_effect hop hgone heffect) hsucceed hnot [] h

theorem row_succeed {streams : List DataStream} {ops : Operations} {rs : List TaskResult}
    {cs : List DataStreamDifferential} (h : db.reservation.get? id ≠ none)
    (hsucceed : Succeed build boost streams db ops db' rs cs) (hno : .eraseAllData ∉ ops) :
    db'.reservation.get? id ≠ none := by
  have hnot : Along build boost (fun _ op => op ≠ .eraseAllData) db ops := by
    apply Along.of_forall
    intro _ op hop heq
    exact hno (heq ▸ hop)
  exact Succeed.induction (P := fun _ db => db.reservation.get? id ≠ none)
    (fun _ _ _ _ _ hop hrow heffect => row_effect hop hrow heffect) hsucceed hnot [] h

theorem gone_of_erase {streams : List DataStream} {ops : Operations} {rs : List TaskResult}
    {cs : List DataStreamDifferential} (h : Succeed build boost streams db ops db' rs cs)
    (hnot : Along build boost (fun db op => ¬ Assigns id db op) db ops)
    (herase : Operation.eraseAllData ∈ ops) : Gone id db' := by
  induction h with
  | nil => cases herase
  | cons executed succeeded announced rest ih =>
    rcases List.mem_cons.1 herase with rfl | herase
    · cases executed
      exact gone_succeed ⟨rfl, rfl⟩ rest (hnot.2 _ rfl)
    · exact ih (hnot.2 _ executed) herase

theorem deleteReservationById_other (db : Database) {other : Int} (h : other ≠ id) :
    (deleteReservationById db id).reservation.get? other = db.reservation.get? other ∧
      atomsOf (deleteReservationById db id) other = atomsOf db other := by
  constructor
  · rfl
  · rw [deleteReservationById_eq, atomsOf_otherAtoms, if_neg h]

/-- A committed batch with a delete in it leaves the other reservations alone at the
    delete; and the reservation is deleted as it should be if and only if its row was
    not there, or the rest of the batch erases everything, or a new reservation gets
    its id in the rest of the batch. -/
theorem deleted_iff (build : Build) (boost : BoostDate) (streams : List DataStream)
    (db : Database) (changeList : List DataStreamDifferential) (id : Int)
    (before after : Operations) (out : TaskOutcome)
    (hbatch : processTask build boost streams { current := db } changeList
      (before ++ .delete .reservation id :: after) = .ok out)
    (hcommitted : out.committed = true) (db₁ : Database) (rs : List TaskResult)
    (cs : List DataStreamDifferential) (hbefore : Succeed build boost streams db before db₁ rs cs) :
    (∀ other, other ≠ id →
      (deleteReservationById db₁ id).reservation.get? other = db₁.reservation.get? other ∧
        atomsOf (deleteReservationById db₁ id) other = atomsOf db₁ other) ∧
    (Deleted build boost id (deleteReservationById db₁ id) after out.storage.current ↔
      db₁.reservation.get? id = none ∨ .eraseAllData ∈ after ∨
        ¬ Along build boost (fun db op => ¬ Assigns id db op) (deleteReservationById db₁ id) after) := by
  refine ⟨fun other hother => deleteReservationById_other db₁ hother, ?_⟩
  have hafter : ∃ rs cs, Succeed build boost streams (deleteReservationById db₁ id) after
      out.storage.current rs cs := by
    rcases processTask_cases (show Connection.Idle { current := db } from rfl) hbatch with
      ⟨db', changes, hsucceed, hstorage, -⟩ | ⟨-, -, -, hrolled⟩
    · obtain ⟨rs', cs', hrest⟩ := hbefore.drop hsucceed
      rw [hstorage]
      cases hrest with
      | cons executed succeeded announced rest =>
        cases executed
        exact ⟨_, _, rest⟩
    · rw [hcommitted] at hrolled
      cases hrolled
  obtain ⟨rs', cs', hrest⟩ := hafter
  constructor
  · intro hdeleted
    by_contra hno
    rw [not_or, not_or, not_not] at hno
    obtain ⟨hrow, herase, hnot⟩ := hno
    -- with no further batch the row is still there
    obtain ⟨hgone, -⟩ := hdeleted hnot [] _ .nil nofun
    have hkept : (deleteReservationById db₁ id).reservation.get? id ≠ none := hrow
    exact row_succeed hkept hrest herase hgone.1
  · rintro (hrow | herase | hassigned) hnot rs'' db'' hhistory hnot'
    · have hgone : Gone id (deleteReservationById db₁ id) := by
        refine ⟨hrow, ?_⟩
        rw [deleteReservationById_eq, atomsOf_otherAtoms, if_pos rfl]
      exact gone_history (gone_succeed hgone hrest hnot) hhistory hnot'
    · exact gone_history (gone_of_erase hrest hnot herase) hhistory hnot'
    · exact absurd hnot hassigned

end

/-- Two reservations are stored. The batch deletes one and erases everything; at the delete
    the other one was still there. -/
theorem deleted_iff_erased : ∃ out, processTask .debug .gregorian [] { current := twoStored } []
      [.delete .reservation 1, .eraseAllData] = .ok out ∧ twoStored.reservation.get? 1 ≠ none ∧
    Deleted .debug .gregorian 1 (deleteReservationById twoStored 1) [.eraseAllData] out.storage.current ∧
    atomsOf twoStored 2 ≠ [] ∧ atomsOf (deleteReservationById twoStored 1) 2 = atomsOf twoStored 2 := by
  obtain ⟨out, hout, hcommitted⟩ : ∃ out, processTask .debug .gregorian [] { current := twoStored } []
      [.delete .reservation 1, .eraseAllData] = .ok out ∧ out.committed = true := ⟨_, rfl, rfl⟩
  obtain ⟨hothers, hdeleted⟩ := deleted_iff .debug .gregorian [] twoStored [] 1 [] [.eraseAllData] out hout
    hcommitted twoStored [] [] (.nil _)
  exact ⟨out, hout, by decide, hdeleted.2 (Or.inr (Or.inl List.mem_cons_self)), by decide,
    (hothers 2 (by decide)).2⟩

/-- A reservation is stored and deleted, both in committed batches; its row is still
    there, and an update that carries the old revision is committed. -/
theorem deleted_updateBringsBack : ∃ stored deleted updated,
    processTask .debug .gregorian [] { current := {} } []
      [.storeNew (.reservation (some oneNight))] = .ok stored ∧ stored.committed = true ∧
    processTask .debug .gregorian [] stored.storage [] [.delete .reservation 1] = .ok deleted ∧
    deleted.committed = true ∧ deleted.storage.current.reservation.get? 1 ≠ none ∧
    processTask .debug .gregorian [] deleted.storage []
      [.update (.reservation (some { oneNight with id := 1, revision := 1 }))] = .ok updated ∧
    updated.committed = true ∧ atomsOf updated.storage.current 1 ≠ [] :=
  ⟨_, _, _, rfl, rfl, rfl, rfl, nofun, rfl, rfl, nofun⟩

end HotelPms

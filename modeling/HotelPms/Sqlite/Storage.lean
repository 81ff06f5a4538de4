import HotelPms.Boost
import HotelPms.Hotel.Hotel
import HotelPms.Lib.Table

/- `persistence::sqlite::SqliteStorage`: the database and the statements on it.

   Every statement is taken to execute without an SQLite error. Ids come from
   `AUTOINCREMENT`. Dropping a table discards its counter. Dates are stored as
   text, and a query sorts by that text. Text is read back as a C string, up to
   its first NUL.

   Correspondence:
     `reservation.delete`, two statements in one text of which
     `sqlite3_prepare_v2` compiles the first      ↔ `deleteReservationById`
     `FROM h_reservation, h_reservation_atom ...` ↔ `reservationAndAtoms`
     the loop over its rows in `loadAll`          ↔ `regroup` -/
namespace HotelPms
open Lib

/-! ## Tables -/

structure HotelRow where
  revision : Int := 1
  name : String
  deriving DecidableEq

structure RoomCategoryRow where
  hotelId : Int
  shortCode : String
  name : String
  deriving DecidableEq

structure RoomRow where
  hotelId : Int
  categoryId : Int
  name : String
  deriving DecidableEq

structure ReservationRow where
  revision : Int := 1
  description : String
  status : String
  adults : Int
  children : Int
  deriving DecidableEq

structure ReservationAtomRow where
  reservationId : Int
  roomId : Int
  dateFrom : String
  dateTo : String
  deriving DecidableEq

/-- The tables `createSchema` creates. -/
@[ext] structure Database where
  hotel : Table HotelRow := {}
  roomCategory : Table RoomCategoryRow := {}
  room : Table RoomRow := {}
  reservation : Table ReservationRow := {}
  reservationAtom : Table ReservationAtomRow := {}

/-- `readArg(int, std::string&)`: the text up to its first NUL. -/
def readText (text : String) : String := String.ofList (text.toList.takeWhile (· ≠ '\x00'))

theorem readText_of_noNul {text : String} (h : '\x00' ∉ text.toList) : readText text = text := by
  have hall : ∀ c ∈ text.toList, (decide (c ≠ '\x00')) = true := by
    intro c hc
    rw [decide_eq_true_eq]
    rintro rfl
    exact h hc
  rw [readText, List.takeWhile_eq_self_iff.2 hall, String.ofList_toList]

/-- `readArg(int, boost::gregorian::date&)` -/
def readDate (boost : BoostDate) (text : String) : Except Fault Date :=
  match boost.fromUndelimitedString (readText text) with
  | some date => .ok date
  | none => .error (.badDate (readText text))

@[simp] theorem readDate_toIsoString (boost : BoostDate) (d : Date) :
    readDate boost (boost.toIsoString d) = .ok d := by
  rw [readDate, readText_of_noNul (boost.printable d), boost.undelimited]

def serializeReservationStatus (build : Build) : ReservationStatus → Except Fault String
  | .unknown => .ok "unknown"
  | .new => .ok "new"
  | .confirmed => .ok "confirmed"
  | .checkedIn => .ok "checked-in"
  | .checkedOut => .ok "checked-out"
  | .archived => .ok "archived"
  | .temporary => do
    build.assert false "false"
    return "unknown"

def parseReservationStatus (build : Build) (str : String) : Except Fault ReservationStatus :=
  if str = "unknown" then .ok .unknown
  else if str = "new" then .ok .new
  else if str = "confirmed" then .ok .confirmed
  else if str = "checked-in" then .ok .checkedIn
  else if str = "checked-out" then .ok .checkedOut
  else if str = "archived" then .ok .archived
  else do
    build.assert false "false"
    return .unknown

namespace SqliteStorage

/-- `deleteAll`: the tables are dropped, and created again. -/
def deleteAll (_ : Database) : Database := {}

/-- `deleteReservationById`: of the text `DELETE FROM h_reservation_atom WHERE
    reservation_id = ?; DELETE FROM h_reservation WHERE ...` only the first
    statement is compiled. -/
def deleteReservationById (db : Database) (id : Int) : Database :=
  { db with reservationAtom := db.reservationAtom.delete fun _ atom => atom.reservationId == id }

/-! ## Storing -/

/-- `setId` for each category, in order. -/
def setCategoryIds (hotel : Hotel) (ids : List Int) : Hotel := { hotel with
  categories := hotel.categories.mapIdx fun i category => { category with id := ids.getD i 0 }
  owned := by simpa using hotel.owned }

/-- `setId` for each room, in order. -/
def setRoomIds (hotel : Hotel) (ids : List Int) : Hotel := { hotel with
  rooms := hotel.rooms.mapIdx fun i room => { room with id := ids.getD i 0 }
  owned := by
    intro room hr
    obtain ⟨i, hi, rfl⟩ := List.mem_mapIdx.1 hr
    have := hotel.owned hotel.rooms[i] (List.getElem_mem hi)
    exact this }

/-- `room->category()->id()` -/
def categoryIdOf (hotel : Hotel) (room : HotelRoom) : Int :=
  ((hotel.categoryOf room).map (·.id)).getD 0

/-- `storeNewHotel`: the database and the hotel with the ids it was given. -/
def storeNewHotel (db : Database) (hotel : Hotel) : Database × Hotel :=
  -- first, store the hotel
  let hotels := db.hotel.insert { name := hotel.name }
  let hotel := { hotel with id := db.hotel.nextId, revision := 1 }
  -- store all of the categories
  let categories := db.roomCategory.insertAll (hotel.categories.map fun category =>
    { hotelId := hotel.id, shortCode := category.shortCode, name := category.name })
  let hotel := setCategoryIds hotel categories.2
  -- store all of the rooms
  let rooms := db.room.insertAll (hotel.rooms.map fun room =>
    { hotelId := hotel.id, categoryId := categoryIdOf hotel room, name := room.name })
  let hotel := setRoomIds hotel rooms.2
  ({ db with hotel := hotels, roomCategory := categories.1, room := rooms.1 }, hotel)

/-- The arguments of `reservation_atom.insert`. -/
def atomRow (boost : BoostDate) (reservationId : Int) (atom : ReservationAtom) : ReservationAtomRow :=
  { reservationId
    roomId := atom.roomId
    dateFrom := boost.toIsoString atom.dateRange.begin_
    dateTo := boost.toIsoString atom.dateRange.end_ }

/-- The loop over `reservation.atoms()`: each atom is inserted and gets its id. -/
def insertAtoms (boost : BoostDate) (db : Database) (reservation : Reservation) :
    Database × Reservation :=
  let atoms := db.reservationAtom.insertAll (reservation.atoms.map (atomRow boost reservation.id))
  ({ db with reservationAtom := atoms.1 },
   { reservation with atoms := List.zipWith (fun atom id => { atom with id }) reservation.atoms atoms.2 })

def storeNewReservationAndAtoms (build : Build) (boost : BoostDate) (db : Database)
    (reservation : Reservation) : Except Fault (Database × Reservation) := do
  let reservationStatus ← serializeReservationStatus build reservation.status
  let reservations := db.reservation.insert
    { description := reservation.description, status := reservationStatus,
      adults := reservation.adults, children := reservation.children }
  let reservation := { reservation with id := db.reservation.nextId, revision := 1 }
  return insertAtoms boost { db with reservation := reservations } reservation

theorem storeNewReservationAndAtoms_eq {build : Build} {boost : BoostDate} {r : Reservation}
    {status : String} (h : serializeReservationStatus build r.status = .ok status) (db : Database) :
    storeNewReservationAndAtoms build boost db r = .ok (insertAtoms boost
      { db with reservation := db.reservation.insert { description := r.description, status,
                                                       adults := r.adults, children := r.children } }
      { r with id := db.reservation.nextId, revision := 1 }) :=
  Except.bind_ok h _

/-! ## Updating: whether a row was changed, the database, and the item -/

/-- `update<hotel::Hotel>` -/
def updateHotel (db : Database) (value : Hotel) : Bool × Database × Hotel :=
  let condition := fun id (row : HotelRow) => id == value.id && row.revision == value.revision
  let hotels := db.hotel.update condition fun row =>
    { row with name := value.name, revision := row.revision + 1 }
  if db.hotel.changes condition = 1 then
    (true, { db with hotel := hotels }, { value with revision := value.revision + 1 })
  else
    (false, { db with hotel := hotels }, value)

/-- `update<hotel::Reservation>` -/
def updateReservation (build : Build) (boost : BoostDate) (db : Database) (value : Reservation) :
    Except Fault (Bool × Database × Reservation) := do
  let status ← serializeReservationStatus build value.status
  let condition := fun id (row : ReservationRow) => id == value.id && row.revision == value.revision
  let reservations := db.reservation.update condition fun row =>
    { row with description := value.description, status, adults := value.adults,
               children := value.children, revision := row.revision + 1 }
  if db.reservation.changes condition ≠ 1 then
    return (false, { db with reservation := reservations }, value)
  -- `reservation.delete_atoms`
  let remaining := db.reservationAtom.delete fun _ atom => atom.reservationId == value.id
  let (db, value) := insertAtoms boost
    { db with reservation := reservations, reservationAtom := remaining } value
  return (true, db, { value with revision := value.revision + 1 })

/-! ## Loading -/

/-- `reservation_and_atoms.all`: the rows of a reservation and one of its atoms,
    ordered by the id of the reservation, as the rows of the table already are,
    and by the text of the atom's first day (atoms of one first day by their id). -/
def reservationAndAtoms (db : Database) :
    List ((Int × ReservationRow) × (Int × ReservationAtomRow)) :=
  db.reservation.rows.flatMap fun r =>
    ((db.reservationAtom.select fun _ a => a.reservationId == r.1).insertionSort
      fun a b => a.2.dateFrom ≤ b.2.dateFrom).map fun a => (r, a)

/-- `setId` of the last atom. -/
def setLastAtomId (reservation : Reservation) (id : Int) : Reservation :=
  { reservation with
    atoms := reservation.atoms.modify (reservation.atoms.length - 1) fun atom => { atom with id } }

/-- A reservation that begins with one atom of a result row. -/
def beginReservation (build : Build) (boost : BoostDate) (id : Int) (row : ReservationRow)
    (atom : Int × ReservationAtomRow) : Except Fault Reservation := do
  let dateFrom ← readDate boost atom.2.dateFrom
  let dateTo ← readDate boost atom.2.dateTo
  let current := Reservation.ofRoom (readText row.description) atom.2.roomId ⟨dateFrom, dateTo⟩
  let status ← parseReservationStatus build (readText row.status)
  return setLastAtomId { current with id, revision := row.revision, status, adults := row.adults,
                                      children := row.children } atom.1

/-- A further atom: its first day is read, but the atom begins where the last one ends. -/
def continueReservation (boost : BoostDate) (current : Reservation)
    (atom : Int × ReservationAtomRow) : Except Fault Reservation := do
  let _ ← readDate boost atom.2.dateFrom
  let dateTo ← readDate boost atom.2.dateTo
  return setLastAtomId (← current.addContinuation atom.2.roomId dateTo) atom.1

/-- The loop of `loadAll<hotel::Reservation>` over the result rows, with `current`. -/
def regroup (build : Build) (boost : BoostDate) : Option Reservation →
    List ((Int × ReservationRow) × (Int × ReservationAtomRow)) → Except Fault (List Reservation)
  | current, [] => .ok current.toList
  | none, (r, a) :: rows => do
    let current ← beginReservation build boost r.1 r.2 a
    regroup build boost (some current) rows
  | some current, (r, a) :: rows =>
    if current.id ≠ r.1 then do
      let next ← beginReservation build boost r.1 r.2 a
      return current :: (← regroup build boost (some next) rows)
    else do
      let current ← continueReservation boost current a
      regroup build boost (some current) rows

/-- `loadAll<hotel::Reservation>` -/
def loadAllReservations (build : Build) (boost : BoostDate) (db : Database) :
    Except Fault (List Reservation) :=
  regroup build boost none (reservationAndAtoms db)

/-- One turn of the loop of `loadById<hotel::Reservation>`. -/
def loadByIdRow (build : Build) (boost : BoostDate) (id : Int) (result : Option Reservation)
    (row : (Int × ReservationRow) × (Int × ReservationAtomRow)) : Except Fault (Option Reservation) := do
  match result with
  | none => return some (← beginReservation build boost id row.1.2 row.2)
  | some current => return some (← continueReservation boost current row.2)

/-- `loadById<hotel::Reservation>` -/
def loadReservationById (build : Build) (boost : BoostDate) (db : Database) (id : Int) :
    Except Fault (Option Reservation) :=
  ((reservationAndAtoms db).filter fun row => row.1.1 == id).foldlM (loadByIdRow build boost id) none

/-- The categories of a hotel, added to it. -/
def readCategories (db : Database) (hotel : Hotel) : Except Fault Hotel :=
  (db.roomCategory.select fun _ row => row.hotelId == hotel.id).foldlM (fun hotel row =>
    hotel.addRoomCategory (some { id := row.1, shortCode := readText row.2.shortCode,
                                  name := readText row.2.name })) hotel

/-- One room of a hotel: it is left out if the hotel has no category with its category id. -/
def readRoom (hotel : Hotel) (row : Int × RoomRow) : Except Fault Hotel :=
  match hotel.getCategoryById row.2.categoryId with
  | some category => hotel.addRoom
      (some { id := row.1, category, name := readText row.2.name })
      (((hotel.categories[category]?).map (·.shortCode)).getD "")
  | none => .ok hotel

/-- The rooms of a hotel, added to it. -/
def readRooms (db : Database) (hotel : Hotel) : Except Fault Hotel :=
  (db.room.select fun _ row => row.hotelId == hotel.id).foldlM readRoom hotel

/-- A hotel row with its categories and rooms. -/
def readHotel (db : Database) (row : Int × HotelRow) : Except Fault Hotel := do
  let hotel ← readCategories db
    { id := row.1, revision := row.2.revision, name := readText row.2.name, owned := Hotel.noRooms }
  readRooms db hotel

/-- `loadAll<hotel::Hotel>` -/
def loadAllHotels (db : Database) : Except Fault (List Hotel) := db.hotel.rows.mapM (readHotel db)

/-- `loadById<hotel::Hotel>` -/
def loadHotelById (db : Database) (id : Int) : Except Fault (Option Hotel) :=
  match db.hotel.get? id with
  | none => .ok none
  | some row => do return some (← readHotel db (id, row))

/-! ## What each call changes -/

variable {build : Build} {boost : BoostDate} {db db' : Database}

@[simp] theorem storeNewHotel_hotel (db : Database) (hotel : Hotel) :
    (storeNewHotel db hotel).1.hotel = db.hotel.insert { name := hotel.name } := rfl

@[simp] theorem storeNewHotel_reservation (db : Database) (hotel : Hotel) :
    (storeNewHotel db hotel).1.reservation = db.reservation := rfl

@[simp] theorem storeNewHotel_reservationAtom (db : Database) (hotel : Hotel) :
    (storeNewHotel db hotel).1.reservationAtom = db.reservationAtom := rfl

@[simp] theorem deleteReservationById_hotel (db : Database) (id : Int) :
    (deleteReservationById db id).hotel = db.hotel := rfl

@[simp] theorem deleteReservationById_reservation (db : Database) (id : Int) :
    (deleteReservationById db id).reservation = db.reservation := rfl

/-- The row that stores a new reservation. -/
def newRow (r : Reservation) (status : String) : ReservationRow :=
  { description := r.description, status, adults := r.adults, children := r.children }

/-- The database with the row of a new reservation. -/
def withRow (db : Database) (r : Reservation) (status : String) : Database :=
  { db with reservation := db.reservation.insert (newRow r status) }

/-- A new reservation with the id and the revision it is given. -/
def numbered (db : Database) (r : Reservation) : Reservation :=
  { r with id := db.reservation.nextId, revision := 1 }

/-- The database with a reservation whose status is not known. -/
def withStored (db : Database) (r : Reservation) : Database :=
  (insertAtoms .gregorian (withRow db r "unknown") (numbered db r)).1

/-- Reservations of one night in two rooms are stored. -/
def twoStored : Database := withStored (withStored {} (.oneNightIn 1)) (.oneNightIn 2)

theorem of_storeNewReservationAndAtoms {r r' : Reservation}
    (h : storeNewReservationAndAtoms build boost db r = .ok (db', r')) :
    ∃ status, serializeReservationStatus build r.status = .ok status ∧
      db' = (insertAtoms boost (withRow db r status) (numbered db r)).1 ∧
      r' = (insertAtoms boost (withRow db r status) (numbered db r)).2 := by
  obtain ⟨status, hstatus, h⟩ := Except.bind_eq_ok.1 h
  have hout := Except.ok.inj h
  exact ⟨status, hstatus, (congrArg Prod.fst hout).symm, (congrArg Prod.snd hout).symm⟩

theorem changes_eq_one {ρ : Type} (t : Table ρ) (revisionOf : ρ → Int) (id revision : Int) :
    t.changes (fun k row => k == id && revisionOf row == revision) = 1 ↔
      ∃ row, t.get? id = some row ∧ revisionOf row = revision := by
  rw [Table.changes_of_id t id fun row => revisionOf row == revision]
  cases t.get? id with
  | none => simp
  | some row => simp

/-- The hotel row that an update writes. -/
def updatedHotelRow (value : Hotel) (row : HotelRow) : HotelRow :=
  { row with name := value.name, revision := row.revision + 1 }

/-- The hotel table after an update of its row. -/
def updatedHotels (db : Database) (value : Hotel) : Table HotelRow :=
  db.hotel.update (fun id row => id == value.id && row.revision == value.revision)
    (updatedHotelRow value)

theorem of_updateHotel {hotel hotel' : Hotel} (h : updateHotel db hotel = (true, db', hotel')) :
    (∃ row, db.hotel.get? hotel.id = some row ∧ row.revision = hotel.revision) ∧
      db' = { db with hotel := updatedHotels db hotel } ∧
      hotel' = { hotel with revision := hotel.revision + 1 } := by
  simp only [updateHotel] at h
  split at h
  · next hchanged =>
    cases h
    exact ⟨(changes_eq_one _ HotelRow.revision _ _).1 hchanged, rfl, rfl⟩
  · cases h

/-- The reservation row that an update writes. -/
def updatedRow (value : Reservation) (status : String) (row : ReservationRow) : ReservationRow :=
  { row with description := value.description, status, adults := value.adults,
             children := value.children, revision := row.revision + 1 }

/-- The reservation table after an update of its row. -/
def updatedReservations (db : Database) (value : Reservation) (status : String) :
    Table ReservationRow :=
  db.reservation.update (fun id row => id == value.id && row.revision == value.revision)
    (updatedRow value status)

/-- The atoms of the other reservations. -/
def otherAtoms (db : Database) (id : Int) : Table ReservationAtomRow :=
  db.reservationAtom.delete fun _ atom => atom.reservationId == id

/-- The database of an update between deleting the atoms and inserting the new ones. -/
def withoutAtoms (db : Database) (value : Reservation) (status : String) : Database :=
  { db with reservation := updatedReservations db value status
            reservationAtom := otherAtoms db value.id }

theorem updateReservation_eq {r : Reservation} {status : String}
    (h : serializeReservationStatus build r.status = .ok status) (db : Database) :
    updateReservation build boost db r = .ok
      (if (db.reservation.changes fun id row => id == r.id && row.revision == r.revision) = 1 then
        (true, (insertAtoms boost (withoutAtoms db r status) r).1,
          { (insertAtoms boost (withoutAtoms db r status) r).2 with revision := r.revision + 1 })
      else (false, { db with reservation := updatedReservations db r status }, r)) := by
  rw [updateReservation, Except.bind_ok h]
  dsimp only
  by_cases hone : (db.reservation.changes fun id row => id == r.id && row.revision == r.revision) = 1
  · rw [if_neg (not_not.2 hone), if_pos hone]
    rfl
  · rw [if_pos hone, if_neg hone]
    rfl

theorem of_updateReservation {r r' : Reservation}
    (h : updateReservation build boost db r = .ok (true, db', r')) :
    ∃ status, serializeReservationStatus build r.status = .ok status ∧
      (∃ row, db.reservation.get? r.id = some row ∧ row.revision = r.revision) ∧
      db' = (insertAtoms boost (withoutAtoms db r status) r).1 ∧
      r' = { (insertAtoms boost (withoutAtoms db r status) r).2 with revision := r.revision + 1 } := by
  obtain ⟨status, hstatus, h⟩ := Except.bind_eq_ok.1 h
  dsimp only at h
  split at h
  · cases h
  · next hchanged =>
    cases h
    exact ⟨status, hstatus, (changes_eq_one _ ReservationRow.revision _ _).1 (not_not.1 hchanged),
      rfl, rfl⟩

@[simp] theorem insertAtoms_hotel (db : Database) (r : Reservation) :
    (insertAtoms boost db r).1.hotel = db.hotel := rfl

@[simp] theorem insertAtoms_reservation (db : Database) (r : Reservation) :
    (insertAtoms boost db r).1.reservation = db.reservation := rfl

/-- The atom rows of a reservation, by ascending id. -/
def atomsOf (db : Database) (reservationId : Int) : List (Int × ReservationAtomRow) :=
  db.reservationAtom.select fun _ atom => atom.reservationId == reservationId

/-- The atom rows that `insertAtoms` adds. -/
def insertedAtoms (boost : BoostDate) (db : Database) (r : Reservation) :
    List (Int × ReservationAtomRow) :=
  let rows := r.atoms.map (atomRow boost r.id)
  (db.reservationAtom.insertAll rows).2.zip rows

theorem reservationId_insertedAtoms {r : Reservation} :
    ∀ a ∈ insertedAtoms boost db r, a.2.reservationId = r.id := by
  intro a ha
  obtain ⟨atom, -, heq⟩ := List.mem_map.1 (List.of_mem_zip ha).2
  rw [← heq]
  rfl

theorem atomsOf_insertAtoms (db : Database) (r : Reservation) (id : Int) :
    atomsOf (insertAtoms boost db r).1 id =
      atomsOf db id ++ if r.id = id then insertedAtoms boost db r else [] := by
  show ((db.reservationAtom.insertAll (r.atoms.map (atomRow boost r.id))).1.select
    fun _ atom => atom.reservationId == id) = _
  rw [Table.select_insertAll]
  congr 1
  show (insertedAtoms boost db r).filter (fun a => a.2.reservationId == id) = _
  split
  · next h =>
    apply List.filter_eq_self.2
    intro a ha
    rw [reservationId_insertedAtoms a ha, h]
    exact beq_self_eq_true id
  · next h =>
    apply List.filter_eq_nil_iff.2
    intro a ha
    rw [reservationId_insertedAtoms a ha, beq_iff_eq]
    exact h

theorem atomsOf_otherAtoms (db : Database) (id other : Int) :
    atomsOf { db with reservationAtom := otherAtoms db id } other =
      if other = id then [] else atomsOf db other := by
  show (otherAtoms db id).select _ = _
  rw [otherAtoms, Table.select_delete]
  split
  · next h =>
    apply List.filter_eq_nil_iff.2
    intro a _
    simp [h]
  · next h =>
    apply List.filter_congr
    intro a _
    by_cases ha : a.2.reservationId = other
    · simp [ha, h]
    · simp [ha]

theorem deleteReservationById_eq (db : Database) (id : Int) :
    deleteReservationById db id = { db with reservationAtom := otherAtoms db id } := rfl

end SqliteStorage

end HotelPms

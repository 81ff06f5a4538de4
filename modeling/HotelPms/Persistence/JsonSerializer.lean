import HotelPms.Boost
import HotelPms.Persistence.Operations

/- `persistence::json`: items and operations as JSON values.

   What comes back: a hotel as it was, if no two of its categories share a short
   code; a reservation without its owner, and with atoms that lost their ids and
   revisions (`sent`), if its atoms are contiguous; a person not at all. In the
   other cases decoding throws, stops on an assertion or returns nothing
   (`deserializeOperation_ok`).

   An object is the list of the fields that are assigned to it. -/
namespace HotelPms

namespace JsonSerializer

/-! ## Items -/

/-- `serialize(const hotel::PersistentObject&)` -/
def persistentFields (item : PersistentObject) : List (String × Json) :=
  [("id", .int item.id), ("rev", .int item.revision)]

def deserializePersistentObject (json : Json) : Except Fault PersistentObject := do
  let id ← (← json.field "id").toInt
  let revision ← (← json.field "rev").toInt
  return { id, revision }

def serializeRoomCategory (item : RoomCategory) : Json :=
  .obj (persistentFields item.toPersistentObject ++
    [("short_code", .str item.shortCode), ("name", .str item.name)])

def deserializeRoomCategory (json : Json) : Except Fault RoomCategory := do
  let shortCode ← (← json.field "short_code").toStr
  let name ← (← json.field "name").toStr
  let object ← deserializePersistentObject json
  return { object with shortCode, name }

/-- A room of a hotel. -/
def serializeHotelRoom (hotel : Hotel) (item : HotelRoom) : Json :=
  .obj (persistentFields item.toPersistentObject ++
    [("category_id", .str (hotel.shortCodeOf item)), ("name", .str item.name)])

/-- The room has no category yet; `addRoom` attaches it to one. -/
def deserializeHotelRoom (json : Json) : Except Fault HotelRoom := do
  let name ← (← json.field "name").toStr
  let object ← deserializePersistentObject json
  return { object with category := 0, name }

def serializeHotel (item : Hotel) : Json :=
  .obj (persistentFields item.toPersistentObject ++
    [("name", .str item.name),
     ("categories", .arr (item.categories.map serializeRoomCategory)),
     ("rooms", .arr (item.rooms.map (serializeHotelRoom item)))])

/-- The loops over the categories and the rooms. -/
def addSerializedCategory (hotel : Hotel) (category : Json) : Except Fault Hotel := do
  hotel.addRoomCategory (some (← deserializeRoomCategory category))

def addSerializedRoom (hotel : Hotel) (room : Json) : Except Fault Hotel := do
  hotel.addRoom (some (← deserializeHotelRoom room)) (← (← room.field "category_id").toStr)

def deserializeHotel (json : Json) : Except Fault Hotel := do
  let name ← (← json.field "name").toStr
  let object ← deserializePersistentObject json
  let hotel : Hotel := { object with name, owned := Hotel.noRooms }
  let hotel ← (← json.field "categories").elements.foldlM addSerializedCategory hotel
  (← json.field "rooms").elements.foldlM addSerializedRoom hotel

def serializeReservationStatus : ReservationStatus → Json
  | .unknown => .str "unknown"
  | .temporary => .str "temporary"
  | .new => .str "new"
  | .confirmed => .str "confirmed"
  | .checkedIn => .str "checked_in"
  | .checkedOut => .str "checked_out"
  | .archived => .str "archived"

def deserializeReservationStatus (build : Build) (json : Json) : Except Fault ReservationStatus := do
  let str ← json.toStr
  if str = "unknown" then return .unknown
  else if str = "temporary" then return .temporary
  else if str = "new" then return .new
  else if str = "confirmed" then return .confirmed
  else if str = "checked_in" then return .checkedIn
  else if str = "checked_out" then return .checkedOut
  else if str = "archived" then return .archived
  else
    build.assert false "false /* cannot deserialize enum value */"
    return .unknown

def serializeReservationAtom (boost : BoostDate) (item : ReservationAtom) : Json :=
  .obj (persistentFields item.toPersistentObject ++
    [("room_id", .int item.roomId),
     ("from", .str (boost.toIsoExtendedString item.dateRange.begin_)),
     ("to", .str (boost.toIsoExtendedString item.dateRange.end_))])

/-- `boost::gregorian::from_string` of a field. -/
def dateField (boost : BoostDate) (json : Json) (key : String) : Except Fault Date := do
  let text ← (← json.field key).toStr
  match boost.fromString text with
  | some date => return date
  | none => .error (.badDate text)

def deserializeReservationAtom (boost : BoostDate) (json : Json) : Except Fault ReservationAtom := do
  let fromDate ← dateField boost json "from"
  let toDate ← dateField boost json "to"
  let roomId ← (← json.field "room_id").toInt
  let object ← deserializePersistentObject json
  return { object with roomId, dateRange := ⟨fromDate, toDate⟩ }

def serializeReservation (boost : BoostDate) (item : Reservation) : Json :=
  .obj (persistentFields item.toPersistentObject ++
    [("description", .str item.description),
     ("status", serializeReservationStatus item.status),
     ("adults", .int item.adults),
     ("children", .int item.children),
     ("atoms", .arr (item.atoms.map (serializeReservationAtom boost)))])

def addSerializedAtom (boost : BoostDate) (reservation : Reservation) (atom : Json) :
    Except Fault Reservation := do
  reservation.addAtomOf (← deserializeReservationAtom boost atom)

def deserializeReservation (build : Build) (boost : BoostDate) (json : Json) :
    Except Fault Reservation := do
  let description ← (← json.field "description").toStr
  let object ← deserializePersistentObject json
  let status ← deserializeReservationStatus build (← json.field "status")
  let adults ← (← json.field "adults").toInt
  let children ← (← json.field "children").toInt
  let reservation : Reservation := { object with description, status, adults, children }
  (← json.field "atoms").elements.foldlM (addSerializedAtom boost) reservation

/-- `serialize(const hotel::Person&)`: a stub. -/
def serializePerson (_ : Person) : Json := .obj [("Person", .str "Person")]

/-! ## Operations -/

def serializeStreamableType : OpType → Json
  | .hotel => .str "hotel"
  | .reservation => .str "reservation"
  | .person => .str "person"

/-- `deserialize<op::StreamableType>` -/
def deserializeOpType (json : Json) : Except Fault OpType := do
  let type ← json.toStr
  if type = "hotel" then return .hotel
  else if type = "reservation" then return .reservation
  else if type = "person" then return .person
  else .error (.logicError "Invalid streamable type")

/-- The item of a store or an update; a null pointer, which is dereferenced, has no value here. -/
def serializeItem (boost : BoostDate) : StreamableTypePtr → Option Json
  | .hotel item => item.map serializeHotel
  | .reservation item => item.map (serializeReservation boost)
  | .person item => item.map serializePerson

def serializeOperation (boost : BoostDate) : Operation → Option Json
  | .eraseAllData => some (.obj [("op", .str "erase_all_data")])
  | .storeNew newItem => do
    return .obj [("op", .str "store"), ("t", serializeStreamableType newItem.type),
                 ("o", ← serializeItem boost newItem)]
  | .update updatedItem => do
    return .obj [("op", .str "update"), ("t", serializeStreamableType updatedItem.type),
                 ("o", ← serializeItem boost updatedItem)]
  | .delete type id =>
    some (.obj [("op", .str "delete"), ("t", serializeStreamableType type), ("o", .int id)])

def deserializeStreamableType (build : Build) (boost : BoostDate) (json : Json) :
    Except Fault (Option StreamableTypePtr) := do
  match ← deserializeOpType (← json.field "t") with
  | .hotel => return some (.hotel (some (← deserializeHotel (← json.field "o"))))
  | .reservation => return some (.reservation (some (← deserializeReservation build boost (← json.field "o"))))
  | .person =>
    build.assert false "false"
    return none

/-- `deserialize<std::optional<op::Operation>>` -/
def deserializeOperation (build : Build) (boost : BoostDate) (json : Json) :
    Except Fault (Option Operation) := do
  let operation ← (← json.field "op").toStr
  if operation = "erase_all_data" then
    return some .eraseAllData
  else if operation = "store" then
    let item ← deserializeStreamableType build boost json
    build.assert item.isSome "item"
    return item.map .storeNew
  else if operation = "update" then
    let item ← deserializeStreamableType build boost json
    build.assert item.isSome "item"
    return item.map .update
  else if operation = "delete" then
    let type ← deserializeOpType (← json.field "t")
    return some (.delete type (← (← json.field "o").toInt))
  else
    build.assert false "false"
    return none

/-! ## What comes back of an item -/

@[simp] theorem deserializePersistentObject_fields (item : PersistentObject)
    (rest : List (String × Json)) :
    deserializePersistentObject (.obj (persistentFields item ++ rest)) = .ok item := rfl

theorem deserializeReservationStatus_serialize (build : Build) (status : ReservationStatus) :
    deserializeReservationStatus build (serializeReservationStatus status) = .ok status := by
  cases status <;> rfl

theorem deserializeReservationAtom_serialize (boost : BoostDate) (item : ReservationAtom) :
    deserializeReservationAtom boost (serializeReservationAtom boost item) = .ok item := by
  have hfrom : dateField boost (serializeReservationAtom boost item) "from" =
      .ok item.dateRange.begin_ := by
    show (match boost.fromString _ with | some date => _ | none => _) = _
    rw [boost.extended]
    rfl
  have hto : dateField boost (serializeReservationAtom boost item) "to" =
      .ok item.dateRange.end_ := by
    show (match boost.fromString _ with | some date => _ | none => _) = _
    rw [boost.extended]
    rfl
  rw [deserializeReservationAtom, Except.bind_ok hfrom, Except.bind_ok hto]
  rfl

theorem deserializeHotel_eq (item : Hotel) : deserializeHotel (serializeHotel item) = (do
    let hotel ← item.categories.foldlM (fun h category => h.addRoomCategory (some category))
      { item.toPersistentObject with name := item.name }
    item.rooms.foldlM (fun h room => h.addRoom (some room) (item.shortCodeOf room)) hotel) := by
  have hrooms : ∀ hotel, (item.rooms.map (serializeHotelRoom item)).foldlM addSerializedRoom hotel =
      item.rooms.foldlM (fun h room => h.addRoom (some room) (item.shortCodeOf room)) hotel := by
    intro hotel
    rw [List.foldlM_map]
    rfl
  show (List.foldlM addSerializedCategory _ (item.categories.map serializeRoomCategory) >>= _) = _
  rw [List.foldlM_map]
  exact congrArg (Bind.bind _) (funext hrooms)

theorem deserializeHotel_serialize {item : Hotel} (h : item.CodesDistinct) :
    deserializeHotel (serializeHotel item) = .ok item := by
  obtain ⟨hotel, hadd⟩ := Hotel.addCategories_new { item.toPersistentObject with name := item.name }
    item.categories h
  have hfirst : Hotel.CodesDistinct { item.toPersistentObject with name := item.name } := List.nodup_nil
  obtain ⟨-, hcategories, hnone, hid, hrevision, hname⟩ := Hotel.addCategories_ok hfirst hadd
  have hempty : hotel = item.withRooms [] nofun := Hotel.ext hid hrevision hname hcategories hnone
  rw [deserializeHotel_eq, Except.bind_ok hadd, hempty]
  have hall := Hotel.addRooms_eq item item.rooms [] item.owned nofun item.reattach.owned
  exact hall.trans (congrArg Except.ok (Hotel.reattach_eq h))

theorem deserializeHotel_ok {item hotel : Hotel}
    (hok : deserializeHotel (serializeHotel item) = .ok hotel) :
    item.CodesDistinct := by
  rw [deserializeHotel_eq] at hok
  obtain ⟨added, hadd, -⟩ := Except.bind_eq_ok.1 hok
  have hfirst : Hotel.CodesDistinct { item.toPersistentObject with name := item.name } := List.nodup_nil
  obtain ⟨hdistinct, hcategories, -⟩ := Hotel.addCategories_ok hfirst hadd
  rw [Hotel.CodesDistinct, hcategories] at hdistinct
  exact hdistinct

/-- What comes back of a reservation. -/
def sent (r : Reservation) : Reservation :=
  { r with reservationOwnerPersonId := none, atoms := r.atoms.map Reservation.unstored }

theorem deserializeReservation_eq (build : Build) (boost : BoostDate) (item : Reservation) :
    deserializeReservation build boost (serializeReservation boost item) =
      item.atoms.foldlM (fun r a => r.addAtomOf a)
        { item with reservationOwnerPersonId := none, atoms := [] } := by
  have hatoms : ∀ r, (item.atoms.map (serializeReservationAtom boost)).foldlM (addSerializedAtom boost) r =
      item.atoms.foldlM (fun r a => r.addAtomOf a) r := by
    intro r
    rw [List.foldlM_map]
    congr 1
    funext r a
    exact Except.bind_ok (deserializeReservationAtom_serialize boost a) _
  have hstatus := deserializeReservationStatus_serialize build item.status
  show (deserializeReservationStatus build (serializeReservationStatus item.status) >>= _) = _
  rw [Except.bind_ok hstatus]
  exact hatoms _

theorem deserializeReservation_serialize (build : Build) (boost : BoostDate) {item : Reservation}
    (h : Contiguous item.atoms) :
    deserializeReservation build boost (serializeReservation boost item) = .ok (sent item) := by
  rw [deserializeReservation_eq]
  exact Reservation.addAtoms_eq h

theorem deserializeReservation_ok {build : Build} {boost : BoostDate} {item r : Reservation}
    (hok : deserializeReservation build boost (serializeReservation boost item) = .ok r) :
    Contiguous item.atoms := by
  rw [deserializeReservation_eq] at hok
  exact Reservation.addAtoms_ok Contiguous.nil hok

theorem map_eq_self_iff {α : Type} {f : α → α} {l : List α} : l.map f = l ↔ ∀ a ∈ l, f a = a := by
  conv_lhs => rhs; rw [← List.map_id l]
  exact List.map_inj_left

theorem unstored_eq_iff {a : ReservationAtom} :
    Reservation.unstored a = a ↔ a.id = 0 ∧ a.revision = 0 := by
  obtain ⟨⟨id, revision⟩, roomId, dateRange⟩ := a
  simp [Reservation.unstored, eq_comm]

/-- A reservation comes back as it was if it has no owner and its atoms were never stored. -/
theorem sent_eq_iff {r : Reservation} :
    sent r = r ↔ r.reservationOwnerPersonId = none ∧ ∀ a ∈ r.atoms, a.id = 0 ∧ a.revision = 0 := by
  have hfields : sent r = r ↔
      none = r.reservationOwnerPersonId ∧ r.atoms.map Reservation.unstored = r.atoms := by
    obtain ⟨object, status, description, owner, adults, children, atoms⟩ := r
    simp [sent]
  rw [hfields, map_eq_self_iff, eq_comm]
  exact and_congr_right fun _ => forall₂_congr fun a _ => unstored_eq_iff

/-! ## What comes back of an operation -/

/-- The item of the operation can be decoded again. -/
def ItemReadable : StreamableTypePtr → Prop
  | .hotel item => ∃ hotel, item = some hotel ∧ hotel.CodesDistinct
  | .reservation item => ∃ r, item = some r ∧ Contiguous r.atoms
  | .person _ => False

def Readable : Operation → Prop
  | .storeNew item => ItemReadable item
  | .update item => ItemReadable item
  | _ => True

def sentItem : StreamableTypePtr → StreamableTypePtr
  | .reservation item => .reservation (item.map sent)
  | item => item

/-- What comes back of an operation that can be decoded. -/
def sentOperation : Operation → Operation
  | .storeNew item => .storeNew (sentItem item)
  | .update item => .update (sentItem item)
  | op => op

theorem deserializeOpType_serialize (type : OpType) :
    deserializeOpType (serializeStreamableType type) = .ok type := by
  cases type <;> rfl

theorem deserializeStreamableType_serialize (build : Build) (boost : BoostDate) (op : String)
    {item : StreamableTypePtr} {o : Json} (ho : serializeItem boost item = some o) (h : ItemReadable item) :
    deserializeStreamableType build boost
      (.obj [("op", .str op), ("t", serializeStreamableType item.type), ("o", o)]) =
      .ok (some (sentItem item)) := by
  cases item with
  | hotel item =>
    obtain ⟨hotel, rfl, hdistinct⟩ := h
    cases ho
    exact (Except.bind_ok (deserializeHotel_serialize hdistinct) _)
  | reservation item =>
    obtain ⟨r, rfl, hcontiguous⟩ := h
    cases ho
    exact (Except.bind_ok (deserializeReservation_serialize build boost hcontiguous) _)
  | person item => cases h

theorem deserializeStreamableType_ok {build : Build} {boost : BoostDate} {op : String}
    {item item' : StreamableTypePtr} {o : Json} (ho : serializeItem boost item = some o)
    (hok : deserializeStreamableType build boost
      (.obj [("op", .str op), ("t", serializeStreamableType item.type), ("o", o)]) =
      .ok (some item')) : ItemReadable item := by
  cases item with
  | hotel item =>
    cases item with
    | none => cases ho
    | some hotel =>
      cases ho
      have hok : (deserializeHotel (serializeHotel hotel) >>= fun h =>
        Except.ok (some (StreamableTypePtr.hotel (some h)))) = .ok (some item') := hok
      obtain ⟨decoded, hdecoded, -⟩ := Except.bind_eq_ok.1 hok
      exact ⟨hotel, rfl, deserializeHotel_ok hdecoded⟩
  | reservation item =>
    cases item with
    | none => cases ho
    | some r =>
      cases ho
      have hok : (deserializeReservation build boost (serializeReservation boost r) >>= fun r =>
        Except.ok (some (StreamableTypePtr.reservation (some r)))) = .ok (some item') := hok
      obtain ⟨decoded, hdecoded, -⟩ := Except.bind_eq_ok.1 hok
      exact ⟨r, rfl, deserializeReservation_ok hdecoded⟩
  | person item =>
    -- with assertions it stops, without them there is no item
    have hok : (build.assert false "false" >>= fun _ => Except.ok none) = .ok (some item') := hok
    obtain ⟨_, -, hnone⟩ := Except.bind_eq_ok.1 hok
    cases hnone

theorem serializeOperation_item {boost : BoostDate} {text : String} {item : StreamableTypePtr} {o : Json}
    (ho : (do return Json.obj [("op", .str text), ("t", serializeStreamableType item.type),
                               ("o", ← serializeItem boost item)]) = some o) :
    ∃ encoded, serializeItem boost item = some encoded ∧
      o = .obj [("op", .str text), ("t", serializeStreamableType item.type), ("o", encoded)] := by
  obtain ⟨encoded, hencoded, heq⟩ := Option.bind_eq_some_iff.1 ho
  exact ⟨encoded, hencoded, (Option.some.inj heq).symm⟩

theorem deserializeOperation_serialize (build : Build) {boost : BoostDate} {op : Operation} {o : Json}
    (ho : serializeOperation boost op = some o) (h : Readable op) :
    deserializeOperation build boost o = .ok (some (sentOperation op)) := by
  cases op with
  | eraseAllData => cases ho; rfl
  | storeNew item =>
    obtain ⟨encoded, hencoded, rfl⟩ := serializeOperation_item ho
    have hitem := deserializeStreamableType_serialize build boost "store" hencoded h
    exact (Except.bind_ok hitem _).trans (Except.bind_ok (build.assert_true "item") _)
  | update item =>
    obtain ⟨encoded, hencoded, rfl⟩ := serializeOperation_item ho
    have hitem := deserializeStreamableType_serialize build boost "update" hencoded h
    exact (Except.bind_ok hitem _).trans (Except.bind_ok (build.assert_true "item") _)
  | delete type id =>
    cases ho
    exact Except.bind_ok (deserializeOpType_serialize type) _

theorem deserializeOperation_ok {build : Build} {boost : BoostDate} {op op' : Operation} {o : Json}
    (ho : serializeOperation boost op = some o)
    (hok : deserializeOperation build boost o = .ok (some op')) : Readable op := by
  cases op with
  | eraseAllData => trivial
  | storeNew item =>
    obtain ⟨encoded, hencoded, rfl⟩ := serializeOperation_item ho
    have hok : (deserializeStreamableType build boost _ >>= fun item =>
      build.assert item.isSome "item" >>= fun _ => Except.ok (item.map Operation.storeNew)) = _ := hok
    obtain ⟨decoded, hdecoded, hok⟩ := Except.bind_eq_ok.1 hok
    obtain ⟨_, -, hok⟩ := Except.bind_eq_ok.1 hok
    cases decoded with
    | none => cases hok
    | some decoded => exact deserializeStreamableType_ok hencoded hdecoded
  | update item =>
    obtain ⟨encoded, hencoded, rfl⟩ := serializeOperation_item ho
    have hok : (deserializeStreamableType build boost _ >>= fun item =>
      build.assert item.isSome "item" >>= fun _ => Except.ok (item.map Operation.update)) = _ := hok
    obtain ⟨decoded, hdecoded, hok⟩ := Except.bind_eq_ok.1 hok
    obtain ⟨_, -, hok⟩ := Except.bind_eq_ok.1 hok
    cases decoded with
    | none => cases hok
    | some decoded => exact deserializeStreamableType_ok hencoded hdecoded
  | delete type id => trivial

end JsonSerializer

end HotelPms

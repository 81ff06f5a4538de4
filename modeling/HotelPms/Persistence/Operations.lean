import HotelPms.Hotel.Hotel
import HotelPms.Json

/- What clients queue and what they get back: `persistence::op::Operation`,
   `TaskResult`, and the changes of data streams.

   `VectorDataStreamObserver` is the observer that keeps the items of its stream
   in a vector; `applyChange` is what `DataStream::applyChange` does to it. -/
namespace HotelPms

/-- `op::StreamableTypePtr`: an owning pointer, which may be null. -/
inductive StreamableTypePtr where
  | hotel (item : Option Hotel)
  | reservation (item : Option Reservation)
  | person (item : Option Person)
  deriving DecidableEq

/-- `op::StreamableType` -/
inductive OpType where
  | hotel
  | reservation
  | person
  deriving DecidableEq, Repr

/-- `op::getStreamableType` -/
def StreamableTypePtr.type : StreamableTypePtr → OpType
  | .hotel _ => .hotel
  | .reservation _ => .reservation
  | .person _ => .person

def StreamableTypePtr.isNull : StreamableTypePtr → Bool
  | .hotel item => item.isNone
  | .reservation item => item.isNone
  | .person item => item.isNone

inductive Operation where
  | eraseAllData
  | storeNew (newItem : StreamableTypePtr)
  | update (updatedItem : StreamableTypePtr)
  | delete (type : OpType) (id : Int)
  deriving DecidableEq

/-- `op::Operations`: one batch. -/
abbrev Operations := List Operation

namespace Operation

/-- The item of a store or an update is there. -/
def nonNull : Operation → Bool
  | .storeNew item => !item.isNull
  | .update item => !item.isNull
  | _ => true

/-- The reservation that an operation stores or updates. -/
def reservation : Operation → Option Reservation
  | .storeNew (.reservation item) => item
  | .update (.reservation item) => item
  | _ => none

end Operation

/-- `TaskResultStatus`. A client casts any integer to it. -/
inductive TaskResultStatus where
  | successful
  | error
  | other (value : Int)
  deriving DecidableEq, Repr

structure TaskResult where
  status : TaskResultStatus
  result : Json

namespace TaskResult

def successful (result : Json) : TaskResult := ⟨.successful, result⟩

def error (message : String) : TaskResult := ⟨.error, .obj [("message", .str message)]⟩

/-- `result.status != TaskResultStatus::Error` -/
def succeeded (r : TaskResult) : Bool := r.status != .error

@[simp] theorem succeeded_successful (result : Json) : (successful result).succeeded = true := rfl

@[simp] theorem succeeded_error (message : String) : (error message).succeeded = false := rfl

end TaskResult

/-- `StreamableType` of a stream. A server casts any integer to it. -/
inductive StreamableType where
  | nullStream
  | hotel
  | reservation
  | other (value : Int)
  deriving DecidableEq

inductive StreamableItems where
  | hotels (items : List Hotel)
  | reservations (items : List Reservation)
  deriving DecidableEq

inductive DataStreamChange where
  | itemsAdded (newItems : StreamableItems)
  | itemsUpdated (updatedItems : StreamableItems)
  | itemsRemoved (removedItems : List Int)
  | initialized
  | cleared
  deriving DecidableEq

/-- The items that a change brings. -/
def DataStreamChange.items : DataStreamChange → Option StreamableItems
  | .itemsAdded newItems => some newItems
  | .itemsUpdated updatedItems => some updatedItems
  | _ => none

/-- The items with every reservation changed. -/
def StreamableItems.mapReservations (f : Reservation → Reservation) : StreamableItems → StreamableItems
  | .hotels items => .hotels items
  | .reservations items => .reservations (items.map f)

def DataStreamChange.mapReservations (f : Reservation → Reservation) :
    DataStreamChange → DataStreamChange
  | .itemsAdded newItems => .itemsAdded (newItems.mapReservations f)
  | .itemsUpdated updatedItems => .itemsUpdated (updatedItems.mapReservations f)
  | change => change

/-- A change for the stream with an id. -/
structure DataStreamDifferential where
  streamId : Int
  change : DataStreamChange
  deriving DecidableEq

def DataStreamDifferential.mapReservations (f : Reservation → Reservation)
    (d : DataStreamDifferential) : DataStreamDifferential :=
  ⟨d.streamId, d.change.mapReservations f⟩

/-! ## Observers -/

namespace VectorDataStreamObserver
variable {α : Type} (id : α → Int)

def addItems (dataItems items : List α) : List α := dataItems ++ items

/-- An item that is not held is not updated. -/
def updateItem (dataItems : List α) (updatedItem : α) : List α :=
  match dataItems.findIdx? fun item => id item == id updatedItem with
  | some i => dataItems.set i updatedItem
  | none => dataItems

def updateItems (dataItems items : List α) : List α := items.foldl (updateItem id) dataItems

def removeItems (dataItems : List α) (ids : List Int) : List α :=
  dataItems.filter fun item => !ids.contains (id item)

end VectorDataStreamObserver

/-- `std::get<std::vector<hotel::Reservation>>` -/
def StreamableItems.getReservations : StreamableItems → Except Fault (List Reservation)
  | .reservations items => .ok items
  | .hotels _ => .error .badVariantAccess

/-- A change, as a `VectorDataStreamObserver<hotel::Reservation>` takes it. -/
def DataStreamChange.applyTo (dataItems : List Reservation) :
    DataStreamChange → Except Fault (List Reservation)
  | .itemsAdded newItems => do
    return VectorDataStreamObserver.addItems dataItems (← newItems.getReservations)
  | .itemsUpdated updatedItems => do
    return VectorDataStreamObserver.updateItems (fun r : Reservation => r.id) dataItems
      (← updatedItems.getReservations)
  | .itemsRemoved removedItems =>
    .ok (VectorDataStreamObserver.removeItems (fun r : Reservation => r.id) dataItems removedItems)
  | .initialized => .ok dataItems
  | .cleared => .ok []

/-- Changes one after another. -/
def applyChanges (dataItems : List Reservation) (changes : List DataStreamChange) :
    Except Fault (List Reservation) :=
  changes.foldlM DataStreamChange.applyTo dataItems

theorem applyChanges_append (dataItems : List Reservation) (cs ds : List DataStreamChange) :
    applyChanges dataItems (cs ++ ds) = (applyChanges dataItems cs).bind fun items =>
      applyChanges items ds := by
  rw [applyChanges, List.foldlM_append]
  rfl

end HotelPms

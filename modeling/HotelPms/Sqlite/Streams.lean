import HotelPms.Persistence.Operations
import HotelPms.Sqlite.Storage

/- `persistence::detail::DataStreamManager` and its handlers.

   A stream is served by the handler registered for its type and endpoint: the
   default handler passes every change on, the single id handler only what
   concerns the id in the stream's options (`DataStreamHandler.react`). A stream
   nobody registered a handler for fails an assertion as soon as anything is
   announced. Announcing to registered streams never fails (`announce_ok`), and
   what one stream gets does not depend on the others (`announce_for`). -/
namespace HotelPms
open SqliteStorage

/-- `DataStream`, without the connection to its observer. -/
structure DataStream where
  streamId : Int
  streamType : StreamableType
  endpoint : String
  options : Json

/-- `stream.streamOptions()["id"]` as an `int`. -/
def DataStream.optionId (stream : DataStream) : Except Fault Int := do
  (← stream.options.field "id").toInt

inductive DataStreamHandler where
  | default
  | singleId
  deriving DecidableEq

/-- The items with an id. -/
def StreamableItems.filter (id : Int) : StreamableItems → StreamableItems
  | .hotels items => .hotels (items.filter fun item => item.id == id)
  | .reservations items => .reservations (items.filter fun item => item.id == id)

def StreamableItems.isEmpty : StreamableItems → Bool
  | .hotels items => items.isEmpty
  | .reservations items => items.isEmpty

namespace DataStreamHandler

/-- `addItems`, `updateItems`, `removeItems` and `clear` of both handlers: what is
    pushed for the stream, given the change all items together make. -/
def react (handler : DataStreamHandler) (stream : DataStream) (change : DataStreamChange) :
    Except Fault (List DataStreamDifferential) :=
  match handler, change with
  | .default, change => .ok [⟨stream.streamId, change⟩]
  | .singleId, .itemsAdded items => do
    let filteredItems := items.filter (← stream.optionId)
    return if filteredItems.isEmpty then [] else [⟨stream.streamId, .itemsAdded filteredItems⟩]
  | .singleId, .itemsUpdated items => do
    let filteredItems := items.filter (← stream.optionId)
    return if filteredItems.isEmpty then [] else [⟨stream.streamId, .itemsUpdated filteredItems⟩]
  | .singleId, .itemsRemoved ids => do
    let id ← stream.optionId
    return if ids.contains id then [⟨stream.streamId, .itemsRemoved [id]⟩] else []
  | .singleId, change => .ok [⟨stream.streamId, change⟩]

/-- `DataStreamHandler::initialize`: the changes that bring a new stream up to date. -/
def initializeStream (handler : DataStreamHandler) (build : Build) (boost : BoostDate)
    (stream : DataStream) (db : Database) : Except Fault (List DataStreamChange) :=
  match handler, stream.streamType with
  | .default, .hotel => do return [.itemsAdded (.hotels (← loadAllHotels db))]
  | .default, .reservation => do
    return [.itemsAdded (.reservations (← loadAllReservations build boost db))]
  | .singleId, .hotel => do
    let item ← loadHotelById db (← stream.optionId)
    -- the item is copied into a vector
    let items ← item.toList.mapM Hotel.copy
    return items.map fun item => .itemsAdded (.hotels [item])
  | .singleId, .reservation => do
    let item ← loadReservationById build boost db (← stream.optionId)
    return item.toList.map fun item => .itemsAdded (.reservations [item])
  | _, _ => .ok []

end DataStreamHandler

namespace DataStreamManager

/-- The handlers the constructor registers. -/
def streamHandlers : List ((StreamableType × String) × DataStreamHandler) :=
  [((.nullStream, ""), .default), ((.hotel, ""), .default), ((.hotel, "hotel.by_id"), .singleId),
   ((.reservation, ""), .default), ((.reservation, "reservation.by_id"), .singleId)]

def findHandler (stream : DataStream) : Option DataStreamHandler :=
  streamHandlers.lookup (stream.streamType, stream.endpoint)

/-- What one active stream gets out of a change to the items of a type. -/
def visit (build : Build) (type : StreamableType) (change : DataStreamChange)
    (activeStream : DataStream) : Except Fault (List DataStreamDifferential) := do
  let handler := findHandler activeStream
  build.assert handler.isSome "handler != nullptr"
  match handler with
  | some handler =>
    if activeStream.streamType = type then handler.react activeStream change else return []
  | none => return []

/-- `foreachStream` -/
def foreachStream (build : Build) (activeStreams : List DataStream) (type : StreamableType)
    (change : DataStreamChange) : Except Fault (List DataStreamDifferential) :=
  match activeStreams with
  | [] => .ok []
  | activeStream :: rest => do
    let changes ← visit build type change activeStream
    return changes ++ (← foreachStream build rest type change)

end DataStreamManager

/-- A call of `addItems`, `updateItems`, `removeItems` or `clear` on the manager. -/
structure Notice where
  type : StreamableType
  change : DataStreamChange
  deriving DecidableEq

namespace DataStreamManager

/-- Calls on the manager one after another: all they push. -/
def announce (build : Build) (activeStreams : List DataStream) :
    List Notice → Except Fault (List DataStreamDifferential)
  | [] => .ok []
  | notice :: notices => do
    let changes ← foreachStream build activeStreams notice.type notice.change
    return changes ++ (← announce build activeStreams notices)

/-- A stream with a registered endpoint, and an integer for the id where the
    endpoint asks for one. -/
def Registered (stream : DataStream) : Prop :=
  ∃ handler, findHandler stream = some handler ∧
    (handler = .singleId → ∃ id, stream.optionId = .ok id)

end DataStreamManager

/-! ## What a stream gets -/

/-- The changes for the stream with an id. -/
def changesFor (streamId : Int) (changes : List DataStreamDifferential) : List DataStreamChange :=
  (changes.filter fun c => c.streamId == streamId).map (·.change)

@[simp] theorem changesFor_nil (streamId : Int) : changesFor streamId [] = [] := rfl

@[simp] theorem changesFor_append (streamId : Int) (cs ds : List DataStreamDifferential) :
    changesFor streamId (cs ++ ds) = changesFor streamId cs ++ changesFor streamId ds := by
  rw [changesFor, List.filter_append, List.map_append]
  rfl

theorem changesFor_map (streamId : Int) (cs : List DataStreamChange) :
    changesFor streamId (cs.map fun c => ⟨streamId, c⟩) = cs := by
  simp [changesFor, List.filter_map, Function.comp_def]

theorem changesFor_map_ne {streamId other : Int} (h : other ≠ streamId) (cs : List DataStreamChange) :
    changesFor streamId (cs.map fun c => ⟨other, c⟩) = [] := by
  simp [changesFor, List.filter_map, Function.comp_def, h]

namespace DataStreamManager

/-- What a stream gets, as a function: nothing if it is of another type or its
    handler drops the change. -/
def received (stream : DataStream) (type : StreamableType) (change : DataStreamChange) :
    List DataStreamChange :=
  if stream.streamType = type then
    match findHandler stream with
    | some handler =>
      match handler.react stream change with
      | .ok changes => changes.map (·.change)
      | .error _ => []
    | none => []
  else []

theorem react_streamId {handler : DataStreamHandler} {stream : DataStream}
    {change : DataStreamChange} {changes : List DataStreamDifferential}
    (h : handler.react stream change = .ok changes) : ∀ c ∈ changes, c.streamId = stream.streamId := by
  cases handler with
  | default => cases h; simp
  | singleId =>
    cases change with
    | itemsAdded items =>
      obtain ⟨id, -, h⟩ := Except.bind_eq_ok.1 h
      cases h
      split <;> simp
    | itemsUpdated items =>
      obtain ⟨id, -, h⟩ := Except.bind_eq_ok.1 h
      cases h
      split <;> simp
    | itemsRemoved ids =>
      obtain ⟨id, -, h⟩ := Except.bind_eq_ok.1 h
      cases h
      split <;> simp
    | initialized => cases h; simp
    | cleared => cases h; simp

theorem visit_eq {build : Build} {stream : DataStream} {type : StreamableType}
    {change : DataStreamChange} {changes : List DataStreamDifferential}
    (h : visit build type change stream = .ok changes) :
    changes = (received stream type change).map fun c => ⟨stream.streamId, c⟩ := by
  obtain ⟨_, -, h⟩ := Except.bind_eq_ok.1 h
  unfold received
  cases hf : findHandler stream with
  | none =>
    rw [hf] at h
    cases h
    simp
  | some handler =>
    rw [hf] at h
    dsimp only at h ⊢
    split at h
    · next ht =>
      have hids := react_streamId h
      rw [if_pos ht, h, List.map_map]
      conv_lhs => rw [← List.map_id changes]
      refine List.map_congr_left fun c hc => ?_
      rw [id_eq, Function.comp_apply, ← hids c hc]
    · next ht =>
      cases h
      rw [if_neg ht]
      rfl

theorem foreachStream_eq {build : Build} {streams : List DataStream} {type : StreamableType}
    {change : DataStreamChange} {changes : List DataStreamDifferential}
    (h : foreachStream build streams type change = .ok changes) :
    changes = streams.flatMap fun s => (received s type change).map fun c => ⟨s.streamId, c⟩ := by
  induction streams generalizing changes with
  | nil => cases h; rfl
  | cons s streams ih =>
    obtain ⟨here, hhere, h⟩ := Except.bind_eq_ok.1 h
    obtain ⟨rest, hrest, h⟩ := Except.bind_eq_ok.1 h
    cases h
    rw [List.flatMap_cons, ← visit_eq hhere, ← ih hrest]

theorem changesFor_flatMap {streams : List DataStream} (h : (streams.map (·.streamId)).Nodup)
    (f : DataStream → List DataStreamChange) {stream : DataStream} (hs : stream ∈ streams) :
    changesFor stream.streamId (streams.flatMap fun s => (f s).map fun c => ⟨s.streamId, c⟩) =
      f stream := by
  induction streams with
  | nil => cases hs
  | cons s streams ih =>
    rw [List.map_cons, List.nodup_cons] at h
    rw [List.flatMap_cons, changesFor_append]
    rcases List.mem_cons.1 hs with rfl | hs
    · have hnone : changesFor stream.streamId
          (streams.flatMap fun s => (f s).map fun c => ⟨s.streamId, c⟩) = [] := by
        rw [changesFor, List.map_eq_nil_iff, List.filter_eq_nil_iff]
        intro c hc
        obtain ⟨t, ht, hc⟩ := List.mem_flatMap.1 hc
        obtain ⟨d, -, rfl⟩ := List.mem_map.1 hc
        rw [beq_iff_eq]
        exact fun he => h.1 (he ▸ List.mem_map_of_mem ht)
      rw [changesFor_map, hnone, List.append_nil]
    · have hne : s.streamId ≠ stream.streamId := fun he => h.1 (he ▸ List.mem_map_of_mem hs)
      rw [changesFor_map_ne hne, ih h.2 hs, List.nil_append]

theorem changesFor_flatMap_of_notMem {streams : List DataStream} {streamId : Int}
    (h : streamId ∉ streams.map (·.streamId)) (f : DataStream → List DataStreamChange) :
    changesFor streamId (streams.flatMap fun s => (f s).map fun c => ⟨s.streamId, c⟩) = [] := by
  induction streams with
  | nil => rfl
  | cons s streams ih =>
    rw [List.map_cons, List.mem_cons, not_or] at h
    rw [List.flatMap_cons, changesFor_append, changesFor_map_ne (Ne.symm h.1), ih h.2,
      List.nil_append]

/-- All that a stream receives of some notices. -/
def receivedAll (stream : DataStream) (notices : List Notice) : List DataStreamChange :=
  notices.flatMap fun n => received stream n.type n.change

theorem announce_for {build : Build} {streams : List DataStream} {notices : List Notice}
    {changes : List DataStreamDifferential} (h : announce build streams notices = .ok changes)
    (hids : (streams.map (·.streamId)).Nodup) {stream : DataStream} (hs : stream ∈ streams) :
    changesFor stream.streamId changes = receivedAll stream notices := by
  induction notices generalizing changes with
  | nil => cases h; rfl
  | cons n notices ih =>
    obtain ⟨here, hhere, h⟩ := Except.bind_eq_ok.1 h
    obtain ⟨rest, hrest, h⟩ := Except.bind_eq_ok.1 h
    cases h
    rw [changesFor_append, ih hrest, foreachStream_eq hhere,
      changesFor_flatMap hids (fun s => received s n.type n.change) hs]
    rfl

theorem announce_for_notMem {build : Build} {streams : List DataStream} {notices : List Notice}
    {changes : List DataStreamDifferential} (h : announce build streams notices = .ok changes)
    {streamId : Int} (hs : streamId ∉ streams.map (·.streamId)) : changesFor streamId changes = [] := by
  induction notices generalizing changes with
  | nil => cases h; rfl
  | cons n notices ih =>
    obtain ⟨here, hhere, h⟩ := Except.bind_eq_ok.1 h
    obtain ⟨rest, hrest, h⟩ := Except.bind_eq_ok.1 h
    cases h
    rw [changesFor_append, ih hrest, foreachStream_eq hhere, changesFor_flatMap_of_notMem hs,
      List.append_nil]

/-! ## Registered streams -/

theorem react_ok {handler : DataStreamHandler} {stream : DataStream}
    (h : handler = .singleId → ∃ id, stream.optionId = .ok id) (change : DataStreamChange) :
    ∃ changes, handler.react stream change = .ok changes := by
  cases handler with
  | default => exact ⟨_, rfl⟩
  | singleId =>
    obtain ⟨id, hid⟩ := h rfl
    cases change with
    | itemsAdded items => exact ⟨_, Except.bind_ok hid _⟩
    | itemsUpdated items => exact ⟨_, Except.bind_ok hid _⟩
    | itemsRemoved ids => exact ⟨_, Except.bind_ok hid _⟩
    | initialized => exact ⟨_, rfl⟩
    | cleared => exact ⟨_, rfl⟩

theorem visit_ok (build : Build) {stream : DataStream} (h : Registered stream)
    (type : StreamableType) (change : DataStreamChange) :
    ∃ changes, visit build type change stream = .ok changes := by
  obtain ⟨handler, hfind, hopt⟩ := h
  obtain ⟨changes, hreact⟩ := react_ok hopt change
  simp only [visit, hfind, Option.isSome_some, Build.assert_true]
  split
  · exact ⟨changes, hreact⟩
  · exact ⟨[], rfl⟩

theorem foreachStream_ok (build : Build) {streams : List DataStream}
    (h : ∀ s ∈ streams, Registered s) (type : StreamableType) (change : DataStreamChange) :
    ∃ changes, foreachStream build streams type change = .ok changes := by
  induction streams with
  | nil => exact ⟨_, rfl⟩
  | cons s streams ih =>
    obtain ⟨here, hhere⟩ := visit_ok build (h s List.mem_cons_self) type change
    obtain ⟨rest, hrest⟩ := ih fun s hs => h s (List.mem_cons_of_mem _ hs)
    exact ⟨_, (Except.bind_ok hhere _).trans (Except.bind_ok hrest _)⟩

/-- Announcing to registered streams stops on no assertion. -/
theorem announce_ok (build : Build) {streams : List DataStream}
    (h : ∀ s ∈ streams, Registered s) (notices : List Notice) :
    ∃ changes, announce build streams notices = .ok changes := by
  induction notices with
  | nil => exact ⟨_, rfl⟩
  | cons n notices ih =>
    obtain ⟨here, hhere⟩ := foreachStream_ok build h n.type n.change
    obtain ⟨rest, hrest⟩ := ih
    exact ⟨_, (Except.bind_ok hhere _).trans (Except.bind_ok hrest _)⟩

/-! ## Handlers look at ids only -/

section
variable {f : Reservation → Reservation}

theorem filter_mapReservations (hf : ∀ r, (f r).id = r.id) (items : StreamableItems) (id : Int) :
    (items.mapReservations f).filter id = (items.filter id).mapReservations f := by
  cases items with
  | hotels items => rfl
  | reservations items =>
    simp only [StreamableItems.mapReservations, StreamableItems.filter, List.filter_map,
      Function.comp_def, hf]

theorem isEmpty_mapReservations (items : StreamableItems) :
    (items.mapReservations f).isEmpty = items.isEmpty := by
  cases items with
  | hotels items => rfl
  | reservations items => exact List.isEmpty_map

/-- A handler pushes the changed items where it pushes the items. -/
theorem react_mapReservations (hf : ∀ r, (f r).id = r.id) (handler : DataStreamHandler)
    (stream : DataStream) (change : DataStreamChange) :
    handler.react stream (change.mapReservations f) =
      (handler.react stream change).map (List.map (·.mapReservations f)) := by
  cases handler with
  | default => rfl
  | singleId =>
    cases change with
    | itemsAdded items =>
      simp only [DataStreamChange.mapReservations, DataStreamHandler.react]
      cases stream.optionId with
      | error fault => rfl
      | ok id =>
        show Except.ok (if ((items.mapReservations f).filter id).isEmpty then [] else [_]) =
          Except.ok (List.map _ (if (items.filter id).isEmpty then [] else [_]))
        rw [filter_mapReservations hf, isEmpty_mapReservations]
        split
        · rfl
        · rfl
    | itemsUpdated items =>
      simp only [DataStreamChange.mapReservations, DataStreamHandler.react]
      cases stream.optionId with
      | error fault => rfl
      | ok id =>
        show Except.ok (if ((items.mapReservations f).filter id).isEmpty then [] else [_]) =
          Except.ok (List.map _ (if (items.filter id).isEmpty then [] else [_]))
        rw [filter_mapReservations hf, isEmpty_mapReservations]
        split
        · rfl
        · rfl
    | itemsRemoved ids =>
      simp only [DataStreamChange.mapReservations, DataStreamHandler.react]
      cases stream.optionId with
      | error fault => rfl
      | ok id =>
        show Except.ok (if ids.contains id then [_] else []) =
          Except.ok (List.map _ (if ids.contains id then [_] else []))
        split
        · rfl
        · rfl
    | initialized => rfl
    | cleared => rfl

theorem visit_mapReservations (hf : ∀ r, (f r).id = r.id) (build : Build) (type : StreamableType)
    (change : DataStreamChange) (stream : DataStream) :
    visit build type (change.mapReservations f) stream =
      (visit build type change stream).map (List.map (·.mapReservations f)) := by
  simp only [visit]
  cases findHandler stream with
  | none =>
    obtain ⟨ndebug⟩ := build
    cases ndebug with
    | false => rfl
    | true => rfl
  | some handler =>
    simp only [Option.isSome_some, Build.assert_true]
    show (if stream.streamType = type then _ else Except.ok []) =
      Except.map _ (if stream.streamType = type then _ else Except.ok [])
    split
    · exact react_mapReservations hf handler stream change
    · rfl

theorem foreachStream_mapReservations (hf : ∀ r, (f r).id = r.id) (build : Build)
    (streams : List DataStream) (type : StreamableType) (change : DataStreamChange) :
    foreachStream build streams type (change.mapReservations f) =
      (foreachStream build streams type change).map (List.map (·.mapReservations f)) := by
  induction streams with
  | nil => rfl
  | cons stream streams ih =>
    simp only [foreachStream, visit_mapReservations hf, ih]
    cases visit build type change stream with
    | error fault => rfl
    | ok here =>
      cases foreachStream build streams type change with
      | error fault => rfl
      | ok rest =>
        show Except.ok (_ ++ _) = Except.ok (List.map _ (_ ++ _))
        rw [List.map_append]

theorem announce_mapReservations (hf : ∀ r, (f r).id = r.id) (build : Build)
    (streams : List DataStream) (notices : List Notice) :
    announce build streams (notices.map fun n => ⟨n.type, n.change.mapReservations f⟩) =
      (announce build streams notices).map (List.map (·.mapReservations f)) := by
  induction notices with
  | nil => rfl
  | cons n notices ih =>
    simp only [List.map_cons, announce, foreachStream_mapReservations hf, ih]
    cases foreachStream build streams n.type n.change with
    | error fault => rfl
    | ok here =>
      cases announce build streams notices with
      | error fault => rfl
      | ok rest =>
        show Except.ok (_ ++ _) = Except.ok (List.map _ (_ ++ _))
        rw [List.map_append]

end

end DataStreamManager

end HotelPms

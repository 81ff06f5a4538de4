import HotelPms.Persistence.JsonSerializer

/- Stream changes over the network: `persistence::net::JsonSerializer`, the
   server's `SessionStreamObserver` and `NetClientBackend::processMessage`.

   The server's observer sends one message for every change. The client queues a
   change for every message it knows; `stream_clear` is not among them, so a clear
   is lost. All other changes arrive in order, as long as no hotel on the way has two
   categories of one short code, at which decoding throws (`remote_observer`). -/
namespace HotelPms
open JsonSerializer

/-- `json::dump` and `json::parse`, which are not modelled. -/
structure JsonText where
  dump : Json → String
  parse : String → Except Fault Json

namespace Net

/-! ## Messages -/

def serializeListType : StreamableItems → String
  | .hotels _ => "hotel"
  | .reservations _ => "reservation"

/-- The items of a list, one after another. -/
def serializeItems (boost : BoostDate) : StreamableItems → List Json
  | .hotels items => items.map serializeHotel
  | .reservations items => items.map (serializeReservation boost)

def serializeStreamAddMessage (boost : BoostDate) (streamId : Int) (items : StreamableItems) : Json :=
  .obj [("op", .str "stream_add"), ("type", .str (serializeListType items)), ("id", .int streamId),
        ("items", .arr (serializeItems boost items))]

def serializeStreamUpdateMessage (boost : BoostDate) (streamId : Int) (items : StreamableItems) :
    Json :=
  .obj [("op", .str "stream_update"), ("type", .str (serializeListType items)),
        ("id", .int streamId), ("items", .arr (serializeItems boost items))]

def serializeStreamRemoveMessage (streamId : Int) (ids : List Int) : Json :=
  .obj [("op", .str "stream_remove"), ("id", .int streamId), ("items", .arr (ids.map .int))]

def serializeStreamClearMessage (streamId : Int) : Json :=
  .obj [("op", .str "stream_clear"), ("id", .int streamId)]

def serializeStreamInitializeMessage (streamId : Int) : Json :=
  .obj [("op", .str "stream_initialize"), ("id", .int streamId)]

/-- The conversions of `TaskResultStatus` to and from `int`. -/
def statusToInt : TaskResultStatus → Int
  | .successful => 0
  | .error => 1
  | .other value => value

def statusOfInt (status : Int) : TaskResultStatus :=
  if status = 0 then .successful else if status = 1 then .error else .other status

def serializeTaskResult (item : TaskResult) : Json :=
  .obj [("status", .int (statusToInt item.status)), ("data", item.result)]

def serializeTaskResultsMessage (taskId : Int) (items : List TaskResult) : Json :=
  .obj [("op", .str "task_results"), ("id", .int taskId),
        ("results", .arr (items.map serializeTaskResult))]

def deserializeStreamableItems (build : Build) (boost : BoostDate) (type : String) (array : Json) :
    Except Fault StreamableItems :=
  if type = "hotel" then do
    return .hotels (← array.elements.mapM deserializeHotel)
  else if type = "reservation" then do
    return .reservations (← array.elements.mapM (deserializeReservation build boost))
  else do
    -- unknown type
    build.assert false "false"
    return .hotels []

/-- `json["op"] == op` -/
def isOperation (json : Json) (op : String) : Bool :=
  match json.field "op" with
  | .ok (.str operation) => operation == op
  | _ => false

def deserializeStreamAddMessage (build : Build) (boost : BoostDate) (json : Json) :
    Except Fault (Int × StreamableItems) := do
  build.assert (isOperation json "stream_add") "json[\"op\"] == \"stream_add\""
  let id ← (← json.field "id").toInt
  let type ← (← json.field "type").toStr
  return (id, ← deserializeStreamableItems build boost type (← json.field "items"))

def deserializeStreamUpdateMessage (build : Build) (boost : BoostDate) (json : Json) :
    Except Fault (Int × StreamableItems) := do
  build.assert (isOperation json "stream_update") "json[\"op\"] == \"stream_update\""
  let id ← (← json.field "id").toInt
  let type ← (← json.field "type").toStr
  return (id, ← deserializeStreamableItems build boost type (← json.field "items"))

def deserializeTaskResult (json : Json) : Except Fault TaskResult := do
  let status ← (← json.field "status").toInt
  return ⟨statusOfInt status, ← json.field "data"⟩

def deserializeTaskResultsMessage (json : Json) : Except Fault (Int × List TaskResult) := do
  let id ← (← json.field "id").toInt
  return (id, ← (← json.field "results").elements.mapM deserializeTaskResult)

end Net

/-! ## The two ends of a stream -/

/-- `SessionStreamObserver`: the message it sends for a change. -/
def SessionStreamObserver.message (boost : BoostDate) (clientStreamId : Int) : DataStreamChange → Json
  | .itemsAdded items => Net.serializeStreamAddMessage boost clientStreamId items
  | .itemsUpdated items => Net.serializeStreamUpdateMessage boost clientStreamId items
  | .itemsRemoved ids => Net.serializeStreamRemoveMessage clientStreamId ids
  | .initialized => Net.serializeStreamInitializeMessage clientStreamId
  | .cleared => Net.serializeStreamClearMessage clientStreamId

/-- `NetClientBackend`, without its connection. -/
structure NetClientBackend where
  /-- `_changeQueue` -/
  changeList : List DataStreamDifferential := []
  /-- the ids of the batches in `_tasks`, and the batches that were resolved -/
  tasks : List Int := []
  resolved : List (Int × List TaskResult) := []
  nextOperationId : Int := 1

namespace NetClientBackend

/-- `ChangeQueue::addStreamChange` -/
def addStreamChange (client : NetClientBackend) (streamId : Int) (change : DataStreamChange) :
    NetClientBackend :=
  { client with changeList := client.changeList ++ [⟨streamId, change⟩] }

def processMessage (build : Build) (boost : BoostDate) (client : NetClientBackend) (obj : Json) :
    Except Fault NetClientBackend := do
  let operation ← (← obj.field "op").toStr
  if operation = "stream_initialize" then
    return client.addStreamChange (← (← obj.field "id").toInt) .initialized
  else if operation = "stream_add" then
    let (id, items) ← Net.deserializeStreamAddMessage build boost obj
    return client.addStreamChange id (.itemsAdded items)
  else if operation = "stream_update" then
    let (id, items) ← Net.deserializeStreamUpdateMessage build boost obj
    return client.addStreamChange id (.itemsUpdated items)
  else if operation = "stream_remove" then
    let id ← (← obj.field "id").toInt
    let ids ← (← obj.field "items").toInts
    return client.addStreamChange id (.itemsRemoved ids)
  else if operation = "task_results" then
    let (id, items) ← Net.deserializeTaskResultsMessage obj
    if id ∈ client.tasks then
      return { client with tasks := client.tasks.erase id, resolved := client.resolved ++ [(id, items)] }
    else
      return client
  else
    -- "Unknown operation"
    return client

/-- Messages that arrive one after another. -/
def receive (build : Build) (boost : BoostDate) (text : JsonText) (client : NetClientBackend)
    (messages : List String) : Except Fault NetClientBackend :=
  messages.foldlM (fun client message => do
    processMessage build boost client (← text.parse message)) client

end NetClientBackend

/-! ## What comes back -/

namespace Net

section
variable {build : Build} {boost : BoostDate}

/-- The items can be decoded: no hotel has two categories of one short code, and
    the atoms of every reservation are contiguous. -/
def ItemsReadable : StreamableItems → Prop
  | .hotels items => ∀ hotel ∈ items, hotel.CodesDistinct
  | .reservations items => ∀ r ∈ items, Contiguous r.atoms

/-- What comes back of a list of items. -/
def sentItems : StreamableItems → StreamableItems
  | .hotels items => .hotels items
  | .reservations items => .reservations (items.map sent)

theorem deserializeStreamableItems_serialize (build : Build) (boost : BoostDate)
    {items : StreamableItems} (h : ItemsReadable items) :
    deserializeStreamableItems build boost (serializeListType items)
      (.arr (serializeItems boost items)) = .ok (sentItems items) := by
  cases items with
  | hotels items =>
    have hall : (items.map serializeHotel).mapM deserializeHotel = .ok (items.map id) := by
      rw [List.mapM_map]
      exact Except.mapM_ok fun hotel hmem => deserializeHotel_serialize (h hotel hmem)
    rw [List.map_id] at hall
    exact Except.bind_ok hall _
  | reservations items =>
    have hall : (items.map (serializeReservation boost)).mapM (deserializeReservation build boost) =
        .ok (items.map sent) := by
      rw [List.mapM_map]
      exact Except.mapM_ok fun r hmem => deserializeReservation_serialize build boost (h r hmem)
    exact Except.bind_ok hall _

theorem deserializeStreamableItems_ok {items items' : StreamableItems}
    (hok : deserializeStreamableItems build boost (serializeListType items)
      (.arr (serializeItems boost items)) = .ok items') : ItemsReadable items := by
  cases items with
  | hotels items =>
    have hok : ((items.map serializeHotel).mapM deserializeHotel >>= fun items =>
      Except.ok (StreamableItems.hotels items)) = .ok items' := hok
    obtain ⟨decoded, hall, -⟩ := Except.bind_eq_ok.1 hok
    intro hotel hmem
    obtain ⟨h, hdecoded⟩ := Except.of_mapM_ok hall _ (List.mem_map_of_mem hmem)
    exact deserializeHotel_ok hdecoded
  | reservations items =>
    have hok : ((items.map (serializeReservation boost)).mapM (deserializeReservation build boost) >>=
      fun items => Except.ok (StreamableItems.reservations items)) = .ok items' := hok
    obtain ⟨decoded, hall, -⟩ := Except.bind_eq_ok.1 hok
    intro r hmem
    obtain ⟨r', hdecoded⟩ := Except.of_mapM_ok hall _ (List.mem_map_of_mem hmem)
    exact deserializeReservation_ok hdecoded

/-- The items of a change can be decoded. -/
def ChangeReadable (change : DataStreamChange) : Prop := ∀ items ∈ change.items, ItemsReadable items

/-- What comes back of a change that the client knows. -/
def sentChange : DataStreamChange → DataStreamChange
  | .itemsAdded items => .itemsAdded (sentItems items)
  | .itemsUpdated items => .itemsUpdated (sentItems items)
  | change => change

end

end Net

namespace NetClientBackend
open Net

theorem processMessage_message (build : Build) (boost : BoostDate) (client : NetClientBackend)
    (streamId : Int) {change : DataStreamChange} (h : ChangeReadable change) :
    processMessage build boost client (SessionStreamObserver.message boost streamId change) =
      .ok (if change = .cleared then client else client.addStreamChange streamId (sentChange change)) := by
  cases change with
  | itemsAdded items =>
    have hitems := deserializeStreamableItems_serialize build boost (h items rfl)
    have hmessage : deserializeStreamAddMessage build boost
        (SessionStreamObserver.message boost streamId (.itemsAdded items)) =
          .ok (streamId, sentItems items) :=
      (Except.bind_ok (build.assert_true _) _).trans (Except.bind_ok hitems _)
    exact Except.bind_ok hmessage _
  | itemsUpdated items =>
    have hitems := deserializeStreamableItems_serialize build boost (h items rfl)
    have hmessage : deserializeStreamUpdateMessage build boost
        (SessionStreamObserver.message boost streamId (.itemsUpdated items)) =
          .ok (streamId, sentItems items) :=
      (Except.bind_ok (build.assert_true _) _).trans (Except.bind_ok hitems _)
    exact Except.bind_ok hmessage _
  | itemsRemoved ids => exact Except.bind_ok (Json.toInts_ints ids) _
  | initialized => rfl
  | cleared => rfl

theorem processMessage_ok {build : Build} {boost : BoostDate} {client client' : NetClientBackend}
    {streamId : Int} {change : DataStreamChange}
    (hok : processMessage build boost client (SessionStreamObserver.message boost streamId change) =
      .ok client') : ChangeReadable change := by
  cases change with
  | itemsAdded items =>
    have hok : (deserializeStreamAddMessage build boost
      (serializeStreamAddMessage boost streamId items) >>= _) = .ok client' := hok
    obtain ⟨decoded, hdecoded, -⟩ := Except.bind_eq_ok.1 hok
    obtain ⟨_, -, hdecoded⟩ := Except.bind_eq_ok.1 hdecoded
    have hdecoded : (deserializeStreamableItems build boost (serializeListType items)
      (.arr (serializeItems boost items)) >>= _) = .ok decoded := hdecoded
    obtain ⟨items', hitems, -⟩ := Except.bind_eq_ok.1 hdecoded
    intro items hmem
    cases hmem
    exact deserializeStreamableItems_ok hitems
  | itemsUpdated items =>
    have hok : (deserializeStreamUpdateMessage build boost
      (serializeStreamUpdateMessage boost streamId items) >>= _) = .ok client' := hok
    obtain ⟨decoded, hdecoded, -⟩ := Except.bind_eq_ok.1 hok
    obtain ⟨_, -, hdecoded⟩ := Except.bind_eq_ok.1 hdecoded
    have hdecoded : (deserializeStreamableItems build boost (serializeListType items)
      (.arr (serializeItems boost items)) >>= _) = .ok decoded := hdecoded
    obtain ⟨items', hitems, -⟩ := Except.bind_eq_ok.1 hdecoded
    intro items hmem
    cases hmem
    exact deserializeStreamableItems_ok hitems
  | itemsRemoved ids => exact nofun
  | initialized => exact nofun
  | cleared => exact nofun

/-- What the client queues of a change for a stream. -/
def queued (d : DataStreamDifferential) : DataStreamDifferential := ⟨d.streamId, sentChange d.change⟩

/-- The messages that a session sends for changes of its streams. -/
def sentMessages (boost : BoostDate) (text : JsonText) (ds : List DataStreamDifferential) :
    List String :=
  ds.map fun d => text.dump (SessionStreamObserver.message boost d.streamId d.change)

/-- Every message of these changes is parsed back as it was. -/
def Undone (boost : BoostDate) (text : JsonText) (ds : List DataStreamDifferential) : Prop :=
  ∀ d ∈ ds, text.parse (text.dump (SessionStreamObserver.message boost d.streamId d.change)) =
    .ok (SessionStreamObserver.message boost d.streamId d.change)

theorem receive_cons (build : Build) {boost : BoostDate} {text : JsonText} {d : DataStreamDifferential}
    {ds : List DataStreamDifferential} (hundone : Undone boost text (d :: ds))
    (client : NetClientBackend) :
    receive build boost text client (sentMessages boost text (d :: ds)) = (do
      let client ← processMessage build boost client
        (SessionStreamObserver.message boost d.streamId d.change)
      receive build boost text client (sentMessages boost text ds)) := by
  rw [sentMessages, List.map_cons, receive, List.foldlM_cons,
    Except.bind_ok (hundone d List.mem_cons_self)]
  rfl

theorem receive_messages (build : Build) {boost : BoostDate} {text : JsonText}
    {ds : List DataStreamDifferential} (hundone : Undone boost text ds)
    (hreadable : ∀ d ∈ ds, ChangeReadable d.change) (client : NetClientBackend) :
    receive build boost text client (sentMessages boost text ds) = .ok { client with
      changeList := client.changeList ++ (ds.filter fun d => d.change ≠ .cleared).map queued } := by
  induction ds generalizing client with
  | nil =>
    rw [List.filter_nil, List.map_nil, List.append_nil]
    rfl
  | cons d ds ih =>
    have hrest := ih (fun e he => hundone e (List.mem_cons_of_mem _ he))
      (fun e he => hreadable e (List.mem_cons_of_mem _ he))
    rw [receive_cons build hundone,
      Except.bind_ok (processMessage_message build boost client d.streamId (hreadable d List.mem_cons_self)),
      hrest, List.filter_cons]
    by_cases hcleared : d.change = .cleared
    · simp [hcleared]
    · simp [hcleared, addStreamChange, queued]

theorem receive_ok {build : Build} {boost : BoostDate} {text : JsonText}
    {ds : List DataStreamDifferential} (hundone : Undone boost text ds)
    {client client' : NetClientBackend}
    (hok : receive build boost text client (sentMessages boost text ds) = .ok client') :
    ∀ d ∈ ds, ChangeReadable d.change := by
  induction ds generalizing client with
  | nil => exact nofun
  | cons d ds ih =>
    rw [receive_cons build hundone] at hok
    obtain ⟨next, hnext, hok⟩ := Except.bind_eq_ok.1 hok
    exact List.forall_mem_cons.2 ⟨processMessage_ok hnext,
      ih (fun e he => hundone e (List.mem_cons_of_mem _ he)) hok⟩

/-! ## A remote observer -/

/-- Reservations have no owner, and contiguous atoms. -/
def Ownerless : StreamableItems → Prop
  | .hotels _ => True
  | .reservations items => ∀ r ∈ items, r.reservationOwnerPersonId = none ∧ Contiguous r.atoms

/-- No hotel has two categories of one short code. -/
def Distinct : StreamableItems → Prop
  | .hotels items => ∀ hotel ∈ items, hotel.CodesDistinct
  | .reservations _ => True

/-- No atom of a reservation has an id or a revision. -/
def Unstored : StreamableItems → Prop
  | .hotels _ => True
  | .reservations items => ∀ r ∈ items, ∀ a ∈ r.atoms, a.id = 0 ∧ a.revision = 0

/-- Equal items of the same identities and revisions. -/
def SameItems : StreamableItems → StreamableItems → Prop
  | .hotels items, .hotels items' => items = items'
  | .reservations items, .reservations items' => List.Forall₂ Reservation.Same items items'
  | _, _ => False

def SameChange : DataStreamChange → DataStreamChange → Prop
  | .itemsAdded items, .itemsAdded items' => SameItems items items'
  | .itemsUpdated items, .itemsUpdated items' => SameItems items items'
  | .itemsRemoved ids, .itemsRemoved ids' => ids = ids'
  | .initialized, .initialized => True
  | .cleared, .cleared => True
  | _, _ => False

theorem readable_iff {items : StreamableItems} (h : Ownerless items) :
    ItemsReadable items ↔ Distinct items := by
  cases items with
  | hotels items => exact Iff.rfl
  | reservations items => exact ⟨fun _ => trivial, fun _ r hr => (h r hr).2⟩

theorem sameItems_sent {items : StreamableItems} (h : Ownerless items) :
    SameItems items (sentItems items) := by
  cases items with
  | hotels items => rfl
  | reservations items =>
    show List.Forall₂ Reservation.Same items (items.map sent)
    rw [List.forall₂_map_right_iff, List.forall₂_same]
    intro r hr
    refine ⟨rfl, rfl, Reservation.equals_iff.2 ⟨rfl, rfl, (h r hr).1, rfl, rfl, ?_⟩⟩
    simp [sent, Reservation.places, Reservation.unstored]

theorem sameChange_sent {change : DataStreamChange} (h : ∀ items ∈ change.items, Ownerless items) :
    SameChange change (sentChange change) := by
  cases change with
  | itemsAdded items => exact sameItems_sent (h items rfl)
  | itemsUpdated items => exact sameItems_sent (h items rfl)
  | itemsRemoved ids => rfl
  | initialized => trivial
  | cleared => trivial

theorem sentItems_eq_iff {items : StreamableItems} (h : Ownerless items) :
    sentItems items = items ↔ Unstored items := by
  cases items with
  | hotels items => exact ⟨fun _ => trivial, fun _ => rfl⟩
  | reservations items =>
    rw [sentItems, StreamableItems.reservations.injEq, map_eq_self_iff]
    exact forall₂_congr fun r hr => sent_eq_iff.trans (and_iff_right (h r hr).1)

theorem sentChange_eq_iff {change : DataStreamChange} (h : ∀ items ∈ change.items, Ownerless items) :
    sentChange change = change ↔ ∀ items ∈ change.items, Unstored items := by
  have hbrings : ∀ items, Ownerless items →
      (sentItems items = items ↔ ∀ brought ∈ some items, Unstored brought) := by
    intro items hitems
    rw [sentItems_eq_iff hitems]
    simp
  have hnone : ∀ items ∈ (none : Option StreamableItems), Unstored items := by simp
  cases change with
  | itemsAdded items =>
    rw [sentChange, DataStreamChange.itemsAdded.injEq]
    exact hbrings items (h items rfl)
  | itemsUpdated items =>
    rw [sentChange, DataStreamChange.itemsUpdated.injEq]
    exact hbrings items (h items rfl)
  | itemsRemoved ids => exact ⟨fun _ => hnone, fun _ => rfl⟩
  | initialized => exact ⟨fun _ => hnone, fun _ => rfl⟩
  | cleared => exact ⟨fun _ => hnone, fun _ => rfl⟩

theorem queued_eq_iff {d : DataStreamDifferential} (h : ∀ items ∈ d.change.items, Ownerless items) :
    queued d = d ↔ ∀ items ∈ d.change.items, Unstored items := by
  rw [← sentChange_eq_iff h]
  obtain ⟨streamId, change⟩ := d
  rw [queued, DataStreamDifferential.mk.injEq]
  exact and_iff_right rfl

theorem no_clear_of_length {ds received : List DataStreamDifferential}
    (h : received = (ds.filter fun d => d.change ≠ .cleared).map queued)
    (hlength : ds.length = received.length) : ∀ d ∈ ds, d.change ≠ .cleared := by
  rw [h, List.length_map] at hlength
  have hall := List.length_filter_eq_length_iff.1 hlength.symm
  intro d hd
  exact of_decide_eq_true (hall d hd)

/-- Of changes that bring hotels or reservations without owner and with contiguous
    atoms, the client queues the same ones in the same order, if and only if none of
    them is a clear and no hotel has two categories of one short code. It queues
    them exactly, the atoms with their ids and revisions, if and only if besides no
    atom has one. -/
theorem remote_observer (build : Build) (boost : BoostDate) (text : JsonText)
    (client : NetClientBackend) (ds : List DataStreamDifferential)
    (hdomain : ∀ d ∈ ds, ∀ items ∈ d.change.items, Ownerless items)
    (hundone : Undone boost text ds) :
    ((∃ client' received,
        receive build boost text client (sentMessages boost text ds) = .ok client' ∧
        client'.changeList = client.changeList ++ received ∧
        List.Forall₂ (fun d e => d.streamId = e.streamId ∧ SameChange d.change e.change) ds received) ↔
      ∀ d ∈ ds, d.change ≠ .cleared ∧ ∀ items ∈ d.change.items, Distinct items) ∧
    ((∃ client', receive build boost text client (sentMessages boost text ds) = .ok client' ∧
        client'.changeList = client.changeList ++ ds) ↔
      ∀ d ∈ ds, d.change ≠ .cleared ∧ ∀ items ∈ d.change.items, Distinct items ∧ Unstored items) := by
  -- a client that receives everything was sent only what it can read
  have hsent : ∀ client' received,
      receive build boost text client (sentMessages boost text ds) = .ok client' →
      client'.changeList = client.changeList ++ received → ds.length = received.length →
      (∀ d ∈ ds, d.change ≠ .cleared ∧ ∀ items ∈ d.change.items, Distinct items) ∧
        received = ds.map queued := by
    intro client' received hok hlist hlength
    have hreadable := receive_ok hundone hok
    have hreceived : received = (ds.filter fun d => d.change ≠ .cleared).map queued := by
      rw [receive_messages build hundone hreadable] at hok
      cases hok
      exact (List.append_cancel_left hlist).symm
    have hclear := no_clear_of_length hreceived hlength
    refine ⟨fun d hd => ⟨hclear d hd, fun items hitems => ?_⟩, ?_⟩
    · exact (readable_iff (hdomain d hd items hitems)).1 (hreadable d hd items hitems)
    · rw [hreceived, List.filter_eq_self.2 fun d hd => decide_eq_true (hclear d hd)]
  have harrive : (∀ d ∈ ds, d.change ≠ .cleared ∧ ∀ items ∈ d.change.items, Distinct items) →
      ∃ client', receive build boost text client (sentMessages boost text ds) = .ok client' ∧
        client'.changeList = client.changeList ++ ds.map queued := by
    intro h
    have hreadable : ∀ d ∈ ds, ChangeReadable d.change := fun d hd items hitems =>
      (readable_iff (hdomain d hd items hitems)).2 ((h d hd).2 items hitems)
    refine ⟨_, receive_messages build hundone hreadable client, ?_⟩
    rw [List.filter_eq_self.2 fun d hd => decide_eq_true (h d hd).1]
  constructor
  · constructor
    · rintro ⟨client', received, hok, hlist, hsame⟩
      exact (hsent client' received hok hlist hsame.length_eq).1
    · intro h
      obtain ⟨client', hok, hlist⟩ := harrive h
      refine ⟨client', _, hok, hlist, ?_⟩
      rw [List.forall₂_map_right_iff, List.forall₂_same]
      exact fun d hd => ⟨rfl, sameChange_sent (hdomain d hd)⟩
  · constructor
    · rintro ⟨client', hok, hlist⟩
      obtain ⟨hall, hsame⟩ := hsent client' ds hok hlist rfl
      intro d hd
      have hunstored := (queued_eq_iff (hdomain d hd)).1 (map_eq_self_iff.1 hsame.symm d hd)
      exact ⟨(hall d hd).1, fun items hitems => ⟨(hall d hd).2 items hitems, hunstored items hitems⟩⟩
    · intro h
      obtain ⟨client', hok, hlist⟩ := harrive fun d hd =>
        ⟨(h d hd).1, fun items hitems => ((h d hd).2 items hitems).1⟩
      refine ⟨client', hok, hlist.trans ?_⟩
      rw [map_eq_self_iff.2 fun d hd => (queued_eq_iff (hdomain d hd)).2 fun items hitems =>
        ((h d hd).2 items hitems).2]

/-- The texts of messages, by their `op`. -/
def textsOf (texts : List (String × String × Json)) : JsonText where
  dump message :=
    match message.field "op" with
    | .ok (.str op) => ((texts.lookup op).map Prod.fst).getD ""
    | _ => ""
  parse text :=
    match (texts.map Prod.snd).lookup text with
    | some message => .ok message
    | none => .error (.jsonTypeError "parse error")

/-- A hotel is announced, and a stored reservation after its guest has moved. -/
def hotelAndReservation : List DataStreamDifferential :=
  [⟨1, .itemsAdded (.hotels [Hotel.oneRoom])⟩,
    ⟨2, .itemsUpdated (.reservations [{ Reservation.twoRooms with id := 3, revision := 2 }])⟩]

def hotelAndReservationTexts : JsonText := textsOf [
  ("stream_add",
    "\x7b\"id\":1,\"items\":[\x7b\"categories\":[\x7b\"id\":1,\"name\":\"Double\",\"rev\":1,\"short_code\":\"D\"\x7d]," ++
      "\"id\":1,\"name\":\"Hotel\",\"rev\":1," ++
      "\"rooms\":[\x7b\"category_id\":\"D\",\"id\":1,\"name\":\"101\",\"rev\":1\x7d]\x7d]," ++
      "\"op\":\"stream_add\",\"type\":\"hotel\"\x7d",
    serializeStreamAddMessage .gregorian 1 (.hotels [Hotel.oneRoom])),
  ("stream_update",
    "\x7b\"id\":2,\"items\":[\x7b\"adults\":0," ++
      "\"atoms\":[\x7b\"from\":\"2017-01-01\",\"id\":0,\"rev\":0,\"room_id\":1,\"to\":\"2017-01-03\"\x7d," ++
        "\x7b\"from\":\"2017-01-03\",\"id\":0,\"rev\":0,\"room_id\":2,\"to\":\"2017-01-04\"\x7d]," ++
      "\"children\":0,\"description\":\"two rooms\",\"id\":3,\"rev\":2,\"status\":\"unknown\"\x7d]," ++
      "\"op\":\"stream_update\",\"type\":\"reservation\"\x7d",
    serializeStreamUpdateMessage .gregorian 2
      (.reservations [{ Reservation.twoRooms with id := 3, revision := 2 }]))]

set_option maxRecDepth 10000 in
theorem remote_observer_hotelAndReservation : ∃ client',
    receive .debug .gregorian hotelAndReservationTexts {}
      (sentMessages .gregorian hotelAndReservationTexts hotelAndReservation) = .ok client' ∧
    client'.changeList = hotelAndReservation := by
  have hcontiguous := ((Reservation.isValid_iff (r := Reservation.twoRooms)).1 rfl).2
  have hundone : Undone .gregorian hotelAndReservationTexts hotelAndReservation :=
    List.forall_mem_cons.2 ⟨rfl, List.forall_mem_singleton.2 rfl⟩
  apply (remote_observer .debug .gregorian hotelAndReservationTexts {} hotelAndReservation
    (List.forall_mem_cons.2 ⟨?_, List.forall_mem_singleton.2 ?_⟩) hundone).2.2
  · refine List.forall_mem_cons.2 ⟨⟨by rintro ⟨⟩, ?_⟩, List.forall_mem_singleton.2 ⟨by rintro ⟨⟩, ?_⟩⟩
    · rintro items ⟨⟩
      exact ⟨List.forall_mem_singleton.2 (by decide), trivial⟩
    · rintro items ⟨⟩
      exact ⟨trivial, List.forall_mem_singleton.2 (by decide)⟩
  · rintro items ⟨⟩
    trivial
  · rintro items ⟨⟩
    exact List.forall_mem_singleton.2 ⟨rfl, hcontiguous⟩

/-- The texts of one message. -/
def oneMessage (message : Json) (text : String) : JsonText where
  dump _ := text
  parse t := if t = text then .ok message else .error (.jsonTypeError "parse error")

theorem parse_oneMessage (message : Json) (text : String) :
    (oneMessage message text).parse text = .ok message :=
  if_pos rfl

theorem undone_oneMessage (boost : BoostDate) (d : DataStreamDifferential) (text : String) :
    Undone boost (oneMessage (SessionStreamObserver.message boost d.streamId d.change) text) [d] := by
  intro e he
  rw [List.mem_singleton.1 he]
  exact parse_oneMessage _ text

/-- A clear is sent, parsed as it was, and not queued. -/
theorem clear_is_lost : Undone .gregorian
      (oneMessage (serializeStreamClearMessage 1) "\x7b\"id\":1,\"op\":\"stream_clear\"\x7d")
      [⟨1, .cleared⟩] ∧
    receive .debug .gregorian
      (oneMessage (serializeStreamClearMessage 1) "\x7b\"id\":1,\"op\":\"stream_clear\"\x7d") {}
      (sentMessages .gregorian
        (oneMessage (serializeStreamClearMessage 1) "\x7b\"id\":1,\"op\":\"stream_clear\"\x7d")
        [⟨1, .cleared⟩]) = .ok {} :=
  ⟨undone_oneMessage .gregorian ⟨1, .cleared⟩ _, rfl⟩

end NetClientBackend

end HotelPms

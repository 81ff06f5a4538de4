import HotelPms.Server.ReadYourWrites

/- The whole system: a server and the `NetClientBackend`s that are connected to it.

   A client numbers its streams and batches itself, and submits a message for each call;
   the server reads the messages of a connection in order, and its session sends messages
   back, which the client processes in order. Both directions are a list of all messages
   there were, with the number of those that arrived: what goes through the sockets is
   `wire_integrity`, and the texts of the messages are left out. A connection that breaks
   is one on which nothing more arrives.

   The streams that a client creates belong to sessions of the same number on the server;
   there a stream has another id than on the client. `SessionLog` says what a session has
   made of the messages it read: which streams it created and which batches it queued, in
   which order. -/
namespace HotelPms
open Lib SqliteStorage DataStreamManager SqliteBackend

/-! ## The calls of a client -/

/-- `(int)type` -/
def StreamableType.toInt : StreamableType → Int
  | .nullStream => 0
  | .hotel => 1
  | .reservation => 2
  | .other value => value

/-- What was called on a `NetClientBackend`, with the id that it gave out. -/
inductive RemoteCall where
  | createStream (streamId : Int) (type : StreamableType) (service : String) (options : Json)
  | removeStream (streamId : Int)
  | queueOperations (id : Int) (operations : Operations)

namespace RemoteCall

/-- The message that is submitted. -/
def message (boost : BoostDate) : RemoteCall → Option Json
  | .createStream streamId type service options =>
    some (.obj [("op", .str "create_stream"), ("id", .int streamId), ("type", .int type.toInt),
                ("service", .str service), ("options", options)])
  | .removeStream streamId => some (.obj [("op", .str "remove_stream"), ("id", .int streamId)])
  | .queueOperations id operations => NetClientBackend.scheduleMessage boost id operations

def createdId : RemoteCall → Option Int
  | .createStream streamId _ _ _ => some streamId
  | _ => none

def queuedId : RemoteCall → Option Int
  | .queueOperations id _ => some id
  | _ => none

end RemoteCall

/-- The ids of the streams that were created. -/
def createdIds (calls : List RemoteCall) : List Int := calls.filterMap (·.createdId)

/-- The ids of the batches that were queued. -/
def queuedIds (calls : List RemoteCall) : List Int := calls.filterMap (·.queuedId)

/-! ## The system -/

/-- A `NetClientBackend` with its streams, and its connection. -/
structure RemoteClient where
  backend : NetClientBackend := {}
  nextStreamId : Int := 1
  /-- `ChangeQueue::_dataStreams` -/
  dataStreams : List DataStream := []
  /-- the streams whose observer is null -/
  disconnected : List Int := []
  /-- all messages that were submitted -/
  submitted : List Json := []
  /-- how many of them the server has read, and how many of its messages were processed -/
  read : Nat := 0
  processed : Nat := 0
  /-- history: the calls, and the changes that were taken out of the change queue -/
  calls : List RemoteCall := []
  applied : List DataStreamDifferential := []
  /-- history: the changes that reached an observer -/
  delivered : List DataStreamDifferential := []

namespace RemoteClient

def createStream (c : RemoteClient) (type : StreamableType) (service : String) (options message : Json) :
    RemoteClient :=
  { c with
    dataStreams := c.dataStreams ++
      [{ streamId := c.nextStreamId, streamType := type, endpoint := service, options }]
    submitted := c.submitted ++ [message]
    calls := c.calls ++ [.createStream c.nextStreamId type service options]
    nextStreamId := c.nextStreamId + 1 }

/-- `UniqueDataStreamHandle::reset` disconnects the stream before it is removed. -/
def removeStream (c : RemoteClient) (streamId : Int) (message : Json) : RemoteClient :=
  { c with
    disconnected := streamId :: c.disconnected
    submitted := c.submitted ++ [message]
    calls := c.calls ++ [.removeStream streamId] }

def queueOperations (c : RemoteClient) (operations : Operations) (backend : NetClientBackend)
    (message : Json) : RemoteClient :=
  { c with
    backend
    submitted := c.submitted ++ [message]
    calls := c.calls ++ [.queueOperations backend.nextOperationId operations] }

/-- The streams that are still valid. -/
def validStreams (c : RemoteClient) : List DataStream :=
  c.dataStreams.filter fun stream => !c.disconnected.contains stream.streamId

/-- `ChangeQueue::applyStreamChanges` -/
def applyStreamChanges (c : RemoteClient) : RemoteClient :=
  { c with
    dataStreams := c.validStreams
    backend := { c.backend with changeList := [] }
    applied := c.applied ++ c.backend.changeList
    delivered := c.delivered ++ c.backend.changeList.filter fun change =>
      c.validStreams.any fun stream => stream.streamId == change.streamId }

/-- What the server has read. -/
def readCalls (c : RemoteClient) : List RemoteCall := c.calls.take c.read

/-- All changes that came for the streams of the client. -/
def arrived (c : RemoteClient) : List DataStreamDifferential := c.applied ++ c.backend.changeList

end RemoteClient

namespace NetServer

/-! What `runCommand` has the backend do. -/

def createStream (s : NetServer) (session : Nat) (clientId : Int) (streamType : StreamableType)
    (endpoint : String) (options : Json) : NetServer :=
  let stream : DataStream := { streamId := s.backend.nextStreamId, streamType, endpoint, options }
  { s with
    backend := { s.backend with
      nextStreamId := s.backend.nextStreamId + 1
      dataStreams := s.backend.dataStreams ++ [stream]
      uninitializedStreams := s.backend.uninitializedStreams ++ [stream]
      created := s.backend.created ++ [stream] }
    observers := s.observers ++ [⟨stream, session, clientId⟩] }

def removeStream (s : NetServer) (observer : SessionStreamObserver) : NetServer :=
  { s with
    backend := { s.backend with
      disconnected := observer.stream.streamId :: s.backend.disconnected
      uninitializedStreams :=
        s.backend.uninitializedStreams.filter (·.streamId != observer.stream.streamId)
      activeStreams := s.backend.activeStreams.filter (·.streamId != observer.stream.streamId) } }

def schedule (s : NetServer) (session : Nat) (operations : Operations) (id : Json) : NetServer :=
  { s with
    backend := { s.backend with
      operationsQueue := s.backend.operationsQueue ++ [operations]
      queued := s.backend.queued ++ [operations] }
    sessions := s.sessions.schedule session id
    scheduled := s.scheduled ++ [s.backend.nextStreamId] }

/-- `NetClientSession::runCommand` -/
def runCommand (build : Build) (boost : BoostDate) (s : NetServer) (session : Nat) (obj : Json) :
    Except Fault NetServer := do
  match ← NetClientSession.runCommand build boost obj with
  | .createStream clientId streamType endpoint options =>
    return s.createStream session clientId streamType endpoint options
  | .removeStream clientId =>
    match s.findStream session clientId with
    | some observer => return s.removeStream observer
    | none => return s
  | .queueOperations operations id => return s.schedule session operations id
  | .unknown => return s

/-- A step in which no session reads a message. Streams are then removed only because
    their session is gone. -/
structure Background (build : Build) (boost : BoostDate) (s s' : NetServer) : Prop where
  step : Step build boost s s'
  observers : s'.observers = s.observers
  scheduled : s'.scheduled = s.scheduled
  removed : ∀ streamId ∈ s'.backend.disconnected, streamId ∈ s.backend.disconnected ∨
    ∃ o ∈ s.observers, o.stream.streamId = streamId ∧ o.session ∈ s.sessions.disconnected

end NetServer

structure RemoteSystem where
  server : NetServer
  /-- the client of each session -/
  clients : Nat → RemoteClient := fun _ => {}

namespace RemoteSystem

def setClient (s : RemoteSystem) (i : Nat) (c : RemoteClient) : RemoteSystem :=
  { s with clients := Function.update s.clients i c }

/-- One call of a client, the arrival of a message at either end, or a step of the server. -/
inductive Step (build : Build) (boost : BoostDate) : RemoteSystem → RemoteSystem → Prop where
  | createStream (s : RemoteSystem) (i : Nat) (type : StreamableType) (service : String)
      (options message : Json)
      (submitted : (RemoteCall.createStream (s.clients i).nextStreamId type service options).message boost =
        some message) :
    Step build boost s (s.setClient i ((s.clients i).createStream type service options message))
  /-- the handle of a stream is reset, which it is once -/
  | removeStream (s : RemoteSystem) (i : Nat) (streamId : Int) (message : Json)
      (created : streamId ∈ createdIds (s.clients i).calls)
      (open_ : streamId ∉ (s.clients i).disconnected)
      (submitted : (RemoteCall.removeStream streamId).message boost = some message) :
    Step build boost s (s.setClient i ((s.clients i).removeStream streamId message))
  | queueOperations (s : RemoteSystem) (i : Nat) (operations : Operations) (backend : NetClientBackend)
      (message : Json)
      (queued : (s.clients i).backend.queueOperations boost operations = some (backend, message)) :
    Step build boost s (s.setClient i ((s.clients i).queueOperations operations backend message))
  | applyStreamChanges (s : RemoteSystem) (i : Nat) :
    Step build boost s (s.setClient i (s.clients i).applyStreamChanges)
  | processMessage (s : RemoteSystem) (i : Nat) (m : Message) (backend : NetClientBackend)
      (next : (s.server.outgoingOf i)[(s.clients i).processed]? = some m)
      (done : (s.clients i).backend.processMessage build boost m.json = .ok backend) :
    Step build boost s (s.setClient i { (s.clients i) with
      backend, processed := (s.clients i).processed + 1 })
  | runCommand (s : RemoteSystem) (i : Nat) (obj : Json) (server : NetServer)
      (idle : s.server.sessions.io = []) (connected : i ∉ s.server.sessions.disconnected)
      (next : (s.clients i).submitted[(s.clients i).read]? = some obj)
      (done : s.server.runCommand build boost i obj = .ok server) :
    Step build boost s (setClient { s with server } i
      { (s.clients i) with read := (s.clients i).read + 1 })
  | server (s : RemoteSystem) (server : NetServer) (step : s.server.Background build boost server) :
    Step build boost s { s with server }

/-- The states that are reached from a server with a database, and clients that were just started. -/
def Reached (build : Build) (boost : BoostDate) (db : Database) (s : RemoteSystem) : Prop :=
  Reachable (fun s => s = { server := { backend := { storage := { current := db } } } })
    (Step build boost) s

end RemoteSystem

/-! ## The server takes its own steps -/

namespace NetServer

variable {build : Build} {boost : BoostDate} {db : Database} {s s' : NetServer}

/-- What reading a message does, by what the message says. -/
inductive Ran (build : Build) (boost : BoostDate) (s : NetServer) (session : Nat) (obj : Json) :
    NetServer → Prop where
  | createStream (clientId : Int) (streamType : StreamableType) (endpoint : String) (options : Json)
      (command : NetClientSession.runCommand build boost obj =
        .ok (.createStream clientId streamType endpoint options)) :
    Ran build boost s session obj (s.createStream session clientId streamType endpoint options)
  | removeStream (clientId : Int) (observer : SessionStreamObserver)
      (command : NetClientSession.runCommand build boost obj = .ok (.removeStream clientId))
      (found : s.findStream session clientId = some observer) :
    Ran build boost s session obj (s.removeStream observer)
  | notFound (clientId : Int)
      (command : NetClientSession.runCommand build boost obj = .ok (.removeStream clientId))
      (none : s.findStream session clientId = none) : Ran build boost s session obj s
  | schedule (operations : Operations) (id : Json)
      (command : NetClientSession.runCommand build boost obj = .ok (.queueOperations operations id)) :
    Ran build boost s session obj (s.schedule session operations id)
  | unknown (command : NetClientSession.runCommand build boost obj = .ok .unknown) :
    Ran build boost s session obj s

theorem ran_of_runCommand {session : Nat} {obj : Json}
    (h : s.runCommand build boost session obj = .ok s') : Ran build boost s session obj s' := by
  obtain ⟨command, hcommand, h⟩ := Except.bind_eq_ok.1 h
  cases command with
  | createStream clientId streamType endpoint options =>
    cases h
    exact .createStream clientId streamType endpoint options hcommand
  | removeStream clientId =>
    dsimp only at h
    cases hfound : s.findStream session clientId with
    | some observer =>
      rw [hfound] at h
      cases h
      exact .removeStream clientId observer hcommand hfound
    | none =>
      rw [hfound] at h
      cases h
      exact .notFound clientId hcommand hfound
  | queueOperations operations id =>
    cases h
    exact .schedule operations id hcommand
  | unknown =>
    cases h
    exact .unknown hcommand

theorem of_findStream {session : Nat} {clientId : Int} {observer : SessionStreamObserver}
    (h : s.findStream session clientId = some observer) :
    observer ∈ s.observers ∧ s.isOpen observer = true ∧ observer.session = session ∧
      observer.clientStreamId = clientId := by
  have hfound := List.find?_some h
  simp only [Bool.and_eq_true, beq_iff_eq] at hfound
  exact ⟨List.mem_of_find?_eq_some h, hfound.1.1, hfound.1.2, hfound.2⟩

/-- A session that reads a message takes a step of the server, or none. -/
theorem Ran.step {session : Nat} {obj : Json} (h : Ran build boost s session obj s')
    (idle : s.sessions.io = []) (connected : session ∉ s.sessions.disconnected) :
    s' = s ∨ Step build boost s s' := by
  cases h with
  | createStream clientId streamType endpoint options command =>
    exact Or.inr (.createStream s session obj clientId streamType endpoint options _ idle connected command rfl)
  | removeStream clientId observer command found =>
    obtain ⟨hmem, hopen, rfl, -⟩ := of_findStream found
    exact Or.inr (.removeStream s observer idle hmem hopen (Or.inl ⟨obj, clientId, command, found⟩))
  | notFound clientId command none => exact Or.inl rfl
  | schedule operations id command =>
    exact Or.inr (.schedule s session obj operations id idle connected command)
  | unknown command => exact Or.inl rfl

end NetServer

namespace RemoteSystem

variable {build : Build} {boost : BoostDate} {db : Database} {s s' : RemoteSystem}

theorem reached_server (h : Reached build boost db s) : s.server.Reached build boost db := by
  refine Reachable.invariant (I := fun s => s.server.Reached build boost db) ?_ (fun t t' ht hs => ?_) h
  · rintro _ rfl
    exact .init rfl
  · cases hs with
    | createStream i type service options message submitted => exact ht
    | removeStream i streamId message created open_ submitted => exact ht
    | queueOperations i operations backend message queued => exact ht
    | applyStreamChanges i => exact ht
    | processMessage i m backend next done => exact ht
    | runCommand i obj server idle connected next done =>
      rcases (NetServer.ran_of_runCommand done).step idle connected with rfl | hstep
      · exact ht
      · exact Reachable.step ht hstep
    | server server step => exact Reachable.step ht step.step

end RemoteSystem

end HotelPms

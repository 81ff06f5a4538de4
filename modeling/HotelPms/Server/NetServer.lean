import HotelPms.Server.Replies
import HotelPms.Sqlite.SingleId

/- The server: a `SqliteBackend` with its worker thread, and an io thread that runs
   the handlers of the sessions.

   The changes of streams and the results of batches reach a session on two ways. A
   change goes into the change queue; the signal posts `applyStreamChanges`, which
   hands it to the observer of its stream. Results go into the promise of the batch;
   the continuation of its future posts the reply. Handlers run in the order in which
   they were posted. Each step below is one atomic step of one thread; between two
   steps of the worker the io thread may do anything, and the other way round.

   What is proved, of every reachable state:
     1. the worker does what `Backend.Step` says, but that the changes which a stream
        is initialized with go into the queue one by one (`Simulates`);
     2. the sessions do what `Sessions.Step` says (`sessions_reached`);
     3. a promise is resolved when its batch was executed, with its results (`Resolved`). -/
namespace HotelPms
open Lib SqliteStorage DataStreamManager SqliteBackend

/-- What the worker has still to do before it goes on in the loop of `threadMain`. -/
inductive WorkerAction where
  /-- `ChangeQueue::addStreamChange`, up to the signal -/
  | addStreamChange (change : DataStreamDifferential)
  /-- `_streamChangesAvailableSignal` -/
  | signal
  /-- `Promise::resolve` -/
  | resolve (batch : Nat) (results : List TaskResult)

/-- `detail::SessionStreamObserver`, with the stream that it observes. -/
structure SessionStreamObserver where
  stream : DataStream
  /-- `_sender` -/
  session : Nat
  clientStreamId : Int

/-- What a batch added to the change queue, and what had been added before. -/
structure Announced where
  before : List DataStreamDifferential
  changes : List DataStreamDifferential

structure NetServer where
  backend : Backend
  sessions : Sessions := {}
  /-- the observers of all streams there were -/
  observers : List SessionStreamObserver := []
  worker : List WorkerAction := []
  /-- history: of the executed batches, and the next stream id when each batch was queued -/
  announced : List Announced := []
  scheduled : List Int := []
  /-- history: the changes that were taken out of the change queue -/
  applied : List DataStreamDifferential := []

namespace NetServer

/-- The stream is open, and `_streams` of its session has it. -/
def isOpen (s : NetServer) (observer : SessionStreamObserver) : Bool :=
  !s.backend.disconnected.contains observer.stream.streamId

/-- `std::find_if` in `runRemoveStream` -/
def findStream (s : NetServer) (session : Nat) (clientId : Int) : Option SessionStreamObserver :=
  s.observers.find? fun observer =>
    s.isOpen observer && observer.session == session && observer.clientStreamId == clientId

/-- The message that the observer of a stream sends for a change. -/
def message (boost : BoostDate) (observers : List SessionStreamObserver)
    (change : DataStreamDifferential) : Option Message :=
  (observers.find? fun observer => observer.stream.streamId == change.streamId).map fun observer =>
    ⟨observer.session, SessionStreamObserver.message boost observer.clientStreamId change.change,
      .change change⟩

/-- The worker is in the loop of `threadMain`. -/
def WorkerIdle (s : NetServer) : Prop := s.worker = [] ∧ s.sessions.resolving = []

/-- One atomic step of the io thread or of the worker. A step that would stop on an
    assertion or an exception is no step. -/
inductive Step (build : Build) (boost : BoostDate) : NetServer → NetServer → Prop where
  | createStream (s : NetServer) (session : Nat) (obj : Json) (clientId : Int)
      (streamType : StreamableType) (endpoint : String) (options : Json) (stream : DataStream)
      (idle : s.sessions.io = []) (connected : session ∉ s.sessions.disconnected)
      (command : NetClientSession.runCommand build boost obj =
        .ok (.createStream clientId streamType endpoint options))
      (new : stream = { streamId := s.backend.nextStreamId, streamType, endpoint, options }) :
    Step build boost s { s with
      backend := { s.backend with
        nextStreamId := s.backend.nextStreamId + 1
        dataStreams := s.backend.dataStreams ++ [stream]
        uninitializedStreams := s.backend.uninitializedStreams ++ [stream]
        created := s.backend.created ++ [stream] }
      observers := s.observers ++ [⟨stream, session, clientId⟩] }
  /-- by a command of the session, or when the session is destroyed -/
  | removeStream (s : NetServer) (observer : SessionStreamObserver) (idle : s.sessions.io = [])
      (held : observer ∈ s.observers) (open_ : s.isOpen observer = true)
      (reason : (∃ obj clientId,
          NetClientSession.runCommand build boost obj = .ok (.removeStream clientId) ∧
          s.findStream observer.session clientId = some observer) ∨
        observer.session ∈ s.sessions.disconnected) :
    Step build boost s { s with
      backend := { s.backend with
        disconnected := observer.stream.streamId :: s.backend.disconnected
        uninitializedStreams :=
          s.backend.uninitializedStreams.filter (·.streamId != observer.stream.streamId)
        activeStreams := s.backend.activeStreams.filter (·.streamId != observer.stream.streamId) } }
  | schedule (s : NetServer) (session : Nat) (obj : Json) (operations : Operations) (id : Json)
      (idle : s.sessions.io = []) (connected : session ∉ s.sessions.disconnected)
      (command : NetClientSession.runCommand build boost obj = .ok (.queueOperations operations id)) :
    Step build boost s { s with
      backend := { s.backend with
        operationsQueue := s.backend.operationsQueue ++ [operations]
        queued := s.backend.queued ++ [operations] }
      sessions := s.sessions.schedule session id
      scheduled := s.scheduled ++ [s.backend.nextStreamId] }
  | internal (s : NetServer) (sessions : Sessions) (step : Sessions.Internal build s.sessions sessions) :
    Step build boost s { s with sessions }
  | applyStreamChanges (s : NetServer) (rest : List Handler) (idle : s.sessions.io = [])
      (first : s.sessions.handlers = .applyStreamChanges :: rest) :
    Step build boost s { s with
      backend := { s.backend with
        dataStreams := s.backend.applyStreamChanges.1
        changeList := []
        delivered := s.backend.delivered ++ s.backend.applyStreamChanges.2 }
      sessions := { s.sessions with
        handlers := rest
        outgoing := s.sessions.outgoing ++
          s.backend.applyStreamChanges.2.filterMap (message boost s.observers) }
      applied := s.applied ++ s.backend.changeList }
  | turn (s : NetServer) (backend : Backend) (idle : s.WorkerIdle) (step : s.backend.Turn backend) :
    Step build boost s { s with backend }
  | initializeOne (s : NetServer) (idle : s.WorkerIdle) (phase : s.backend.phase = .initializing)
      (stream : DataStream) (rest : List DataStream) (next : s.backend.newStreams = stream :: rest)
      (changes : List DataStreamDifferential)
      (loaded : Backend.initialChanges build boost stream s.backend.storage.current = .ok changes) :
    Step build boost s { s with
      backend := { s.backend with newStreams := rest }
      worker := changes.map .addStreamChange }
  | addStreamChange (s : NetServer) (change : DataStreamDifferential) (rest : List WorkerAction)
      (next : s.worker = .addStreamChange change :: rest) :
    Step build boost s { s with
      backend := { s.backend with
        changeList := s.backend.changeList ++ [change]
        published := s.backend.published ++ [change] }
      worker := .signal :: rest }
  /-- `handleChanges` of the server posts the handler. -/
  | signal (s : NetServer) (rest : List WorkerAction) (next : s.worker = .signal :: rest) :
    Step build boost s { s with sessions := s.sessions.post .applyStreamChanges, worker := rest }
  | executeTask (s : NetServer) (idle : s.WorkerIdle) (phase : s.backend.phase = .processing)
      (operations : Operations) (rest : List Operations)
      (next : s.backend.newTasks = operations :: rest) (out : TaskOutcome)
      (changes : List DataStreamDifferential)
      (executed : processTask build boost s.backend.activeStreams s.backend.storage
        s.backend.changeList operations = .ok out)
      (added : out.changeList = s.backend.changeList ++ changes) :
    Step build boost s { s with
      backend := { s.backend with
        newTasks := rest
        storage := out.storage
        changeList := out.changeList
        published := s.backend.published ++ changes
        executed := s.backend.executed ++ [{ before := s.backend.storage.current, operations, results := out.results,
                                             committed := out.committed, after := out.storage.current }] }
      -- `addChanges` signals unless there are no changes
      worker := (if changes.isEmpty then [] else [.signal]) ++
        [.resolve s.backend.executed.length out.results]
      announced := s.announced ++ [⟨s.backend.published, changes⟩] }
  | resolve (s : NetServer) (n : Nat) (results : List TaskResult) (rest : List WorkerAction)
      (next : s.worker = .resolve n results :: rest) (b : ScheduledBatch)
      (future : FutureState (List TaskResult) Nat) (batch : s.sessions.batches[n]? = some b)
      (set : b.future.setValue build results = .ok future) :
    Step build boost s { s with
      sessions := { s.sessions.update n { b with future } with
        resolving := .next n :: s.sessions.resolving }
      worker := rest }

/-- The states that a server can reach whose backend starts with a database. -/
def Reached (build : Build) (boost : BoostDate) (db : Database) (s : NetServer) : Prop :=
  Reachable (fun s => s = { backend := { storage := { current := db } } }) (Step build boost) s

end NetServer

/-! ## The backend of the server -/

namespace NetServer

variable {build : Build} {boost : BoostDate} {db : Database} {s s' : NetServer}

/-- The changes that the worker has still to put into the change queue. -/
def pending (worker : List WorkerAction) : List DataStreamDifferential :=
  worker.filterMap fun
    | .addStreamChange change => some change
    | _ => none

@[simp] theorem pending_map (changes : List DataStreamDifferential) :
    pending (changes.map .addStreamChange) = changes := by
  simp [pending, List.filterMap_map]

/-- The backend is one of `Backend.Reached`, but that its worker has not yet put all
    changes of a new stream into the queue, and more or less of them are delivered. -/
structure Simulates (build : Build) (boost : BoostDate) (db : Database) (s : NetServer) (a : Backend) :
    Prop where
  reached : Backend.Reached build boost db a
  backend : ∃ changeList published delivered, s.backend = { a with changeList, published, delivered }
  published : a.published = s.backend.published ++ pending s.worker
  created : a.created = s.observers.map (·.stream)

theorem processTask_changeList {streams : List DataStream} {storage : Connection Database}
    {changeList changes : List DataStreamDifferential} {operations : Operations} {out : TaskOutcome}
    (h : processTask build boost streams storage changeList operations = .ok out)
    (hadded : out.changeList = changeList ++ changes) (other : List DataStreamDifferential) :
    processTask build boost streams storage other operations =
      .ok { out with changeList := other ++ changes } := by
  obtain ⟨⟨db, cs, results, rollback⟩, hrun, h⟩ := Except.bind_eq_ok.1 h
  unfold processTask
  rw [Except.bind_ok hrun]
  cases rollback with
  | true =>
    cases h
    obtain rfl : changes = [] :=
      List.append_cancel_left (hadded.symm.trans (List.append_nil changeList).symm)
    rw [List.append_nil]
    rfl
  | false =>
    cases h
    obtain rfl : cs = changes :=
      List.append_cancel_left ((addChanges_eq changeList cs).symm.trans hadded)
    rw [← addChanges_eq]
    rfl

theorem pending_executeTask (signal : Bool) (n : Nat) (results : List TaskResult) :
    pending ((if signal then [] else [.signal]) ++ [.resolve n results]) = [] := by
  cases signal
  · rfl
  · rfl

theorem simulates_step {a : Backend} (h : Simulates build boost db s a) (hs : Step build boost s s') :
    ∃ a', Simulates build boost db s' a' := by
  obtain ⟨ha, ⟨changeList, published, delivered, hsame⟩, hpublished, hcreated⟩ := h
  rw [hsame] at hpublished
  dsimp only at hpublished
  cases hs with
  | createStream session obj clientId streamType endpoint options stream idle connected command new =>
    rw [hsame] at new ⊢
    refine ⟨_, ha.step (.createStream a streamType endpoint options stream new),
      ⟨_, _, _, rfl⟩, hpublished, ?_⟩
    rw [List.map_append, ← hcreated]
    rfl
  | removeStream observer idle held open_ reason =>
    have hmem : observer.stream ∈ a.created := hcreated ▸ List.mem_map_of_mem held
    rw [hsame]
    exact ⟨_, ha.step (.removeStream a observer.stream hmem), ⟨_, _, _, rfl⟩, hpublished, hcreated⟩
  | schedule session obj operations id idle connected command =>
    rw [hsame]
    exact ⟨_, ha.step (.queueOperations a operations), ⟨_, _, _, rfl⟩, hpublished, hcreated⟩
  | internal sessions step =>
    refine ⟨a, ha, ⟨changeList, published, delivered, hsame⟩, ?_, hcreated⟩
    dsimp only
    rw [hsame]
    exact hpublished
  | applyStreamChanges rest idle first =>
    rw [hsame]
    exact ⟨_, ha.step (.applyStreamChanges a), ⟨_, _, _, rfl⟩, hpublished, hcreated⟩
  | turn backend idle step =>
    rw [hsame] at step
    cases step with
    | swap phase => exact ⟨_, ha.step (.swap a phase), ⟨_, _, _, rfl⟩, hpublished, hcreated⟩
    | collect phase => exact ⟨_, ha.step (.collect a phase), ⟨_, _, _, rfl⟩, hpublished, hcreated⟩
    | process phase done =>
      exact ⟨_, ha.step (.process a phase done), ⟨_, _, _, rfl⟩, hpublished, hcreated⟩
    | loop phase done => exact ⟨_, ha.step (.loop a phase done), ⟨_, _, _, rfl⟩, hpublished, hcreated⟩
  | initializeOne idle phase stream rest next changes loaded =>
    rw [idle.1] at hpublished
    rw [hsame] at phase next loaded ⊢
    -- there the changes are all published, here they wait until the worker has put them into the queue
    refine ⟨_, ha.step (.initializeOne a phase stream rest next changes loaded), ⟨_, _, _, rfl⟩, ?_,
      hcreated⟩
    dsimp only
    rw [hpublished, pending_map]
    simp [pending]
  | addStreamChange change rest next =>
    rw [next] at hpublished
    rw [hsame]
    refine ⟨a, ha, ⟨_, _, _, rfl⟩, ?_, hcreated⟩
    rw [hpublished]
    simp [pending]
  | signal rest next =>
    rw [next] at hpublished
    refine ⟨a, ha, ⟨_, _, _, hsame⟩, ?_, hcreated⟩
    rw [hpublished, hsame]
    rfl
  | executeTask idle phase operations rest next out changes executed added =>
    rw [idle.1] at hpublished
    rw [hsame] at phase next executed added ⊢
    -- the two queues differ, but the batch only adds to them
    have hexecuted := processTask_changeList executed added a.changeList
    refine ⟨_, ha.step (.executeTask a phase operations rest next _ changes hexecuted rfl),
      ⟨_, _, _, rfl⟩, ?_, hcreated⟩
    dsimp only
    rw [hpublished, pending_executeTask]
    simp [pending]
  | resolve n results rest next b future batch set =>
    rw [next] at hpublished
    refine ⟨a, ha, ⟨_, _, _, hsame⟩, ?_, hcreated⟩
    rw [hpublished, hsame]
    rfl

/-! ## The promises -/

/-- What the worker is at, and what it does after that. -/
inductive Work (executed : List BatchRecord) (worker : List WorkerAction) : Prop where
  | adding (changes : List DataStreamDifferential) (here : worker = changes.map .addStreamChange)
  | signaling (changes : List DataStreamDifferential)
      (here : worker = .signal :: changes.map .addStreamChange)
  | finishing (earlier : List BatchRecord) (r : BatchRecord) (last : executed = earlier ++ [r])
      (here : worker = [.signal, .resolve earlier.length r.results])
  | resolving (earlier : List BatchRecord) (r : BatchRecord) (last : executed = earlier ++ [r])
      (here : worker = [.resolve earlier.length r.results])

/-- Whether the promise of a batch is resolved: the batch was executed, and it is not
    what the worker is about to do. -/
inductive Promised (s : NetServer) (n : Nat) (b : ScheduledBatch) : Prop where
  | waiting (bound : s.backend.executed.length ≤ n) (value : b.future.value = .empty)
  | next (results : List TaskResult) (action : .resolve n results ∈ s.worker)
      (value : b.future.value = .empty)
  | resolved (r : BatchRecord) (executed : s.backend.executed[n]? = some r)
      (value : b.future.value = .value r.results) (done : ∀ results, .resolve n results ∉ s.worker)

structure Resolved (s : NetServer) : Prop where
  work : Work s.backend.executed s.worker
  queued : s.sessions.batches.length = s.backend.queued.length
  executed : s.backend.executed.length ≤ s.backend.queued.length
  batch : ∀ n b, s.sessions.batches[n]? = some b → Promised s n b

theorem Promised.of_eq {n : Nat} {b b' : ScheduledBatch} (h : Promised s n b)
    (hvalue : b'.future.value = b.future.value)
    (hexecuted : s'.backend.executed = s.backend.executed)
    (hworker : ∀ results, .resolve n results ∈ s'.worker ↔ .resolve n results ∈ s.worker) :
    Promised s' n b' := by
  cases h with
  | waiting hbound hv => exact .waiting (hexecuted ▸ hbound) (hvalue.trans hv)
  | next results haction hv => exact .next results ((hworker results).2 haction) (hvalue.trans hv)
  | resolved r hr hv hdone =>
    exact .resolved r (hexecuted ▸ hr) (hvalue.trans hv) fun results hmem =>
      hdone results ((hworker results).1 hmem)

theorem Promised.execute {n : Nat} {b : ScheduledBatch} (h : Promised s n b) (hidle : s.worker = [])
    {r : BatchRecord} (hexecuted : s'.backend.executed = s.backend.executed ++ [r])
    (hnext : ∃ results, .resolve s.backend.executed.length results ∈ s'.worker)
    (honly : ∀ m results, .resolve m results ∈ s'.worker → m = s.backend.executed.length) :
    Promised s' n b := by
  cases h with
  | waiting hbound hv =>
    rcases Nat.eq_or_lt_of_le hbound with rfl | hlt
    · obtain ⟨results, haction⟩ := hnext
      exact .next results haction hv
    · refine .waiting ?_ hv
      rw [hexecuted, List.length_append, List.length_singleton]
      exact hlt
  | next results haction =>
    rw [hidle] at haction
    exact absurd haction List.not_mem_nil
  | resolved record hr hv hdone =>
    have hn := (List.getElem?_eq_some_iff.1 hr).1
    refine .resolved record ?_ hv fun results hmem => Nat.ne_of_lt hn (honly n results hmem)
    rw [hexecuted]
    exact getElem?_append_of_eq_some hr _

theorem Promised.resolve_other {n m : Nat} {b : ScheduledBatch} (h : Promised s m b)
    {results : List TaskResult} (next : s.worker = [.resolve n results]) (hne : n ≠ m)
    (hexecuted : s'.backend.executed = s.backend.executed) (hworker : s'.worker = []) : Promised s' m b := by
  have hnone : ∀ results, .resolve m results ∉ s'.worker := by
    intro results
    rw [hworker]
    exact List.not_mem_nil
  cases h with
  | waiting hbound hv => exact .waiting (hexecuted ▸ hbound) hv
  | next results haction hv =>
    rw [next] at haction
    cases List.mem_singleton.1 haction
    exact absurd rfl hne
  | resolved r hr hv hdone => exact .resolved r (hexecuted ▸ hr) hv hnone

theorem Work.of_idle {executed : List BatchRecord} {worker : List WorkerAction} (h : worker = []) :
    Work executed worker := .adding [] h

section
variable {executed : List BatchRecord} {rest : List WorkerAction}

theorem Work.of_addStreamChange {change : DataStreamDifferential}
    (h : Work executed (.addStreamChange change :: rest)) :
    ∃ changes, rest = List.map .addStreamChange changes := by
  cases h with
  | adding changes here =>
    cases changes with
    | nil => cases here
    | cons c cs =>
      cases here
      exact ⟨cs, rfl⟩
  | signaling changes here => cases here
  | finishing earlier r last here => cases here
  | resolving earlier r last here => cases here

theorem Work.of_signal (h : Work executed (.signal :: rest)) : Work executed rest := by
  cases h with
  | adding changes here =>
    cases changes with
    | nil => cases here
    | cons c cs => cases here
  | signaling changes here =>
    cases here
    exact .adding changes rfl
  | finishing earlier r last here =>
    cases here
    exact .resolving earlier r last rfl
  | resolving earlier r last here => cases here

theorem Work.of_resolve {n : Nat} {results : List TaskResult} (h : Work executed (.resolve n results :: rest)) :
    rest = [] ∧ n < executed.length ∧ ∃ r, executed[n]? = some r ∧ r.results = results := by
  cases h with
  | adding changes here =>
    cases changes with
    | nil => cases here
    | cons c cs => cases here
  | signaling changes here => cases here
  | finishing earlier r last here => cases here
  | resolving earlier r last here =>
    cases here
    have hr : executed[earlier.length]? = some r := by
      rw [last]
      exact List.getElem?_concat_length
    exact ⟨rfl, (List.getElem?_eq_some_iff.1 hr).1, r, hr, rfl⟩

end

theorem Resolved.lt_executed (h : Resolved s) {n : Nat} {b : ScheduledBatch}
    (hb : s.sessions.batches[n]? = some b) (hready : b.future.isReady = true) :
    n < s.backend.executed.length := by
  cases h.batch n b hb with
  | waiting _ hempty => rw [FutureState.isReady_of_empty hempty] at hready; cases hready
  | next _ _ hempty => rw [FutureState.isReady_of_empty hempty] at hready; cases hready
  | resolved r hrecord => exact (List.getElem?_eq_some_iff.1 hrecord).1

theorem resolved_init {storage : Connection Database} :
    Resolved { backend := { storage } } where
  work := .of_idle rfl
  queued := rfl
  executed := le_rfl
  batch n b hb := by simp at hb

theorem Simulates.executed_le {a : Backend} (h : Simulates build boost db s a) :
    s.backend.executed.length ≤ s.backend.queued.length := by
  have hsound := Backend.reached_sound h.reached
  obtain ⟨_, _, _, hsame⟩ := h.backend
  rw [hsame]
  dsimp only
  rw [hsound.order, List.append_assoc, List.length_append, List.length_map]
  exact Nat.le_add_right _ _

theorem Resolved.of_eq (h : Resolved s) (hwork : Work s'.backend.executed s'.worker)
    (hexecuted : s'.backend.executed = s.backend.executed)
    (hqueued : s'.backend.queued = s.backend.queued)
    (hbatches : s'.sessions.batches = s.sessions.batches)
    (hworker : ∀ n results, .resolve n results ∈ s'.worker ↔ .resolve n results ∈ s.worker) :
    Resolved s' := by
  refine ⟨hwork, ?_, ?_, fun n b hb => ?_⟩
  · rw [hbatches, hqueued]
    exact h.queued
  · rw [hexecuted, hqueued]
    exact h.executed
  · rw [hbatches] at hb
    exact (h.batch n b hb).of_eq rfl hexecuted (hworker n)

theorem resolved_step {a : Backend} (hsim : Simulates build boost db s' a) (h : Resolved s)
    (hs : Step build boost s s') : Resolved s' := by
  have hexecuted' := hsim.executed_le
  cases hs with
  | createStream session obj clientId streamType endpoint options stream idle connected command new =>
    exact h.of_eq h.work rfl rfl rfl fun _ _ => Iff.rfl
  | removeStream observer idle held open_ reason => exact h.of_eq h.work rfl rfl rfl fun _ _ => Iff.rfl
  | schedule session obj operations id idle connected command =>
    refine ⟨h.work, ?_, hexecuted', fun n b hb => ?_⟩
    · simp [Sessions.schedule, h.queued]
    · rcases eq_some_or_of_concat hb with hb | ⟨hn, rfl⟩
      · exact (h.batch n b hb).of_eq rfl rfl fun _ => Iff.rfl
      · refine .waiting ?_ rfl
        have := h.executed
        have := h.queued
        dsimp only
        omega
  | internal sessions step =>
    have hsame := Sessions.same_internal step
    refine ⟨h.work, hsame.length.trans h.queued, hexecuted', fun n b hb => ?_⟩
    have hget := hsame.getElem n
    rw [hb, Option.map_some] at hget
    obtain ⟨c, hc, hcontent⟩ := Option.map_eq_some_iff.1 hget.symm
    have hvalue : b.future.value = c.future.value := congrArg (·.2.2) hcontent.symm
    exact (h.batch n c hc).of_eq hvalue rfl fun _ => Iff.rfl
  | applyStreamChanges rest idle first => exact h.of_eq h.work rfl rfl rfl fun _ _ => Iff.rfl
  | turn backend idle step =>
    obtain ⟨hqueued, hexecuted, -, -, -⟩ := step.unchanged
    exact h.of_eq (.of_idle idle.1) hexecuted hqueued rfl fun _ _ => Iff.rfl
  | initializeOne idle phase stream rest next changes loaded =>
    exact h.of_eq (.adding changes rfl) rfl rfl rfl fun n results => by simp [idle.1]
  | addStreamChange change rest next =>
    obtain ⟨changes, rfl⟩ := Work.of_addStreamChange (next ▸ h.work)
    exact h.of_eq (.signaling changes rfl) rfl rfl rfl fun n results => by simp [next]
  | signal rest next =>
    exact h.of_eq (Work.of_signal (next ▸ h.work)) rfl rfl rfl fun n results => by simp [next]
  | executeTask idle phase operations rest next out changes executed added =>
    refine ⟨?_, h.queued, hexecuted', fun n b hb => ?_⟩
    · cases changes.isEmpty with
      | true => exact .resolving _ _ rfl rfl
      | false => exact .finishing _ _ rfl rfl
    · refine (h.batch n b hb).execute idle.1 rfl ⟨_, List.mem_append_right _ List.mem_cons_self⟩
        fun m results hmem => ?_
      rcases List.mem_append.1 hmem with hmem | hmem
      · split at hmem
        · exact absurd hmem List.not_mem_nil
        · cases List.mem_singleton.1 hmem
      · cases List.mem_singleton.1 hmem
        rfl
  | resolve n results rest next b future batch set =>
    obtain rfl := FutureState.of_setValue set
    obtain ⟨rfl, -, r, hr, rfl⟩ := Work.of_resolve (next ▸ h.work)
    refine ⟨.of_idle rfl, ?_, hexecuted', fun m c hc => ?_⟩
    · simpa [Sessions.update] using h.queued
    · have hn := (List.getElem?_eq_some_iff.1 batch).1
      have hc' : (s.sessions.batches.set n _)[m]? = some c := hc
      rw [List.getElem?_set] at hc'
      by_cases hm : n = m
      · rw [if_pos hm, if_pos hn] at hc'
        obtain rfl := Option.some.inj hc'
        exact .resolved r (hm ▸ hr) rfl fun _ => List.not_mem_nil
      · rw [if_neg hm] at hc'
        exact (h.batch m c hc').resolve_other next hm rfl rfl

end NetServer

end HotelPms

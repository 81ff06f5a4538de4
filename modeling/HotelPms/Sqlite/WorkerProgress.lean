import HotelPms.Lib.Fair
import HotelPms.Sqlite.Shutdown

/- The worker thread does what it is asked to.

   `queueOperations` and `createStream` notify the worker after they have unlocked the mutex,
   so that a notification may come at any later time, and is lost if the worker does not wait
   then; the worker may also wake up for no reason. `stopAndJoin` notifies it while it holds
   the lock. `Placed` says where the worker can be, and that it does not wait for ever when
   there is work: nobody would notify it else.

   The worker goes around its loop. A batch that is queued is taken at the next swap of the
   queue, a new stream at the next collection, and then its turn comes: `loopRank` counts
   the points of the loop that are left, and the work at the point where the worker is.
   `worker_progress` is about runs without an end. -/
namespace HotelPms
open Lib SqliteStorage SqliteBackend DataStreamManager

namespace RunningBackend

variable {build : Build} {boost : BoostDate} {s s' : RunningBackend}

/-- The worker, if it waits, is woken up. -/
def notify (s : RunningBackend) : RunningBackend :=
  match s.position with
  | .waiting => { s with position := .running }
  | _ => s

/-- A step of the worker that does not wait. -/
inductive Works (build : Build) (boost : BoostDate) : RunningBackend → RunningBackend → Prop where
  | enter (s : RunningBackend) (position : s.position = .head) (go : s.quit = false) :
    Works build boost s { s with position := .entered }
  | leave (s : RunningBackend) (position : s.position = .head) (stop : s.quit = true) :
    Works build boost s { s with position := .finished }
  | take (s : RunningBackend) (position : s.position = .entered) : Works build boost s s.take
  | turn (s : RunningBackend) (position : s.position = .running) (backend : Backend)
      (body : s.backend.phase ≠ .top) (turn : s.backend.Turn backend) :
    Works build boost s { s with
      backend, position := if backend.phase = .top then .head else .running }
  | initializeOne (s : RunningBackend) (position : s.position = .running)
      (phase : s.backend.phase = .initializing) (stream : DataStream) (rest : List DataStream)
      (next : s.backend.newStreams = stream :: rest) (changes : List DataStreamDifferential)
      (loaded : Backend.initialChanges build boost stream s.backend.storage.current = .ok changes) :
    Works build boost s { s with
      backend := { s.backend with
        newStreams := rest
        changeList := s.backend.changeList ++ changes
        published := s.backend.published ++ changes } }
  | executeTask (s : RunningBackend) (position : s.position = .running)
      (phase : s.backend.phase = .processing) (operations : Operations) (rest : List Operations)
      (next : s.backend.newTasks = operations :: rest) (out : TaskOutcome)
      (changes : List DataStreamDifferential)
      (executed : processTask build boost s.backend.activeStreams s.backend.storage
        s.backend.changeList operations = .ok out)
      (added : out.changeList = s.backend.changeList ++ changes) :
    Works build boost s { s with
      backend := { s.backend with
        newTasks := rest
        storage := out.storage
        changeList := out.changeList
        published := s.backend.published ++ changes
        executed := s.backend.executed ++
          [{ before := s.backend.storage.current, operations, results := out.results,
             committed := out.committed, after := out.storage.current }] }
      position := .resolving out.results }
  | resolve (s : RunningBackend) (results : List TaskResult) (position : s.position = .resolving results) :
    Works build boost s { s with position := .running, resolved := s.resolved ++ [results] }

theorem Works.step (h : Works build boost s s') : Step build boost s s' := by
  cases h with
  | enter position go => exact .enter s position go
  | leave position stop => exact .leave s position stop
  | take position => exact .take s position
  | turn position backend body turn => exact .turn s position backend body turn
  | initializeOne position phase stream rest next changes loaded =>
    exact .initializeOne s position phase stream rest next changes loaded
  | executeTask position phase operations rest next out changes executed added =>
    exact .executeTask s position phase operations rest next out changes executed added
  | resolve results position => exact .resolve s results position

end RunningBackend

/-- A backend with its worker, and the calls that have still to notify it. -/
structure NotifiedBackend where
  running : RunningBackend
  /-- the calls of `queueOperations` and `createStream` before `notify_one()` -/
  notifies : Nat := 0

namespace NotifiedBackend

inductive Label where
  /-- a call of a client, up to `notify_one()` -/
  | call
  /-- the notification of a call -/
  | notify
  /-- The worker wakes up for no reason. -/
  | wake
  | work
  | stop
  | join

inductive Step (build : Build) (boost : BoostDate) : NotifiedBackend → Label → NotifiedBackend → Prop where
  | queueOperations (s : NotifiedBackend) (alive : s.running.quit = false) (operations : Operations) :
    Step build boost s .call {
      running := { s.running with backend := { s.running.backend with
        operationsQueue := s.running.backend.operationsQueue ++ [operations]
        queued := s.running.backend.queued ++ [operations] } }
      notifies := s.notifies + 1 }
  | createStream (s : NotifiedBackend) (alive : s.running.quit = false) (streamType : StreamableType)
      (endpoint : String) (options : Json) (stream : DataStream)
      (new : stream = { streamId := s.running.backend.nextStreamId, streamType, endpoint, options }) :
    Step build boost s .call {
      running := { s.running with backend := { s.running.backend with
        nextStreamId := s.running.backend.nextStreamId + 1
        dataStreams := s.running.backend.dataStreams ++ [stream]
        uninitializedStreams := s.running.backend.uninitializedStreams ++ [stream]
        created := s.running.backend.created ++ [stream] } }
      notifies := s.notifies + 1 }
  | removeStream (s : NotifiedBackend) (alive : s.running.quit = false) (stream : DataStream)
      (created : stream ∈ s.running.backend.created) :
    Step build boost s .call { s with
      running := { s.running with backend := { s.running.backend with
        disconnected := stream.streamId :: s.running.backend.disconnected
        uninitializedStreams :=
          s.running.backend.uninitializedStreams.filter (·.streamId != stream.streamId)
        activeStreams := s.running.backend.activeStreams.filter (·.streamId != stream.streamId) } } }
  | applyStreamChanges (s : NotifiedBackend) (alive : s.running.quit = false) :
    Step build boost s .call { s with
      running := { s.running with backend := { s.running.backend with
        dataStreams := s.running.backend.applyStreamChanges.1
        changeList := []
        delivered := s.running.backend.delivered ++ s.running.backend.applyStreamChanges.2 } } }
  | notify (s : NotifiedBackend) (calls : 0 < s.notifies) :
    Step build boost s .notify { running := s.running.notify, notifies := s.notifies - 1 }
  | wake (s : NotifiedBackend) (waiting : s.running.position = .waiting) :
    Step build boost s .wake { s with running := { s.running with position := .running } }
  | work (s : NotifiedBackend) (running : RunningBackend)
      (works : RunningBackend.Works build boost s.running running) : Step build boost s .work { s with running }
  /-- `stopAndJoin` up to `join()`: the flag is set and the worker notified under the lock. -/
  | stop (s : NotifiedBackend) (alive : s.running.quit = false) :
    Step build boost s .stop { s with running := RunningBackend.notify { s.running with quit := true } }
  | join (s : NotifiedBackend) (stop : s.running.quit = true) (position : s.running.position = .finished) :
    Step build boost s .join { s with running := { s.running with joined := true } }

/-- A backend on a database. -/
def New (db : Database) (s : NotifiedBackend) : Prop :=
  s = { running := { backend := { storage := { current := db } } } }

/-- Some step. -/
def Next (build : Build) (boost : BoostDate) (s s' : NotifiedBackend) : Prop :=
  ∃ label, Step build boost s label s'

def Reached (build : Build) (boost : BoostDate) (db : Database) (s : NotifiedBackend) : Prop :=
  Reachable (New db) (Next build boost) s

variable {build : Build} {boost : BoostDate} {db : Database} {s s' : NotifiedBackend} {label : Label} {k : Nat}

theorem notify_eq_or (s : RunningBackend) :
    (s.position = .waiting ∧ s.notify = { s with position := .running }) ∨
      (s.position ≠ .waiting ∧ s.notify = s) := by
  unfold RunningBackend.notify
  split
  · exact Or.inl ⟨by assumption, rfl⟩
  · exact Or.inr ⟨by assumption, rfl⟩

theorem reached_notify {r : RunningBackend} (h : RunningBackend.Reached build boost db r) :
    RunningBackend.Reached build boost db r.notify := by
  rcases notify_eq_or r with ⟨hwaiting, heq⟩ | ⟨-, heq⟩
  · rw [heq]
    exact h.step (.wake r hwaiting)
  · rw [heq]
    exact h

/-- Below, the backend does what `RunningBackend` says, where a notification is a reason to
    wake up. -/
theorem reached_running (h : Reached build boost db s) : RunningBackend.Reached build boost db s.running := by
  induction h with
  | init h =>
    rw [h]
    exact .init rfl
  | step hs hstep ih =>
    obtain ⟨label, hstep⟩ := hstep
    cases hstep with
    | queueOperations alive operations => exact ih.step (.call _ alive _ (.queueOperations _ operations))
    | createStream alive streamType endpoint options stream new =>
      exact ih.step (.call _ alive _ (.createStream _ streamType endpoint options stream new))
    | removeStream alive stream created =>
      exact ih.step (.call _ alive _ (.removeStream _ stream created))
    | applyStreamChanges alive => exact ih.step (.call _ alive _ (.applyStreamChanges _))
    | notify calls => exact reached_notify ih
    | wake waiting => exact ih.step (.wake _ waiting)
    | work running works => exact ih.step works.step
    | stop alive => exact reached_notify (ih.step (.stop _ alive))
    | join stop position => exact ih.step (.join _ stop position)

/-! ## Where the worker can be -/

/-- There is something to do for a worker that waits. -/
def HasWork (s : RunningBackend) : Prop :=
  s.backend.operationsQueue ≠ [] ∨ s.backend.uninitializedStreams ≠ []

structure Placed (s : NotifiedBackend) : Prop where
  waiting : s.running.position = .waiting → s.running.backend.phase = .swapped ∧
    s.running.backend.newTasks = [] ∧ s.running.quit = false
  running : s.running.position = .running → s.running.backend.phase ≠ .top
  resolving : ∀ results, s.running.position = .resolving results → s.running.backend.phase = .processing
  finished : s.running.position = .finished → s.running.quit = true
  /-- The worker does not wait for ever when there is work. -/
  awake : s.running.position = .waiting → HasWork s.running → 0 < s.notifies

theorem placed_init (db : Database) : Placed { running := { backend := { storage := { current := db } } } } := by
  constructor <;> simp

theorem Placed.of_position (h : Placed s) (hposition : s'.running.position = s.running.position)
    (hphase : s'.running.backend.phase = s.running.backend.phase)
    (htasks : s'.running.backend.newTasks = s.running.backend.newTasks)
    (hquit : s'.running.quit = s.running.quit)
    (hawake : s.running.position = .waiting → HasWork s'.running → 0 < s'.notifies) : Placed s' where
  waiting := by
    rw [hposition, hphase, htasks, hquit]
    exact h.waiting
  running := by
    rw [hposition, hphase]
    exact h.running
  resolving := by
    rw [hposition, hphase]
    exact h.resolving
  finished := by
    rw [hposition, hquit]
    exact h.finished
  awake := by
    rw [hposition]
    exact hawake

theorem Placed.of_running (h : Placed s) (hwaiting : s.running.position = .waiting)
    (hposition : s'.running.position = .running) (hphase : s'.running.backend.phase = s.running.backend.phase) :
    Placed s' := by
  have hswapped := (h.waiting hwaiting).1
  constructor <;> simp [hposition, hphase, hswapped]

theorem placed_works {running : RunningBackend} (h : Placed s)
    (works : RunningBackend.Works build boost s.running running) : Placed { s with running } := by
  cases works with
  | enter position go => constructor <;> simp
  | leave position stop => exact ⟨by simp, by simp, by simp, fun _ => stop, by simp⟩
  | take position =>
    by_cases hidle : !s.running.quit && s.running.backend.operationsQueue.isEmpty &&
        s.running.backend.uninitializedStreams.isEmpty
    · simp only [Bool.and_eq_true, Bool.not_eq_true', List.isEmpty_iff] at hidle
      obtain ⟨⟨hquit, hqueue⟩, hstreams⟩ := hidle
      constructor <;> simp [RunningBackend.take, hquit, hqueue, hstreams, HasWork]
    · constructor <;> simp [RunningBackend.take, hidle]
  | turn position backend body turn =>
    by_cases hphase : backend.phase = .top
    · constructor <;> simp [hphase]
    · constructor <;> simp [hphase]
  | initializeOne position phase stream rest next changes loaded => constructor <;> simp [position, phase]
  | executeTask position phase operations rest next out changes executed added =>
    constructor <;> simp [phase]
  | resolve results position =>
    have hphase := h.resolving results position
    constructor <;> simp [hphase]

theorem placed_step (h : Placed s) (hs : Step build boost s label s') : Placed s' := by
  cases hs with
  | queueOperations alive operations =>
    exact h.of_position rfl rfl rfl rfl fun _ _ => Nat.succ_pos _
  | createStream alive streamType endpoint options stream new =>
    exact h.of_position rfl rfl rfl rfl fun _ _ => Nat.succ_pos _
  | removeStream alive stream created =>
    refine h.of_position rfl rfl rfl rfl fun hwaiting hwork => h.awake hwaiting ?_
    refine hwork.imp id fun hstreams hnone => hstreams ?_
    dsimp only
    rw [hnone]
    rfl
  | applyStreamChanges alive => exact h.of_position rfl rfl rfl rfl h.awake
  | notify calls =>
    rcases notify_eq_or s.running with ⟨hwaiting, heq⟩ | ⟨hwaiting, heq⟩
    · exact h.of_running hwaiting (by rw [heq]) (by rw [heq])
    · rw [heq]
      exact h.of_position rfl rfl rfl rfl fun hwaits => absurd hwaits hwaiting
  | wake waiting => exact h.of_running waiting rfl rfl
  | work running works => exact placed_works h works
  | stop alive =>
    rcases notify_eq_or { s.running with quit := true } with ⟨hwaiting, heq⟩ | ⟨hwaiting, heq⟩
    · exact h.of_running hwaiting (by rw [heq]) (by rw [heq])
    · rw [heq]
      exact ⟨fun hwaits => absurd hwaits hwaiting, h.running, h.resolving, fun _ => rfl,
        fun hwaits => absurd hwaits hwaiting⟩
  | join stop position => exact h.of_position rfl rfl rfl rfl h.awake

theorem reached_placed (h : Reached build boost db s) : Placed s := by
  induction h with
  | init h =>
    rw [h]
    exact placed_init db
  | step hs hstep ih =>
    obtain ⟨label, hstep⟩ := hstep
    exact placed_step ih hstep

/-! ## Around the loop -/

/-- The points of the loop, in the order in which the worker comes to them. -/
def point (s : RunningBackend) : Nat :=
  match s.position, s.backend.phase with
  | .entered, _ => 1
  | .waiting, _ => 2
  | .running, .swapped => 3
  | .running, .initializing => 4
  | .running, .processing => 5
  | .resolving _, _ => 5
  | _, _ => 0

/-- What is left to do at a point. -/
def load (s : RunningBackend) : Nat :=
  match s.position, s.backend.phase with
  | .running, .initializing => s.backend.newStreams.length
  | .running, .processing => 2 * s.backend.newTasks.length
  | .resolving _, _ => 2 * s.backend.newTasks.length + 1
  | _, _ => 0

/-- The batches that the worker has executed or holds. -/
def taken (s : RunningBackend) : Nat := s.backend.executed.length + s.backend.newTasks.length

/-- One step of the worker: it does some of the work at its point, or comes to the next. The
    batches that are queued are taken on the way from the second point, and the streams that
    are new on the way from the fourth. -/
inductive Advances (s s' : RunningBackend) : Prop where
  | atPoint (point : point s' = point s) (load : load s' < load s) (taken : taken s' = taken s)
      (streams : s'.backend.uninitializedStreams = s.backend.uninitializedStreams)
  | toNext (ne : point s ≠ 1) (ne' : point s ≠ 3) (point : point s' = (point s + 1) % 6)
      (taken : taken s' = taken s)
      (streams : s'.backend.uninitializedStreams = s.backend.uninitializedStreams)
      (new : s'.backend.newStreams = s.backend.newStreams)
  | swap (point : point s = 1) (point' : NotifiedBackend.point s' = 2 ∨ NotifiedBackend.point s' = 3)
      (taken : taken s' = s.backend.queued.length)
      (streams : s'.backend.uninitializedStreams = s.backend.uninitializedStreams)
      (new : s'.backend.newStreams = s.backend.newStreams)
  | collect (point : point s = 3) (point' : NotifiedBackend.point s' = 4) (taken : taken s' = taken s)
      (new : s'.backend.newStreams = s.backend.uninitializedStreams)

theorem advances_of_works {r r' : RunningBackend} (h : RunningBackend.Works build boost r r')
    (hquit : r.quit = false) (hsound : RunningBackend.Sound build boost db r)
    (hresolving : ∀ results, r.position = .resolving results → r.backend.phase = .processing) :
    Advances r r' := by
  cases h with
  | enter position go =>
    refine .toNext ?_ ?_ ?_ rfl rfl rfl <;> simp [point, position]
  | leave position stop => simp [hquit] at stop
  | take position =>
    have htasks := hsound.backend.tasks (hsound.top (Or.inr (Or.inl position)))
    have horder := hsound.backend.order
    rw [htasks, List.append_nil] at horder
    refine .swap (by simp [point, position]) ?_ ?_ rfl rfl
    · by_cases hidle : !r.quit && r.backend.operationsQueue.isEmpty && r.backend.uninitializedStreams.isEmpty
      · exact Or.inl (by simp [RunningBackend.take, hidle, point])
      · exact Or.inr (by simp [RunningBackend.take, hidle, point])
    · simp [taken, RunningBackend.take, horder]
  | turn position backend body turn =>
    cases turn with
    | swap phase => exact absurd phase body
    | collect phase =>
      refine .collect ?_ ?_ rfl rfl <;> simp [point, position, phase]
    | process phase done =>
      refine .toNext ?_ ?_ ?_ rfl rfl rfl <;> simp [point, position, phase]
    | loop phase done =>
      refine .toNext ?_ ?_ ?_ rfl rfl rfl <;> simp [point, position, phase]
  | initializeOne position phase stream rest next changes loaded =>
    refine .atPoint ?_ ?_ rfl rfl <;> simp [point, load, position, phase, next]
  | executeTask position phase operations rest next out changes executed added =>
    refine .atPoint ?_ ?_ ?_ rfl
    · simp [point, position, phase]
    · simp only [load, position, phase, next, List.length_cons]
      omega
    · simp only [taken, next, List.length_append, List.length_cons, List.length_nil]
      omega
  | resolve results position =>
    have hphase := hresolving results position
    refine .atPoint ?_ ?_ rfl rfl <;> simp [point, load, position, hphase]

/-- What stops the process: a stream that cannot be loaded, or a batch that cannot be executed. -/
inductive Stops (build : Build) (boost : BoostDate) (s : RunningBackend) : Prop where
  | stream (position : s.position = .running) (phase : s.backend.phase = .initializing)
      (stream : DataStream) (rest : List DataStream) (next : s.backend.newStreams = stream :: rest)
      (fault : Fault)
      (fails : Backend.initialChanges build boost stream s.backend.storage.current = .error fault)
  | batch (position : s.position = .running) (phase : s.backend.phase = .processing)
      (operations : Operations) (rest : List Operations) (next : s.backend.newTasks = operations :: rest)
      (fault : Fault)
      (fails : processTask build boost s.backend.activeStreams s.backend.storage s.backend.changeList
        operations = .error fault)

/-- A worker that does not wait goes on, unless it stops the process. -/
theorem exists_works (h : Placed s) (hsound : RunningBackend.Sound build boost db s.running)
    (hquit : s.running.quit = false) (hstops : ¬Stops build boost s.running)
    (hposition : s.running.position ≠ .waiting) :
    ∃ running, RunningBackend.Works build boost s.running running := by
  cases position : s.running.position with
  | head => exact ⟨_, .enter _ position hquit⟩
  | entered => exact ⟨_, .take _ position⟩
  | waiting => exact absurd position hposition
  | resolving results => exact ⟨_, .resolve _ results position⟩
  | finished =>
    have hset := h.finished position
    rw [hquit] at hset
    cases hset
  | running =>
    have hbody := h.running position
    cases phase : s.running.backend.phase with
    | top => exact absurd phase hbody
    | swapped => exact ⟨_, .turn _ position _ hbody (.collect _ phase)⟩
    | initializing =>
      cases next : s.running.backend.newStreams with
      | nil => exact ⟨_, .turn _ position _ hbody (.process _ phase next)⟩
      | cons stream rest =>
        cases loaded : Backend.initialChanges build boost stream s.running.backend.storage.current with
        | error fault => exact absurd (.stream position phase stream rest next fault loaded) hstops
        | ok changes => exact ⟨_, .initializeOne _ position phase stream rest next changes loaded⟩
    | processing =>
      cases next : s.running.backend.newTasks with
      | nil => exact ⟨_, .turn _ position _ hbody (.loop _ phase next)⟩
      | cons operations rest =>
        cases executed : processTask build boost s.running.backend.activeStreams s.running.backend.storage
            s.running.backend.changeList operations with
        | error fault => exact absurd (.batch position phase operations rest next fault executed) hstops
        | ok out =>
          obtain ⟨changes, added⟩ : ∃ changes, out.changeList = s.running.backend.changeList ++ changes := by
            rcases processTask_cases hsound.backend.idle executed with
              ⟨db, changes, -, -, hlist, -⟩ | ⟨-, -, hlist, -⟩
            · exact ⟨changes, hlist⟩
            · exact ⟨[], by rw [hlist, List.append_nil]⟩
          exact ⟨_, .executeTask _ position phase operations rest next out changes executed added⟩

/-- What brings the worker on. -/
def workerLabel (s : NotifiedBackend) : Label :=
  match s.running.position with
  | .waiting => .notify
  | _ => .work

/-- What is left alone of the worker by a step that is not its own. -/
structure Rests (r r' : RunningBackend) : Prop where
  position : r'.position = r.position
  phase : r'.backend.phase = r.backend.phase
  newTasks : r'.backend.newTasks = r.backend.newTasks
  newStreams : r'.backend.newStreams = r.backend.newStreams
  executed : r'.backend.executed = r.backend.executed

theorem Rests.point_eq {r r' : RunningBackend} (h : Rests r r') :
    point r' = point r ∧ load r' = load r ∧ taken r' = taken r := by
  refine ⟨?_, ?_, ?_⟩
  · rw [point, point, h.position, h.phase]
  · rw [load, load, h.position, h.phase, h.newTasks, h.newStreams]
  · rw [taken, taken, h.executed, h.newTasks]

theorem workerLabel_of_waiting (h : s.running.position = .waiting) : s.workerLabel = .notify := by
  rw [workerLabel, h]

theorem workerLabel_of_not_waiting (h : s.running.position ≠ .waiting) : s.workerLabel = .work := by
  unfold workerLabel
  split
  · contradiction
  · rfl

theorem step_cases (hs : Step build boost s label s') (hquit : s'.running.quit = false) :
    (Rests s.running s'.running ∧ label ≠ s.workerLabel) ∨
    (s.running.position = .waiting ∧ s'.running = { s.running with position := .running }) ∨
    RunningBackend.Works build boost s.running s'.running := by
  have hcall : Label.call ≠ s.workerLabel := by
    unfold workerLabel
    split <;> simp
  cases hs with
  | queueOperations | createStream | removeStream | applyStreamChanges =>
    exact Or.inl ⟨⟨rfl, rfl, rfl, rfl, rfl⟩, hcall⟩
  | notify calls =>
    rcases notify_eq_or s.running with ⟨hwaiting, heq⟩ | ⟨hwaiting, heq⟩
    · exact Or.inr (Or.inl ⟨hwaiting, heq⟩)
    · rw [heq, workerLabel_of_not_waiting hwaiting]
      exact Or.inl ⟨⟨rfl, rfl, rfl, rfl, rfl⟩, by simp⟩
  | wake waiting => exact Or.inr (Or.inl ⟨waiting, rfl⟩)
  | work running works => exact Or.inr (Or.inr works)
  | stop alive =>
    rcases notify_eq_or { s.running with quit := true } with ⟨-, heq⟩ | ⟨-, heq⟩
    · rw [heq] at hquit
      cases hquit
    · rw [heq] at hquit
      cases hquit
  | join stop position => simp [stop] at hquit

theorem kept_works {r r' : RunningBackend} (h : RunningBackend.Works build boost r r') :
    r'.backend.queued = r.backend.queued ∧ r'.backend.created = r.backend.created := by
  cases h with
  | turn position backend body turn => cases turn <;> exact ⟨rfl, rfl⟩
  | enter | leave | take | initializeOne | executeTask | resolve => exact ⟨rfl, rfl⟩

/-- Batches that were queued and streams that were created are not forgotten. -/
theorem kept_step (hs : Step build boost s label s') :
    s.running.backend.queued <+: s'.running.backend.queued ∧
      s.running.backend.created <+: s'.running.backend.created := by
  cases hs with
  | queueOperations alive operations => exact ⟨List.prefix_append _ _, List.prefix_rfl⟩
  | createStream => exact ⟨List.prefix_rfl, List.prefix_append _ _⟩
  | removeStream | applyStreamChanges | wake | join => exact ⟨List.prefix_rfl, List.prefix_rfl⟩
  | notify calls =>
    rcases notify_eq_or s.running with ⟨-, heq⟩ | ⟨-, heq⟩ <;> rw [heq] <;>
      exact ⟨List.prefix_rfl, List.prefix_rfl⟩
  | work running works =>
    obtain ⟨hqueued, hcreated⟩ := kept_works works
    exact ⟨hqueued.symm ▸ List.prefix_rfl, hcreated.symm ▸ List.prefix_rfl⟩
  | stop alive =>
    rcases notify_eq_or { s.running with quit := true } with ⟨-, heq⟩ | ⟨-, heq⟩ <;> rw [heq] <;>
      exact ⟨List.prefix_rfl, List.prefix_rfl⟩

theorem executed_length (h : RunningBackend.Sound build boost db s.running) :
    s.running.backend.executed.length = s.running.resolved.length +
      (RunningBackend.unanswered s.running.position).length := by
  have hanswered := congrArg List.length h.answered
  rwa [List.length_map, List.length_append] at hanswered

/-! ## A batch -/

/-- A rank of three parts, the first of which counts most. -/
def loopRank (ahead distance load : Nat) : Nat ×ₗ Nat ×ₗ Nat := toLex (ahead, toLex (distance, load))

theorem loopRank_lt {a d l a' d' l' : Nat} (h : a' < a ∨ a' = a ∧ (d' < d ∨ d' = d ∧ l' < l)) :
    loopRank a' d' l' < loopRank a d l := by
  rw [loopRank, loopRank, Prod.Lex.toLex_lt_toLex]
  refine h.imp id fun ⟨ha, h⟩ => ⟨ha, ?_⟩
  rw [Prod.Lex.toLex_lt_toLex]
  exact h

/-- The batch was queued, and its promise is not resolved. -/
structure Queued (build : Build) (boost : BoostDate) (k : Nat) (s : NotifiedBackend) : Prop where
  quit : s.running.quit = false
  goes : ¬Stops build boost s.running
  queued : k < s.running.backend.queued.length
  unresolved : s.running.resolved.length ≤ k

/-- How far the worker is from answering the batch: whether it is taken, how many points of
    the loop are left until batches are taken, and the work at this point. -/
def batchRank (k : Nat) (s : NotifiedBackend) : Nat ×ₗ Nat ×ₗ Nat :=
  loopRank (if k < taken s.running then 0 else 1) ((7 - point s.running) % 6) (load s.running)

theorem Queued.not_taken (hp : Queued build boost k s) (h : RunningBackend.Sound build boost db s.running)
    (hnone : RunningBackend.unanswered s.running.position = []) (htasks : s.running.backend.newTasks = []) :
    ¬k < taken s.running := by
  have hexecuted := executed_length h
  have hunresolved := hp.unresolved
  rw [hnone, List.length_nil] at hexecuted
  rw [taken, htasks, List.length_nil]
  omega

theorem Queued.advances (hp : Queued build boost k s)
    (h : RunningBackend.Sound build boost db s.running) (hadvances : Advances s.running s'.running) :
    s'.batchRank k < s.batchRank k := by
  have hpoint : point s.running ≤ 5 := by
    unfold point
    split <;> omega
  refine loopRank_lt ?_
  cases hadvances with
  | atPoint point load taken => exact Or.inr ⟨by rw [taken], Or.inr ⟨by rw [point], load⟩⟩
  | toNext ne ne' point taken =>
    refine Or.inr ⟨by rw [taken], Or.inl ?_⟩
    rw [point]
    omega
  | swap point point' taken =>
    -- the batch is among those that are taken now
    have hposition : s.running.position = .entered := by
      unfold NotifiedBackend.point at point
      split at point <;> first | assumption | omega
    have hnot := hp.not_taken h (by simp [hposition, RunningBackend.unanswered])
      (h.backend.tasks (h.top (Or.inr (Or.inl hposition))))
    left
    rw [if_neg hnot, if_pos (taken ▸ hp.queued)]
    exact Nat.one_pos
  | collect point point' taken =>
    refine Or.inr ⟨by rw [taken], Or.inl ?_⟩
    rw [point, point']
    omega

theorem Queued.step (hp : Queued build boost k s) (hp' : Queued build boost k s')
    (h : RunningBackend.Sound build boost db s.running) (hplaced : Placed s)
    (hs : Step build boost s label s') : s'.batchRank k < s.batchRank k ∨
      s'.batchRank k = s.batchRank k ∧ s'.workerLabel = s.workerLabel ∧ label ≠ s.workerLabel := by
  rcases step_cases hs hp'.quit with ⟨hrests, hlabel⟩ | ⟨hwaiting, heq⟩ | hworks
  · obtain ⟨hpoint, hload, htaken⟩ := hrests.point_eq
    refine Or.inr ⟨by rw [batchRank, batchRank, hpoint, hload, htaken], ?_, hlabel⟩
    rw [workerLabel, workerLabel, hrests.position]
  · have hphase := (hplaced.waiting hwaiting).1
    refine Or.inl (loopRank_lt (Or.inr ⟨?_, Or.inl ?_⟩))
    · rw [heq]
      rfl
    · rw [heq]
      simp [point, hwaiting, hphase]
  · exact Or.inl (hp.advances h (advances_of_works hworks hp.quit h hplaced.resolving))

theorem Queued.enabled (hp : Queued build boost k s) (h : RunningBackend.Sound build boost db s.running)
    (hplaced : Placed s) : ∃ s', Step build boost s s.workerLabel s' := by
  by_cases hwaiting : s.running.position = .waiting
  · obtain ⟨-, htasks, -⟩ := hplaced.waiting hwaiting
    have hnot := hp.not_taken h (by simp [hwaiting, RunningBackend.unanswered]) htasks
    have hwork : HasWork s.running := by
      left
      intro hempty
      have horder := congrArg List.length h.backend.order
      have hqueued := hp.queued
      simp only [List.length_append, List.length_map, hempty, List.length_nil, Nat.add_zero] at horder
      rw [taken] at hnot
      omega
    rw [workerLabel_of_waiting hwaiting]
    exact ⟨_, .notify s (hplaced.awake hwaiting hwork)⟩
  · rw [workerLabel_of_not_waiting hwaiting]
    obtain ⟨running, works⟩ := exists_works hplaced h hp.quit hp.goes hwaiting
    exact ⟨_, .work s running works⟩

/-! ## A stream -/

/-- The stream was created, and is not initialized. -/
structure Uninitialized (build : Build) (boost : BoostDate) (stream : DataStream) (s : NotifiedBackend) :
    Prop where
  quit : s.running.quit = false
  goes : ¬Stops build boost s.running
  created : stream ∈ s.running.backend.created
  connected : stream.streamId ∉ s.running.backend.disconnected
  waits : stream ∈ s.running.backend.uninitializedStreams ∨ stream ∈ s.running.backend.newStreams

/-- It was initialized from what some number of batches left, and got what the others did. -/
def Initialized (build : Build) (boost : BoostDate) (db : Database) (stream : DataStream) (s : NotifiedBackend) :
    Prop :=
  ∃ n ≤ s.running.backend.executed.length, ∃ snapshot,
    Backend.initialChanges build boost stream (databaseAfter db s.running.backend.executed n) = .ok snapshot ∧
    changesFor stream.streamId s.running.backend.published =
      changesFor stream.streamId snapshot ++
        batchChanges build boost stream (s.running.backend.executed.drop n)

/-- How far the worker is from initializing the stream: whether it is collected, how many
    points of the loop are left until streams are, and the work at this point. -/
def streamRank (stream : DataStream) (s : NotifiedBackend) : Nat ×ₗ Nat ×ₗ Nat :=
  loopRank (if stream.streamId ∈ s.running.backend.newStreams.map (·.streamId) then 0 else 1)
    ((9 - point s.running) % 6) (load s.running)

variable {stream : DataStream}

theorem Uninitialized.or_initialized (h : RunningBackend.Sound build boost db s.running)
    (hquit : s.running.quit = false) (hgoes : ¬Stops build boost s.running)
    (hcreated : stream ∈ s.running.backend.created)
    (hconnected : stream.streamId ∉ s.running.backend.disconnected) :
    Initialized build boost db stream s ∨ Uninitialized build boost stream s := by
  cases h.backend.streams stream hcreated hconnected with
  | waiting uninitialized => exact Or.inr ⟨hquit, hgoes, hcreated, hconnected, Or.inl uninitialized⟩
  | starting new => exact Or.inr ⟨hquit, hgoes, hcreated, hconnected, Or.inr new⟩
  | running active notNew n bound snapshot loaded sent => exact Or.inl ⟨n, bound, snapshot, loaded, sent⟩

theorem Uninitialized.not_new (hp : Uninitialized build boost stream s)
    (h : RunningBackend.Sound build boost db s.running)
    (hwaits : stream ∈ s.running.backend.uninitializedStreams) :
    stream.streamId ∉ s.running.backend.newStreams.map (·.streamId) := by
  have hinactive := h.backend.waitingInactive stream hwaits
  cases h.backend.streams stream hp.created hp.connected with
  | waiting _ _ notNew => exact notNew
  | starting _ active => exact absurd (List.mem_map_of_mem active) hinactive
  | running active => exact absurd (List.mem_map_of_mem active) hinactive

theorem Uninitialized.mem_new (hp : Uninitialized build boost stream s)
    (hwaits : stream ∉ s.running.backend.uninitializedStreams) :
    stream.streamId ∈ s.running.backend.newStreams.map (·.streamId) :=
  List.mem_map_of_mem (hp.waits.resolve_left hwaits)

theorem Uninitialized.advances (hp : Uninitialized build boost stream s)
    (hp' : Uninitialized build boost stream s') (h : RunningBackend.Sound build boost db s.running)
    (h' : RunningBackend.Sound build boost db s'.running) (hadvances : Advances s.running s'.running) :
    s'.streamRank stream < s.streamRank stream := by
  have hpoint : point s.running ≤ 5 := by
    unfold point
    split <;> omega
  refine loopRank_lt ?_
  cases hadvances with
  | atPoint point load taken streams =>
    -- a stream that was not collected is not collected here
    refine Or.inr ⟨?_, Or.inr ⟨by rw [point], load⟩⟩
    by_cases hwaits : stream ∈ s.running.backend.uninitializedStreams
    · rw [if_neg (hp.not_new h hwaits), if_neg (hp'.not_new h' (streams ▸ hwaits))]
    · rw [if_pos (hp.mem_new hwaits), if_pos (hp'.mem_new (streams ▸ hwaits))]
  | toNext ne ne' point taken streams new =>
    refine Or.inr ⟨by rw [new], Or.inl ?_⟩
    rw [point]
    omega
  | swap point point' taken streams new =>
    refine Or.inr ⟨by rw [new], Or.inl ?_⟩
    rw [point]
    omega
  | collect point point' taken new =>
    have hphase : s.running.backend.phase ≠ .initializing := by
      intro hphase
      unfold NotifiedBackend.point at point
      split at point <;> simp_all
    have hnone := h.backend.initializing hphase
    have hwaits : stream ∈ s.running.backend.uninitializedStreams := by
      rcases hp.waits with hwaits | hnew
      · exact hwaits
      · rw [hnone] at hnew
        exact absurd hnew List.not_mem_nil
    left
    rw [if_neg (hp.not_new h hwaits), new, if_pos (List.mem_map_of_mem hwaits)]
    exact Nat.one_pos

theorem Uninitialized.step (hp : Uninitialized build boost stream s)
    (hp' : Uninitialized build boost stream s') (h : RunningBackend.Sound build boost db s.running)
    (h' : RunningBackend.Sound build boost db s'.running) (hplaced : Placed s)
    (hs : Step build boost s label s') : s'.streamRank stream < s.streamRank stream ∨
      s'.streamRank stream = s.streamRank stream ∧ s'.workerLabel = s.workerLabel ∧
        label ≠ s.workerLabel := by
  rcases step_cases hs hp'.quit with ⟨hrests, hlabel⟩ | ⟨hwaiting, heq⟩ | hworks
  · obtain ⟨hpoint, hload, -⟩ := hrests.point_eq
    refine Or.inr ⟨by rw [streamRank, streamRank, hpoint, hload, hrests.newStreams], ?_, hlabel⟩
    rw [workerLabel, workerLabel, hrests.position]
  · have hphase := (hplaced.waiting hwaiting).1
    refine Or.inl (loopRank_lt (Or.inr ⟨?_, Or.inl ?_⟩))
    · rw [heq]
    · rw [heq]
      simp [point, hwaiting, hphase]
  · exact Or.inl (hp.advances hp' h h' (advances_of_works hworks hp.quit h hplaced.resolving))

theorem Uninitialized.enabled (hp : Uninitialized build boost stream s)
    (h : RunningBackend.Sound build boost db s.running) (hplaced : Placed s) :
    ∃ s', Step build boost s s.workerLabel s' := by
  by_cases hwaiting : s.running.position = .waiting
  · have hphase := (hplaced.waiting hwaiting).1
    have hnone := h.backend.initializing (by simp [hphase])
    have hwork : HasWork s.running := by
      right
      intro hempty
      have hwaits := hp.waits
      rw [hempty, hnone] at hwaits
      simp at hwaits
    rw [workerLabel_of_waiting hwaiting]
    exact ⟨_, .notify s (hplaced.awake hwaiting hwork)⟩
  · rw [workerLabel_of_not_waiting hwaiting]
    obtain ⟨running, works⟩ := exists_works hplaced h hp.quit hp.goes hwaiting
    exact ⟨_, .work s running works⟩

/-! ## Runs without an end -/

/-- What threads are trusted with: a call that notifies returns, and the worker goes on. -/
def Label.isFair : Label → Bool
  | .notify | .work => true
  | .call | .wake | .stop | .join => false

theorem isFair_workerLabel (s : NotifiedBackend) : s.workerLabel.isFair = true := by
  unfold workerLabel
  split <;> rfl

/-- The promise of the batch is resolved with what it was executed to. -/
def Answered (k : Nat) (s : NotifiedBackend) : Prop :=
  ∃ record : BatchRecord, s.running.backend.executed[k]? = some record ∧
    s.running.backend.queued[k]? = some record.operations ∧ s.running.resolved[k]? = some record.results

theorem answered_of_lt (h : RunningBackend.Sound build boost db s.running)
    (hk : k < s.running.resolved.length) : s.Answered k := by
  have hlength := executed_length h
  have hexecuted : k < s.running.backend.executed.length := by omega
  refine ⟨s.running.backend.executed[k], List.getElem?_eq_getElem hexecuted, ?_, ?_⟩
  · rw [h.backend.order, List.append_assoc, List.getElem?_append_left (by simpa using hexecuted),
      List.getElem?_map, List.getElem?_eq_getElem hexecuted]
    rfl
  · have hresults := congrArg (fun results => results[k]?) h.answered
    simp only [List.getElem?_append_left hk, List.getElem?_map] at hresults
    rw [← hresults, List.getElem?_eq_getElem hexecuted]
    rfl

/-- Why the process stops: a stream cannot be loaded, an operation stops on an assertion of
    this build, or a stream is announced to whose endpoint is unknown. -/
theorem Stops.reason (hstops : Stops build boost s.running)
    (h : RunningBackend.Sound build boost db s.running) :
    (∃ stream ∈ s.running.backend.created, ∃ fault,
      Backend.initialChanges build boost stream s.running.backend.storage.current = .error fault) ∨
    (∃ operations ∈ s.running.backend.queued, ∃ op ∈ operations, ¬Runs build op) ∨
    ∃ stream ∈ s.running.backend.created, ¬Registered stream := by
  cases hstops with
  | stream position phase stream rest next fault fails =>
    exact Or.inl ⟨stream, h.backend.new.subset (next ▸ List.mem_cons_self), fault, fails⟩
  | batch position phase operations rest next fault fails =>
    right
    by_contra hnone
    rw [not_or] at hnone
    push Not at hnone
    obtain ⟨hruns, hregistered⟩ := hnone
    have hmem : operations ∈ s.running.backend.queued := by
      rw [h.backend.order, next]
      simp
    have hcomes : ∀ op, ComesTo build boost s.running.backend.activeStreams
        s.running.backend.storage.begin_.current operations op → Runs build op :=
      fun op hop => hruns operations hmem op hop.mem
    obtain ⟨⟨db', changes, results, rollback⟩, hran⟩ := runOperations_ok
      (fun stream hstream => hregistered stream (h.backend.active stream hstream)) hcomes
    rw [processTask, Except.bind_ok hran] at fails
    cases rollback <;> cases fails

theorem reached_sound (h : Reached build boost db s) : RunningBackend.Sound build boost db s.running :=
  RunningBackend.reached_sound (reached_running h)

theorem queued_leadsTo {run : InfiniteRun (New db) (Next build boost)}
    (fair : ∀ label : Label, label.isFair = true → run.WeaklyFair fun s s' => Step build boost s label s')
    (k : Nat) : run.LeadsTo (fun s => k < s.running.backend.queued.length) fun s =>
      s.running.quit = true ∨ Stops build boost s.running ∨ k < s.running.resolved.length := by
  have hcases : ∀ s : NotifiedBackend, k < s.running.backend.queued.length →
      (s.running.quit = true ∨ Stops build boost s.running ∨ k < s.running.resolved.length) ∨
        Queued build boost k s := by
    intro s hqueued
    by_cases hdone : s.running.quit = true ∨ Stops build boost s.running ∨ k < s.running.resolved.length
    · exact Or.inl hdone
    · rw [not_or, not_or, Bool.not_eq_true, not_lt] at hdone
      exact Or.inr ⟨hdone.1, hdone.2.1, hqueued, hdone.2.2⟩
  have hwaits : run.LeadsTo (Queued build boost k) fun s =>
      s.running.quit = true ∨ Stops build boost s.running ∨ k < s.running.resolved.length := by
    refine .of_labels fair (batchRank k) workerLabel isFair_workerLabel (fun s label s' hs hp hstep => ?_)
      (fun s hs hp => hp.enabled (reached_sound hs) (reached_placed hs))
    rcases hcases s' (hp.queued.trans_le (kept_step hstep).1.length_le) with hdone | hp'
    · exact Or.inl hdone
    · exact Or.inr ⟨hp', hp.step hp' (reached_sound hs) (reached_placed hs) hstep⟩
  intro n hn
  rcases hcases _ hn with hdone | hp
  · exact ⟨n, le_rfl, hdone⟩
  · exact hwaits n hp

theorem created_leadsTo {run : InfiniteRun (New db) (Next build boost)}
    (fair : ∀ label : Label, label.isFair = true → run.WeaklyFair fun s s' => Step build boost s label s')
    (stream : DataStream) : run.LeadsTo (fun s => stream ∈ s.running.backend.created) fun s =>
      s.running.quit = true ∨ Stops build boost s.running ∨
        stream.streamId ∈ s.running.backend.disconnected ∨ Initialized build boost db stream s := by
  have hcases : ∀ s : NotifiedBackend, RunningBackend.Sound build boost db s.running →
      stream ∈ s.running.backend.created →
      (s.running.quit = true ∨ Stops build boost s.running ∨
        stream.streamId ∈ s.running.backend.disconnected ∨ Initialized build boost db stream s) ∨
        Uninitialized build boost stream s := by
    intro s hsound hcreated
    by_cases hdone : s.running.quit = true ∨ Stops build boost s.running ∨
        stream.streamId ∈ s.running.backend.disconnected
    · exact Or.inl (hdone.imp id (Or.imp id Or.inl))
    · rw [not_or, not_or, Bool.not_eq_true] at hdone
      rcases Uninitialized.or_initialized hsound hdone.1 hdone.2.1 hcreated hdone.2.2 with hinit | hp
      · exact Or.inl (Or.inr (Or.inr (Or.inr hinit)))
      · exact Or.inr hp
  have hwaits : run.LeadsTo (Uninitialized build boost stream) fun s =>
      s.running.quit = true ∨ Stops build boost s.running ∨
        stream.streamId ∈ s.running.backend.disconnected ∨ Initialized build boost db stream s := by
    refine .of_labels fair (streamRank stream) workerLabel isFair_workerLabel
      (fun s label s' hs hp hstep => ?_) (fun s hs hp => hp.enabled (reached_sound hs) (reached_placed hs))
    have hsound' := reached_sound (hs.step ⟨label, hstep⟩)
    rcases hcases s' hsound' ((kept_step hstep).2.subset hp.created) with hdone | hp'
    · exact Or.inl hdone
    · exact Or.inr ⟨hp', hp.step hp' (reached_sound hs) hsound' (reached_placed hs) hstep⟩
  intro n hn
  rcases hcases _ (reached_sound (run.reachable n)) hn with hdone | hp
  · exact ⟨n, le_rfl, hdone⟩
  · exact hwaits n hp

/-- In every run without an end in which the worker goes on when it can and calls that notify
    it return, however many batches and streams come in meanwhile: the promise of each batch
    is resolved, with the results of executing it in its turn, and each stream that is not
    removed is initialized and kept up to date, unless the backend is stopped before, or
    something stops the process. That is a stream that cannot be loaded, an operation that
    fails an assertion, or a stream with an unknown endpoint. -/
theorem worker_progress (build : Build) (boost : BoostDate) (db : Database)
    (run : InfiniteRun (New db) (Next build boost))
    (fair : ∀ label : Label, label.isFair = true →
      run.WeaklyFair fun s s' => Step build boost s label s') :
    (∀ k, run.LeadsTo (fun s => k < s.running.backend.queued.length) fun s =>
      s.running.quit = true ∨ Stops build boost s.running ∨ s.Answered k) ∧
    (∀ stream, run.LeadsTo (fun s => stream ∈ s.running.backend.created) fun s =>
      s.running.quit = true ∨ Stops build boost s.running ∨
        stream.streamId ∈ s.running.backend.disconnected ∨ Initialized build boost db stream s) ∧
    ∀ n, Stops build boost (run.state n).running →
      (∃ stream ∈ (run.state n).running.backend.created, ∃ fault, Backend.initialChanges build boost stream
        (run.state n).running.backend.storage.current = .error fault) ∨
      (∃ operations ∈ (run.state n).running.backend.queued, ∃ op ∈ operations, ¬Runs build op) ∨
      ∃ stream ∈ (run.state n).running.backend.created, ¬Registered stream := by
  refine ⟨fun k => (queued_leadsTo fair k).trans (.of_imp fun s hs h => ?_), created_leadsTo fair,
    fun n hstops => hstops.reason (reached_sound (run.reachable n))⟩
  exact h.imp id (Or.imp id (answered_of_lt (reached_sound hs)))

theorem weaklyFair_of_rests {run : InfiniteRun (New db) (Next build boost)} {n : Nat} (h : run.Rests n s)
    (hwaiting : s.running.position = .waiting) (hnotifies : s.notifies = 0) (label : Label)
    (hfair : label.isFair = true) : run.WeaklyFair fun s s' => Step build boost s label s' := by
  refine h.weaklyFair fun s' hs => ?_
  cases hs with
  | queueOperations | createStream | removeStream | applyStreamChanges | wake | stop | join => cases hfair
  | notify calls => simp [hnotifies] at calls
  | work running works =>
    cases works with
    | enter position | leave position | take position | turn position | initializeOne position
    | executeTask position | resolve _ position => simp [hwaiting] at position

/-- A batch is queued before the worker has come to its loop. -/
theorem worker_progress_eraseAllData : ∃ (run : InfiniteRun (New {}) (Next .debug .gregorian)) (n : Nat),
    (run.state n).running.backend.queued = [[.eraseAllData]] ∧
    ∃ m ≥ n, (run.state m).running.quit = true ∨ Stops .debug .gregorian (run.state m).running ∨
      (run.state m).Answered 0 := by
  have h₀ : Reached .debug .gregorian {} { running := { backend := { storage := { current := {} } } } } :=
    .init rfl
  have h₁ := h₀.step ⟨_, .queueOperations _ rfl [.eraseAllData]⟩
  obtain ⟨run₁, n, hn⟩ := InfiniteRun.exists_rests h₁
  obtain ⟨run, m, hsame, hnm, hm⟩ := hn.goOn (.tail (.tail (.tail (.tail (.tail (.tail (.tail (.tail
    (.tail (.tail .refl
    ⟨_, .work _ _ (.enter _ rfl rfl)⟩) ⟨_, .notify _ Nat.one_pos⟩) ⟨_, .work _ _ (.take _ rfl)⟩)
    ⟨_, .work _ _ (.turn _ rfl _ (by decide) (.collect _ rfl))⟩)
    ⟨_, .work _ _ (.turn _ rfl _ (by decide) (.process _ rfl rfl))⟩)
    ⟨_, .work _ _ (.executeTask _ rfl rfl _ _ rfl _ [] rfl rfl)⟩) ⟨_, .work _ _ (.resolve _ _ rfl)⟩)
    ⟨_, .work _ _ (.turn _ rfl _ (by decide) (.loop _ rfl rfl))⟩) ⟨_, .work _ _ (.enter _ rfl rfl)⟩)
    ⟨_, .work _ _ (.take _ rfl)⟩)
  obtain ⟨hbatches, -, -⟩ := worker_progress .debug .gregorian {} run (weaklyFair_of_rests hm rfl rfl)
  have hstate := (hsame n le_rfl).trans (hn n le_rfl)
  exact ⟨run, n, by rw [hstate]; rfl, hbatches 0 n (by rw [hstate]; exact Nat.one_pos)⟩

end NotifiedBackend

end HotelPms

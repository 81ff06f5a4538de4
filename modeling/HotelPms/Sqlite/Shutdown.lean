import HotelPms.Sqlite.Worker

/- The destructor of the backend, and the batches that are queued when it runs.

   `stopAndJoin` sets `_quitBackendThread` and waits for the worker. The worker looks at
   the flag at the head of its loop, and swaps the queue later, so that what is still
   queued when it finds the flag set is never executed. Each step below is one atomic
   step of the worker, of the destructor, or a call of a client; clients make no call once
   the destructor runs.

   `accepted_batches_iff` says which batches are lost: when the worker has been joined,
   all batches were executed and answered exactly if, when the flag was set, the queue was
   empty, or the worker had just found the flag not set and had not swapped the queue. -/
namespace HotelPms
open Lib SqliteStorage SqliteBackend

namespace Backend

/-- A call of a client. -/
inductive Call : Backend → Backend → Prop where
  | queueOperations (s : Backend) (operations : Operations) :
    Call s { s with
      operationsQueue := s.operationsQueue ++ [operations], queued := s.queued ++ [operations] }
  | createStream (s : Backend) (streamType : StreamableType) (endpoint : String) (options : Json)
      (stream : DataStream)
      (new : stream = { streamId := s.nextStreamId, streamType, endpoint, options }) :
    Call s { s with
      nextStreamId := s.nextStreamId + 1
      dataStreams := s.dataStreams ++ [stream]
      uninitializedStreams := s.uninitializedStreams ++ [stream]
      created := s.created ++ [stream] }
  | removeStream (s : Backend) (stream : DataStream) (created : stream ∈ s.created) :
    Call s { s with
      disconnected := stream.streamId :: s.disconnected
      uninitializedStreams := s.uninitializedStreams.filter (·.streamId != stream.streamId)
      activeStreams := s.activeStreams.filter (·.streamId != stream.streamId) }
  | applyStreamChanges (s : Backend) :
    Call s { s with
      dataStreams := s.applyStreamChanges.1
      changeList := []
      delivered := s.delivered ++ s.applyStreamChanges.2 }

theorem Call.step {build : Build} {boost : BoostDate} {s s' : Backend} (h : Call s s') :
    Step build boost s s' := by
  cases h with
  | queueOperations operations => exact .queueOperations s operations
  | createStream streamType endpoint options stream new =>
    exact .createStream s streamType endpoint options stream new
  | removeStream stream created => exact .removeStream s stream created
  | applyStreamChanges => exact .applyStreamChanges s

theorem Turn.step {build : Build} {boost : BoostDate} {s s' : Backend} (h : Turn s s') :
    Step build boost s s' := by
  cases h with
  | swap phase => exact .swap s phase
  | collect phase => exact .collect s phase
  | process phase done => exact .process s phase done
  | loop phase done => exact .loop s phase done

end Backend

/-- Where the worker is in `threadMain`. -/
inductive WorkerPosition where
  /-- at the condition of the loop -/
  | head
  /-- in the body; it does not hold the lock, and the queue is not swapped -/
  | entered
  /-- in `_workAvailableCondition.wait` -/
  | waiting
  /-- after `lock.unlock()` -/
  | running
  /-- a batch was executed, and its promise is not resolved -/
  | resolving (results : List TaskResult)
  /-- after the loop -/
  | finished

/-- A backend with its worker thread. -/
structure RunningBackend where
  backend : Backend
  position : WorkerPosition := .head
  /-- `_quitBackendThread` -/
  quit : Bool := false
  /-- `_backendThread.join()` has returned. -/
  joined : Bool := false
  /-- history: what promises were resolved with -/
  resolved : List (List TaskResult) := []

namespace RunningBackend

/-- The worker holds the lock from the swap until it waits or unlocks. -/
def take (s : RunningBackend) : RunningBackend :=
  { s with
    backend := { s.backend with
      phase := .swapped, newTasks := s.backend.operationsQueue, operationsQueue := [] }
    position :=
      if !s.quit && s.backend.operationsQueue.isEmpty && s.backend.uninitializedStreams.isEmpty then
        .waiting
      else .running }

inductive Step (build : Build) (boost : BoostDate) : RunningBackend → RunningBackend → Prop where
  | call (s : RunningBackend) (alive : s.quit = false) (backend : Backend)
      (call : s.backend.Call backend) : Step build boost s { s with backend }
  | enter (s : RunningBackend) (position : s.position = .head) (go : s.quit = false) :
    Step build boost s { s with position := .entered }
  | leave (s : RunningBackend) (position : s.position = .head) (stop : s.quit = true) :
    Step build boost s { s with position := .finished }
  | take (s : RunningBackend) (position : s.position = .entered) : Step build boost s s.take
  /-- by a notification, or for no reason -/
  | wake (s : RunningBackend) (position : s.position = .waiting) :
    Step build boost s { s with position := .running }
  | turn (s : RunningBackend) (position : s.position = .running) (backend : Backend)
      (body : s.backend.phase ≠ .top) (turn : s.backend.Turn backend) :
    Step build boost s { s with
      backend, position := if backend.phase = .top then .head else .running }
  | initializeOne (s : RunningBackend) (position : s.position = .running)
      (phase : s.backend.phase = .initializing) (stream : DataStream) (rest : List DataStream)
      (next : s.backend.newStreams = stream :: rest) (changes : List DataStreamDifferential)
      (loaded : Backend.initialChanges build boost stream s.backend.storage.current = .ok changes) :
    Step build boost s { s with
      backend := { s.backend with
        newStreams := rest
        changeList := s.backend.changeList ++ changes
        published := s.backend.published ++ changes } }
  | executeTask (s : RunningBackend) (position : s.position = .running)
      (phase : s.backend.phase = .processing) (operations : Operations) (rest : List Operations)
      (next : s.backend.newTasks = operations :: rest) (out : TaskOutcome)
      (changes : List DataStreamDifferential)
      (executed : processTask build boost s.backend.activeStreams s.backend.storage
        s.backend.changeList operations = .ok out)
      (added : out.changeList = s.backend.changeList ++ changes) :
    Step build boost s { s with
      backend := { s.backend with
        newTasks := rest
        storage := out.storage
        changeList := out.changeList
        published := s.backend.published ++ changes
        executed := s.backend.executed ++
          [{ before := s.backend.storage.current, operations, results := out.results,
             committed := out.committed, after := out.storage.current }] }
      position := .resolving out.results }
  | resolve (s : RunningBackend) (results : List TaskResult) (position : s.position = .resolving results) :
    Step build boost s { s with position := .running, resolved := s.resolved ++ [results] }
  /-- `stopAndJoin` up to `join()`, which holds the lock -/
  | stop (s : RunningBackend) (alive : s.quit = false) : Step build boost s { s with quit := true }
  | join (s : RunningBackend) (stop : s.quit = true) (position : s.position = .finished) :
    Step build boost s { s with joined := true }

/-- The states that a backend on a database can reach. -/
def Reached (build : Build) (boost : BoostDate) (db : Database) (s : RunningBackend) : Prop :=
  Reachable (fun s => s = { backend := { storage := { current := db } } }) (Step build boost) s

variable {build : Build} {boost : BoostDate} {db : Database} {s s' t : RunningBackend}

/-- The backend does what `Backend.Step` says, one step or none. -/
theorem simulates (hs : Step build boost s s') (hphase : s.position = .entered → s.backend.phase = .top) :
    s'.backend = s.backend ∨ Backend.Step build boost s.backend s'.backend := by
  cases hs with
  | call alive backend call => exact Or.inr call.step
  | enter position go => exact Or.inl rfl
  | leave position stop => exact Or.inl rfl
  | take position => exact Or.inr (.swap s.backend (hphase position))
  | wake position => exact Or.inl rfl
  | turn position backend body turn => exact Or.inr turn.step
  | initializeOne position phase stream rest next changes loaded =>
    exact Or.inr (.initializeOne s.backend phase stream rest next changes loaded)
  | executeTask position phase operations rest next out changes executed added =>
    exact Or.inr (.executeTask s.backend phase operations rest next out changes executed added)
  | resolve results position => exact Or.inl rfl
  | stop alive => exact Or.inl rfl
  | join stop position => exact Or.inl rfl

/-- What was executed and not answered yet. -/
def unanswered : WorkerPosition → List (List TaskResult)
  | .resolving results => [results]
  | _ => []

/-- The worker is not in the body of the loop, or has not swapped the queue. -/
def AtTop (position : WorkerPosition) : Prop :=
  position = .head ∨ position = .entered ∨ position = .finished

/-- What holds of the worker and what it has executed, wherever it is. -/
structure Sound (build : Build) (boost : BoostDate) (db : Database) (s : RunningBackend) : Prop where
  backend : Backend.Sound build boost db s.backend
  top : AtTop s.position → s.backend.phase = .top
  answered : s.backend.executed.map (·.results) = s.resolved ++ unanswered s.position
  /-- It is joined only after the loop. -/
  joined : s.joined = true → s.position = .finished ∧ s.quit = true

theorem sound_init (build : Build) (boost : BoostDate) (db : Database) :
    Sound build boost db { backend := { storage := { current := db } } } where
  backend := Backend.sound_init build boost db
  top _ := rfl
  answered := rfl
  joined h := by cases h

theorem Sound.of_body (h : Sound build boost db s) (hpos : s.position ≠ .finished)
    (hbackend : Backend.Sound build boost db s'.backend)
    (hexecuted : s'.backend.executed = s.backend.executed) (hresolved : s'.resolved = s.resolved)
    (hunanswered : unanswered s'.position = unanswered s.position)
    (htop : AtTop s'.position → s'.backend.phase = .top) (hjoined : s'.joined = s.joined) :
    Sound build boost db s' where
  backend := hbackend
  top := htop
  answered := by rw [hexecuted, hresolved, hunanswered, h.answered]
  joined hj := absurd (h.joined (hjoined ▸ hj)).1 hpos

theorem sound_step (h : Sound build boost db s) (hs : Step build boost s s') :
    Sound build boost db s' := by
  have hbackend : Backend.Sound build boost db s'.backend := by
    rcases simulates hs fun hentered => h.top (Or.inr (Or.inl hentered)) with heq | hstep
    · rw [heq]
      exact h.backend
    · exact Backend.sound_step h.backend hstep
  cases hs with
  | call alive backend call =>
    refine ⟨hbackend, fun hpos => ?_, ?_, h.joined⟩
    · rw [← h.top hpos]
      cases call <;> rfl
    · rw [← h.answered]
      cases call <;> rfl
  | enter position go =>
    exact h.of_body (by simp [position]) hbackend rfl rfl (by simp [position, unanswered])
      (fun _ => h.top (Or.inl position)) rfl
  | leave position stop =>
    refine ⟨hbackend, fun _ => h.top (Or.inl position), ?_, fun _ => ⟨rfl, stop⟩⟩
    have hanswered := h.answered
    rwa [position] at hanswered
  | take position =>
    have hafter : s.take.position = .waiting ∨ s.take.position = .running := by
      unfold RunningBackend.take
      dsimp only
      split
      · exact Or.inl rfl
      · exact Or.inr rfl
    refine h.of_body (by simp [position]) hbackend rfl rfl ?_ (fun hpos => ?_) rfl
    · rcases hafter with hafter | hafter <;> simp [hafter, position, unanswered]
    · rcases hafter with hafter | hafter <;> simp [hafter, AtTop] at hpos
  | wake position =>
    exact h.of_body (by simp [position]) hbackend rfl rfl (by simp [position, unanswered])
      (by simp [AtTop]) rfl
  | turn position backend body turn =>
    refine h.of_body (by simp [position]) hbackend ?_ rfl ?_ (fun hpos => ?_) rfl
    · cases turn <;> rfl
    · dsimp only
      rw [position]
      split <;> rfl
    · -- the worker is back at the head only if the body has ended
      dsimp only at hpos ⊢
      by_contra hphase
      simp [hphase, AtTop] at hpos
  | initializeOne position phase stream rest next changes loaded =>
    exact h.of_body (by simp [position]) hbackend rfl rfl rfl (by simp [position, AtTop]) rfl
  | executeTask position phase operations rest next out changes executed added =>
    refine ⟨hbackend, by simp [AtTop], ?_, fun hj => ?_⟩
    · have hanswered := h.answered
      rw [position] at hanswered
      rw [List.map_append, hanswered]
      simp [unanswered]
    · have hfinished := (h.joined hj).1
      rw [position] at hfinished
      cases hfinished
  | resolve results position =>
    refine ⟨hbackend, by simp [AtTop], ?_, fun hj => ?_⟩
    · have hanswered := h.answered
      rw [position] at hanswered
      rw [hanswered]
      simp [unanswered]
    · have hfinished := (h.joined hj).1
      rw [position] at hfinished
      cases hfinished
  | stop alive => exact ⟨hbackend, h.top, h.answered, fun hj => ⟨(h.joined hj).1, rfl⟩⟩
  | join stop position => exact ⟨hbackend, h.top, h.answered, fun _ => ⟨position, stop⟩⟩

theorem reached_sound (h : Reached build boost db s) : Sound build boost db s := by
  refine Reachable.invariant (I := Sound build boost db) ?_ (fun _ _ => sound_step) h
  intro s hs
  rw [hs]
  exact sound_init build boost db

/-! ## After the flag is set -/

/-- The queue is not swapped any more once the flag is set, but by a worker that had found it
    not set: what a step keeps. -/
structure Stopped (s s' : RunningBackend) : Prop where
  quit : s'.quit = true
  queued : s'.backend.queued = s.backend.queued
  /-- The queue is empty, or will be. -/
  taken : s.backend.operationsQueue = [] ∨ s.position = .entered →
    s'.backend.operationsQueue = [] ∨ s'.position = .entered
  /-- The queue is left as it is. -/
  left : ¬(s.backend.operationsQueue = [] ∨ s.position = .entered) →
    ¬(s'.backend.operationsQueue = [] ∨ s'.position = .entered)

theorem stopped_step (hs : Step build boost s s') (hquit : s.quit = true) : Stopped s s' := by
  cases hs with
  | call alive => simp [hquit] at alive
  | enter position go => simp [hquit] at go
  | leave position stop => exact ⟨hquit, rfl, by simp [position], by simp [position]⟩
  | take position => exact ⟨hquit, rfl, fun _ => Or.inl rfl, fun hnot => absurd (Or.inr position) hnot⟩
  | wake position => exact ⟨hquit, rfl, by simp [position], by simp [position]⟩
  | turn position backend body turn =>
    have hkept : backend.queued = s.backend.queued ∧
        backend.operationsQueue = s.backend.operationsQueue := by
      cases turn with
      | swap phase => exact absurd phase body
      | collect phase => exact ⟨rfl, rfl⟩
      | process phase done => exact ⟨rfl, rfl⟩
      | loop phase done => exact ⟨rfl, rfl⟩
    have hnot : (if backend.phase = .top then WorkerPosition.head else .running) ≠ .entered := by
      split <;> simp
    refine ⟨hquit, hkept.1, ?_, ?_⟩ <;> simp [hkept.2, hnot, position]
  | initializeOne position => exact ⟨hquit, rfl, id, id⟩
  | executeTask position => exact ⟨hquit, rfl, by simp [position], by simp [position]⟩
  | resolve results position => exact ⟨hquit, rfl, by simp [position], by simp [position]⟩
  | stop alive => simp [hquit] at alive
  | join stop position => exact ⟨hquit, rfl, id, id⟩

theorem stopped_run (hrun : Relation.ReflTransGen (Step build boost) s t) (hquit : s.quit = true) :
    Stopped s t := by
  induction hrun with
  | refl => exact ⟨hquit, rfl, id, id⟩
  | tail hrun hs ih =>
    have hstep := stopped_step hs ih.quit
    exact ⟨hstep.quit, hstep.queued.trans ih.queued, fun h => hstep.taken (ih.taken h),
      fun h => hstep.left (ih.left h)⟩

theorem reached_run (h : Reached build boost db s)
    (hrun : Relation.ReflTransGen (Step build boost) s t) : Reached build boost db t :=
  Reachable.run h hrun

/-- Let the destructor set the flag in a reachable state. Whatever follows until it has
    joined the worker, every batch was by then executed once, in the order of the queue,
    and its promise resolved with its results, exactly if the queue was empty when the
    flag was set, or the worker had found it not set and had not swapped the queue. -/
theorem accepted_batches_iff (h : Reached build boost db s) (alive : s.quit = false)
    (run : Relation.ReflTransGen (Step build boost) { s with quit := true } t)
    (joined : t.joined = true) :
    (t.backend.executed.map (·.operations) = s.backend.queued ∧
      t.resolved = t.backend.executed.map (·.results)) ↔
    (s.backend.operationsQueue = [] ∨ s.position = .entered) := by
  have hsound := reached_sound (reached_run (h.step (.stop s alive)) run)
  have hstopped := stopped_run run rfl
  obtain ⟨hfinished, -⟩ := hsound.joined joined
  have horder := hsound.backend.order
  rw [hsound.backend.tasks (hsound.top (Or.inr (Or.inr hfinished))), List.append_nil,
    hstopped.queued] at horder
  have hanswered := hsound.answered
  rw [hfinished] at hanswered
  have hempty : t.backend.operationsQueue = [] ∨ t.position = .entered ↔
      t.backend.operationsQueue = [] := by simp [hfinished]
  have hcondition : (s.backend.operationsQueue = [] ∨ s.position = .entered) ↔
      t.backend.operationsQueue = [] := by
    rw [← hempty]
    exact ⟨hstopped.taken, fun ht => by_contra fun hs => hstopped.left hs ht⟩
  rw [hcondition, and_iff_left (by simp [hanswered, unanswered])]
  dsimp only at horder
  rw [horder]
  simp

/-- The worker has found the flag not set; then a batch is queued. -/
def enteredWithBatch (db : Database) : RunningBackend where
  backend := {
    storage := { current := db }, operationsQueue := [[.eraseAllData]], queued := [[.eraseAllData]] }
  position := .entered

/-- The batch is executed and answered before the worker is joined. -/
theorem accepted_batches_iff_entered : ∃ t : RunningBackend, t.joined = true ∧
    t.backend.executed.map (·.operations) = [[.eraseAllData]] ∧
    t.resolved = t.backend.executed.map (·.results) := by
  have h₀ : Reached .debug .gregorian {} { backend := { storage := { current := {} } } } := .init rfl
  have h₁ := h₀.step (.enter _ rfl rfl)
  have h₂ : Reached .debug .gregorian {} (enteredWithBatch {}) :=
    h₁.step (.call _ rfl _ (.queueOperations _ [.eraseAllData]))
  have r₁ : Relation.ReflTransGen (Step .debug .gregorian) { enteredWithBatch {} with quit := true } _ :=
    .single (.take _ rfl)
  have r₂ := r₁.tail (.turn _ rfl _ (by decide) (.collect _ rfl))
  have r₃ := r₂.tail (.turn _ rfl _ (by decide) (.process _ rfl rfl))
  have r₄ := r₃.tail (.executeTask _ rfl rfl _ _ rfl _ [] rfl rfl)
  have r₅ := r₄.tail (.resolve _ _ rfl)
  have r₆ := r₅.tail (.turn _ rfl _ (by decide) (.loop _ rfl rfl))
  have r₇ := r₆.tail (.leave _ rfl rfl)
  have r₈ := r₇.tail (.join _ rfl rfl)
  exact ⟨_, rfl, (accepted_batches_iff h₂ rfl r₈ rfl).2 (Or.inr rfl)⟩

/-- The worker waits; then a batch is queued. -/
def waitingWithBatch (db : Database) : RunningBackend where
  backend := {
    storage := { current := db }, operationsQueue := [[.eraseAllData]], queued := [[.eraseAllData]]
    phase := .swapped }
  position := .waiting

/-- The notification wakes the worker. It goes around with the tasks it had before it
    waited, which are none, finds the flag set and ends: the batch is not executed, and its
    promise is never resolved. -/
theorem batch_lost : ∃ s t : RunningBackend, Reached .debug .gregorian {} s ∧ s.quit = false ∧
    s.backend.queued = [[.eraseAllData]] ∧
    Relation.ReflTransGen (Step .debug .gregorian) { s with quit := true } t ∧ t.joined = true ∧
    t.backend.executed.length = 0 ∧ t.resolved = [] := by
  have h₀ : Reached .debug .gregorian {} { backend := { storage := { current := {} } } } := .init rfl
  have h₁ := h₀.step (.enter _ rfl rfl)
  have h₂ := h₁.step (.take _ rfl)
  have h₃ : Reached .debug .gregorian {} (waitingWithBatch {}) :=
    h₂.step (.call _ rfl _ (.queueOperations _ [.eraseAllData]))
  have r₁ : Relation.ReflTransGen (Step .debug .gregorian) { waitingWithBatch {} with quit := true } _ :=
    .single (.wake _ rfl)
  have r₂ := r₁.tail (.turn _ rfl _ (by decide) (.collect _ rfl))
  have r₃ := r₂.tail (.turn _ rfl _ (by decide) (.process _ rfl rfl))
  have r₄ := r₃.tail (.turn _ rfl _ (by decide) (.loop _ rfl rfl))
  have r₅ := r₄.tail (.leave _ rfl rfl)
  have r₆ := r₅.tail (.join _ rfl rfl)
  exact ⟨waitingWithBatch {}, _, h₃, rfl, rfl, r₆, rfl, rfl, rfl⟩

end RunningBackend

end HotelPms

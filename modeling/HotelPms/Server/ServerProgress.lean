import HotelPms.Lib.Fair
import HotelPms.Server.SessionLog

/- What brings a batch on inside the server.

   A batch is taken from the queue, executed, and its promise resolved by the worker; then its
   continuation is posted, either by the worker or by the io thread, and run by the io thread.
   Here is what one step does to each of these: it leaves the worker where it is or brings it
   nearer to the batch (`Advances`), it makes what a thread has still to do of a handler
   less (`load_perform`), and it takes handlers in the order in which they were posted.
   `Stops` is what ends the process. -/
namespace HotelPms
open Lib SqliteStorage DataStreamManager SqliteBackend

/-! ## What a thread has still to do -/

/-- How many steps an action takes with what it goes on as, at most. -/
def Action.weight : Action → Nat
  | .chain _ => 2
  | .next _ => 2
  | .continueWith _ => 1
  | .push _ => 1

theorem Action.weight_pos (action : Action) : 0 < action.weight := by
  cases action <;> simp [weight]

namespace Sessions

variable {build : Build} {boost : BoostDate} {s s' : Sessions} {actions others more : List Action}
  {action : Action} {n : Nat} {b : ScheduledBatch}

def load (actions : List Action) : Nat := (actions.map (·.weight)).sum

@[simp] theorem load_nil : load [] = 0 := rfl

@[simp] theorem load_cons (action : Action) (actions : List Action) :
    load (action :: actions) = action.weight + load actions := rfl

@[simp] theorem load_append (as bs : List Action) : load (as ++ bs) = load as + load bs := by
  rw [load, List.map_append, List.sum_append]
  rfl

theorem load_executeFuture (cont : Option Nat) : load (executeFuture cont) ≤ 1 := by
  cases cont
  · exact Nat.zero_le 1
  · exact le_rfl

/-- An action goes on as less, and with the same batch. -/
theorem load_perform (h : SoundWith s (action :: others)) (hp : s.perform build action = .ok (more, s')) :
    (∀ a ∈ more, a.batch = action.batch) ∧ load more < action.weight := by
  have hnone : ∀ {a : Action}, (∀ x ∈ ([] : List Action), x.batch = a.batch) ∧ load [] < a.weight :=
    fun {a} => ⟨fun x hx => absurd hx List.not_mem_nil, a.weight_pos⟩
  unfold perform at hp
  cases hb : s.batches[action.batch]? with
  | none =>
    rw [hb] at hp
    cases hp
    exact hnone
  | some b =>
    rw [hb] at hp
    cases action with
    | chain n =>
      obtain ⟨⟨cont, future⟩, hchain, hp⟩ := Except.bind_eq_ok.1 hp
      cases hp
      refine ⟨executeFuture_batch fun m hm => ?_, (load_executeFuture cont).trans_lt Nat.one_lt_two⟩
      rcases FutureState.of_chain hchain with ⟨-, rfl, -⟩ | ⟨-, rfl, -⟩
      · exact (Option.some.inj hm).symm
      · cases hm
    | next n =>
      obtain ⟨⟨cont, future⟩, hnext, hp⟩ := Except.bind_eq_ok.1 hp
      cases hp
      obtain ⟨rfl, -⟩ := FutureState.of_next hnext
      refine ⟨executeFuture_batch fun m hm => ?_, (load_executeFuture _).trans_lt Nat.one_lt_two⟩
      -- only the continuation of this batch is stored in the state of its promise
      cases (h.batch n b hb).stage with
      | stored here hcont => exact (Option.some.inj (hcont.symm.trans hm)).symm
      | chaining here hcont | continuing here hcont | posted _ here hcont | ran _ here hcont =>
        rw [hcont] at hm
        cases hm
    | continueWith n =>
      dsimp only at hp
      unfold continueWith at hp
      split at hp
      · obtain ⟨next, hset, hp⟩ := Except.bind_eq_ok.1 hp
        obtain ⟨rfl, -⟩ := of_finish hp
        obtain rfl := FutureState.of_setCanceled hset
        have hpositive : 0 < (Action.continueWith n :: others).count (.continueWith n) := by
          rw [List.count_cons_self]
          exact Nat.succ_pos _
        cases (h.batch n b hb).stage with
        | continuing here hcont hnext =>
          rw [hnext]
          exact hnone
        | chaining here | stored here | posted _ here | ran _ here =>
          rw [(trace_eq.1 here).2.1] at hpositive
          cases hpositive
      · obtain ⟨_, -, hp⟩ := Except.bind_eq_ok.1 hp
        cases hp
        exact hnone
    | push n =>
      cases hp
      exact hnone

/-- A thread may post a handler, and takes none. -/
theorem perform_handlers (hp : s.perform build action = .ok (more, s')) : s.handlers <+: s'.handlers := by
  unfold perform at hp
  cases hb : s.batches[action.batch]? with
  | none =>
    rw [hb] at hp
    cases hp
    exact List.prefix_rfl
  | some b =>
    rw [hb] at hp
    cases action with
    | chain n | next n =>
      obtain ⟨_, -, hp⟩ := Except.bind_eq_ok.1 hp
      cases hp
      exact List.prefix_rfl
    | continueWith n =>
      dsimp only at hp
      unfold continueWith at hp
      split at hp
      · obtain ⟨_, -, hp⟩ := Except.bind_eq_ok.1 hp
        rw [(finish_effect hp).1]
      · obtain ⟨_, -, hp⟩ := Except.bind_eq_ok.1 hp
        cases hp
        exact List.prefix_append _ _
    | push n =>
      cases hp
      exact List.prefix_rfl

/-- A continuation that runs leaves nothing to do, and its own future is ready. -/
theorem of_runContinuation {results : List TaskResult} {rest : List Handler} (h : SoundWith s actions)
    (hfirst : s.handlers = .continuation n results :: rest) (hb : s.batches[n]? = some b)
    (hp : runContinuation build { s with handlers := rest } n b results = .ok (more, s')) :
    more = [] ∧ ∃ b', s'.batches[n]? = some b' ∧ b'.session = b.session ∧ b'.next.isReady = true := by
  have hposted : s.handlers.filterMap (·.results n) ≠ [] := by
    rw [hfirst]
    simp [Handler.results]
  have hnext : b.next = {} := by
    cases (h.batch n b hb).stage with
    | posted value here hcont hnext => exact hnext
    | chaining here | stored here | continuing here | ran _ here =>
      exact absurd (trace_eq.1 here).2.2.1 hposted
  have hn := (List.getElem?_eq_some_iff.1 hb).1
  have hfinish : ∀ {t : Sessions} {next : FutureState Int Nat}, finish build t n b next = .ok (more, s') →
      t.batches = s.batches → next.cont = none → next.isReady = true →
      more = [] ∧ ∃ b', s'.batches[n]? = some b' ∧ b'.session = b.session ∧ b'.next.isReady = true := by
    intro t next hp hbatches hcont hready
    obtain ⟨rfl, rfl⟩ := of_finish hp
    refine ⟨by rw [hcont]; rfl, { b with next := { next with cont := none } }, ?_, rfl, hready⟩
    rw [update, hbatches, List.getElem?_set_self hn]
  unfold runContinuation at hp
  split at hp
  · obtain ⟨next, hset, hp⟩ := Except.bind_eq_ok.1 hp
    obtain rfl := FutureState.of_setCanceled hset
    exact hfinish hp rfl (by rw [hnext]) rfl
  · obtain ⟨t, hreply, hp⟩ := Except.bind_eq_ok.1 hp
    obtain ⟨next, hset, hp⟩ := Except.bind_eq_ok.1 hp
    obtain rfl := FutureState.of_setValue hset
    refine hfinish hp ?_ (by rw [hnext]) rfl
    unfold reply at hreply
    split at hreply
    · cases hreply
      rfl
    · obtain ⟨_, -, hreply⟩ := Except.bind_eq_ok.1 hreply
      cases hreply
      rfl

end Sessions

/-! ## The worker -/

/-- How many steps an action of the worker takes with what it goes on as, at most. -/
def WorkerAction.weight : WorkerAction → Nat
  | .addStreamChange _ => 2
  | .signal => 1
  | .resolve _ _ => 3

namespace NetServer

variable {build : Build} {boost : BoostDate} {db : Database} {s s' : NetServer} {n : Nat}

/-- What only the worker moves on. -/
structure SameWorker (s s' : NetServer) : Prop where
  phase : s'.backend.phase = s.backend.phase
  newStreams : s'.backend.newStreams = s.backend.newStreams
  newTasks : s'.backend.newTasks = s.backend.newTasks
  executed : s'.backend.executed = s.backend.executed
  worker : s'.worker = s.worker
  resolving : s'.sessions.resolving = s.sessions.resolving

/-- The points of the loop, in the order in which the worker comes to them. -/
def point (s : NetServer) : Nat :=
  match s.backend.phase with
  | .top => 0
  | .swapped => 1
  | .initializing => 2
  | .processing => 3

/-- The streams and batches that the worker has still to do at its point. -/
def items (s : NetServer) : Nat := s.backend.newStreams.length + s.backend.newTasks.length

/-- The batches that the worker has executed or holds. -/
def taken (s : NetServer) : Nat := s.backend.executed.length + s.backend.newTasks.length

/-- What the worker has still to do before it goes on in its loop. -/
def workerLoad (s : NetServer) : Nat :=
  (s.worker.map (·.weight)).sum + Sessions.load s.sessions.resolving

/-- One step of the worker: less is left to do before it goes on in the loop, or one stream or
    batch is done, or it comes to the next point. -/
inductive Advances (s s' : NetServer) : Prop where
  | act (busy : ¬s.WorkerIdle) (load : s'.workerLoad < s.workerLoad)
      (phase : s'.backend.phase = s.backend.phase) (streams : s'.backend.newStreams = s.backend.newStreams)
      (tasks : s'.backend.newTasks = s.backend.newTasks) (executed : s'.backend.executed = s.backend.executed)
      (uninitialized : s'.backend.uninitializedStreams = s.backend.uninitializedStreams)
  | item (idle : s.WorkerIdle) (phase : s'.backend.phase = s.backend.phase) (items : s'.items < s.items)
      (taken : s'.taken = s.taken)
      (uninitialized : s'.backend.uninitializedStreams = s.backend.uninitializedStreams)
  | toNext (idle : s.WorkerIdle) (ne : s.point ≠ 0) (ne' : s.point ≠ 1) (point : s'.point = (s.point + 1) % 4)
      (taken : s'.taken = s.taken)
      (uninitialized : s'.backend.uninitializedStreams = s.backend.uninitializedStreams)
      (streams : s'.backend.newStreams = s.backend.newStreams)
  | swap (idle : s.WorkerIdle) (point : s.point = 0) (point' : NetServer.point s' = 1)
      (taken : s'.taken = s.backend.queued.length)
      (uninitialized : s'.backend.uninitializedStreams = s.backend.uninitializedStreams)
      (streams : s'.backend.newStreams = s.backend.newStreams)
  | collect (idle : s.WorkerIdle) (point : s.point = 1) (point' : NetServer.point s' = 2)
      (taken : s'.taken = s.taken) (streams : s'.backend.newStreams = s.backend.uninitializedStreams)

theorem taken_at_top (h : Sound build boost db s) (hphase : s.backend.phase = .top) :
    s.backend.newTasks = [] ∧
      s.backend.executed.length + s.backend.operationsQueue.length = s.backend.queued.length := by
  obtain ⟨a, ha⟩ := h.simulates
  have hqueued := ha.queued
  obtain ⟨_, _, _, hsame⟩ := ha.backend
  have htasks : s.backend.newTasks = [] := by
    rw [hsame] at hphase ⊢
    exact (Backend.reached_sound ha.reached).tasks hphase
  rw [htasks] at hqueued
  exact ⟨htasks, hqueued.symm⟩

theorem load_resolving {before after more : List Action} {action : Action} {sessions : Sessions}
    (h : Sessions.Sound s.sessions) (thread : s.sessions.resolving = before ++ action :: after)
    (performed : s.sessions.perform build action = .ok (more, sessions)) :
    Sessions.load (before ++ more ++ after) < Sessions.load s.sessions.resolving := by
  have hperm : (s.sessions.io ++ s.sessions.resolving).Perm
      (action :: (s.sessions.io ++ (before ++ after))) := by
    rw [thread, ← List.append_assoc, ← List.append_assoc]
    exact List.perm_middle
  have hload := (Sessions.load_perform (h.perm hperm) performed).2
  rw [thread]
  simp only [Sessions.load_append, Sessions.load_cons]
  omega

/-- Each step of the server is one of the worker, or leaves it alone. -/
theorem sameWorker_or_advances (h : Sound build boost db s) (hs : Step build boost s s') :
    SameWorker s s' ∨ Advances s s' := by
  cases hs with
  | createStream | removeStream | schedule | applyStreamChanges => exact Or.inl ⟨rfl, rfl, rfl, rfl, rfl, rfl⟩
  | internal sessions step =>
    cases step with
    | io t action rest more first performed =>
      exact Or.inl ⟨rfl, rfl, rfl, rfl, rfl, (Sessions.perform_threads performed).2⟩
    | runContinuation t n b results rest more idle first batch ran =>
      exact Or.inl ⟨rfl, rfl, rfl, rfl, rfl, (Sessions.runContinuation_threads ran).2⟩
    | disconnect | destroy => exact Or.inl ⟨rfl, rfl, rfl, rfl, rfl, rfl⟩
    | resolving t action before after more thread performed =>
      refine Or.inr (.act (fun hidle => ?_) ?_ rfl rfl rfl rfl rfl)
      · have hnone := hidle.2
        rw [thread] at hnone
        simp at hnone
      · exact Nat.add_lt_add_left (load_resolving (Sessions.reached_sound h.sessions) thread performed) _
  | turn backend idle step =>
    cases step with
    | swap phase =>
      obtain ⟨-, hqueued⟩ := taken_at_top h phase
      exact Or.inr (.swap idle (by rw [point, phase]) rfl hqueued rfl rfl)
    | collect phase => exact Or.inr (.collect idle (by rw [point, phase]) rfl rfl rfl)
    | process phase done =>
      refine Or.inr (.toNext idle ?_ ?_ ?_ rfl rfl rfl) <;> simp [point, phase]
    | loop phase done =>
      refine Or.inr (.toNext idle ?_ ?_ ?_ rfl rfl rfl) <;> simp [point, phase]
  | initializeOne idle phase stream rest next changes loaded =>
    refine Or.inr (.item idle rfl ?_ rfl rfl)
    rw [items, items, next, List.length_cons]
    exact Nat.add_lt_add_right (Nat.lt_succ_self _) _
  | addStreamChange change rest next =>
    refine Or.inr (.act (fun hidle => ?_) ?_ rfl rfl rfl rfl rfl)
    · rw [hidle.1] at next
      cases next
    · simp [workerLoad, next, WorkerAction.weight]
  | signal rest next =>
    refine Or.inr (.act (fun hidle => ?_) ?_ rfl rfl rfl rfl rfl)
    · rw [hidle.1] at next
      cases next
    · simp [workerLoad, next, WorkerAction.weight, Sessions.post]
  | executeTask idle phase operations rest next out changes executed added =>
    refine Or.inr (.item idle rfl ?_ ?_ rfl)
    · rw [items, items, next, List.length_cons]
      exact Nat.lt_succ_self _
    · simp only [taken, next, List.length_append, List.length_cons, List.length_nil]
      omega
  | resolve n results rest next b future batch set =>
    refine Or.inr (.act (fun hidle => ?_) ?_ rfl rfl rfl rfl rfl)
    · rw [hidle.1] at next
      cases next
    · simp only [workerLoad, next, List.map_cons, List.sum_cons, Sessions.load_cons, WorkerAction.weight,
        Action.weight]
      omega

/-- What ends the process: a stream that cannot be loaded, or a batch that cannot be executed. -/
inductive Stops (build : Build) (boost : BoostDate) (s : NetServer) : Prop where
  | stream (idle : s.WorkerIdle) (phase : s.backend.phase = .initializing) (stream : DataStream)
      (rest : List DataStream) (next : s.backend.newStreams = stream :: rest) (fault : Fault)
      (fails : Backend.initialChanges build boost stream s.backend.storage.current = .error fault)
  | batch (idle : s.WorkerIdle) (phase : s.backend.phase = .processing) (operations : Operations)
      (rest : List Operations) (next : s.backend.newTasks = operations :: rest) (fault : Fault)
      (fails : processTask build boost s.backend.activeStreams s.backend.storage s.backend.changeList
        operations = .error fault)

theorem Work.lt_executed {executed : List BatchRecord} {worker : List WorkerAction} {results : List TaskResult}
    (h : Work executed worker) (hmem : .resolve n results ∈ worker) : n < executed.length := by
  cases h with
  | adding changes here | signaling changes here =>
    rw [here] at hmem
    simp at hmem
  | finishing earlier r last here | resolving earlier r last here =>
    rw [here] at hmem
    have hsame : n = earlier.length ∧ results = r.results := by simpa using hmem
    rw [hsame.1, last, List.length_append]
    exact Nat.lt_succ_self _

/-- A thread that has something to do before the worker goes on in its loop can do it. -/
theorem exists_act (h : Sound build boost db s) (hbusy : ¬s.WorkerIdle) :
    ∃ s', Step build boost s s' ∧ ¬SameWorker s s' := by
  have hsessions := Sessions.reached_sound h.sessions
  cases hresolving : s.sessions.resolving with
  | cons action after =>
    obtain ⟨⟨more, sessions⟩, performed⟩ : ∃ out, s.sessions.perform build action = .ok out :=
      Sessions.performs hsessions (List.mem_append_right _ (hresolving ▸ List.mem_cons_self))
    refine ⟨_, .internal s _ (.resolving _ sessions action [] after more hresolving performed), fun hsame => ?_⟩
    have hthread : s.sessions.resolving = [] ++ action :: after := hresolving
    have hlt := load_resolving hsessions hthread performed
    rw [← hsame.resolving] at hlt
    exact absurd hlt (lt_irrefl _)
  | nil =>
    cases hworker : s.worker with
    | nil => exact absurd ⟨hworker, hresolving⟩ hbusy
    | cons action rest =>
      cases action with
      | addStreamChange change =>
        refine ⟨_, .addStreamChange s change rest hworker, fun hsame => ?_⟩
        have hheads := hsame.worker
        rw [hworker] at hheads
        cases hheads
      | signal =>
        refine ⟨_, .signal s rest hworker, fun hsame => ?_⟩
        have hlength := congrArg List.length hsame.worker
        rw [hworker, List.length_cons] at hlength
        exact absurd hlength (Nat.lt_succ_self _).ne
      | resolve n results =>
        have hmem : .resolve n results ∈ s.worker := hworker ▸ List.mem_cons_self
        obtain ⟨b, hb⟩ : ∃ b, s.sessions.batches[n]? = some b := by
          have hlt := (h.resolved.work.lt_executed hmem).trans_le h.resolved.executed
          rw [← h.resolved.queued] at hlt
          exact ⟨_, List.getElem?_eq_getElem hlt⟩
        have hempty : b.future.isReady = false := by
          cases h.resolved.batch n b hb with
          | waiting bound value | next results' action value => exact FutureState.isReady_of_empty value
          | resolved r executed value done => exact absurd hmem (done results)
        refine ⟨_, .resolve s n results rest hworker b _ hb (FutureState.setValue_eq hempty results),
          fun hsame => ?_⟩
        have hlength := congrArg List.length hsame.worker
        rw [hworker, List.length_cons] at hlength
        exact absurd hlength (Nat.lt_succ_self _).ne

/-- The worker goes on, unless the process ends. -/
theorem exists_worker_step (h : Sound build boost db s) (hstops : ¬Stops build boost s) :
    ∃ s', Step build boost s s' ∧ ¬SameWorker s s' := by
  by_cases hidle : s.WorkerIdle
  · cases phase : s.backend.phase with
    | top => exact ⟨_, .turn s _ hidle (.swap _ phase), fun hsame => by simpa [phase] using hsame.phase⟩
    | swapped =>
      exact ⟨_, .turn s _ hidle (.collect _ phase), fun hsame => by simpa [phase] using hsame.phase⟩
    | initializing =>
      cases next : s.backend.newStreams with
      | nil =>
        exact ⟨_, .turn s _ hidle (.process _ phase next), fun hsame => by simpa [phase] using hsame.phase⟩
      | cons stream rest =>
        cases loaded : Backend.initialChanges build boost stream s.backend.storage.current with
        | error fault => exact absurd (.stream hidle phase stream rest next fault loaded) hstops
        | ok changes =>
          exact ⟨_, .initializeOne s hidle phase stream rest next changes loaded,
            fun hsame => by simpa [next] using hsame.newStreams⟩
    | processing =>
      cases next : s.backend.newTasks with
      | nil =>
        exact ⟨_, .turn s _ hidle (.loop _ phase next), fun hsame => by simpa [phase] using hsame.phase⟩
      | cons operations rest =>
        cases executed : processTask build boost s.backend.activeStreams s.backend.storage
            s.backend.changeList operations with
        | error fault => exact absurd (.batch hidle phase operations rest next fault executed) hstops
        | ok out =>
          obtain ⟨changes, added⟩ : ∃ changes, out.changeList = s.backend.changeList ++ changes := by
            obtain ⟨a, ha⟩ := h.simulates
            have hstorage : s.backend.storage.Idle := by
              obtain ⟨_, _, _, hsame⟩ := ha.backend
              rw [hsame]
              exact (Backend.reached_sound ha.reached).idle
            rcases processTask_cases hstorage executed with ⟨_, changes, -, -, hlist, -⟩ | ⟨-, -, hlist, -⟩
            · exact ⟨changes, hlist⟩
            · exact ⟨[], by rw [hlist, List.append_nil]⟩
          exact ⟨_, .executeTask s hidle phase operations rest next out changes executed added,
            fun hsame => by simpa [next] using hsame.newTasks⟩
  · exact exists_act h hidle

/-! ## A batch that is queued -/

/-- The batch was queued, and its promise is not resolved. -/
structure Unresolved (n : Nat) (s : NetServer) : Prop where
  queued : n < s.backend.queued.length
  unready : ∀ b, s.sessions.batches[n]? = some b → b.future.isReady = false

/-- What is left of a round of the loop: something that a round does, the points that are left until
    it is done, and the work at this point. -/
def loopRank (first points : Nat) (s : NetServer) : Nat ×ₗ Nat ×ₗ Nat ×ₗ Nat :=
  toLex (first, toLex (points, toLex (s.items, s.workerLoad)))

theorem loopRank_lt {first first' points points' : Nat} (h : first' < first ∨ first' = first ∧
    (points' < points ∨ points' = points ∧
      (s'.items < s.items ∨ s'.items = s.items ∧ s'.workerLoad < s.workerLoad))) :
    loopRank first' points' s' < loopRank first points s := by
  rw [loopRank, loopRank, Prod.Lex.toLex_lt_toLex]
  refine h.imp id fun ⟨hfirst, h⟩ => ⟨hfirst, ?_⟩
  rw [Prod.Lex.toLex_lt_toLex]
  refine h.imp id fun ⟨hpoints, h⟩ => ⟨hpoints, ?_⟩
  rw [Prod.Lex.toLex_lt_toLex]
  exact h

/-- How far the worker is from resolving the promise: whether the batch is taken, and how many
    points of the loop are left until batches are. -/
def batchRank (n : Nat) (s : NetServer) : Nat ×ₗ Nat ×ₗ Nat ×ₗ Nat :=
  loopRank (if n < s.taken then 0 else 1) ((4 - s.point) % 4) s

theorem point_le (s : NetServer) : s.point ≤ 3 := by
  unfold point
  split <;> omega

theorem point_congr (h : s'.backend.phase = s.backend.phase) : s'.point = s.point := by
  rw [point, point, h]

theorem Unresolved.not_executed (hp : Unresolved n s) (h : Sound build boost db s) (hidle : s.WorkerIdle) :
    ¬n < s.backend.executed.length := by
  intro hexecuted
  have hn : n < s.sessions.batches.length := by
    rw [h.resolved.queued]
    exact hp.queued
  have hb := List.getElem?_eq_getElem hn
  have hunready := hp.unready _ hb
  cases h.resolved.batch n _ hb with
  | waiting bound => omega
  | next results action =>
    rw [hidle.1] at action
    exact absurd action List.not_mem_nil
  | resolved r executed value =>
    rw [FutureState.isReady_of_value value] at hunready
    cases hunready

theorem Unresolved.advances (hp : Unresolved n s) (h : Sound build boost db s) (hadvances : Advances s s') :
    batchRank n s' < batchRank n s := by
  have hpoint := s.point_le
  apply loopRank_lt
  cases hadvances with
  | act busy load phase streams tasks executed =>
    right
    rw [taken, taken, items, items, point_congr phase, streams, tasks, executed]
    exact ⟨rfl, Or.inr ⟨rfl, Or.inr ⟨rfl, load⟩⟩⟩
  | item idle phase items taken =>
    rw [point_congr phase, taken]
    exact Or.inr ⟨rfl, Or.inr ⟨rfl, Or.inl items⟩⟩
  | toNext idle ne ne' point taken =>
    refine Or.inr ⟨by rw [taken], Or.inl ?_⟩
    rw [point]
    omega
  | swap idle point point' taken =>
    -- the batch is among those that are taken now
    have hphase : s.backend.phase = .top := by
      unfold NetServer.point at point
      split at point <;> first | assumption | omega
    have hnot := hp.not_executed h idle
    left
    rw [if_pos (taken ▸ hp.queued), if_neg]
    · exact Nat.one_pos
    · rw [NetServer.taken, (taken_at_top h hphase).1, List.length_nil]
      exact hnot
  | collect idle point point' taken =>
    refine Or.inr ⟨by rw [taken], Or.inl ?_⟩
    rw [point, point']
    decide

theorem SameWorker.loopRank_eq (h : SameWorker s s') (first points : Nat) :
    loopRank first points s' = loopRank first points s := by
  rw [loopRank, loopRank, items, items, workerLoad, workerLoad, h.newStreams, h.newTasks, h.worker, h.resolving]

theorem SameWorker.batchRank_eq (h : SameWorker s s') : batchRank n s' = batchRank n s := by
  rw [batchRank, batchRank, h.loopRank_eq, taken, taken, point_congr h.phase, h.newTasks, h.executed]

theorem SameWorker.workerLoad_eq (h : SameWorker s s') : s'.workerLoad = s.workerLoad := by
  rw [workerLoad, h.worker, h.resolving, workerLoad]

theorem Advances.load_lt (h : Advances s s') (hbusy : ¬s.WorkerIdle) : s'.workerLoad < s.workerLoad := by
  cases h with
  | act busy load => exact load
  | item idle => exact absurd idle hbusy
  | toNext idle => exact absurd idle hbusy
  | swap idle => exact absurd idle hbusy
  | collect idle => exact absurd idle hbusy

/-! ## The sessions -/

theorem sessions_cases (hresolved : Resolved s) (hs : Step build boost s s') :
    s'.sessions = s.sessions ∨ Sessions.Step build boost s.sessions s'.sessions := by
  cases hs with
  | createStream | removeStream | turn | initializeOne | addStreamChange | executeTask => exact Or.inl rfl
  | schedule session obj operations id idle connected command =>
    exact Or.inr (.schedule _ session obj operations id idle connected command)
  | internal sessions step => exact Or.inr (.internal _ _ step)
  | applyStreamChanges rest idle first =>
    refine Or.inr (.applyStreamChanges _ rest _ idle first fun m hm => ?_)
    obtain ⟨d, -, hmessage⟩ := List.mem_filterMap.1 hm
    obtain ⟨o, -, rfl⟩ := Option.map_eq_some_iff.1 hmessage
    exact ⟨d, rfl⟩
  | signal rest next => exact Or.inr (.signal _)
  | resolve n results rest next b future batch set =>
    have honce : b.future.isReady = false := by
      have hmem : .resolve n results ∈ s.worker := next ▸ List.mem_cons_self
      cases hresolved.batch n b batch with
      | waiting bound value | next results' action value => exact FutureState.isReady_of_empty value
      | resolved r executed value done => exact absurd hmem (done results)
    exact Or.inr (.resolve _ n b results future batch honce set)

theorem keeps_step (hresolved : Resolved s) (hs : Step build boost s s') : s.sessions.Keeps s'.sessions := by
  rcases sessions_cases hresolved hs with hsame | hstep
  · rw [hsame]
    exact fun n b hb => ⟨b, hb, Sessions.SameBatch.refl b⟩
  · exact Sessions.keeps_step hstep

/-- The promise of the batch is resolved. -/
def Ready (n : Nat) (s : NetServer) : Prop :=
  ∃ b, s.sessions.batches[n]? = some b ∧ b.future.isReady = true

theorem Ready.step (h : Ready n s) (hsound : Sound build boost db s) (hs : Step build boost s s') :
    Ready n s' := by
  obtain ⟨b, hb, hready⟩ := h
  obtain ⟨results, hvalue⟩ :=
    Sessions.value_of_ready ((Sessions.reached_sound hsound.sessions).batch n b hb) hready
  obtain ⟨b', hb', hsame⟩ := keeps_step hsound.resolved hs n b hb
  exact ⟨b', hb', FutureState.isReady_of_value (hsame.value results hvalue)⟩

theorem ready_or_unresolved (h : Sound build boost db s) (hn : n < s.backend.queued.length) :
    Ready n s ∨ Unresolved n s := by
  have hlt : n < s.sessions.batches.length := by
    rw [h.resolved.queued]
    exact hn
  have hb := List.getElem?_eq_getElem hlt
  cases hready : s.sessions.batches[n].future.isReady with
  | true => exact Or.inl ⟨_, hb, hready⟩
  | false =>
    refine Or.inr ⟨hn, fun b hb' => ?_⟩
    obtain rfl := Option.some.inj (hb.symm.trans hb')
    exact hready

/-! ## The io thread -/

/-- While the io thread runs a handler, nobody else adds to it. -/
theorem io_step (h : Sound build boost db s) (hbusy : s.sessions.io ≠ []) (hs : Step build boost s s') :
    s'.sessions.io = s.sessions.io ∨ Sessions.load s'.sessions.io < Sessions.load s.sessions.io := by
  cases hs with
  | createStream session obj clientId streamType endpoint options stream idle => exact absurd idle hbusy
  | removeStream observer idle => exact absurd idle hbusy
  | schedule session obj operations id idle => exact absurd idle hbusy
  | applyStreamChanges rest idle => exact absurd idle hbusy
  | internal sessions step =>
    cases step with
    | io t action rest more first performed =>
      right
      have hsessions := Sessions.reached_sound h.sessions
      rw [Sessions.Sound, first, List.cons_append] at hsessions
      have hload := (Sessions.load_perform hsessions performed).2
      rw [first]
      simp only [Sessions.load_append, Sessions.load_cons]
      omega
    | resolving t action before after more thread performed =>
      exact Or.inl (Sessions.perform_threads performed).1
    | runContinuation t n b results rest more idle => exact absurd idle hbusy
    | disconnect session idle => exact absurd idle hbusy
    | destroy => exact Or.inl rfl
  | turn | initializeOne | addStreamChange | signal | executeTask | resolve => exact Or.inl rfl

theorem exists_io_step (h : Sound build boost db s) (hbusy : s.sessions.io ≠ []) :
    ∃ s', Step build boost s s' ∧ s'.sessions.io ≠ s.sessions.io := by
  have hsessions := Sessions.reached_sound h.sessions
  obtain ⟨action, rest, first⟩ := List.exists_cons_of_ne_nil hbusy
  obtain ⟨⟨more, sessions⟩, performed⟩ : ∃ out, s.sessions.perform build action = .ok out :=
    Sessions.performs hsessions (List.mem_append_left _ (first ▸ List.mem_cons_self))
  refine ⟨_, .internal s _ (.io _ sessions action rest more first performed), fun hsame => ?_⟩
  rw [Sessions.Sound, first, List.cons_append] at hsessions
  have hload := (Sessions.load_perform hsessions performed).2
  have hloads := congrArg Sessions.load hsame
  rw [first] at hloads
  simp only [Sessions.load_append, Sessions.load_cons] at hloads
  omega

/-- The io thread has nothing to do with the batch any more. -/
def Clean (n : Nat) (s : NetServer) : Prop := ∀ action ∈ s.sessions.io, action.batch ≠ n

theorem Clean.step (hclean : Clean n s) (hn : n < s.sessions.batches.length) (h : Sound build boost db s)
    (hs : Step build boost s s') : Clean n s' := by
  cases hs with
  | schedule session obj operations id =>
    intro action hmem
    have hbatch : action.batch = s.sessions.batches.length := by
      have hor : action = .chain s.sessions.batches.length ∨ action = .push s.sessions.batches.length := by
        simpa [Sessions.schedule] using hmem
      rcases hor with rfl | rfl <;> rfl
    rw [hbatch]
    exact hn.ne'
  | internal sessions step =>
    cases step with
    | io t action rest more first performed =>
      have hsessions := Sessions.reached_sound h.sessions
      rw [Sessions.Sound, first, List.cons_append] at hsessions
      have hbatch := (Sessions.load_perform hsessions performed).1
      intro action' hmem
      rcases List.mem_append.1 hmem with hmore | hrest
      · rw [hbatch action' hmore]
        exact hclean action (first ▸ List.mem_cons_self)
      · exact hclean action' (first ▸ List.mem_cons_of_mem _ hrest)
    | resolving t action before after more thread performed =>
      intro action' hmem
      rw [Clean, ← (Sessions.perform_threads performed).1] at hclean
      exact hclean action' hmem
    | runContinuation t m b results rest more idle first batch ran =>
      obtain ⟨rfl, -⟩ := Sessions.of_runContinuation (Sessions.reached_sound h.sessions) first batch ran
      exact fun action hmem => absurd hmem List.not_mem_nil
    | disconnect | destroy => exact hclean
  | createStream | removeStream | applyStreamChanges | turn | initializeOne | addStreamChange | signal |
    executeTask | resolve => exact hclean

/-! ## The handlers -/

theorem Step.goesOn (hs : Step build boost s s') (h : s.sessions.io ≠ [] ∨ ¬SameWorker s s') :
    Background build boost s s' := by
  have hnot : s.sessions.io = [] → SameWorker s s' → False := fun hidle hsame =>
    h.elim (fun hbusy => hbusy hidle) fun hworker => hworker hsame
  have hkept : ∀ {t : NetServer}, t.backend.disconnected = s.backend.disconnected →
      ∀ streamId ∈ t.backend.disconnected, streamId ∈ s.backend.disconnected ∨
        ∃ o ∈ s.observers, o.stream.streamId = streamId ∧ o.session ∈ s.sessions.disconnected :=
    fun hsame streamId hmem => Or.inl (hsame ▸ hmem)
  cases id hs with
  | createStream session obj clientId streamType endpoint options stream idle =>
    exact (hnot idle ⟨rfl, rfl, rfl, rfl, rfl, rfl⟩).elim
  | removeStream observer idle => exact (hnot idle ⟨rfl, rfl, rfl, rfl, rfl, rfl⟩).elim
  | schedule session obj operations id idle => exact (hnot idle ⟨rfl, rfl, rfl, rfl, rfl, rfl⟩).elim
  | applyStreamChanges rest idle => exact (hnot idle ⟨rfl, rfl, rfl, rfl, rfl, rfl⟩).elim
  | turn backend idle step => exact ⟨hs, rfl, rfl, hkept step.unchanged.2.2.1⟩
  | internal | initializeOne | addStreamChange | signal | executeTask | resolve =>
    exact ⟨hs, rfl, rfl, hkept rfl⟩

/-- The continuation of the batch is posted. -/
def Posted (n : Nat) (s : NetServer) : Prop := ∃ results, .continuation n results ∈ s.sessions.handlers

/-- The continuation of the batch ran. -/
def Continued (n : Nat) (s : NetServer) : Prop :=
  ∃ b, s.sessions.batches[n]? = some b ∧ b.next.isReady = true

/-- Handlers are posted at the end, or the one in front is run. -/
inductive Handled (s s' : NetServer) : Prop where
  | posted (more : List Handler) (handlers : s'.sessions.handlers = s.sessions.handlers ++ more)
  | ran (n : Nat) (results : List TaskResult)
      (first : s.sessions.handlers = .continuation n results :: s'.sessions.handlers)
      (done : Continued n s')
  | applied (first : s.sessions.handlers = .applyStreamChanges :: s'.sessions.handlers)
      (done : s'.backend.changeList = [] ∧ s'.applied = s.applied ++ s.backend.changeList)

theorem handlers_step (h : Sound build boost db s) (hs : Step build boost s s') : Handled s s' := by
  have hsame : s'.sessions.handlers = s.sessions.handlers → Handled s s' :=
    fun hsame => .posted [] (hsame.trans (List.append_nil _).symm)
  cases hs with
  | internal sessions step =>
    cases step with
    | io t action rest more first performed =>
      obtain ⟨posted, hposted⟩ := Sessions.perform_handlers performed
      exact .posted posted hposted.symm
    | resolving t action before after more thread performed =>
      obtain ⟨posted, hposted⟩ := Sessions.perform_handlers performed
      exact .posted posted hposted.symm
    | runContinuation t n b results rest more idle first batch ran =>
      obtain ⟨-, b', hb', -, hready⟩ :=
        Sessions.of_runContinuation (Sessions.reached_sound h.sessions) first batch ran
      have hrest := (Sessions.runContinuation_effect ran).1
      refine .ran n results ?_ ⟨b', hb', hready⟩
      dsimp only
      rw [hrest]
      exact first
    | disconnect | destroy => exact hsame rfl
  | applyStreamChanges rest idle first => exact .applied first ⟨rfl, rfl⟩
  | signal rest next => exact .posted [.applyStreamChanges] rfl
  | createStream | removeStream | schedule | turn | initializeOne | addStreamChange | executeTask | resolve =>
    exact hsame rfl

/-- The io thread, if it runs no handler, can run the one in front. -/
theorem exists_handler_step (h : Sound build boost db s) (hidle : s.sessions.io = [])
    (hid : ∀ b ∈ s.sessions.batches, ∃ id, b.id = .int id) (hne : s.sessions.handlers ≠ []) :
    ∃ s', Background build boost s s' ∧ ∃ first, s.sessions.handlers = first :: s'.sessions.handlers := by
  obtain ⟨first, rest, hfirst⟩ := List.exists_cons_of_ne_nil hne
  cases first with
  | applyStreamChanges =>
    exact ⟨_, ⟨.applyStreamChanges s rest hidle hfirst, rfl, rfl, fun _ hmem => Or.inl hmem⟩, _, hfirst⟩
  | continuation n results =>
    obtain ⟨b, hb, hruns⟩ := Sessions.runContinuation_ok (Sessions.reached_sound h.sessions) hfirst
    obtain ⟨id, hbid⟩ := hid b (List.mem_of_getElem? hb)
    have hint : b.id.toInt = .ok id := by
      rw [hbid]
      rfl
    obtain ⟨⟨more, sessions⟩, hran⟩ := hruns id hint
    refine ⟨_, ⟨.internal s _ (.runContinuation _ sessions n b results rest more hidle hfirst hb hran), rfl, rfl,
      fun _ hmem => Or.inl hmem⟩, .continuation n results, ?_⟩
    rw [hfirst]
    exact congrArg _ (Sessions.runContinuation_effect hran).1.symm

/-- Where the promise is resolved and the io thread has nothing more to do with the batch, it is
    the worker that has to post its continuation. -/
theorem not_idle_of_ready (h : Sound build boost db s) (hready : Ready n s) (hclean : Clean n s)
    (hposted : ¬Posted n s) (hran : ¬Continued n s) : ¬s.WorkerIdle := by
  rintro ⟨-, hidle⟩
  obtain ⟨b, hb, hready⟩ := hready
  have hno : ∀ action, action.batch = n → (s.sessions.io ++ s.sessions.resolving).count action = 0 := by
    intro action hbatch
    rw [hidle, List.append_nil]
    exact List.count_eq_zero.2 fun hmem => hclean action hmem hbatch
  cases ((Sessions.reached_sound h.sessions).batch n b hb).stage with
  | chaining here =>
    have hchains := (Sessions.trace_eq.1 here).1
    rw [hno _ rfl] at hchains
    cases hchains
  | stored here cont next taken =>
    have hpositive := taken hready
    rw [hno _ rfl] at hpositive
    cases hpositive
  | continuing here =>
    have hcontinues := (Sessions.trace_eq.1 here).2.1
    rw [hno _ rfl] at hcontinues
    cases hcontinues
  | posted results here =>
    obtain ⟨handler, hmem, hresults⟩ : ∃ handler ∈ s.sessions.handlers, handler.results n = some results := by
      apply List.mem_filterMap.1
      rw [(Sessions.trace_eq.1 here).2.2.1]
      exact List.mem_singleton_self results
    cases handler with
    | applyStreamChanges => cases hresults
    | continuation m results' =>
      obtain ⟨rfl, -⟩ := Option.ite_none_right_eq_some.1 hresults
      exact hposted ⟨results', hmem⟩
  | ran replies here cont next => exact hran ⟨b, hb, next⟩

/-! ## The messages -/

theorem outgoing_step (hs : Step build boost s s') : s.sessions.outgoing <+: s'.sessions.outgoing := by
  cases hs with
  | internal sessions step =>
    rcases (Sessions.sends_internal step).outgoing with hsame | ⟨m, hmore, -⟩
    · dsimp only
      rw [hsame]
    · dsimp only
      rw [hmore]
      exact List.prefix_append _ _
  | applyStreamChanges rest idle first => exact List.prefix_append _ _
  | createStream | removeStream | schedule | turn | initializeOne | addStreamChange | signal | executeTask |
    resolve => exact List.prefix_rfl

/-! ## A worker that waits -/

/-- The worker has nothing to do. -/
structure Waits (s : NetServer) : Prop where
  idle : s.WorkerIdle
  phase : s.backend.phase = .top
  tasks : s.backend.operationsQueue = []
  streams : s.backend.uninitializedStreams = []

theorem Unresolved.not_waits (hp : Unresolved n s) (h : Sound build boost db s) : ¬s.Waits := by
  intro hwaits
  have hqueued := (taken_at_top h hwaits.phase).2
  rw [hwaits.tasks, List.length_nil, Nat.add_zero] at hqueued
  exact hp.not_executed h hwaits.idle (hqueued ▸ hp.queued)

end NetServer

end HotelPms

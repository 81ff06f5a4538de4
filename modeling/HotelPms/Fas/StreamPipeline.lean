import HotelPms.Fas.FutureChain
import HotelPms.Fas.Stream

/- Pipelines of stages attached to a stream with `then`.

   A pipeline is a producer, the state 0 it sends to, and the states that the calls of
   `then` made, one after another: the stage attached to state `i` applies the `i`th
   function to each value of that state and pushes the result into the next one. As for
   chains of futures, whoever has to go on with something is an activity, its steps are
   atomic, and activities take steps in any order. Values are taken with `get` from the
   last stream only.

   `Sound` is the invariant of all runs without cancellation: at each stage there is at
   most one activity, and there is one whenever a value can be taken. `stream_pipeline`
   says what follows. -/
namespace HotelPms
open Lib
open FutureChain (compose)

/-- `StreamContinuationThen`, but for the executor, the next state and the token. -/
structure StreamContinuationThen (T U : Type) where
  continuationFn : T → U

/-- What a thread or a job does next. -/
inductive StreamActivity (α : Nat → Type) where
  /-- `executeStream({sstate->getContinuation(), sstate})` for state `i`, before `getContinuation()` -/
  | getContinuation (i : Nat)
  /-- in `executeStream`, before `continueWith` of the continuation of state `i` -/
  | continueWith (i : Nat) (cont : StreamContinuationThen (α i) (α (i + 1)))
  /-- It has popped the end of the stream; before `close()` of the next state. -/
  | closeNext (i : Nat)
  | resetContinuation (i : Nat)
  /-- a job that an executor has not begun -/
  | job (i : Nat) (cont : StreamContinuationThen (α i) (α (i + 1))) (val : α i)
  /-- The job was not canceled when it began; before the call of the function. -/
  | invoke (i : Nat) (cont : StreamContinuationThen (α i) (α (i + 1))) (val : α i)
  /-- The function has returned; before `pushValue` of the next state. -/
  | pushValue (i : Nat) (cont : StreamContinuationThen (α i) (α (i + 1))) (value : α (i + 1))
  /-- before `finishedProcessingPoppedValue()` at the end of the job -/
  | finish (i : Nat) (cont : StreamContinuationThen (α i) (α (i + 1)))
  /-- in `Stream::get`, after `popValue()` -/
  | get (i : Nat) (value : Option (StreamItem (α i)))

structure StreamStage (T U : Type) where
  state : StreamState T (StreamContinuationThen T U) := {}
  /-- history: the values that were pushed -/
  arrived : List T := []
  /-- history: the values that the function was called with -/
  applied : List T := []
  /-- history: what the calls of `get` have returned -/
  got : List (Option T) := []

structure StreamPipeline (α : Nat → Type) where
  stages : ∀ i, StreamStage (α i) (α (i + 1)) := fun _ => {}
  /-- the number of stages attached; the last stream has the state of this index -/
  length : Nat := 0
  /-- the state that all tokens of the pipeline share -/
  canceled : Bool := false
  /-- The producer was reset. -/
  closed : Bool := false
  activities : List (StreamActivity α) := []

namespace StreamPipeline

variable {α : Nat → Type}

def setStage (s : StreamPipeline α) (i : Nat) (stage : StreamStage (α i) (α (i + 1))) :
    StreamPipeline α :=
  { s with stages := Function.update s.stages i stage }

/-- `if (exec) executeStream({sstate->getContinuation(), sstate});` for state `i` -/
def executeStream (exec : Bool) (i : Nat) : List (StreamActivity α) :=
  if exec then [.getContinuation i] else []

/-- One step of an activity: the pipeline after it, and what the activity goes on as. -/
def run (build : Build) (s : StreamPipeline α) :
    StreamActivity α → Except Fault (StreamPipeline α × List (StreamActivity α))
  | .getContinuation i => return (s, (s.stages i).state.cont.toList.map (.continueWith i))
  | .continueWith i cont => do
    let (val, state) ← (s.stages i).state.popValue build
    match val with
    | none =>
      build.assert false "false"
      return (s, [])
    | some .endOfStream => return (s.setStage i { s.stages i with state }, [.closeNext i])
    | some (.value val) => return (s.setStage i { s.stages i with state }, [.job i cont val])
  | .closeNext i => do
    let (exec, state) ← (s.stages (i + 1)).state.close build
    return (s.setStage (i + 1) { s.stages (i + 1) with state },
      executeStream exec (i + 1) ++ [.resetContinuation i])
  | .resetContinuation i =>
    return (s.setStage i { s.stages i with state := (s.stages i).state.resetContinuation }, [])
  | .job i cont val => return (s, if s.canceled then [] else [.invoke i cont val])
  | .invoke i cont val =>
    return (s.setStage i { s.stages i with applied := (s.stages i).applied ++ [val] },
      [.pushValue i cont (cont.continuationFn val)])
  | .pushValue i cont value => do
    let (exec, state) ← (s.stages (i + 1)).state.pushValue build value
    return (s.setStage (i + 1) { s.stages (i + 1) with
        state
        arrived := (s.stages (i + 1)).arrived ++ [value] },
      executeStream exec (i + 1) ++ [.finish i cont])
  | .finish i cont =>
    let (exec, state) := (s.stages i).state.finishedProcessingPoppedValue
    return (s.setStage i { s.stages i with state }, if exec then [.continueWith i cont] else [])
  | .get i value =>
    let (_, state) := (s.stages i).state.finishedProcessingPoppedValue
    return (s.setStage i { s.stages i with
      state
      got := (s.stages i).got ++ [StreamState.received value] }, [])

/-- One atomic step. The functions that are attached are those of `g`, in their order. A
    step that would stop on an assertion is no step. -/
inductive Step (build : Build) (g : ∀ i, α i → α (i + 1)) : StreamPipeline α → StreamPipeline α → Prop where
  /-- `StreamProducer::send`, up to `pushValue` -/
  | send (s : StreamPipeline α) (v : α 0) (valid : s.closed = false) (exec : Bool)
      (state : StreamState (α 0) (StreamContinuationThen (α 0) (α 1)))
      (pushed : (s.stages 0).state.pushValue build v = .ok (exec, state)) :
    Step build g s { s.setStage 0 { s.stages 0 with state, arrived := (s.stages 0).arrived ++ [v] } with
      activities := s.activities ++ executeStream exec 0 }
  /-- `StreamProducer::reset`, up to `close` -/
  | close (s : StreamPipeline α) (valid : s.closed = false) (exec : Bool)
      (state : StreamState (α 0) (StreamContinuationThen (α 0) (α 1)))
      (closing : (s.stages 0).state.close build = .ok (exec, state)) :
    Step build g s { s.setStage 0 { s.stages 0 with state } with
      closed := true, activities := s.activities ++ executeStream exec 0 }
  /-- `Stream::then` of the last stream, up to `chain` -/
  | attach (s : StreamPipeline α) (valid : s.canceled = false)
      (untouched : (s.stages s.length).got = [])
      (idle : ∀ value, .get s.length value ∉ s.activities)
      (cont : Option (StreamContinuationThen (α s.length) (α (s.length + 1))))
      (state : StreamState (α s.length) (StreamContinuationThen (α s.length) (α (s.length + 1))))
      (chained : (s.stages s.length).state.chain build ⟨g s.length⟩ = .ok (cont, state)) :
    Step build g s { s.setStage s.length { s.stages s.length with state } with
      length := s.length + 1
      activities := s.activities ++ cont.toList.map (.continueWith s.length) }
  /-- `Stream::get` of the last stream, up to `popValue` -/
  | get (s : StreamPipeline α) (valid : s.canceled = false)
      (idle : ∀ value, .get s.length value ∉ s.activities)
      (ready : (s.stages s.length).state.isReady = true) (value : Option (StreamItem (α s.length)))
      (state : StreamState (α s.length) (StreamContinuationThen (α s.length) (α (s.length + 1))))
      (popped : (s.stages s.length).state.popValue build = .ok (value, state)) :
    Step build g s { s.setStage s.length { s.stages s.length with state } with
      activities := s.activities ++ [.get s.length value] }
  /-- `Stream::reset` of the last stream -/
  | reset (s : StreamPipeline α) : Step build g s { s with canceled := true }
  | act (s s' : StreamPipeline α) (activity : StreamActivity α) (new activities : List (StreamActivity α))
      (replaces : Replaces activity new s.activities activities)
      (ran : s.run build activity = .ok (s', new)) :
    Step build g s { s' with activities }

/-- The states that a pipeline can reach from a producer and its stream. -/
def Reached (build : Build) (g : ∀ i, α i → α (i + 1)) (s : StreamPipeline α) : Prop :=
  Reachable (fun s => s = {}) (Step build g) s

/-- What was sent, in its order. -/
def sent (s : StreamPipeline α) : List (α 0) := (s.stages 0).arrived

end StreamPipeline

/-- The state whose continuation, or whose `get`, the activity is at. -/
def StreamActivity.stage {α : Nat → Type} : StreamActivity α → Nat
  | .getContinuation i => i
  | .continueWith i _ => i
  | .closeNext i => i
  | .resetContinuation i => i
  | .job i _ _ => i
  | .invoke i _ _ => i
  | .pushValue i _ _ => i
  | .finish i _ => i
  | .get i _ => i

/-! ## What is in the queue -/

namespace StreamStage

variable {T U : Type}

/-- The end was not taken, and of the values those in `taken`. The rest is in the queue. -/
def Waiting (stage : StreamStage T U) (taken : List T) : Prop :=
  ∃ rest, stage.arrived = taken ++ rest ∧
    stage.state.queue = StreamState.itemsOf rest stage.state.isFinished

/-- All values were taken, and the end too. -/
structure Ended (stage : StreamStage T U) (taken : List T) : Prop where
  arrived : stage.arrived = taken
  finished : stage.state.isFinished = true
  queue : stage.state.queue = []

/-- What calls of `get` have returned is what they took. -/
def Delivered (stage : StreamStage T U) (got : List (Option T)) : Prop :=
  (∃ taken, stage.Waiting taken ∧ got = taken.map some) ∨
    ∃ taken k, stage.Ended taken ∧ got = taken.map some ++ List.replicate (k + 1) none

variable {stage : StreamStage T U} {taken : List T}

theorem Waiting.push (h : stage.Waiting taken) (hopen : stage.state.isFinished = false) (v : T) :
    Waiting { stage with
      state := { stage.state with queue := stage.state.queue ++ [.value v] }
      arrived := stage.arrived ++ [v] } taken := by
  obtain ⟨rest, harrived, hqueue⟩ := h
  refine ⟨rest ++ [v], ?_, ?_⟩
  · rw [harrived, List.append_assoc]
  · simp [hqueue, hopen, StreamState.itemsOf]

theorem Waiting.close (h : stage.Waiting taken) (hopen : stage.state.isFinished = false) :
    Waiting { stage with state := { stage.state with
      isFinished := true
      queue := stage.state.queue ++ [.endOfStream] } } taken := by
  obtain ⟨rest, harrived, hqueue⟩ := h
  refine ⟨rest, harrived, ?_⟩
  simp [hqueue, hopen, StreamState.itemsOf]

theorem Waiting.pop (h : stage.Waiting taken) {item : StreamItem T} {queue : List (StreamItem T)}
    (hqueue : stage.state.queue = item :: queue) (processingPoppedValue : Bool) :
    (∃ a, item = .value a ∧ Waiting { stage with
      state := { stage.state with queue, processingPoppedValue } } (taken ++ [a])) ∨
    item = .endOfStream ∧ Ended { stage with
      state := { stage.state with queue, processingPoppedValue } } taken := by
  obtain ⟨rest, harrived, hitems⟩ := h
  rw [hqueue] at hitems
  cases rest with
  | cons a rest =>
    obtain ⟨rfl, hrest⟩ := List.cons.inj hitems
    exact Or.inl ⟨a, rfl, rest, by rw [harrived, List.append_assoc]; rfl, hrest⟩
  | nil =>
    rw [List.append_nil] at harrived
    cases hfinished : stage.state.isFinished
    · rw [hfinished] at hitems
      cases hitems
    · rw [hfinished] at hitems
      obtain ⟨rfl, hrest⟩ := List.cons.inj hitems
      exact Or.inr ⟨rfl, harrived, hfinished, hrest⟩

theorem Delivered.congr {stage' : StreamStage T U} {got : List (Option T)} (h : stage.Delivered got)
    (harrived : stage'.arrived = stage.arrived)
    (hfinished : stage'.state.isFinished = stage.state.isFinished)
    (hqueue : stage'.state.queue = stage.state.queue) : stage'.Delivered got := by
  rcases h with ⟨taken, ⟨rest, hrest, hitems⟩, heq⟩ | ⟨taken, k, ended, heq⟩
  · exact Or.inl ⟨taken, ⟨rest, harrived.trans hrest, by rw [hqueue, hfinished, hitems]⟩, heq⟩
  · exact Or.inr ⟨taken, k, ⟨harrived.trans ended.arrived, hfinished.trans ended.finished,
      hqueue.trans ended.queue⟩, heq⟩

theorem Delivered.eq {got : List (Option T)} (h : stage.Delivered got) {all : List T} {closed : Bool}
    (harrived : stage.arrived <+: all)
    (hend : stage.state.isFinished = true → closed = true ∧ stage.arrived = all) :
    got = StreamState.delivery all closed got.length := by
  rcases h with ⟨taken, ⟨rest, hrest, -⟩, rfl⟩ | ⟨taken, k, ended, rfl⟩
  · obtain ⟨more, rfl⟩ := harrived
    have happend := StreamState.delivery_append taken (rest ++ more) closed 0
    rw [hrest, List.append_assoc, List.length_map]
    refine Eq.trans ?_ happend.symm
    cases rest ++ more <;> exact (List.append_nil _).symm
  · obtain ⟨rfl, rfl⟩ := hend ended.finished
    have happend := StreamState.delivery_append taken [] true (k + 1)
    rw [StreamState.delivery_nil, List.append_nil] at happend
    rw [List.length_append, List.length_map, List.length_replicate, ended.arrived, happend]

theorem Delivered.eq_of_append {got : List (Option T)} {value : Option T}
    (h : stage.Delivered (got ++ [value])) {all : List T} {closed : Bool}
    (harrived : stage.arrived <+: all)
    (hend : stage.state.isFinished = true → closed = true ∧ stage.arrived = all) :
    got = StreamState.delivery all closed got.length := by
  have heq := h.eq harrived hend
  rw [List.length_append, List.length_singleton] at heq
  rw [← StreamState.take_delivery, ← heq, List.take_left]

theorem Delivered.gets {build : Build} {got : List (Option T)} (h : stage.Delivered got)
    (hidle : stage.state.processingPoppedValue = false) (n : Nat) :
    got ++ stage.state.gets build n =
      StreamState.delivery stage.arrived stage.state.isFinished (got.length + n) := by
  rcases h with ⟨taken, ⟨rest, hrest, hqueue⟩, rfl⟩ | ⟨taken, k, ended, rfl⟩
  · rw [StreamState.gets_eq hidle hqueue, hrest, List.length_map, StreamState.delivery_append]
  · have happend := StreamState.delivery_append taken [] true (k + 1 + n)
    rw [StreamState.delivery_nil, List.append_nil] at happend
    rw [StreamState.gets_ended hidle ended.finished ended.queue, ended.arrived, ended.finished,
      List.length_append, List.length_map, List.length_replicate, Nat.add_assoc, happend,
      List.append_assoc, List.replicate_append_replicate]

theorem Waiting.isPrefix (h : stage.Waiting taken) : taken <+: stage.arrived := by
  obtain ⟨rest, harrived, -⟩ := h
  exact ⟨rest, harrived.symm⟩

theorem Waiting.of_queue_nil (h : stage.Waiting taken) (hqueue : stage.state.queue = []) :
    stage.arrived = taken ∧ stage.state.isFinished = false := by
  obtain ⟨rest, harrived, hitems⟩ := h
  rw [hqueue] at hitems
  obtain ⟨hrest, hend⟩ := List.append_eq_nil_iff.1 hitems.symm
  rw [List.map_eq_nil_iff.1 hrest, List.append_nil] at harrived
  refine ⟨harrived, ?_⟩
  cases hfinished : stage.state.isFinished
  · rfl
  · rw [hfinished] at hend
    cases hend

end StreamStage

/-! ## The phases of a stage -/

namespace StreamPipeline

variable {α : Nat → Type}

section

variable {i : Nat} {fn : α i → α (i + 1)}

/-- A stage that is attached and whose stream has not ended: `taken` was taken, `passed` was
    pushed into the next state, and `pushing` still has to be. -/
structure Attached (fn : α i → α (i + 1)) (stage : StreamStage (α i) (α (i + 1)))
    (cont : StreamContinuationThen (α i) (α (i + 1))) (taken : List (α i))
    (passed pushing : List (α (i + 1))) (processing : Bool) : Prop where
  stored : stage.state.cont = some cont
  function : cont.continuationFn = fn
  waiting : stage.Waiting taken
  passed : stage.applied.map fn = passed ++ pushing
  processing : stage.state.processingPoppedValue = processing

/-- A stream that nothing is attached to. -/
structure Last (stage : StreamStage (α i) (α (i + 1))) (passed : List (α (i + 1)))
    (finished : Bool) (got : List (Option (α i))) : Prop where
  cont : stage.state.cont = none
  applied : stage.applied = []
  passed : passed = []
  finished : finished = false
  delivered : stage.Delivered got

/-- What is so of a stage whose function is `fn`, while the next one got `passed` and has
    `finished`. The indices are whether it is attached, and the activities at it. -/
inductive StageSound (fn : α i → α (i + 1)) (stage : StreamStage (α i) (α (i + 1)))
    (passed : List (α (i + 1))) (finished : Bool) : Bool → List (StreamActivity α) → Prop where
  | last (last : Last stage passed finished stage.got)
      (idle : stage.state.processingPoppedValue = false) :
    StageSound fn stage passed finished false []
  | getting (value : Option (StreamItem (α i)))
      (last : Last stage passed finished (stage.got ++ [StreamState.received value])) :
    StageSound fn stage passed finished false [.get i value]
  | idle (cont : StreamContinuationThen (α i) (α (i + 1)))
      (attached : Attached fn stage cont stage.applied passed [] false)
      (queue : stage.state.queue = []) (unfinished : finished = false) :
    StageSound fn stage passed finished true []
  /-- Somebody is about to pop a value. -/
  | due (cont : StreamContinuationThen (α i) (α (i + 1)))
      (attached : Attached fn stage cont stage.applied passed [] false)
      (queue : stage.state.queue ≠ []) (unfinished : finished = false) (activity : StreamActivity α)
      (at_ : activity = .getContinuation i ∨ activity = .continueWith i cont) :
    StageSound fn stage passed finished true [activity]
  | job (cont : StreamContinuationThen (α i) (α (i + 1))) (val : α i)
      (attached : Attached fn stage cont (stage.applied ++ [val]) passed [] true)
      (unfinished : finished = false) :
    StageSound fn stage passed finished true [.job i cont val]
  | invoke (cont : StreamContinuationThen (α i) (α (i + 1))) (val : α i)
      (attached : Attached fn stage cont (stage.applied ++ [val]) passed [] true)
      (unfinished : finished = false) :
    StageSound fn stage passed finished true [.invoke i cont val]
  | pushValue (cont : StreamContinuationThen (α i) (α (i + 1))) (value : α (i + 1))
      (attached : Attached fn stage cont stage.applied passed [value] true)
      (unfinished : finished = false) :
    StageSound fn stage passed finished true [.pushValue i cont value]
  | finish (cont : StreamContinuationThen (α i) (α (i + 1)))
      (attached : Attached fn stage cont stage.applied passed [] true)
      (unfinished : finished = false) :
    StageSound fn stage passed finished true [.finish i cont]
  | closeNext (ended : stage.Ended stage.applied) (applied : stage.applied.map fn = passed)
      (unfinished : finished = false) :
    StageSound fn stage passed finished true [.closeNext i]
  | resetContinuation (ended : stage.Ended stage.applied) (applied : stage.applied.map fn = passed)
      (next : finished = true) :
    StageSound fn stage passed finished true [.resetContinuation i]
  | done (ended : stage.Ended stage.applied) (applied : stage.applied.map fn = passed)
      (next : finished = true) :
    StageSound fn stage passed finished true []

variable {stage stage' : StreamStage (α i) (α (i + 1))} {passed : List (α (i + 1))}
  {finished attached : Bool} {work : List (StreamActivity α)}

theorem Attached.congr {cont : StreamContinuationThen (α i) (α (i + 1))} {taken : List (α i)}
    {pushing : List (α (i + 1))} {processing : Bool}
    (h : Attached fn stage cont taken passed pushing processing)
    (hcont : stage'.state.cont = stage.state.cont) (hwaiting : stage'.Waiting taken)
    (happlied : stage'.applied = stage.applied)
    (hprocessing : stage'.state.processingPoppedValue = stage.state.processingPoppedValue) :
    Attached fn stage' cont taken passed pushing processing :=
  ⟨hcont.trans h.stored, h.function, hwaiting, happlied ▸ h.passed, hprocessing.trans h.processing⟩

theorem StageSound.length_le (h : StageSound fn stage passed finished attached work) :
    work.length ≤ 1 := by
  cases h with
  | last | idle | done => exact Nat.zero_le 1
  | getting | due | job | invoke | pushValue | finish | closeNext | resetContinuation => exact le_rfl

theorem Attached.executeContinuation {cont : StreamContinuationThen (α i) (α (i + 1))}
    {taken : List (α i)} {pushing : List (α (i + 1))} {processing : Bool}
    (h : Attached fn stage cont taken passed pushing processing) :
    stage.state.executeContinuation = (stage.state.queue.isEmpty && !processing) := by
  rw [StreamState.executeContinuation, h.stored, h.processing, Option.isSome_some, Bool.and_true]

theorem Last.executeContinuation {got : List (Option (α i))} (h : Last stage passed finished got) :
    stage.state.executeContinuation = false := by
  rw [StreamState.executeContinuation, h.cont, Option.isSome_none, Bool.and_false]

theorem StageSound.work_nil (h : StageSound fn stage passed finished attached work)
    (hopen : stage.state.isFinished = false) (hexec : stage.state.executeContinuation = true) :
    work = [] := by
  cases h with
  | last | idle | done => rfl
  | getting value last =>
    rw [last.executeContinuation] at hexec
    cases hexec
  | due cont attached queue =>
    rw [attached.executeContinuation, Bool.not_false, Bool.and_true, List.isEmpty_iff] at hexec
    exact absurd hexec queue
  | job cont val attached | invoke cont val attached =>
    rw [attached.executeContinuation, Bool.not_true, Bool.and_false] at hexec
    cases hexec
  | pushValue cont value attached =>
    rw [attached.executeContinuation, Bool.not_true, Bool.and_false] at hexec
    cases hexec
  | finish cont attached =>
    rw [attached.executeContinuation, Bool.not_true, Bool.and_false] at hexec
    cases hexec
  | closeNext ended | resetContinuation ended =>
    rw [ended.finished] at hopen
    cases hopen

/-- A value or the end comes in: where the stage was idle, whoever brings it goes on with
    the continuation. -/
theorem StageSound.receive (h : StageSound fn stage passed finished attached work)
    (hopen : stage.state.isFinished = false)
    (hwaiting : ∀ taken, stage.Waiting taken → stage'.Waiting taken)
    (hqueue : stage'.state.queue ≠ []) (hcont : stage'.state.cont = stage.state.cont)
    (hprocessing : stage'.state.processingPoppedValue = stage.state.processingPoppedValue)
    (happlied : stage'.applied = stage.applied) (hgot : stage'.got = stage.got) :
    StageSound fn stage' passed finished attached
      (work ++ executeStream stage.state.executeContinuation i) := by
  have hlast : ∀ got, Last stage passed finished got → Last stage' passed finished got := by
    intro got last
    refine ⟨hcont.trans last.cont, happlied.trans last.applied, last.passed, last.finished, ?_⟩
    rcases last.delivered with ⟨taken, waiting, heq⟩ | ⟨taken, k, ended, heq⟩
    · exact Or.inl ⟨taken, hwaiting taken waiting, heq⟩
    · rw [ended.finished] at hopen
      cases hopen
  have hattached : ∀ cont taken pushing processing,
      Attached fn stage cont taken passed pushing processing →
        Attached fn stage' cont taken passed pushing processing :=
    fun cont taken pushing processing att => att.congr hcont (hwaiting taken att.waiting) happlied hprocessing
  have hstays : stage.state.executeContinuation = false →
      work ++ executeStream stage.state.executeContinuation i = work := by
    intro hexec
    rw [hexec]
    exact List.append_nil work
  cases h with
  | last last idle =>
    rw [hstays last.executeContinuation]
    exact .last (hgot ▸ hlast _ last) (hprocessing.trans idle)
  | getting value last =>
    rw [hstays last.executeContinuation]
    exact .getting value (hgot ▸ hlast _ last)
  | idle cont att queue unfinished =>
    -- the stage has nothing to do, so it is told
    have hexec : stage.state.executeContinuation = true := by
      rw [att.executeContinuation, queue]
      rfl
    rw [hexec]
    exact .due cont (happlied ▸ hattached _ _ _ _ att) hqueue unfinished _ (Or.inl rfl)
  | due cont att queue unfinished activity at_ =>
    rw [hstays]
    · exact .due cont (happlied ▸ hattached _ _ _ _ att) hqueue unfinished activity at_
    · rw [att.executeContinuation, Bool.not_false, Bool.and_true]
      simpa using queue
  | job cont val att unfinished =>
    rw [hstays (att.executeContinuation.trans (Bool.and_false _))]
    exact .job cont val (happlied ▸ hattached _ _ _ _ att) unfinished
  | invoke cont val att unfinished =>
    rw [hstays (att.executeContinuation.trans (Bool.and_false _))]
    exact .invoke cont val (happlied ▸ hattached _ _ _ _ att) unfinished
  | pushValue cont value att unfinished =>
    rw [hstays (att.executeContinuation.trans (Bool.and_false _))]
    exact .pushValue cont value (happlied ▸ hattached _ _ _ _ att) unfinished
  | finish cont att unfinished =>
    rw [hstays (att.executeContinuation.trans (Bool.and_false _))]
    exact .finish cont (happlied ▸ hattached _ _ _ _ att) unfinished
  | closeNext ended | resetContinuation ended | done ended =>
    rw [ended.finished] at hopen
    cases hopen

theorem StageSound.push (h : StageSound fn stage passed finished attached work)
    (hopen : stage.state.isFinished = false) (v : α i) :
    StageSound fn { stage with
      state := { stage.state with queue := stage.state.queue ++ [.value v] }
      arrived := stage.arrived ++ [v] } passed finished attached
      (work ++ executeStream stage.state.executeContinuation i) :=
  h.receive hopen (fun _ waiting => waiting.push hopen v) (by simp) rfl rfl rfl rfl

theorem StageSound.close (h : StageSound fn stage passed finished attached work)
    (hopen : stage.state.isFinished = false) :
    StageSound fn { stage with state := { stage.state with
      isFinished := true
      queue := stage.state.queue ++ [.endOfStream] } } passed finished attached
      (work ++ executeStream stage.state.executeContinuation i) :=
  h.receive hopen (fun _ waiting => waiting.close hopen) (by simp) rfl rfl rfl rfl

end

/-! ## What each step keeps -/

/-- The activities at a stage. -/
def work (s : StreamPipeline α) (i : Nat) : List (StreamActivity α) :=
  s.activities.filter fun a => a.stage == i

structure Sound (g : ∀ i, α i → α (i + 1)) (s : StreamPipeline α) : Prop where
  closed : (s.stages 0).state.isFinished = s.closed
  stages : ∀ i, StageSound (g i) (s.stages i) (s.stages (i + 1)).arrived
    (s.stages (i + 1)).state.isFinished (decide (i < s.length)) (s.work i)

section

variable {build : Build} {g : ∀ i, α i → α (i + 1)} {s : StreamPipeline α} {a : StreamActivity α}
  {new activities : List (StreamActivity α)}

@[simp] theorem stages_setStage (s : StreamPipeline α) (i : Nat) (stage : StreamStage (α i) (α (i + 1))) :
    (s.setStage i stage).stages i = stage := Function.update_self ..

theorem stages_setStage_of_ne (s : StreamPipeline α) {i j : Nat} (h : j ≠ i)
    (stage : StreamStage (α i) (α (i + 1))) : (s.setStage i stage).stages j = s.stages j :=
  Function.update_of_ne h ..

theorem seen_setStage {i : Nat} {stage : StreamStage (α i) (α (i + 1))}
    (harrived : stage.arrived = (s.stages i).arrived)
    (hfinished : stage.state.isFinished = (s.stages i).state.isFinished) (j : Nat) :
    ((s.setStage i stage).stages j).arrived = (s.stages j).arrived ∧
      ((s.setStage i stage).stages j).state.isFinished = (s.stages j).state.isFinished := by
  by_cases hj : j = i
  · subst hj
    rw [stages_setStage]
    exact ⟨harrived, hfinished⟩
  · rw [stages_setStage_of_ne s hj]
    exact ⟨rfl, rfl⟩

theorem filter_executeStream (exec : Bool) (i : Nat) :
    (executeStream (α := α) exec i).filter (fun b => b.stage == i) = executeStream exec i := by
  cases exec
  · rfl
  · exact List.filter_eq_self.2 fun b hb => by
      rw [List.mem_singleton.1 hb]
      exact beq_self_eq_true i

theorem filter_executeStream_of_ne (exec : Bool) {i j : Nat} (h : i ≠ j) :
    (executeStream (α := α) exec i).filter (fun b => b.stage == j) = [] := by
  cases exec
  · rfl
  · exact List.filter_eq_nil_iff.2 fun b hb => by
      rw [List.mem_singleton.1 hb, beq_iff_eq]
      exact h

theorem Sound.work_eq (h : Sound g s) (ha : a ∈ s.activities) : s.work a.stage = [a] := by
  have hmem : a ∈ s.work a.stage := List.mem_filter.2 ⟨ha, beq_self_eq_true _⟩
  have hlength := (h.stages a.stage).length_le
  obtain ⟨b, hb⟩ := List.length_eq_one_iff.1
    (le_antisymm hlength (List.length_pos_of_mem hmem))
  rw [hb, List.mem_singleton] at hmem
  rw [hb, hmem]

theorem Sound.at_stage (h : Sound g s) (ha : a ∈ s.activities) {i : Nat} (hi : a.stage = i) :
    ∃ attached, decide (i < s.length) = attached ∧ StageSound (g i) (s.stages i)
      (s.stages (i + 1)).arrived (s.stages (i + 1)).state.isFinished attached [a] := by
  subst hi
  have hstage := h.stages a.stage
  rw [h.work_eq ha] at hstage
  exact ⟨_, rfl, hstage⟩

/-- A step of an activity at a stage that changes nothing the stages around it see. -/
theorem Sound.of_local (h : Sound g s) (replaces : Replaces a new s.activities activities) {i : Nat}
    (ha : a.stage = i) (hnew : ∀ b ∈ new, b.stage = i) {stage : StreamStage (α i) (α (i + 1))}
    (harrived : stage.arrived = (s.stages i).arrived)
    (hfinished : stage.state.isFinished = (s.stages i).state.isFinished) {attached : Bool}
    (hatt : decide (i < s.length) = attached)
    (hstage : StageSound (g i) stage (s.stages (i + 1)).arrived (s.stages (i + 1)).state.isFinished
      attached new) :
    Sound g { s.setStage i stage with activities } := by
  subst ha hatt
  have hseen := seen_setStage harrived hfinished
  refine ⟨(hseen 0).2.trans h.closed, fun j => ?_⟩
  show StageSound (g j) ((s.setStage a.stage stage).stages j) _ _ _ (activities.filter fun b => b.stage == j)
  rw [(hseen (j + 1)).1, (hseen (j + 1)).2]
  by_cases hj : j = a.stage
  · subst hj
    have hwork := replaces.filter_self (p := fun b => b.stage == a.stage) (beq_self_eq_true _)
      (h.work_eq replaces.mem)
    rw [List.filter_eq_self.2 fun b hb => beq_iff_eq.2 (hnew b hb)] at hwork
    rw [hwork, stages_setStage]
    exact hstage
  · have hnone : new.filter (fun b => b.stage == j) = [] :=
      List.filter_eq_nil_iff.2 fun b hb => by
        rw [hnew b hb, beq_iff_eq]
        exact Ne.symm hj
    have hwork := replaces.filter_of_not (p := fun b => b.stage == j) (beq_false_of_ne (Ne.symm hj))
      (Or.inr hnone)
    rw [hnone, List.append_nil] at hwork
    rw [hwork, stages_setStage_of_ne s hj]
    exact h.stages j

/-- A step of an activity at a stage that brings something into the next one. -/
theorem Sound.of_send (h : Sound g s) {i : Nat} {b : StreamActivity α}
    (replaces : Replaces a (executeStream (s.stages (i + 1)).state.executeContinuation (i + 1) ++ [b])
      s.activities activities)
    (ha : a.stage = i) (hb : b.stage = i) (hopen : (s.stages (i + 1)).state.isFinished = false)
    {next : StreamStage (α (i + 1)) (α (i + 1 + 1))} {attached : Bool}
    (hatt : decide (i < s.length) = attached)
    (hstage : StageSound (g i) (s.stages i) next.arrived next.state.isFinished attached [b])
    (hnext : StageSound (g (i + 1)) next (s.stages (i + 1 + 1)).arrived
      (s.stages (i + 1 + 1)).state.isFinished (decide (i + 1 < s.length))
      (s.work (i + 1) ++ executeStream (s.stages (i + 1)).state.executeContinuation (i + 1))) :
    Sound g { s.setStage (i + 1) next with activities } := by
  subst ha hatt
  refine ⟨?_, fun j => ?_⟩
  · show ((s.setStage (a.stage + 1) next).stages 0).state.isFinished = s.closed
    rw [stages_setStage_of_ne s (Nat.succ_ne_zero a.stage).symm]
    exact h.closed
  show StageSound (g j) ((s.setStage (a.stage + 1) next).stages j)
    ((s.setStage (a.stage + 1) next).stages (j + 1)).arrived _ _ (activities.filter fun b => b.stage == j)
  generalize hexec : (s.stages (a.stage + 1)).state.executeContinuation = exec at hnext replaces
  -- what is new for each stage
  have hnew : ∀ j, (executeStream exec (a.stage + 1) ++ [b]).filter (fun c => c.stage == j) =
      (executeStream exec (a.stage + 1)).filter (fun c => c.stage == j) ++
        if a.stage = j then [b] else [] := by
    intro j
    rw [List.filter_append, List.filter_singleton, hb]
    by_cases hj : a.stage = j
    · rw [if_pos hj, beq_iff_eq.2 hj]
      rfl
    · rw [if_neg hj, beq_false_of_ne hj]
      rfl
  by_cases hj : j = a.stage
  · subst hj
    have hwork := replaces.filter_self (p := fun b => b.stage == a.stage) (beq_self_eq_true _)
      (h.work_eq replaces.mem)
    rw [hnew, filter_executeStream_of_ne exec (Nat.succ_ne_self a.stage), if_pos rfl] at hwork
    rw [hwork, stages_setStage, stages_setStage_of_ne s (Nat.succ_ne_self a.stage).symm]
    exact hstage
  have hother : (a.stage == j) = false := beq_false_of_ne (Ne.symm hj)
  have hlater : j + 1 ≠ a.stage + 1 := by omega
  rw [stages_setStage_of_ne s hlater]
  by_cases hnext' : j = a.stage + 1
  · subst hnext'
    have hwork := replaces.filter_of_not (p := fun c => c.stage == a.stage + 1) hother
    rw [hnew, filter_executeStream, if_neg (Ne.symm hj), List.append_nil] at hwork
    have hnone : s.work (a.stage + 1) = [] ∨ executeStream (α := α) exec (a.stage + 1) = [] := by
      cases hcase : exec
      · exact Or.inr rfl
      · exact Or.inl ((h.stages (a.stage + 1)).work_nil hopen (hexec.trans hcase))
    rw [hwork hnone, stages_setStage]
    exact hnext
  · have hnone := hnew j
    rw [filter_executeStream_of_ne exec (Ne.symm hnext'), if_neg (Ne.symm hj)] at hnone
    have hwork := replaces.filter_of_not (p := fun c => c.stage == j) hother (Or.inr hnone)
    rw [hwork, hnone, List.nil_append, List.append_nil, stages_setStage_of_ne s hnext']
    exact h.stages j

/-- An activity does what it is there for, without failing an assertion. -/
def Goes (build : Build) (g : ∀ i, α i → α (i + 1)) (s : StreamPipeline α) (a : StreamActivity α) : Prop :=
  ∃ s' new, s.run build a = .ok (s', new) ∧
    ∀ activities, Replaces a new s.activities activities → Sound g { s' with activities }

theorem setStage_self (s : StreamPipeline α) (i : Nat) : s.setStage i (s.stages i) = s := by
  rw [setStage, Function.update_eq_self]

theorem goes_getContinuation (h : Sound g s) {i : Nat} (hmem : .getContinuation i ∈ s.activities) :
    Goes build g s (.getContinuation i) := by
  obtain ⟨attached, hatt, hstage⟩ := h.at_stage (i := i) hmem rfl
  cases hstage with
  | due cont att queue unfinished =>
    have hrun : s.run build (.getContinuation i) = .ok (s.setStage i (s.stages i), [.continueWith i cont]) := by
      rw [run, att.stored, setStage_self]
      rfl
    refine ⟨_, _, hrun, fun activities replaces => ?_⟩
    exact h.of_local replaces rfl (List.forall_mem_singleton.2 rfl) rfl rfl hatt
      (.due cont att queue unfinished _ (Or.inr rfl))

theorem goes_continueWith (h : Sound g s) {i : Nat} {cont : StreamContinuationThen (α i) (α (i + 1))}
    (hmem : .continueWith i cont ∈ s.activities) : Goes build g s (.continueWith i cont) := by
  obtain ⟨attached, hatt, hstage⟩ := h.at_stage (i := i) hmem rfl
  cases hstage with
  | due cont' att queue unfinished activity at_ =>
    obtain rfl : cont = cont' := by
      rcases at_ with heq | heq
      · cases heq
      · cases heq
        rfl
    obtain ⟨item, rest, hqueue⟩ := List.exists_cons_of_ne_nil queue
    have hpop := StreamState.popValue_cons build att.processing hqueue
    rcases att.waiting.pop hqueue true with ⟨a, rfl, hwaiting⟩ | ⟨rfl, hended⟩
    · have hrun : s.run build (.continueWith i cont) = .ok (s.setStage i { s.stages i with
          state := { (s.stages i).state with queue := rest, processingPoppedValue := true } },
          [.job i cont a]) := Except.bind_ok hpop _
      refine ⟨_, _, hrun, fun activities replaces => ?_⟩
      exact h.of_local replaces rfl (List.forall_mem_singleton.2 rfl) rfl rfl hatt
        (.job cont a ⟨att.stored, att.function, hwaiting, att.passed, rfl⟩ unfinished)
    · have hrun : s.run build (.continueWith i cont) = .ok (s.setStage i { s.stages i with
          state := { (s.stages i).state with queue := rest, processingPoppedValue := true } },
          [.closeNext i]) := Except.bind_ok hpop _
      refine ⟨_, _, hrun, fun activities replaces => ?_⟩
      exact h.of_local replaces rfl (List.forall_mem_singleton.2 rfl) rfl rfl hatt
        (.closeNext hended (att.passed.trans (List.append_nil _)) unfinished)

theorem goes_closeNext (h : Sound g s) {i : Nat} (hmem : .closeNext i ∈ s.activities) :
    Goes build g s (.closeNext i) := by
  obtain ⟨attached, hatt, hstage⟩ := h.at_stage (i := i) hmem rfl
  cases hstage with
  | due cont att queue unfinished activity at_ => simp at at_
  | closeNext ended applied unfinished =>
    refine ⟨_, _, Except.bind_ok (StreamState.close_eq unfinished) _, fun activities replaces => ?_⟩
    exact h.of_send replaces rfl rfl unfinished hatt (.resetContinuation ended applied rfl)
      ((h.stages (i + 1)).close unfinished)

theorem goes_resetContinuation (h : Sound g s) {i : Nat} (hmem : .resetContinuation i ∈ s.activities) :
    Goes build g s (.resetContinuation i) := by
  obtain ⟨attached, hatt, hstage⟩ := h.at_stage (i := i) hmem rfl
  cases hstage with
  | due cont att queue unfinished activity at_ => simp at at_
  | resetContinuation ended applied next =>
    refine ⟨_, _, rfl, fun activities replaces => ?_⟩
    exact h.of_local replaces rfl (List.forall_mem_nil _) rfl rfl hatt
      (.done ⟨ended.arrived, ended.finished, ended.queue⟩ applied next)

theorem goes_job (h : Sound g s) (hcanceled : s.canceled = false) {i : Nat}
    {cont : StreamContinuationThen (α i) (α (i + 1))} {val : α i}
    (hmem : .job i cont val ∈ s.activities) : Goes build g s (.job i cont val) := by
  obtain ⟨attached, hatt, hstage⟩ := h.at_stage (i := i) hmem rfl
  cases hstage with
  | due cont att queue unfinished activity at_ => simp at at_
  | job cont val att unfinished =>
    have hrun : s.run build (.job i cont val) = .ok (s.setStage i (s.stages i), [.invoke i cont val]) := by
      rw [run, hcanceled, setStage_self]
      rfl
    refine ⟨_, _, hrun, fun activities replaces => ?_⟩
    exact h.of_local replaces rfl (List.forall_mem_singleton.2 rfl) rfl rfl hatt
      (.invoke cont val att unfinished)

theorem goes_invoke (h : Sound g s) {i : Nat} {cont : StreamContinuationThen (α i) (α (i + 1))} {val : α i}
    (hmem : .invoke i cont val ∈ s.activities) : Goes build g s (.invoke i cont val) := by
  obtain ⟨attached, hatt, hstage⟩ := h.at_stage (i := i) hmem rfl
  cases hstage with
  | due cont att queue unfinished activity at_ => simp at at_
  | invoke cont val att unfinished =>
    have hpassed : ((s.stages i).applied ++ [val]).map (g i) =
        (s.stages (i + 1)).arrived ++ [cont.continuationFn val] := by
      rw [List.map_append, att.passed, List.append_nil, att.function]
      rfl
    refine ⟨_, _, rfl, fun activities replaces => ?_⟩
    exact h.of_local replaces rfl (List.forall_mem_singleton.2 rfl) rfl rfl hatt
      (.pushValue cont _ ⟨att.stored, att.function, att.waiting, hpassed, att.processing⟩ unfinished)

theorem goes_pushValue (h : Sound g s) {i : Nat} {cont : StreamContinuationThen (α i) (α (i + 1))}
    {value : α (i + 1)} (hmem : .pushValue i cont value ∈ s.activities) :
    Goes build g s (.pushValue i cont value) := by
  obtain ⟨attached, hatt, hstage⟩ := h.at_stage (i := i) hmem rfl
  cases hstage with
  | due cont att queue unfinished activity at_ => simp at at_
  | pushValue cont value att unfinished =>
    refine ⟨_, _, Except.bind_ok (StreamState.pushValue_eq unfinished value) _,
      fun activities replaces => ?_⟩
    exact h.of_send replaces rfl rfl unfinished hatt
      (.finish cont ⟨att.stored, att.function, att.waiting, att.passed.trans (List.append_nil _).symm,
        att.processing⟩ unfinished)
      ((h.stages (i + 1)).push unfinished value)

theorem goes_finish (h : Sound g s) {i : Nat} {cont : StreamContinuationThen (α i) (α (i + 1))}
    (hmem : .finish i cont ∈ s.activities) : Goes build g s (.finish i cont) := by
  obtain ⟨attached, hatt, hstage⟩ := h.at_stage (i := i) hmem rfl
  cases hstage with
  | due cont att queue unfinished activity at_ => simp at at_
  | finish cont att unfinished =>
    have hidle : Attached (g i)
        { s.stages i with state := { (s.stages i).state with processingPoppedValue := false } } cont
        (s.stages i).applied (s.stages (i + 1)).arrived [] false :=
      ⟨att.stored, att.function, att.waiting, att.passed, rfl⟩
    have hrun : s.run build (.finish i cont) = .ok (s.setStage i { s.stages i with
        state := { (s.stages i).state with processingPoppedValue := false } },
        if !(s.stages i).state.queue.isEmpty && (s.stages i).state.cont.isSome then
          [.continueWith i cont] else []) := rfl
    refine ⟨_, _, hrun, fun activities replaces => ?_⟩
    rw [att.stored, Option.isSome_some, Bool.and_true] at replaces
    by_cases hqueue : (s.stages i).state.queue = []
    · rw [hqueue] at replaces
      exact h.of_local replaces rfl (List.forall_mem_nil _) rfl rfl hatt (.idle cont hidle hqueue unfinished)
    · rw [if_pos (by simpa using hqueue)] at replaces
      exact h.of_local replaces rfl (List.forall_mem_singleton.2 rfl) rfl rfl hatt
        (.due cont hidle hqueue unfinished _ (Or.inr rfl))

theorem goes_get (h : Sound g s) {i : Nat} {value : Option (StreamItem (α i))}
    (hmem : .get i value ∈ s.activities) : Goes build g s (.get i value) := by
  obtain ⟨attached, hatt, hstage⟩ := h.at_stage (i := i) hmem rfl
  cases hstage with
  | due cont att queue unfinished activity at_ => simp at at_
  | getting value last =>
    have hrun : s.run build (.get i value) = .ok (s.setStage i { s.stages i with
        state := { (s.stages i).state with processingPoppedValue := false }
        got := (s.stages i).got ++ [StreamState.received value] }, []) := rfl
    refine ⟨_, _, hrun, fun activities replaces => ?_⟩
    exact h.of_local replaces rfl (List.forall_mem_nil _) rfl rfl hatt
      (.last ⟨last.cont, last.applied, last.passed, last.finished, last.delivered.congr rfl rfl rfl⟩ rfl)

variable (build) in
theorem goes_of_mem (h : Sound g s) (hcanceled : s.canceled = false) (hmem : a ∈ s.activities) :
    Goes build g s a := by
  cases a with
  | getContinuation i => exact goes_getContinuation h hmem
  | continueWith i cont => exact goes_continueWith h hmem
  | closeNext i => exact goes_closeNext h hmem
  | resetContinuation i => exact goes_resetContinuation h hmem
  | job i cont val => exact goes_job h hcanceled hmem
  | invoke i cont val => exact goes_invoke h hmem
  | pushValue i cont value => exact goes_pushValue h hmem
  | finish i cont => exact goes_finish h hmem
  | get i value => exact goes_get h hmem

/-- A call from outside, of the producer or of the last stream. -/
theorem Sound.of_call (h : Sound g s) {n length : Nat} {closed : Bool}
    {stage : StreamStage (α n) (α (n + 1))} (hnew : ∀ b ∈ new, b.stage = n)
    (hbefore : n ≠ 0 → stage.arrived = (s.stages n).arrived ∧
      stage.state.isFinished = (s.stages n).state.isFinished)
    (hclosed : ((s.setStage n stage).stages 0).state.isFinished = closed)
    (hlength : ∀ j, j ≠ n → (j < length ↔ j < s.length))
    (hstage : StageSound (g n) stage (s.stages (n + 1)).arrived (s.stages (n + 1)).state.isFinished
      (decide (n < length)) (s.work n ++ new)) :
    Sound g { s.setStage n stage with length, closed, activities := s.activities ++ new } := by
  refine ⟨hclosed, fun j => ?_⟩
  show StageSound (g j) ((s.setStage n stage).stages j) ((s.setStage n stage).stages (j + 1)).arrived
    ((s.setStage n stage).stages (j + 1)).state.isFinished (decide (j < length))
    ((s.activities ++ new).filter fun b => b.stage == j)
  rw [List.filter_append]
  by_cases hj : j = n
  · subst hj
    rw [List.filter_eq_self.2 fun b hb => beq_iff_eq.2 (hnew b hb), stages_setStage,
      stages_setStage_of_ne s (Nat.succ_ne_self j)]
    exact hstage
  have hseen : ((s.setStage n stage).stages (j + 1)).arrived = (s.stages (j + 1)).arrived ∧
      ((s.setStage n stage).stages (j + 1)).state.isFinished = (s.stages (j + 1)).state.isFinished := by
    by_cases hnext : j + 1 = n
    · subst hnext
      rw [stages_setStage]
      exact hbefore (Nat.succ_ne_zero j)
    · rw [stages_setStage_of_ne s hnext]
      exact ⟨rfl, rfl⟩
  have hnone : new.filter (fun b => b.stage == j) = [] :=
    List.filter_eq_nil_iff.2 fun b hb => by
      rw [hnew b hb, beq_iff_eq]
      exact Ne.symm hj
  rw [hseen.1, hseen.2, hnone, List.append_nil, stages_setStage_of_ne s hj, decide_eq_decide.2 (hlength j hj)]
  exact h.stages j

theorem mem_executeStream {exec : Bool} {i : Nat} {b : StreamActivity α} (hb : b ∈ executeStream exec i) :
    b.stage = i := by
  cases exec
  · cases hb
  · rw [List.mem_singleton.1 hb]
    rfl

theorem sound_send (h : Sound g s) (hvalid : s.closed = false) (v : α 0) :
    Sound g { s.setStage 0 { s.stages 0 with
        state := { (s.stages 0).state with queue := (s.stages 0).state.queue ++ [.value v] }
        arrived := (s.stages 0).arrived ++ [v] } with
      activities := s.activities ++ executeStream (s.stages 0).state.executeContinuation 0 } := by
  have hopen := h.closed.trans hvalid
  refine h.of_call (fun b => mem_executeStream) (fun hne => absurd rfl hne) ?_ (fun _ _ => Iff.rfl)
    ((h.stages 0).push hopen v)
  rw [stages_setStage]
  exact h.closed

theorem sound_close (h : Sound g s) (hvalid : s.closed = false) :
    Sound g { s.setStage 0 { s.stages 0 with state := { (s.stages 0).state with
        isFinished := true
        queue := (s.stages 0).state.queue ++ [.endOfStream] } } with
      closed := true
      activities := s.activities ++ executeStream (s.stages 0).state.executeContinuation 0 } := by
  have hopen := h.closed.trans hvalid
  refine h.of_call (fun b => mem_executeStream) (fun hne => absurd rfl hne) ?_ (fun _ _ => Iff.rfl)
    ((h.stages 0).close hopen)
  rw [stages_setStage]

theorem Sound.at_last (h : Sound g s) : StageSound (g s.length) (s.stages s.length)
    (s.stages (s.length + 1)).arrived (s.stages (s.length + 1)).state.isFinished false
    (s.work s.length) := by
  have hstage := h.stages s.length
  rwa [decide_eq_false (lt_irrefl _)] at hstage

theorem Sound.last (h : Sound g s) (hidle : ∀ value, .get s.length value ∉ s.activities) :
    s.work s.length = [] ∧ Last (s.stages s.length) (s.stages (s.length + 1)).arrived
      (s.stages (s.length + 1)).state.isFinished (s.stages s.length).got ∧
    (s.stages s.length).state.processingPoppedValue = false := by
  have hstage := h.at_last
  generalize hwork : s.work s.length = work at hstage
  cases hstage with
  | last last idle => exact ⟨rfl, last, idle⟩
  | getting value last =>
    have hmem : StreamActivity.get s.length value ∈ s.work s.length := by simp [hwork]
    exact absurd (List.mem_filter.1 hmem).1 (hidle value)

/-- A stage is attached to the last stream. It goes on with what has arrived already. -/
theorem sound_attach (h : Sound g s) (huntouched : (s.stages s.length).got = [])
    (hidle : ∀ value, .get s.length value ∉ s.activities) :
    Sound g { s.setStage s.length { s.stages s.length with
        state := { (s.stages s.length).state with cont := some ⟨g s.length⟩ } } with
      length := s.length + 1
      activities := s.activities ++ (if (s.stages s.length).state.queue.isEmpty then none
        else some ⟨g s.length⟩ : Option _).toList.map (.continueWith s.length) } := by
  obtain ⟨hwork, last, hprocessing⟩ := h.last hidle
  obtain ⟨taken, hwaiting, htaken⟩ : ∃ taken, (s.stages s.length).Waiting taken ∧ [] = taken.map some := by
    rcases last.delivered with ⟨taken, hwaiting, heq⟩ | ⟨taken, k, -, heq⟩
    · exact ⟨taken, hwaiting, huntouched.symm.trans heq⟩
    · simp [huntouched, List.replicate_succ] at heq
  obtain rfl := List.map_eq_nil_iff.1 htaken.symm
  have hattached : Attached (g s.length) { s.stages s.length with
      state := { (s.stages s.length).state with cont := some ⟨g s.length⟩ } } ⟨g s.length⟩
      (s.stages s.length).applied (s.stages (s.length + 1)).arrived [] false := by
    refine ⟨rfl, rfl, ?_, ?_, hprocessing⟩
    · rw [last.applied]
      exact hwaiting
    · rw [last.applied, last.passed]
      rfl
  refine h.of_call (fun b hb => ?_) (fun _ => ⟨rfl, rfl⟩) ?_ (fun j hj => by omega) ?_
  · obtain ⟨cont, -, rfl⟩ := List.mem_map.1 hb
    rfl
  · exact (seen_setStage (by rfl) (by rfl) 0).2.trans h.closed
  · rw [hwork, decide_eq_true (Nat.lt_succ_self _), List.nil_append]
    by_cases hqueue : (s.stages s.length).state.queue = []
    · rw [if_pos (by simpa using hqueue)]
      exact .idle _ hattached hqueue last.finished
    · rw [if_neg (by simpa using hqueue)]
      exact .due _ hattached hqueue last.finished _ (Or.inr rfl)

variable (build) in
theorem Last.popped {i : Nat} {stage : StreamStage (α i) (α (i + 1))} {passed : List (α (i + 1))}
    {finished : Bool} (last : Last stage passed finished stage.got)
    (hprocessing : stage.state.processingPoppedValue = false) (hready : stage.state.isReady = true) :
    ∃ value state, stage.state.popValue build = .ok (value, state) ∧
      state.isFinished = stage.state.isFinished ∧
      Last { stage with state } passed finished (stage.got ++ [StreamState.received value]) := by
  rcases last.delivered with ⟨taken, hwaiting, heq⟩ | ⟨taken, k, hended, heq⟩
  · -- a value or the end is there
    have hqueue : stage.state.queue ≠ [] := by
      intro hnil
      rw [StreamState.isReady, hnil, (hwaiting.of_queue_nil hnil).2] at hready
      cases hready
    obtain ⟨item, rest, hitem⟩ := List.exists_cons_of_ne_nil hqueue
    refine ⟨_, _, StreamState.popValue_cons build hprocessing hitem, rfl, ?_⟩
    refine ⟨last.cont, last.applied, last.passed, last.finished, ?_⟩
    rcases hwaiting.pop hitem true with ⟨a, rfl, hwaiting⟩ | ⟨rfl, hended⟩
    · exact Or.inl ⟨taken ++ [a], hwaiting, by rw [heq, List.map_append]; rfl⟩
    · exact Or.inr ⟨taken, 0, hended, by rw [heq]; rfl⟩
  · refine ⟨_, _, StreamState.popValue_nil hprocessing hended.queue, rfl, ?_⟩
    refine ⟨last.cont, last.applied, last.passed, last.finished, Or.inr ⟨taken, k + 1, hended, ?_⟩⟩
    rw [heq, List.append_assoc, List.replicate_succ' (n := k + 1)]
    rfl

variable (build) in
theorem sound_get (h : Sound g s) (hidle : ∀ value, .get s.length value ∉ s.activities)
    (hready : (s.stages s.length).state.isReady = true) :
    ∃ value state, (s.stages s.length).state.popValue build = .ok (value, state) ∧
      Sound g { s.setStage s.length { s.stages s.length with state } with
        activities := s.activities ++ [.get s.length value] } := by
  obtain ⟨hwork, last, hprocessing⟩ := h.last hidle
  obtain ⟨value, state, hpop, hfinished, hlast⟩ := last.popped build hprocessing hready
  refine ⟨value, state, hpop, ?_⟩
  refine h.of_call (List.forall_mem_singleton.2 rfl) (fun _ => ⟨rfl, hfinished⟩) ?_ (fun _ _ => Iff.rfl) ?_
  · exact (seen_setStage (by rfl) hfinished 0).2.trans h.closed
  · show StageSound _ _ _ _ (decide (s.length < s.length)) _
    rw [hwork, decide_eq_false (lt_irrefl _)]
    exact .getting value hlast

theorem sound_init : Sound g ({} : StreamPipeline α) :=
  ⟨rfl, fun _ => .last ⟨rfl, rfl, rfl, rfl, Or.inl ⟨[], ⟨[], rfl, rfl⟩, rfl⟩⟩ rfl⟩

/-- Nothing but a reset of the last stream cancels. -/
theorem run_canceled {s' : StreamPipeline α} (ran : s.run build a = .ok (s', new)) :
    s'.canceled = s.canceled := by
  cases a with
  | getContinuation i | resetContinuation i | job i | invoke i | finish i | get i =>
    cases ran
    rfl
  | continueWith i cont =>
    obtain ⟨⟨val, state⟩, -, ran⟩ := Except.bind_eq_ok.1 ran
    cases val with
    | none =>
      obtain ⟨_, -, ran⟩ := Except.bind_eq_ok.1 ran
      cases ran
      rfl
    | some item =>
      cases item with
      | endOfStream | value =>
        cases ran
        rfl
  | closeNext i =>
    obtain ⟨⟨exec, state⟩, -, ran⟩ := Except.bind_eq_ok.1 ran
    cases ran
    rfl
  | pushValue i cont value =>
    obtain ⟨⟨exec, state⟩, -, ran⟩ := Except.bind_eq_ok.1 ran
    cases ran
    rfl

/-- One step keeps the invariant as long as nothing is canceled. -/
theorem sound_step {s' : StreamPipeline α} (h : s.canceled = false → Sound g s)
    (hs : Step build g s s') (hcanceled : s'.canceled = false) : Sound g s' := by
  cases hs with
  | send v valid exec state pushed =>
    obtain ⟨rfl, rfl⟩ := StreamState.of_pushValue pushed
    exact sound_send (h hcanceled) valid v
  | close valid exec state closing =>
    obtain ⟨rfl, rfl⟩ := StreamState.of_close closing
    exact sound_close (h hcanceled) valid
  | attach valid untouched idle cont state chained =>
    obtain ⟨rfl, rfl⟩ := StreamState.of_chain chained
    exact sound_attach (h valid) untouched idle
  | get valid idle ready value state popped =>
    obtain ⟨value', state', hpop, hsound⟩ := sound_get build (h valid) idle ready
    cases hpop.symm.trans popped
    exact hsound
  | reset => cases hcanceled
  | act s₁ activity new activities replaces ran =>
    have hbefore := (run_canceled ran).symm.trans hcanceled
    obtain ⟨s₂, new', hran, hsound⟩ := goes_of_mem build (h hbefore) hbefore replaces.mem
    cases hran.symm.trans ran
    exact hsound activities replaces

theorem reached_sound (h : Reached build g s) : s.canceled = false → Sound g s := by
  refine Reachable.invariant (I := fun s => s.canceled = false → Sound g s) ?_
    (fun _ _ => sound_step) h
  intro s hs _
  rw [hs]
  exact sound_init

/-! ## What arrives -/

/-- What the functions of the first `i` stages make of all that was sent. -/
def expected (g : ∀ i, α i → α (i + 1)) (s : StreamPipeline α) (i : Nat) : List (α i) :=
  s.sent.map (compose g i)

theorem expected_succ (i : Nat) : s.expected g (i + 1) = (s.expected g i).map (g i) := by
  rw [expected, expected, List.map_map]
  rfl

end

section

variable {i : Nat} {fn : α i → α (i + 1)} {stage : StreamStage (α i) (α (i + 1))}
  {passed : List (α (i + 1))} {finished attached : Bool} {work : List (StreamActivity α)}

theorem StageSound.applied_isPrefix (h : StageSound fn stage passed finished attached work) :
    stage.applied <+: stage.arrived ∧ passed <+: stage.applied.map fn := by
  have hatt : ∀ {cont taken pushing processing},
      Attached fn stage cont taken passed pushing processing → passed <+: stage.applied.map fn :=
    fun att => ⟨_, att.passed.symm⟩
  cases h with
  | last last | getting _ last =>
    rw [last.applied, last.passed]
    exact ⟨List.nil_prefix, List.nil_prefix⟩
  | idle cont att | due cont att | pushValue cont value att | finish cont att =>
    exact ⟨att.waiting.isPrefix, hatt att⟩
  | job cont val att | invoke cont val att =>
    exact ⟨(List.prefix_append _ _).trans att.waiting.isPrefix, hatt att⟩
  | closeNext ended applied | resetContinuation ended applied | done ended applied =>
    exact ⟨ended.arrived ▸ List.prefix_rfl, applied ▸ List.prefix_rfl⟩

theorem StageSound.of_finished (h : StageSound fn stage passed finished attached work)
    (hfinished : finished = true) :
    stage.state.isFinished = true ∧ stage.arrived.map fn = passed := by
  cases h with
  | last last | getting _ last => simp [last.finished] at hfinished
  | idle _ _ _ unfinished | due _ _ _ unfinished | job _ _ _ unfinished | invoke _ _ _ unfinished
  | pushValue _ _ _ unfinished | finish _ _ unfinished | closeNext _ _ unfinished =>
    simp [unfinished] at hfinished
  | resetContinuation ended applied | done ended applied =>
    exact ⟨ended.finished, by rw [ended.arrived, applied]⟩

theorem StageSound.of_quiet (h : StageSound fn stage passed finished true []) :
    stage.applied = stage.arrived ∧ passed = stage.arrived.map fn ∧ finished = stage.state.isFinished := by
  cases h with
  | idle cont att queue unfinished =>
    obtain ⟨harrived, hopen⟩ := att.waiting.of_queue_nil queue
    refine ⟨harrived.symm, ?_, unfinished.trans hopen.symm⟩
    rw [harrived, att.passed, List.append_nil]
  | done ended applied next =>
    refine ⟨ended.arrived.symm, ?_, next.trans ended.finished.symm⟩
    rw [ended.arrived, applied]

end

section

variable {build : Build} {g : ∀ i, α i → α (i + 1)} {s : StreamPipeline α}

theorem Sound.arrived_isPrefix (h : Sound g s) : ∀ i, (s.stages i).arrived <+: s.expected g i
  | 0 => by
    have hsame : s.expected g 0 = s.sent := List.map_id s.sent
    rw [hsame]
    exact List.prefix_rfl
  | i + 1 => by
    obtain ⟨happlied, hpassed⟩ := (h.stages i).applied_isPrefix
    rw [expected_succ]
    exact hpassed.trans ((happlied.trans (h.arrived_isPrefix i)).map _)

theorem Sound.of_finished (h : Sound g s) : ∀ i, (s.stages i).state.isFinished = true →
    s.closed = true ∧ (s.stages i).arrived = s.expected g i
  | 0, hfinished => ⟨h.closed.symm.trans hfinished, (List.map_id s.sent).symm⟩
  | i + 1, hfinished => by
    obtain ⟨hbefore, hpassed⟩ := (h.stages i).of_finished hfinished
    obtain ⟨hclosed, harrived⟩ := h.of_finished i hbefore
    exact ⟨hclosed, by rw [← hpassed, harrived, expected_succ]⟩

theorem Sound.of_quiet (h : Sound g s) (hquiet : s.activities = []) : ∀ i, i ≤ s.length →
    (s.stages i).arrived = s.expected g i ∧ (s.stages i).state.isFinished = s.closed
  | 0, _ => ⟨(List.map_id s.sent).symm, h.closed⟩
  | i + 1, hi => by
    have hstage := h.stages i
    rw [work, hquiet, decide_eq_true (Nat.lt_of_succ_le hi)] at hstage
    obtain ⟨-, hpassed, hfinished⟩ := hstage.of_quiet
    obtain ⟨harrived, hclosed⟩ := h.of_quiet hquiet i (Nat.le_of_succ_le hi)
    exact ⟨by rw [hpassed, harrived, expected_succ], hfinished.trans hclosed⟩

/-- No call from outside fails an assertion: of `send` and `reset` of a producer, and of
    `get` and `then` of the last stream. -/
theorem calls_ok (h : Reached build g s) (hcanceled : s.canceled = false) :
    (s.closed = false → (∀ v, ∃ r, (s.stages 0).state.pushValue build v = .ok r) ∧
      ∃ r, (s.stages 0).state.close build = .ok r) ∧
    ((∀ value, .get s.length value ∉ s.activities) →
      (∀ cont, ∃ r, (s.stages s.length).state.chain build cont = .ok r) ∧
      ((s.stages s.length).state.isReady = true →
        ∃ r, (s.stages s.length).state.popValue build = .ok r)) := by
  have hsound := reached_sound h hcanceled
  refine ⟨fun hvalid => ?_, fun hidle => ?_⟩
  · have hopen := hsound.closed.trans hvalid
    exact ⟨fun v => ⟨_, StreamState.pushValue_eq hopen v⟩, _, StreamState.close_eq hopen⟩
  · obtain ⟨-, last, hprocessing⟩ := hsound.last hidle
    refine ⟨fun cont => ⟨_, StreamState.chain_eq last.cont hprocessing cont⟩, fun hready => ?_⟩
    obtain ⟨value, state, hpop, -⟩ := last.popped build hprocessing hready
    exact ⟨_, hpop⟩

/-- In every run without cancellation, for any number of stages attached at any time: at
    each stage there is at most one activity, and none fails an assertion. Each function was
    called once with each value that its state has passed on, in the order sent. What has
    arrived anywhere is the beginning of what the functions before make of the values sent,
    and when the end has arrived it is all of it. `get` has returned just these values.
    When nothing is left to run, all values sent so far have arrived, and calls of `get`
    return them in their order, and after the end nothing forever. -/
theorem stream_pipeline (build : Build) (g : ∀ i, α i → α (i + 1)) {s : StreamPipeline α}
    (h : Reached build g s) (hcanceled : s.canceled = false) :
    (∀ i, (s.work i).length ≤ 1) ∧
    (∀ activity ∈ s.activities, ∃ s' new, s.run build activity = .ok (s', new)) ∧
    (∀ i, (s.stages i).applied <+: s.sent.map (compose g i) ∧
      (s.stages (i + 1)).arrived <+: (s.stages i).applied.map (g i)) ∧
    (∀ i, (s.stages i).arrived <+: s.sent.map (compose g i)) ∧
    (∀ i, (s.stages i).state.isFinished = true →
      s.closed = true ∧ (s.stages i).arrived = s.sent.map (compose g i)) ∧
    (s.stages s.length).got = StreamState.delivery (s.sent.map (compose g s.length)) s.closed
      (s.stages s.length).got.length ∧
    (s.activities = [] →
      (∀ i < s.length, (s.stages i).applied = s.sent.map (compose g i)) ∧
      (s.stages s.length).arrived = s.sent.map (compose g s.length) ∧
      (s.stages s.length).state.isFinished = s.closed ∧
      ∀ n, (s.stages s.length).got ++ (s.stages s.length).state.gets build n =
        StreamState.delivery (s.sent.map (compose g s.length)) s.closed
          ((s.stages s.length).got.length + n)) := by
  have hsound := reached_sound h hcanceled
  refine ⟨fun i => (hsound.stages i).length_le, fun activity hmem => ?_, fun i => ?_,
    hsound.arrived_isPrefix, hsound.of_finished, ?_, fun hquiet => ⟨fun i hi => ?_, ?_⟩⟩
  · obtain ⟨s', new, hran, -⟩ := goes_of_mem build hsound hcanceled hmem
    exact ⟨s', new, hran⟩
  · obtain ⟨happlied, hpassed⟩ := (hsound.stages i).applied_isPrefix
    exact ⟨happlied.trans (hsound.arrived_isPrefix i), hpassed⟩
  · have harrived := hsound.arrived_isPrefix s.length
    have hend := hsound.of_finished s.length
    have hstage := hsound.at_last
    generalize s.work s.length = work at hstage
    cases hstage with
    | last last => exact last.delivered.eq harrived hend
    | getting value last => exact last.delivered.eq_of_append harrived hend
  · have hstage := hsound.stages i
    rw [work, hquiet, decide_eq_true hi] at hstage
    rw [hstage.of_quiet.1]
    exact (hsound.of_quiet hquiet i hi.le).1
  · obtain ⟨harrived, hclosed⟩ := hsound.of_quiet hquiet s.length le_rfl
    obtain ⟨-, last, hidle⟩ := hsound.last (fun value => by rw [hquiet]; exact List.not_mem_nil)
    refine ⟨harrived, hclosed, fun n => ?_⟩
    rw [last.delivered.gets hidle, harrived, hclosed]
    rfl

end

/-- Two stages are attached to a stream of numbers, two numbers are sent, the second while
    the first is on its way, and the producer is reset. -/
theorem stream_pipeline_two : ∃ s : StreamPipeline fun _ => Nat, s.length = 2 ∧ s.sent = [5, 7] ∧
    (s.stages s.length).got ++ (s.stages s.length).state.gets .debug 4 =
      [some 501, some 701, none, none] := by
  have h₀ : Reached .debug (fun i n => 10 * n + i) ({} : StreamPipeline fun _ => Nat) := .init rfl
  have h₁ := h₀.step (.attach _ rfl rfl (by simp) _ _ rfl)
  have h₂ := h₁.step (.attach _ rfl rfl (by simp) _ _ rfl)
  have h₃ := h₂.step (.send _ 5 rfl _ _ rfl)
  -- the first number comes to the second stage, and waits there for the other one
  have h₄ := h₃.step (.act _ _ _ _ _ ⟨[], _, rfl, rfl⟩ rfl)
  have h₅ := h₄.step (.act _ _ _ _ _ ⟨[], _, rfl, rfl⟩ rfl)
  have h₆ := h₅.step (.send _ 7 rfl _ _ rfl)
  have h₇ := h₆.step (.act _ _ _ _ _ ⟨[], _, rfl, rfl⟩ rfl)
  have h₈ := h₇.step (.act _ _ _ _ _ ⟨[], _, rfl, rfl⟩ rfl)
  have h₉ := h₈.step (.act _ _ _ _ _ ⟨[], _, rfl, rfl⟩ rfl)
  have h₁₀ := h₉.step (.act _ _ _ _ _ ⟨[_], _, rfl, rfl⟩ rfl)
  have h₁₁ := h₁₀.step (.act _ _ _ _ _ ⟨[_], _, rfl, rfl⟩ rfl)
  have h₁₂ := h₁₁.step (.act _ _ _ _ _ ⟨[_], _, rfl, rfl⟩ rfl)
  have h₁₃ := h₁₂.step (.act _ _ _ _ _ ⟨[_], _, rfl, rfl⟩ rfl)
  have h₁₄ := h₁₃.step (.act _ _ _ _ _ ⟨[_], _, rfl, rfl⟩ rfl)
  have h₁₅ := h₁₄.step (.act _ _ _ _ _ ⟨[_], _, rfl, rfl⟩ rfl)
  -- the second stage takes both
  have h₁₆ := h₁₅.step (.act _ _ _ _ _ ⟨[], _, rfl, rfl⟩ rfl)
  have h₁₇ := h₁₆.step (.act _ _ _ _ _ ⟨[], _, rfl, rfl⟩ rfl)
  have h₁₈ := h₁₇.step (.act _ _ _ _ _ ⟨[], _, rfl, rfl⟩ rfl)
  have h₁₉ := h₁₈.step (.act _ _ _ _ _ ⟨[], _, rfl, rfl⟩ rfl)
  have h₂₀ := h₁₉.step (.act _ _ _ _ _ ⟨[], _, rfl, rfl⟩ rfl)
  have h₂₁ := h₂₀.step (.act _ _ _ _ _ ⟨[], _, rfl, rfl⟩ rfl)
  have h₂₂ := h₂₁.step (.act _ _ _ _ _ ⟨[], _, rfl, rfl⟩ rfl)
  have h₂₃ := h₂₂.step (.act _ _ _ _ _ ⟨[], _, rfl, rfl⟩ rfl)
  have h₂₄ := h₂₃.step (.act _ _ _ _ _ ⟨[], _, rfl, rfl⟩ rfl)
  have h₂₅ := h₂₄.step (.act _ _ _ _ _ ⟨[], _, rfl, rfl⟩ rfl)
  have h₂₆ := h₂₅.step (.act _ _ _ _ _ ⟨[], _, rfl, rfl⟩ rfl)
  -- so does the end
  have h₂₇ := h₂₆.step (.close _ rfl _ _ rfl)
  have h₂₈ := h₂₇.step (.act _ _ _ _ _ ⟨[], _, rfl, rfl⟩ rfl)
  have h₂₉ := h₂₈.step (.act _ _ _ _ _ ⟨[], _, rfl, rfl⟩ rfl)
  have h₃₀ := h₂₉.step (.act _ _ _ _ _ ⟨[], _, rfl, rfl⟩ rfl)
  have h₃₁ := h₃₀.step (.act _ _ _ _ _ ⟨[], _, rfl, rfl⟩ rfl)
  have h₃₂ := h₃₁.step (.act _ _ _ _ _ ⟨[], _, rfl, rfl⟩ rfl)
  have h₃₃ := h₃₂.step (.act _ _ _ _ _ ⟨[], _, rfl, rfl⟩ rfl)
  have h₃₄ := h₃₃.step (.act _ _ _ _ _ ⟨[], _, rfl, rfl⟩ rfl)
  have h₃₅ := h₃₄.step (.act _ _ _ _ _ ⟨[], _, rfl, rfl⟩ rfl)
  obtain ⟨-, -, -, -, -, -, hquiet⟩ := stream_pipeline .debug (fun i n => 10 * n + i) h₃₅ rfl
  obtain ⟨-, -, -, hgets⟩ := hquiet rfl
  exact ⟨_, rfl, rfl, hgets 4⟩

end StreamPipeline

end HotelPms

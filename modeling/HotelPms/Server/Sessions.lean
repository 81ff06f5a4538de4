import HotelPms.Fas.Future
import HotelPms.Lib.RemoveIf
import HotelPms.Lib.Run
import HotelPms.Net.Batches

/- The batches that sessions schedule, and the replies they send.

   `runScheduleOperations` chains a continuation to the future of a batch, which
   posts the reply to the io service, and keeps the future of the continuation in
   `_runningOperations`. The continuation goes from one place to the next: the io
   thread has it, the state of the promise has it, it is about to be spawned, it is
   posted, it ran. Each thread takes one atomic step at a time; the backend may
   resolve the batches in any order and in several threads.

   What is proved, of every reachable state:
     1. the continuation of a batch is in one place (`Stage`), whatever the order of
        `chain` and `setValue`;
     2. a future is destroyed before its continuation ran only if the session has
        disconnected (`BatchSound.canceled`): what is pruned is ready;
     3. no assertion of the futures fails (`performs`, `resolves`). -/
namespace HotelPms
open Lib

/-- What a message on an outgoing queue was sent for; the code does not keep it. -/
inductive Cause where
  | change (change : DataStreamDifferential)
  | batch (n : Nat)

/-- A message that a session put on `_outgoingMessages`. -/
structure Message where
  session : Nat
  json : Json
  cause : Cause

def Message.isReply (m : Message) (n : Nat) : Bool :=
  match m.cause with
  | .batch batch => batch == n
  | .change _ => false

/-- A batch of `runScheduleOperations`, and the chain of its futures. -/
structure ScheduledBatch where
  session : Nat
  id : Json
  /-- the state of the backend's promise. The only continuation there is is the one
      of this batch, and stands for it with the number of the batch. -/
  future : FutureState (List TaskResult) Nat := {}
  /-- the state of the future in `_runningOperations` -/
  next : FutureState Int Nat := {}
  /-- of the cancellation token -/
  canceled : Bool := false

/-- What is posted to the io service. -/
inductive Handler where
  | applyStreamChanges
  /-- the function that `continueWith` spawns -/
  | continuation (batch : Nat) (results : List TaskResult)

def Handler.results (n : Nat) : Handler → Option (List TaskResult)
  | .applyStreamChanges => none
  | .continuation batch results => if batch = n then some results else none

/-- One atomic step of a thread in `runScheduleOperations` or `Promise::resolve`. -/
inductive Action where
  | chain (batch : Nat)
  | next (batch : Nat)
  | continueWith (batch : Nat)
  /-- the future goes into `_runningOperations`, and the ready ones are removed -/
  | push (batch : Nat)
  deriving DecidableEq

def Action.batch : Action → Nat
  | .chain n => n
  | .next n => n
  | .continueWith n => n
  | .push n => n

/-- The sessions of a server, by number, and its io service. -/
structure Sessions where
  /-- all batches there were -/
  batches : List ScheduledBatch := []
  /-- `_runningOperations` of each session: the number of the batch of the future -/
  running : Nat → List (Option Nat) := fun _ => []
  disconnected : List Nat := []
  /-- the handlers that are posted -/
  handlers : List Handler := []
  /-- what is left to do of the handler that the io thread runs -/
  io : List Action := []
  /-- the next step of each thread that is in `Promise::resolve` -/
  resolving : List Action := []
  /-- the messages of all sessions, in the order in which they were sent -/
  outgoing : List Message := []

namespace Sessions

def update (s : Sessions) (n : Nat) (b : ScheduledBatch) : Sessions :=
  { s with batches := s.batches.set n b }

def post (s : Sessions) (handler : Handler) : Sessions :=
  { s with handlers := s.handlers ++ [handler] }

/-- `NetClientSession::sendMessage` -/
def sendMessage (s : Sessions) (m : Message) : Sessions :=
  { s with outgoing := s.outgoing ++ [m] }

/-- `runScheduleOperations` after the operations were queued; the future is not chained yet. -/
def schedule (s : Sessions) (session : Nat) (id : Json) : Sessions :=
  { s with
    batches := s.batches ++ [{ session, id }]
    io := [.chain s.batches.length, .push s.batches.length] }

/-- `executeFuture`: the continuation of the state that was set, if there is one. -/
def executeFuture (cont : Option Nat) : List Action := cont.toList.map .continueWith

section
variable (build : Build) (s : Sessions) (n : Nat) (b : ScheduledBatch)

/-- `Future::then`, up to `executeFuture` -/
def chain : Except Fault (List Action × Sessions) := do
  let (cont, future) ← b.future.chain build n
  return (executeFuture cont, s.update n { b with future })

/-- `executeFuture({_sstate->next(), _sstate})` of `Promise::resolve` -/
def next : Except Fault (List Action × Sessions) := do
  let (cont, future) ← b.future.next build
  return (executeFuture cont, s.update n { b with future })

/-- The next state of the chain is set, and its continuation is executed. -/
def finish (next : FutureState Int Nat) : Except Fault (List Action × Sessions) := do
  let (cont, next) ← next.next build
  return (executeFuture cont, s.update n { b with next })

/-- `FutureContinuationThen::continueWith` -/
def continueWith : Except Fault (List Action × Sessions) := do
  if b.canceled then
    finish build s n b (← b.next.setCanceled build)
  else
    return ([], s.post (.continuation n (← b.future.extractValue)))

/-- What the futures in slots of `_runningOperations` cancel when they are destroyed. -/
def destroy (slots : List (Option Nat)) : Sessions :=
  { s with
    batches := s.batches.mapIdx fun n b => { b with canceled := b.canceled || slots.contains (some n) } }

/-- `Future::isReady`. A future that was moved from has no state. -/
def isReady (slot : Option Nat) : Bool :=
  match slot with
  | none => false
  | some n => (s.batches[n]?).any (·.next.isReady)

/-- The future is pushed to the vector, and the ready ones are removed. -/
def push : Sessions :=
  let (kept, tail) := removeIf s.isReady (s.running b.session ++ [some n])
  { s with running := Function.update s.running b.session kept }.destroy tail

/-- What the action makes of the state, and the actions the thread does next. -/
def perform (action : Action) : Except Fault (List Action × Sessions) :=
  match s.batches[action.batch]? with
  | none => .ok ([], s)
  | some b =>
    match action with
    | .chain n => s.chain build n b
    | .next n => s.next build n b
    | .continueWith n => s.continueWith build n b
    | .push n => .ok ([], s.push n b)

/-- The function given to `then`. -/
def reply (results : List TaskResult) : Except Fault Sessions := do
  -- `weakThis.lock()`
  if b.session ∈ s.disconnected then return s
  else
    let id ← b.id.toInt
    return s.sendMessage ⟨b.session, Net.serializeTaskResultsMessage id results, .batch n⟩

/-- The handler that `continueWith` spawns. -/
def runContinuation (results : List TaskResult) : Except Fault (List Action × Sessions) := do
  if b.canceled then
    finish build s n b (← b.next.setCanceled build)
  else
    let s ← s.reply n b results
    finish build s n b (← b.next.setValue build 0)

end

/-- What a thread does next: the io thread runs handlers, one at a time and in the
    order in which they were posted; threads go on in `Promise::resolve`; sessions
    disconnect, and the futures that they kept are destroyed. A step that ends on an
    assertion or an exception is no step. -/
inductive Internal (build : Build) : Sessions → Sessions → Prop where
  | io (s s' : Sessions) (action : Action) (rest more : List Action) (first : s.io = action :: rest)
      (performed : s.perform build action = .ok (more, s')) :
    Internal build s { s' with io := more ++ rest }
  | resolving (s s' : Sessions) (action : Action) (before after more : List Action)
      (thread : s.resolving = before ++ action :: after)
      (performed : s.perform build action = .ok (more, s')) :
    Internal build s { s' with resolving := before ++ more ++ after }
  | runContinuation (s s' : Sessions) (n : Nat) (b : ScheduledBatch) (results : List TaskResult)
      (rest : List Handler) (more : List Action) (idle : s.io = [])
      (first : s.handlers = .continuation n results :: rest) (batch : s.batches[n]? = some b)
      (ran : runContinuation build { s with handlers := rest } n b results = .ok (more, s')) :
    Internal build s { s' with io := more }
  | disconnect (s : Sessions) (session : Nat) (idle : s.io = []) :
    Internal build s { s with disconnected := session :: s.disconnected }
  | destroy (s : Sessions) (session : Nat) (slot : Option Nat) (gone : session ∈ s.disconnected)
      (held : slot ∈ s.running session) : Internal build s (s.destroy [slot])

/-- What can happen. The backend resolves the promises, each once and in any order,
    and signals that there are changes. -/
inductive Step (build : Build) (boost : BoostDate) : Sessions → Sessions → Prop where
  | schedule (s : Sessions) (session : Nat) (obj : Json) (operations : Operations) (id : Json)
      (idle : s.io = []) (connected : session ∉ s.disconnected)
      (command : NetClientSession.runCommand build boost obj = .ok (.queueOperations operations id)) :
    Step build boost s (s.schedule session id)
  | internal (s s' : Sessions) (step : Internal build s s') : Step build boost s s'
  | resolve (s : Sessions) (n : Nat) (b : ScheduledBatch) (results : List TaskResult)
      (future : FutureState (List TaskResult) Nat) (batch : s.batches[n]? = some b)
      (once : b.future.isReady = false) (set : b.future.setValue build results = .ok future) :
    Step build boost s { s.update n { b with future } with resolving := .next n :: s.resolving }
  | signal (s : Sessions) : Step build boost s (s.post .applyStreamChanges)
  | applyStreamChanges (s : Sessions) (rest : List Handler) (messages : List Message)
      (idle : s.io = []) (first : s.handlers = .applyStreamChanges :: rest)
      (changes : ∀ m ∈ messages, ∃ change, m.cause = .change change) :
    Step build boost s { s with handlers := rest, outgoing := s.outgoing ++ messages }

def Reached (build : Build) (boost : BoostDate) (s : Sessions) : Prop :=
  Reachable (fun s => s = {}) (Step build boost) s

end Sessions

/-! ## Where the continuation of a batch is -/

namespace Sessions

/-- Where the continuation of one batch can be, besides the state of its promise. -/
structure Trace where
  /-- `chain` and `continueWith` steps that threads have still to do -/
  chains : Nat
  continues : Nat
  /-- the results that its posted handlers carry -/
  posted : List (List TaskResult)
  /-- the replies that were sent -/
  replies : List Message

/-- `actions` are the next steps of all threads. -/
def trace (s : Sessions) (actions : List Action) (n : Nat) : Trace where
  chains := actions.count (.chain n)
  continues := actions.count (.continueWith n)
  posted := s.handlers.filterMap (·.results n)
  replies := s.outgoing.filter (·.isReply n)

/-- The message that carries the id and the results of a batch. -/
def IsReply (b : ScheduledBatch) (m : Message) : Prop :=
  ∃ results id, b.future.value = .value results ∧ b.id.toInt = .ok id ∧ m.session = b.session ∧
    m.json = Net.serializeTaskResultsMessage id results

/-- The place where the continuation is. `taken` says that the thread which resolves
    the promise has still to take it. -/
inductive Stage (disconnected taken : Prop) (n : Nat) (b : ScheduledBatch) (t : Trace) : Prop where
  /-- the io thread has it -/
  | chaining (here : t = ⟨1, 0, [], []⟩) (cont : b.future.cont = none) (next : b.next = {})
  /-- the state of the promise has it -/
  | stored (here : t = ⟨0, 0, [], []⟩) (cont : b.future.cont = some n)
      (next : b.next = {}) (taken : b.future.isReady = true → taken)
  /-- a thread is about to execute it -/
  | continuing (here : t = ⟨0, 1, [], []⟩) (cont : b.future.cont = none) (next : b.next = {})
      (results : List TaskResult) (value : b.future.value = .value results)
  | posted (results : List TaskResult) (here : t = ⟨0, 0, [results], []⟩)
      (cont : b.future.cont = none) (next : b.next = {}) (value : b.future.value = .value results)
  | ran (replies : List Message) (here : t = ⟨0, 0, [], replies⟩) (cont : b.future.cont = none)
      (next : b.next.isReady = true) (results : List TaskResult)
      (value : b.future.value = .value results)
      (replied : (∃ m, replies = [m] ∧ IsReply b m) ∨ disconnected ∧ replies = [])

structure BatchSound (disconnected : Prop) (nexts n : Nat) (b : ScheduledBatch) (t : Trace) : Prop where
  stage : Stage disconnected (0 < nexts) n b t
  uncanceled : b.future.value ≠ .canceled
  taken : 0 < nexts → b.future.isReady = true
  canceled : b.canceled = true → b.next.isReady = true ∨ disconnected

/-- `actions` are the next steps of all threads. -/
structure SoundWith (s : Sessions) (actions : List Action) : Prop where
  batch : ∀ n b, s.batches[n]? = some b → BatchSound (b.session ∈ s.disconnected)
    (actions.count (.next n)) n b (s.trace actions n)
  unknown : ∀ n, s.batches.length ≤ n →
    s.trace actions n = ⟨0, 0, [], []⟩ ∧ actions.count (.next n) = 0
  /-- the futures that a session keeps are of its own batches -/
  slots : ∀ session n, some n ∈ s.running session →
    ∃ b, s.batches[n]? = some b ∧ b.session = session

def Sound (s : Sessions) : Prop := SoundWith s (s.io ++ s.resolving)

variable {build : Build} {boost : BoostDate} {s s' : Sessions} {actions actions' more : List Action}
variable {n : Nat} {b b' : ScheduledBatch}

theorem SoundWith.perm (h : SoundWith s actions) (hp : actions.Perm actions') :
    SoundWith s actions' := by
  have htrace : ∀ n, s.trace actions' n = s.trace actions n := by
    intro n
    unfold trace
    rw [hp.count_eq, hp.count_eq]
  refine ⟨fun n b hb => ?_, fun n hn => ?_, h.slots⟩
  · rw [htrace, ← hp.count_eq]
    exact h.batch n b hb
  · rw [htrace, ← hp.count_eq]
    exact h.unknown n hn

theorem SoundWith.of_push {others : List Action} (h : SoundWith s (.push n :: others)) :
    SoundWith s others := by
  have hcount : ∀ x, .push n ≠ x → others.count x = (.push n :: others).count x :=
    fun x hx => (List.count_cons_of_ne hx).symm
  have htrace : ∀ m, s.trace others m = s.trace (.push n :: others) m := by
    intro m
    unfold trace
    rw [hcount _ (by simp), hcount _ (by simp)]
  refine ⟨fun m b hb => ?_, fun m hm => ?_, h.slots⟩
  · rw [htrace, hcount _ (by simp)]
    exact h.batch m b hb
  · rw [htrace, hcount _ (by simp)]
    exact h.unknown m hm

theorem sound_init : Sound {} where
  batch n b hb := by simp at hb
  unknown n hn := ⟨rfl, rfl⟩
  slots session n hn := absurd hn List.not_mem_nil

theorem BatchSound.mono {disconnected disconnected' : Prop} {nexts : Nat} {t : Trace}
    (h : BatchSound disconnected nexts n b t) (hd : disconnected → disconnected') :
    BatchSound disconnected' nexts n b t where
  stage := by
    cases h.stage with
    | chaining h₁ h₂ h₃ => exact .chaining h₁ h₂ h₃
    | stored h₁ h₂ h₃ h₄ => exact .stored h₁ h₂ h₃ h₄
    | continuing h₁ h₂ h₃ results h₄ => exact .continuing h₁ h₂ h₃ results h₄
    | posted results h₁ h₂ h₃ h₄ => exact .posted results h₁ h₂ h₃ h₄
    | ran replies h₁ h₂ h₃ results h₄ h₅ =>
      exact .ran replies h₁ h₂ h₃ results h₄ (h₅.imp_right fun ⟨hd', hr⟩ => ⟨hd hd', hr⟩)
  uncanceled := h.uncanceled
  taken := h.taken
  canceled hc := (h.canceled hc).imp_right hd

theorem trace_eq {t : Trace} : s.trace actions n = t ↔
    actions.count (.chain n) = t.chains ∧ actions.count (.continueWith n) = t.continues ∧
      s.handlers.filterMap (·.results n) = t.posted ∧ s.outgoing.filter (·.isReply n) = t.replies := by
  obtain ⟨_, _, _, _⟩ := t
  simp [trace]

theorem count_of_batch {m : Nat} {x : Action} (hx : x.batch = m) (hne : m ≠ n)
    (hmore : ∀ a ∈ more, a.batch = n) : (more ++ actions).count x = actions.count x := by
  have hnone : more.count x = 0 := by
    apply List.count_eq_zero.2
    intro hmem
    exact hne (hx.symm.trans (hmore x hmem))
  rw [List.count_append, hnone, Nat.zero_add]

theorem trace_other {others : List Action} {action : Action} (hmore : ∀ a ∈ more, a.batch = n)
    (haction : action.batch = n) {m : Nat} (hne : m ≠ n)
    (hhandlers : s'.handlers.filterMap (·.results m) = s.handlers.filterMap (·.results m))
    (houtgoing : s'.outgoing.filter (·.isReply m) = s.outgoing.filter (·.isReply m)) :
    s'.trace (more ++ others) m = s.trace (action :: others) m ∧
      (more ++ others).count (.next m) = (action :: others).count (.next m) := by
  have haction' : ∀ a ∈ [action], a.batch = n := by
    intro a ha
    rw [List.mem_singleton.1 ha]
    exact haction
  have hcount : ∀ x : Action, x.batch = m →
      (more ++ others).count x = (action :: others).count x := by
    intro x hx
    calc (more ++ others).count x = others.count x := count_of_batch hx hne hmore
      _ = ([action] ++ others).count x := (count_of_batch hx hne haction').symm
  refine ⟨?_, hcount _ rfl⟩
  rw [trace_eq]
  exact ⟨hcount _ rfl, hcount _ rfl, hhandlers, houtgoing⟩

/-- A step for one batch keeps what is known of the others. -/
theorem SoundWith.update (h : SoundWith s actions) (hb : s.batches[n]? = some b)
    (hbatches : s'.batches = s.batches.set n b') (hsession : b'.session = b.session)
    (hrunning : s'.running = s.running) (hdisconnected : s'.disconnected = s.disconnected)
    (hothers : ∀ m, m ≠ n → s'.trace actions' m = s.trace actions m ∧
      actions'.count (.next m) = actions.count (.next m))
    (hsound : BatchSound (b.session ∈ s.disconnected) (actions'.count (.next n)) n b'
      (s'.trace actions' n)) : SoundWith s' actions' := by
  have hn : n < s.batches.length := (List.getElem?_eq_some_iff.1 hb).1
  constructor
  · intro m c hc
    rw [hbatches, List.getElem?_set] at hc
    rw [hdisconnected]
    by_cases hm : n = m
    · rw [if_pos hm, if_pos hn] at hc
      obtain rfl := Option.some.inj hc
      rw [hsession, ← hm]
      exact hsound
    · rw [if_neg hm] at hc
      rw [(hothers m (Ne.symm hm)).1, (hothers m (Ne.symm hm)).2]
      exact h.batch m c hc
  · intro m hm
    rw [hbatches, List.length_set] at hm
    have hne : m ≠ n := by omega
    rw [(hothers m hne).1, (hothers m hne).2]
    exact h.unknown m hm
  · intro session m hm
    rw [hrunning] at hm
    obtain ⟨c, hc, hsame⟩ := h.slots session m hm
    rw [hbatches, List.getElem?_set]
    by_cases hne : n = m
    · rw [if_pos hne, if_pos hn]
      rw [← hne, hb] at hc
      obtain rfl := Option.some.inj hc
      exact ⟨b', rfl, hsession.trans hsame⟩
    · rw [if_neg hne]
      exact ⟨c, hc, hsame⟩

theorem executeFuture_batch {cont : Option Nat} (h : ∀ m, cont = some m → m = n) :
    ∀ a ∈ executeFuture cont, a.batch = n := by
  intro a ha
  obtain ⟨m, hm, rfl⟩ := List.mem_map.1 ha
  exact h m (Option.mem_toList.1 hm)

theorem value_of_ready {disconnected : Prop} {nexts : Nat} {t : Trace}
    (h : BatchSound disconnected nexts n b t) (hready : b.future.isReady = true) :
    ∃ results, b.future.value = .value results := by
  cases hvalue : b.future.value with
  | empty => simp [FutureState.isReady, hvalue] at hready
  | canceled => exact absurd hvalue h.uncanceled
  | value results => exact ⟨results, rfl⟩

/-- The io thread chains the continuation: it is stored, or given back and executed. -/
theorem chain_sound {others : List Action} (h : SoundWith s (.chain n :: others))
    (hb : s.batches[n]? = some b) (hp : s.chain build n b = .ok (more, s')) :
    SoundWith s' (more ++ others) := by
  obtain ⟨⟨cont, future⟩, hchain, hp⟩ := Except.bind_eq_ok.1 hp
  cases hp
  have hsound := h.batch n b hb
  have hpositive : 0 < (s.trace (.chain n :: others) n).chains := by
    show 0 < List.count _ _
    rw [List.count_cons_self]
    exact Nat.succ_pos _
  cases hsound.stage with
  | stored here => rw [here] at hpositive; cases hpositive
  | continuing here => rw [here] at hpositive; cases hpositive
  | posted results here => rw [here] at hpositive; cases hpositive
  | ran replies here => rw [here] at hpositive; cases hpositive
  | chaining here hcont hnext =>
    obtain ⟨hchains, hcontinues, hposted, hreplies⟩ := trace_eq.1 here
    rw [List.count_cons_self, Nat.succ_inj] at hchains
    have hnexts : (Action.chain n :: others).count (.next n) = others.count (.next n) :=
      List.count_cons_of_ne (by simp)
    rw [List.count_cons_of_ne (by simp)] at hcontinues
    rcases FutureState.of_chain hchain with ⟨hready, rfl, rfl⟩ | ⟨hready, rfl, rfl⟩
    · -- the promise was resolved before: it is this thread that goes on
      obtain ⟨results, hvalue⟩ := value_of_ready hsound hready
      refine h.update hb rfl rfl rfl rfl (fun m hne => trace_other ?_ rfl hne rfl rfl)
        ⟨.continuing ?_ hcont hnext results hvalue, hsound.uncanceled, ?_, hsound.canceled⟩
      · exact executeFuture_batch fun m hm => (Option.some.inj hm).symm
      · rw [trace_eq]
        refine ⟨?_, ?_, hposted, hreplies⟩
        · simpa [executeFuture] using hchains
        · simpa [executeFuture] using hcontinues
      · exact fun _ => hready
    · refine h.update hb rfl rfl rfl rfl (fun m hne => trace_other ?_ rfl hne rfl rfl)
        ⟨.stored ?_ rfl hnext ?_, hsound.uncanceled, ?_, hsound.canceled⟩
      · exact executeFuture_batch fun m hm => absurd hm (by simp)
      · rw [trace_eq]
        exact ⟨hchains, hcontinues, hposted, hreplies⟩
      · exact fun hr => absurd (hready.symm.trans hr) (by simp)
      · exact fun hpos => hsound.taken (hnexts.symm ▸ hpos)

/-- The thread that resolves the promise takes the continuation, if it is there already. -/
theorem next_sound {others : List Action} (h : SoundWith s (.next n :: others))
    (hb : s.batches[n]? = some b) (hp : s.next build n b = .ok (more, s')) :
    SoundWith s' (more ++ others) := by
  obtain ⟨⟨cont, future⟩, hnext, hp⟩ := Except.bind_eq_ok.1 hp
  cases hp
  obtain ⟨rfl, rfl⟩ := FutureState.of_next hnext
  have hsound := h.batch n b hb
  have hready : b.future.isReady = true := by
    apply hsound.taken
    rw [List.count_cons_self]
    exact Nat.succ_pos _
  have hcount : ∀ x, .next n ≠ x → others.count x = (.next n :: others).count x :=
    fun x hx => (List.count_cons_of_ne hx).symm
  have hsame : s.trace others n = s.trace (.next n :: others) n := by
    rw [trace_eq]
    exact ⟨hcount _ (by simp), hcount _ (by simp), rfl, rfl⟩
  -- only the continuation of this batch is stored at its future
  have hcont : ∀ m, b.future.cont = some m → m = n := by
    intro m hm
    cases hsound.stage with
    | stored here hc => exact (Option.some.inj (hc.symm.trans hm)).symm
    | chaining here hc => rw [hc] at hm; cases hm
    | continuing here hc => rw [hc] at hm; cases hm
    | posted results here hc => rw [hc] at hm; cases hm
    | ran replies here hc => rw [hc] at hm; cases hm
  refine h.update hb rfl rfl rfl rfl
    (fun m hne => trace_other (executeFuture_batch hcont) rfl hne rfl rfl)
    ⟨?_, hsound.uncanceled, fun _ => hready, hsound.canceled⟩
  show Stage _ _ n _ (s.trace (executeFuture b.future.cont ++ others) n)
  cases hsound.stage with
  | stored here hc hn =>
    obtain ⟨results, hvalue⟩ := value_of_ready hsound hready
    obtain ⟨hchains, hcontinues, hposted, hreplies⟩ := trace_eq.1 here
    rw [List.count_cons_of_ne (by simp)] at hchains hcontinues
    refine .continuing ?_ rfl hn results hvalue
    rw [trace_eq, hc]
    refine ⟨?_, ?_, hposted, hreplies⟩
    · simpa [executeFuture] using hchains
    · simpa [executeFuture] using hcontinues
  | chaining here hc hn =>
    rw [hc]
    exact .chaining (hsame.trans here) rfl hn
  | continuing here hc hn results hvalue =>
    rw [hc]
    exact .continuing (hsame.trans here) rfl hn results hvalue
  | posted results here hc hn hvalue =>
    rw [hc]
    exact .posted results (hsame.trans here) rfl hn hvalue
  | ran replies here hc hn results hvalue hreplied =>
    rw [hc]
    exact .ran replies (hsame.trans here) rfl hn results hvalue hreplied

theorem of_finish {next : FutureState Int Nat} (h : finish build s n b next = .ok (more, s')) :
    more = executeFuture next.cont ∧ s' = s.update n { b with next := { next with cont := none } } := by
  obtain ⟨⟨cont, next'⟩, hnext, h⟩ := Except.bind_eq_ok.1 h
  cases h
  obtain ⟨rfl, rfl⟩ := FutureState.of_next hnext
  exact ⟨rfl, rfl⟩

/-- The continuation is executed: it is posted, or skipped when its session is gone. -/
theorem continueWith_sound {others : List Action} (h : SoundWith s (.continueWith n :: others))
    (hb : s.batches[n]? = some b) (hp : s.continueWith build n b = .ok (more, s')) :
    SoundWith s' (more ++ others) := by
  have hsound := h.batch n b hb
  have hpositive : 0 < (s.trace (.continueWith n :: others) n).continues := by
    show 0 < List.count _ _
    rw [List.count_cons_self]
    exact Nat.succ_pos _
  cases hsound.stage with
  | chaining here => rw [here] at hpositive; cases hpositive
  | stored here => rw [here] at hpositive; cases hpositive
  | posted results here => rw [here] at hpositive; cases hpositive
  | ran replies here => rw [here] at hpositive; cases hpositive
  | continuing here hcont hnext results hvalue =>
    obtain ⟨hchains, hcontinues, hposted, hreplies⟩ := trace_eq.1 here
    rw [List.count_cons_self, Nat.succ_inj] at hcontinues
    rw [List.count_cons_of_ne (by simp)] at hchains
    have hready := FutureState.isReady_of_value hvalue
    unfold continueWith at hp
    split at hp
    · next hcanceled =>
      obtain ⟨next, hset, hp⟩ := Except.bind_eq_ok.1 hp
      obtain rfl := FutureState.of_setCanceled hset
      obtain ⟨rfl, rfl⟩ := of_finish hp
      have hgone : b.session ∈ s.disconnected := by
        rcases hsound.canceled hcanceled with hr | hgone
        · rw [hnext] at hr
          cases hr
        · exact hgone
      rw [hnext]
      refine h.update hb rfl rfl rfl rfl (fun m hne => trace_other ?_ rfl hne rfl rfl)
        ⟨.ran [] ?_ hcont rfl results hvalue (Or.inr ⟨hgone, rfl⟩), hsound.uncanceled,
          fun _ => hready, fun _ => Or.inr hgone⟩
      · exact fun a ha => absurd ha List.not_mem_nil
      · rw [trace_eq]
        exact ⟨hchains, hcontinues, hposted, hreplies⟩
    · obtain ⟨value, hextract, hp⟩ := Except.bind_eq_ok.1 hp
      cases hp
      have hsame := FutureState.of_extractValue hextract
      rw [hvalue, FutureValue.value.injEq] at hsame
      subst hsame
      have hbatches : s.batches = s.batches.set n b := by
        obtain ⟨hn, hget⟩ := List.getElem?_eq_some_iff.1 hb
        rw [← hget, List.set_getElem_self]
      refine h.update hb hbatches rfl rfl rfl (fun m hne => trace_other ?_ rfl hne ?_ rfl)
        ⟨.posted results ?_ hcont hnext hvalue, hsound.uncanceled, fun _ => hready, hsound.canceled⟩
      · exact fun a ha => absurd ha List.not_mem_nil
      · simp [post, Handler.results, Ne.symm hne]
      · rw [trace_eq]
        refine ⟨hchains, hcontinues, ?_, hreplies⟩
        simpa [post, Handler.results] using hposted

/-- Only futures that are ready are destroyed, and those of sessions that are gone. -/
theorem destroy_sound (h : SoundWith s actions) {slots : List (Option Nat)}
    (hslots : ∀ n b, some n ∈ slots → s.batches[n]? = some b →
      b.next.isReady = true ∨ b.session ∈ s.disconnected) : SoundWith (s.destroy slots) actions := by
  have hget : ∀ n, (s.destroy slots).batches[n]? = (s.batches[n]?).map fun b : ScheduledBatch =>
      ({ b with canceled := b.canceled || slots.contains (some n) } : ScheduledBatch) :=
    fun n => List.getElem?_mapIdx
  constructor
  · intro n b hb
    rw [hget, Option.map_eq_some_iff] at hb
    obtain ⟨b, hb, rfl⟩ := hb
    have hsound := h.batch n b hb
    refine ⟨?_, hsound.uncanceled, hsound.taken, ?_⟩
    · cases hsound.stage with
      | chaining h₁ h₂ h₃ => exact .chaining h₁ h₂ h₃
      | stored h₁ h₂ h₃ h₄ => exact .stored h₁ h₂ h₃ h₄
      | continuing h₁ h₂ h₃ results h₄ => exact .continuing h₁ h₂ h₃ results h₄
      | posted results h₁ h₂ h₃ h₄ => exact .posted results h₁ h₂ h₃ h₄
      | ran replies h₁ h₂ h₃ results h₄ h₅ => exact .ran replies h₁ h₂ h₃ results h₄ h₅
    · intro hc
      rw [Bool.or_eq_true, List.contains_iff_mem] at hc
      rcases hc with hc | hc
      · exact hsound.canceled hc
      · exact hslots n b hc hb
  · intro n hn
    exact h.unknown n (by simpa [destroy] using hn)
  · intro session n hn
    obtain ⟨b, hb, hsession⟩ := h.slots session n hn
    refine ⟨{ b with canceled := b.canceled || slots.contains (some n) }, ?_, hsession⟩
    rw [hget, hb]
    rfl

theorem push_sound (h : SoundWith s actions) (hb : s.batches[n]? = some b) :
    SoundWith (s.push n b) actions := by
  have hrunning : ∀ kept, kept = (removeIf s.isReady (s.running b.session ++ [some n])).1 →
      SoundWith { s with running := Function.update s.running b.session kept } actions := by
    rintro _ rfl
    refine ⟨h.batch, h.unknown, fun session m hm => ?_⟩
    by_cases hsession : session = b.session
    · subst hsession
      dsimp only at hm
      rw [Function.update_self, removeIf_kept] at hm
      rcases List.mem_append.1 (List.mem_of_mem_filter hm) with hm | hm
      · exact h.slots _ m hm
      · obtain rfl := Option.some.inj (List.mem_singleton.1 hm)
        exact ⟨b, hb, rfl⟩
    · dsimp only at hm
      rw [Function.update_of_ne hsession] at hm
      exact h.slots session m hm
  apply destroy_sound (hrunning _ rfl)
  intro m c hm hc
  rcases removeIf_tail _ _ hm with hnone | hready
  · cases hnone
  · have hc' : s.batches[m]? = some c := hc
    rw [isReady, hc'] at hready
    exact Or.inl hready

theorem perform_sound {others : List Action} {action : Action} (h : SoundWith s (action :: others))
    (hp : s.perform build action = .ok (more, s')) : SoundWith s' (more ++ others) := by
  unfold perform at hp
  cases hb : s.batches[action.batch]? with
  | none =>
    -- no thread has a step for a batch that there is not
    obtain ⟨hnone, hnext⟩ := h.unknown action.batch (List.getElem?_eq_none_iff.1 hb)
    obtain ⟨hchains, hcontinues, -, -⟩ := trace_eq.1 hnone
    rw [hb] at hp
    cases hp
    cases action with
    | chain n => rw [List.count_eq_zero] at hchains; exact absurd List.mem_cons_self hchains
    | next n => rw [List.count_eq_zero] at hnext; exact absurd List.mem_cons_self hnext
    | continueWith n =>
      rw [List.count_eq_zero] at hcontinues
      exact absurd List.mem_cons_self hcontinues
    | push n => exact h.of_push
  | some b =>
    rw [hb] at hp
    cases action with
    | chain n => exact chain_sound h hb hp
    | next n => exact next_sound h hb hp
    | continueWith n => exact continueWith_sound h hb hp
    | push n =>
      cases hp
      exact push_sound h.of_push hb

section
variable {results : List TaskResult} {rest : List Handler}

theorem SoundWith.posted_of_first (h : SoundWith s actions) (hfirst : s.handlers = .continuation n results :: rest)
    (hb : s.batches[n]? = some b) : b.future.value = .value results ∧ b.future.cont = none ∧ b.next = {} ∧
      ({ s with handlers := rest } : Sessions).trace actions n = ⟨0, 0, [], []⟩ := by
  have hhere : s.handlers.filterMap (·.results n) = results :: rest.filterMap (·.results n) := by
    rw [hfirst]
    simp [Handler.results]
  have hnone : ∀ results' : List (List TaskResult), s.handlers.filterMap (·.results n) = results' →
      results' ≠ [] := by
    rintro _ rfl
    rw [hhere]
    exact List.cons_ne_nil _ _
  cases (h.batch n b hb).stage with
  | chaining here => exact absurd rfl (hnone _ (trace_eq.1 here).2.2.1)
  | stored here => exact absurd rfl (hnone _ (trace_eq.1 here).2.2.1)
  | continuing here => exact absurd rfl (hnone _ (trace_eq.1 here).2.2.1)
  | ran replies here => exact absurd rfl (hnone _ (trace_eq.1 here).2.2.1)
  | posted value here hcont hnext hvalue =>
    obtain ⟨hchains, hcontinues, hposted, hreplies⟩ := trace_eq.1 here
    rw [hhere, List.cons.injEq] at hposted
    obtain ⟨rfl, hposted⟩ := hposted
    exact ⟨hvalue, hcont, hnext, trace_eq.2 ⟨hchains, hcontinues, hposted, hreplies⟩⟩

theorem SoundWith.ran (h : SoundWith s actions) (hfirst : s.handlers = .continuation n results :: rest)
    (hb : s.batches[n]? = some b) {next : FutureState Int Nat} (hready : next.isReady = true)
    {outgoing replies : List Message} (hreplies : outgoing.filter (·.isReply n) = replies)
    (hothers : ∀ m, m ≠ n → outgoing.filter (·.isReply m) = s.outgoing.filter (·.isReply m))
    (hreplied : (∃ m, replies = [m] ∧ IsReply b m) ∨ b.session ∈ s.disconnected ∧ replies = []) :
    SoundWith (({ s with handlers := rest, outgoing } : Sessions).update n { b with next }) actions := by
  obtain ⟨hvalue, hcont, -, hhere⟩ := h.posted_of_first hfirst hb
  obtain ⟨hchains, hcontinues, hposted, -⟩ := trace_eq.1 hhere
  have hsound := h.batch n b hb
  refine h.update hb rfl rfl rfl rfl (fun m hne => ⟨?_, rfl⟩)
    ⟨.ran replies ?_ hcont hready results hvalue hreplied, hsound.uncanceled, hsound.taken,
      fun _ => Or.inl hready⟩
  · rw [trace_eq]
    refine ⟨rfl, rfl, ?_, hothers m hne⟩
    show rest.filterMap (·.results m) = s.handlers.filterMap (·.results m)
    rw [hfirst]
    simp [Handler.results, Ne.symm hne]
  · rw [trace_eq]
    exact ⟨hchains, hcontinues, hposted, hreplies⟩

/-- A posted continuation runs: the reply is sent, unless the session is gone. -/
theorem runContinuation_sound (h : SoundWith s actions) (hfirst : s.handlers = .continuation n results :: rest)
    (hb : s.batches[n]? = some b)
    (hp : runContinuation build { s with handlers := rest } n b results = .ok (more, s')) :
    SoundWith s' (more ++ actions) := by
  obtain ⟨hvalue, -, hnext, hhere⟩ := h.posted_of_first hfirst hb
  have hreplies : s.outgoing.filter (·.isReply n) = [] := (trace_eq.1 hhere).2.2.2
  unfold runContinuation at hp
  split at hp
  · next hcanceled =>
    obtain ⟨next, hset, hp⟩ := Except.bind_eq_ok.1 hp
    obtain rfl := FutureState.of_setCanceled hset
    obtain ⟨rfl, rfl⟩ := of_finish hp
    have hgone : b.session ∈ s.disconnected := by
      rcases (h.batch n b hb).canceled hcanceled with hr | hgone
      · rw [hnext] at hr
        cases hr
      · exact hgone
    rw [hnext]
    exact h.ran hfirst hb rfl hreplies (fun _ _ => rfl) (Or.inr ⟨hgone, rfl⟩)
  · obtain ⟨t, hreply, hp⟩ := Except.bind_eq_ok.1 hp
    obtain ⟨next, hset, hp⟩ := Except.bind_eq_ok.1 hp
    obtain rfl := FutureState.of_setValue hset
    obtain ⟨rfl, rfl⟩ := of_finish hp
    rw [hnext]
    unfold reply at hreply
    split at hreply
    · next hgone =>
      cases hreply
      exact h.ran hfirst hb rfl hreplies (fun _ _ => rfl) (Or.inr ⟨hgone, rfl⟩)
    · obtain ⟨id, hid, hreply⟩ := Except.bind_eq_ok.1 hreply
      cases hreply
      have hmessage : IsReply b ⟨b.session, Net.serializeTaskResultsMessage id results, .batch n⟩ :=
        ⟨results, id, hvalue, hid, rfl, rfl⟩
      refine h.ran hfirst hb rfl ?_ (fun m hne => ?_) (Or.inl ⟨_, rfl, hmessage⟩)
      · rw [List.filter_append, hreplies]
        simp [Message.isReply]
      · rw [List.filter_append]
        simp [Message.isReply, Ne.symm hne]

end

/-- The backend resolves a promise: wherever its continuation is, it stays there. -/
theorem resolve_sound {results : List TaskResult} {future : FutureState (List TaskResult) Nat}
    (h : SoundWith s actions) (hb : s.batches[n]? = some b) (honce : b.future.isReady = false)
    (hset : b.future.setValue build results = .ok future) :
    SoundWith (s.update n { b with future }) (.next n :: actions) := by
  obtain rfl := FutureState.of_setValue hset
  have hsound := h.batch n b hb
  have hcount : ∀ x, .next n ≠ x → (.next n :: actions).count x = actions.count x :=
    fun x hx => List.count_cons_of_ne hx
  have htrace : s.trace (.next n :: actions) n = s.trace actions n := by
    rw [trace_eq]
    exact ⟨hcount _ (by simp), hcount _ (by simp), rfl, rfl⟩
  have hpending : ∀ results', b.future.value ≠ .value results' := by
    intro results' hvalue
    rw [FutureState.isReady_of_value hvalue] at honce
    cases honce
  refine h.update hb rfl rfl rfl rfl (fun m hne => ?_) ⟨?_, by simp, fun _ => rfl, hsound.canceled⟩
  · have hbatch : ∀ c ∈ [Action.next n], c.batch = n := by simp [Action.batch]
    have hcount : ∀ x : Action, x.batch = m → ([Action.next n] ++ actions).count x = actions.count x :=
      fun x hx => count_of_batch hx hne hbatch
    refine ⟨?_, hcount _ rfl⟩
    rw [trace_eq]
    exact ⟨hcount _ rfl, hcount _ rfl, rfl, rfl⟩
  · cases hsound.stage with
    | chaining here hc hn => exact .chaining (htrace.trans here) hc hn
    | stored here hc hn =>
      refine .stored (htrace.trans here) hc hn fun _ => ?_
      rw [List.count_cons_self]
      exact Nat.succ_pos _
    | continuing here hc hn results' hvalue => exact absurd hvalue (hpending _)
    | posted results' here hc hn hvalue => exact absurd hvalue (hpending _)
    | ran replies here hc hn results' hvalue => exact absurd hvalue (hpending _)

theorem schedule_sound (h : Sound s) (hidle : s.io = []) (session : Nat) (id : Json) :
    Sound (s.schedule session id) := by
  unfold Sound at h ⊢
  rw [hidle, List.nil_append] at h
  obtain ⟨new, hnew⟩ : ∃ new : List Action, new = [.chain s.batches.length, .push s.batches.length] :=
    ⟨_, rfl⟩
  have hactions : (s.schedule session id).io ++ (s.schedule session id).resolving =
      new ++ s.resolving := by
    rw [hnew]
    rfl
  rw [hactions]
  have hbatch : ∀ a ∈ new, a.batch = s.batches.length := by
    rw [hnew]
    simp [Action.batch]
  have hothers : ∀ m, m ≠ s.batches.length →
      (s.schedule session id).trace (new ++ s.resolving) m = s.trace s.resolving m ∧
        (new ++ s.resolving).count (.next m) = s.resolving.count (.next m) := by
    intro m hne
    refine ⟨?_, count_of_batch rfl hne hbatch⟩
    rw [trace_eq]
    exact ⟨count_of_batch rfl hne hbatch, count_of_batch rfl hne hbatch, rfl, rfl⟩
  obtain ⟨hnone, hnexts⟩ := h.unknown _ le_rfl
  obtain ⟨hchains, hcontinues, hposted, hreplies⟩ := trace_eq.1 hnone
  constructor
  · intro m b hb
    rcases eq_some_or_of_concat hb with hb | ⟨rfl, rfl⟩
    · have hm := (List.getElem?_eq_some_iff.1 hb).1
      rw [(hothers m (Nat.ne_of_lt hm)).1, (hothers m (Nat.ne_of_lt hm)).2]
      exact h.batch m b hb
    · refine ⟨.chaining ?_ rfl rfl, by simp, ?_, by simp⟩
      · rw [trace_eq]
        refine ⟨?_, ?_, hposted, hreplies⟩
        · rw [List.count_append, hchains, hnew]
          simp
        · rw [List.count_append, hcontinues, hnew]
          simp
      · rw [List.count_append, hnexts, hnew]
        simp
  · intro m hm
    have hm' : s.batches.length + 1 ≤ m := by simpa [schedule] using hm
    have hne : m ≠ s.batches.length := by omega
    rw [(hothers m hne).1, (hothers m hne).2]
    exact h.unknown m (by omega)
  · intro k m hm
    obtain ⟨b, hb, hsession⟩ := h.slots k m hm
    refine ⟨b, ?_, hsession⟩
    exact getElem?_append_of_eq_some hb _

theorem filter_isReply_of_changes {messages : List Message}
    (h : ∀ m ∈ messages, ∃ change, m.cause = .change change) (n : Nat) :
    messages.filter (·.isReply n) = [] := by
  apply List.filter_eq_nil_iff.2
  intro m hm
  obtain ⟨change, hcause⟩ := h m hm
  simp [Message.isReply, hcause]

theorem finish_threads {next : FutureState Int Nat} (h : finish build s n b next = .ok (more, s')) :
    s'.io = s.io ∧ s'.resolving = s.resolving := by
  obtain ⟨-, rfl⟩ := of_finish h
  exact ⟨rfl, rfl⟩

theorem perform_threads {action : Action} (h : s.perform build action = .ok (more, s')) :
    s'.io = s.io ∧ s'.resolving = s.resolving := by
  unfold perform at h
  cases hb : s.batches[action.batch]? with
  | none =>
    rw [hb] at h
    cases h
    exact ⟨rfl, rfl⟩
  | some b =>
    rw [hb] at h
    cases action with
    | chain n =>
      obtain ⟨_, -, h⟩ := Except.bind_eq_ok.1 h
      cases h
      exact ⟨rfl, rfl⟩
    | next n =>
      obtain ⟨_, -, h⟩ := Except.bind_eq_ok.1 h
      cases h
      exact ⟨rfl, rfl⟩
    | continueWith n =>
      dsimp only at h
      unfold continueWith at h
      split at h
      · obtain ⟨_, -, h⟩ := Except.bind_eq_ok.1 h
        exact finish_threads h
      · obtain ⟨_, -, h⟩ := Except.bind_eq_ok.1 h
        cases h
        exact ⟨rfl, rfl⟩
    | push n =>
      cases h
      exact ⟨rfl, rfl⟩

theorem runContinuation_threads {results : List TaskResult}
    (h : runContinuation build s n b results = .ok (more, s')) :
    s'.io = s.io ∧ s'.resolving = s.resolving := by
  unfold runContinuation at h
  split at h
  · obtain ⟨_, -, h⟩ := Except.bind_eq_ok.1 h
    exact finish_threads h
  · obtain ⟨t, hreply, h⟩ := Except.bind_eq_ok.1 h
    obtain ⟨_, -, h⟩ := Except.bind_eq_ok.1 h
    have hsame : t.io = s.io ∧ t.resolving = s.resolving := by
      unfold reply at hreply
      split at hreply
      · cases hreply
        exact ⟨rfl, rfl⟩
      · obtain ⟨_, -, hreply⟩ := Except.bind_eq_ok.1 hreply
        cases hreply
        exact ⟨rfl, rfl⟩
    obtain ⟨hio, hresolving⟩ := finish_threads h
    exact ⟨hio.trans hsame.1, hresolving.trans hsame.2⟩

theorem sound_internal (h : Sound s) (hs : Internal build s s') : Sound s' := by
  cases hs with
  | io t action rest more first performed =>
    have hactions : SoundWith s (action :: (rest ++ s.resolving)) := by
      rw [← List.cons_append, ← first]
      exact h
    have hsound := perform_sound hactions performed
    rw [← List.append_assoc, ← (perform_threads performed).2] at hsound
    exact ⟨hsound.batch, hsound.unknown, hsound.slots⟩
  | resolving t action before after more thread performed =>
    have hperm : (s.io ++ s.resolving).Perm (action :: (s.io ++ before ++ after)) := by
      rw [thread, ← List.append_assoc]
      exact List.perm_middle
    have hsound := perform_sound (h.perm hperm) performed
    have hperm' : (more ++ (s.io ++ before ++ after)).Perm (t.io ++ (before ++ more ++ after)) := by
      rw [(perform_threads performed).1, ← List.append_assoc, ← List.append_assoc,
        ← List.append_assoc, ← List.append_assoc]
      refine List.Perm.append_right after ?_
      rw [List.append_assoc]
      exact List.perm_append_comm
    have hsound := hsound.perm hperm'
    exact ⟨hsound.batch, hsound.unknown, hsound.slots⟩
  | runContinuation t n b results rest more idle first batch ran =>
    have hsound := runContinuation_sound h first batch ran
    rw [idle, List.nil_append, ← (runContinuation_threads ran).2] at hsound
    exact ⟨hsound.batch, hsound.unknown, hsound.slots⟩
  | disconnect session idle =>
    exact ⟨fun m b hb => (h.batch m b hb).mono (List.mem_cons_of_mem _), h.unknown, h.slots⟩
  | destroy session slot gone held =>
    refine destroy_sound h fun n b hn hb => Or.inr ?_
    rw [List.mem_singleton] at hn
    obtain ⟨c, hc, rfl⟩ := h.slots session n (hn ▸ held)
    obtain rfl := Option.some.inj (hb.symm.trans hc)
    exact gone

theorem sound_step (h : Sound s) (hs : Step build boost s s') : Sound s' := by
  cases hs with
  | schedule session obj operations id idle connected command => exact schedule_sound h idle session id
  | internal t step => exact sound_internal h step
  | resolve n b results future batch once set =>
    have hsound := resolve_sound h batch once set
    have hperm : (Action.next n :: (s.io ++ s.resolving)).Perm (s.io ++ .next n :: s.resolving) :=
      List.perm_middle.symm
    have hsound := hsound.perm hperm
    exact ⟨hsound.batch, hsound.unknown, hsound.slots⟩
  | signal =>
    have htrace : ∀ m, (s.post .applyStreamChanges).trace (s.io ++ s.resolving) m =
        s.trace (s.io ++ s.resolving) m := by
      intro m
      rw [trace_eq]
      refine ⟨rfl, rfl, ?_, rfl⟩
      simp [post, Handler.results, trace]
    refine ⟨fun m b hb => ?_, fun m hm => ?_, h.slots⟩
    · exact htrace m ▸ h.batch m b hb
    · exact htrace m ▸ h.unknown m hm
  | applyStreamChanges rest messages idle first changes =>
    have htrace : ∀ m, ({ s with handlers := rest, outgoing := s.outgoing ++ messages } : Sessions).trace
        (s.io ++ s.resolving) m = s.trace (s.io ++ s.resolving) m := by
      intro m
      rw [trace_eq]
      refine ⟨rfl, rfl, ?_, ?_⟩
      · simp [trace, first, Handler.results]
      · simp [trace, filter_isReply_of_changes changes]
    refine ⟨fun m b hb => ?_, fun m hm => ?_, h.slots⟩
    · exact htrace m ▸ h.batch m b hb
    · exact htrace m ▸ h.unknown m hm

theorem reached_sound (h : Reached build boost s) : Sound s := by
  refine Reachable.invariant (I := Sound) ?_ (fun _ _ => sound_step) h
  rintro _ rfl
  exact sound_init

/-- What an internal step does to the handlers and the messages: it may post the
    continuation of a batch whose promise was resolved, or run the one in front. -/
inductive Effect (s s' : Sessions) : Prop where
  | none (handlers : s'.handlers = s.handlers) (outgoing : s'.outgoing = s.outgoing)
  | posted (n : Nat) (b : ScheduledBatch) (results : List TaskResult) (batch : s.batches[n]? = some b)
      (value : b.future.value = .value results)
      (handlers : s'.handlers = s.handlers ++ [.continuation n results])
      (outgoing : s'.outgoing = s.outgoing)
  | ran (n : Nat) (results : List TaskResult) (rest : List Handler)
      (first : s.handlers = .continuation n results :: rest) (handlers : s'.handlers = rest)
      (outgoing : s'.outgoing = s.outgoing ∨ ∃ m, m.cause = .batch n ∧ s'.outgoing = s.outgoing ++ [m])

theorem finish_effect {next : FutureState Int Nat} (h : finish build s n b next = .ok (more, s')) :
    s'.handlers = s.handlers ∧ s'.outgoing = s.outgoing := by
  obtain ⟨-, rfl⟩ := of_finish h
  exact ⟨rfl, rfl⟩

theorem perform_effect {action : Action} (h : s.perform build action = .ok (more, s')) :
    Effect s s' := by
  unfold perform at h
  cases hb : s.batches[action.batch]? with
  | none =>
    rw [hb] at h
    cases h
    exact .none rfl rfl
  | some b =>
    rw [hb] at h
    cases action with
    | chain n =>
      obtain ⟨_, -, h⟩ := Except.bind_eq_ok.1 h
      cases h
      exact .none rfl rfl
    | next n =>
      obtain ⟨_, -, h⟩ := Except.bind_eq_ok.1 h
      cases h
      exact .none rfl rfl
    | continueWith n =>
      dsimp only at h
      unfold continueWith at h
      split at h
      · obtain ⟨_, -, h⟩ := Except.bind_eq_ok.1 h
        obtain ⟨hhandlers, houtgoing⟩ := finish_effect h
        exact .none hhandlers houtgoing
      · obtain ⟨results, hextract, h⟩ := Except.bind_eq_ok.1 h
        cases h
        exact .posted n b results hb (FutureState.of_extractValue hextract) rfl rfl
    | push n =>
      cases h
      exact .none rfl rfl

theorem runContinuation_effect {results : List TaskResult}
    (h : runContinuation build s n b results = .ok (more, s')) : s'.handlers = s.handlers ∧
      (s'.outgoing = s.outgoing ∨ ∃ m, m.cause = .batch n ∧ s'.outgoing = s.outgoing ++ [m]) := by
  unfold runContinuation at h
  split at h
  · obtain ⟨_, -, h⟩ := Except.bind_eq_ok.1 h
    obtain ⟨hhandlers, houtgoing⟩ := finish_effect h
    exact ⟨hhandlers, Or.inl houtgoing⟩
  · obtain ⟨t, hreply, h⟩ := Except.bind_eq_ok.1 h
    obtain ⟨_, -, h⟩ := Except.bind_eq_ok.1 h
    obtain ⟨hhandlers, houtgoing⟩ := finish_effect h
    rw [hhandlers, houtgoing]
    unfold reply at hreply
    split at hreply
    · cases hreply
      exact ⟨rfl, Or.inl rfl⟩
    · obtain ⟨id, -, hreply⟩ := Except.bind_eq_ok.1 hreply
      cases hreply
      exact ⟨rfl, Or.inr ⟨_, rfl, rfl⟩⟩

theorem internal_effect (hs : Internal build s s') : Effect s s' := by
  cases hs with
  | io t action rest more first performed =>
    cases perform_effect performed with
    | none h₁ h₂ => exact .none h₁ h₂
    | posted n b results h₁ h₂ h₃ h₄ => exact .posted n b results h₁ h₂ h₃ h₄
    | ran n results rest h₁ h₂ h₃ => exact .ran n results rest h₁ h₂ h₃
  | resolving t action before after more thread performed =>
    cases perform_effect performed with
    | none h₁ h₂ => exact .none h₁ h₂
    | posted n b results h₁ h₂ h₃ h₄ => exact .posted n b results h₁ h₂ h₃ h₄
    | ran n results rest h₁ h₂ h₃ => exact .ran n results rest h₁ h₂ h₃
  | runContinuation t n b results rest more idle first batch ran =>
    obtain ⟨hhandlers, houtgoing⟩ := runContinuation_effect ran
    exact .ran n results rest first hhandlers houtgoing
  | disconnect session idle => exact .none rfl rfl
  | destroy session slot gone held => exact .none rfl rfl

theorem Effect.outgoing_cases (h : Effect s s') :
    s'.outgoing = s.outgoing ∨ ∃ m n, m.cause = .batch n ∧ s'.outgoing = s.outgoing ++ [m] := by
  cases h with
  | none _ houtgoing => exact Or.inl houtgoing
  | posted _ _ _ _ _ _ houtgoing => exact Or.inl houtgoing
  | ran n _ _ _ _ houtgoing => exact houtgoing.imp_right fun ⟨m, hm, hsame⟩ => ⟨m, n, hm, hsame⟩

end Sessions

end HotelPms

import HotelPms.Basic

/- `fas::detail::StreamState`, the queue between the producer of a stream and whoever
   takes its values. Each function is what one thread does while it holds the lock, but
   for `resetContinuation`, which takes none, and `get`, which takes it several times. -/
namespace HotelPms

/-- `std::variant<EndOfStream, T>` -/
inductive StreamItem (T : Type) where
  | endOfStream
  | value (a : T)

/-- `κ` are the continuations. -/
structure StreamState (T κ : Type) where
  isFinished : Bool := false
  processingPoppedValue : Bool := false
  queue : List (StreamItem T) := []
  /-- `_cont` -/
  cont : Option κ := none

namespace StreamState

variable {T κ : Type}

/-- `isReady` and `readyImpl` -/
def isReady (s : StreamState T κ) : Bool := s.isFinished || !s.queue.isEmpty

def popValue (build : Build) (s : StreamState T κ) :
    Except Fault (Option (StreamItem T) × StreamState T κ) := do
  build.assert (!s.processingPoppedValue) "!_processingPoppedValue"
  match s.queue with
  | [] => return (none, s)
  | value :: queue => return (some value, { s with queue, processingPoppedValue := true })

/-- The flag says whether the caller has to execute the continuation; also below. -/
def finishedProcessingPoppedValue (s : StreamState T κ) : Bool × StreamState T κ :=
  (!s.queue.isEmpty && s.cont.isSome, { s with processingPoppedValue := false })

/-- What `pushValue` and `close` decide before they push. -/
def executeContinuation (s : StreamState T κ) : Bool :=
  s.queue.isEmpty && !s.processingPoppedValue && s.cont.isSome

def pushValue (build : Build) (s : StreamState T κ) (value : T) :
    Except Fault (Bool × StreamState T κ) := do
  build.assert (!s.isFinished) "!_isFinished"
  return (s.executeContinuation, { s with queue := s.queue ++ [.value value] })

def close (build : Build) (s : StreamState T κ) : Except Fault (Bool × StreamState T κ) := do
  build.assert (!s.isFinished) "!_isFinished"
  return (s.executeContinuation, { s with isFinished := true, queue := s.queue ++ [.endOfStream] })

def resetContinuation (s : StreamState T κ) : StreamState T κ := { s with cont := none }

def chain (build : Build) (s : StreamState T κ) (cont : κ) :
    Except Fault (Option κ × StreamState T κ) := do
  build.assert s.cont.isNone "!_cont"
  build.assert (!s.processingPoppedValue) "!_processingPoppedValue"
  return (if s.queue.isEmpty then none else some cont, { s with cont := some cont })

/-- What `Stream::get` returns for what it popped. -/
def received : Option (StreamItem T) → Option T
  | some (.value a) => some a
  | _ => none

/-- `Stream::get`, where no other thread comes in between. It is `none` where it waits. -/
def get (build : Build) (s : StreamState T κ) : Option (Except Fault (Option T × StreamState T κ)) :=
  if s.isReady then some do
    let (value, s) ← s.popValue build
    return (received value, s.finishedProcessingPoppedValue.2)
  else none

/-- What up to `n` calls of `get` return, one after another, until one waits or fails. -/
def gets (build : Build) : Nat → StreamState T κ → List (Option T)
  | 0, _ => []
  | n + 1, s =>
    match s.get build with
    | some (.ok (value, s)) => value :: gets build n s
    | _ => []

variable {build : Build} {s s' : StreamState T κ}

theorem popValue_nil (hidle : s.processingPoppedValue = false) (hqueue : s.queue = []) :
    s.popValue build = .ok (none, s) := by
  rw [popValue, hidle, Bool.not_false, Build.assert_true, hqueue]
  rfl

variable (build) in
theorem popValue_cons (hidle : s.processingPoppedValue = false) {item : StreamItem T}
    {queue : List (StreamItem T)} (hqueue : s.queue = item :: queue) :
    s.popValue build = .ok (some item, { s with queue, processingPoppedValue := true }) := by
  rw [popValue, hidle, Bool.not_false, Build.assert_true, hqueue]
  rfl

theorem pushValue_eq (h : s.isFinished = false) (value : T) : s.pushValue build value =
    .ok (s.executeContinuation, { s with queue := s.queue ++ [.value value] }) := by
  rw [pushValue, h, Bool.not_false, Build.assert_true]
  rfl

theorem of_pushValue {value : T} {exec : Bool} (h : s.pushValue build value = .ok (exec, s')) :
    exec = s.executeContinuation ∧ s' = { s with queue := s.queue ++ [.value value] } := by
  obtain ⟨_, -, h⟩ := Except.bind_eq_ok.1 h
  cases h
  exact ⟨rfl, rfl⟩

theorem close_eq (h : s.isFinished = false) : s.close build =
    .ok (s.executeContinuation, { s with isFinished := true, queue := s.queue ++ [.endOfStream] }) := by
  rw [close, h, Bool.not_false, Build.assert_true]
  rfl

theorem of_close {exec : Bool} (h : s.close build = .ok (exec, s')) : exec = s.executeContinuation ∧
    s' = { s with isFinished := true, queue := s.queue ++ [.endOfStream] } := by
  obtain ⟨_, -, h⟩ := Except.bind_eq_ok.1 h
  cases h
  exact ⟨rfl, rfl⟩

theorem chain_eq (hcont : s.cont = none) (hidle : s.processingPoppedValue = false) (cont : κ) :
    s.chain build cont =
      .ok (if s.queue.isEmpty then none else some cont, { s with cont := some cont }) := by
  rw [chain, hcont, Option.isNone_none, Build.assert_true, hidle, Bool.not_false, Build.assert_true]
  rfl

theorem of_chain {cont : κ} {c : Option κ} (h : s.chain build cont = .ok (c, s')) :
    c = (if s.queue.isEmpty then none else some cont) ∧ s' = { s with cont := some cont } := by
  obtain ⟨_, -, h⟩ := Except.bind_eq_ok.1 h
  obtain ⟨_, -, h⟩ := Except.bind_eq_ok.1 h
  cases h
  exact ⟨rfl, rfl⟩

/-! ## What calls of `get` return -/

/-- What the queue holds when `rest` has arrived and was not taken. -/
def itemsOf (rest : List T) (finished : Bool) : List (StreamItem T) :=
  rest.map .value ++ if finished then [.endOfStream] else []

/-- What the first `n` calls of `get` return of a stream of the values `vs`, as long as
    they need not wait: once it has ended, nothing forever. -/
def delivery : List T → Bool → Nat → List (Option T)
  | _, _, 0 => []
  | a :: vs, ended, n + 1 => some a :: delivery vs ended n
  | [], true, n + 1 => none :: delivery [] true n
  | [], false, _ + 1 => []

theorem delivery_nil (n : Nat) : delivery ([] : List T) true n = List.replicate n none := by
  induction n with
  | zero => rfl
  | succ n ih => rw [delivery, ih, List.replicate_succ]

theorem delivery_append (taken rest : List T) (ended : Bool) (n : Nat) :
    delivery (taken ++ rest) ended (taken.length + n) = taken.map some ++ delivery rest ended n := by
  induction taken with
  | nil => rw [List.length_nil, Nat.zero_add]; rfl
  | cons a taken ih =>
    rw [List.cons_append, List.length_cons, Nat.add_right_comm, delivery, ih]
    rfl

theorem take_delivery (vs : List T) (ended : Bool) (n : Nat) :
    (delivery vs ended (n + 1)).take n = delivery vs ended n := by
  induction n generalizing vs with
  | zero => cases vs <;> rfl
  | succ n ih =>
    cases vs with
    | cons a vs => rw [delivery, List.take_succ_cons, ih, delivery]
    | nil =>
      cases ended
      · rfl
      · rw [delivery, List.take_succ_cons, ih, delivery]

theorem get_of_not_isReady (h : s.isReady = false) : s.get build = none := by
  rw [get, h]
  rfl

theorem get_cons (hidle : s.processingPoppedValue = false) {item : StreamItem T}
    {queue : List (StreamItem T)} (hqueue : s.queue = item :: queue) :
    s.get build = some (.ok (received (some item), { s with queue, processingPoppedValue := false })) := by
  have hready : s.isReady = true := by simp [isReady, hqueue]
  rw [get, if_pos hready, popValue_cons build hidle hqueue]
  rfl

theorem gets_succ {value : Option T} (h : s.get build = some (.ok (value, s'))) (n : Nat) :
    s.gets build (n + 1) = value :: s'.gets build n := by
  rw [gets, h]

theorem gets_ended (hidle : s.processingPoppedValue = false) (hfinished : s.isFinished = true)
    (hqueue : s.queue = []) (n : Nat) : s.gets build n = List.replicate n none := by
  have hget : s.get build = some (.ok (none, s)) := by
    have hready : s.isReady = true := by simp [isReady, hfinished]
    have hsame : s.finishedProcessingPoppedValue.2 = s := by
      rw [finishedProcessingPoppedValue, ← hidle]
    rw [get, if_pos hready, popValue_nil hidle hqueue]
    exact congrArg (fun t => some (Except.ok (none, t))) hsame
  induction n with
  | zero => rfl
  | succ n ih => rw [gets_succ hget, List.replicate_succ, ih]

/-- Calls of `get` return what is in the queue, in its order, and then nothing forever if
    the stream has ended. -/
theorem gets_eq (hidle : s.processingPoppedValue = false) {rest : List T}
    (hqueue : s.queue = itemsOf rest s.isFinished) (n : Nat) :
    s.gets build n = delivery rest s.isFinished n := by
  induction n generalizing s rest with
  | zero => cases rest <;> rfl
  | succ n ih =>
    cases rest with
    | cons a rest =>
      have hrest := @ih { s with queue := itemsOf rest s.isFinished, processingPoppedValue := false } rfl rest rfl
      rw [gets_succ (get_cons hidle hqueue)]
      exact congrArg (received (some (.value a)) :: ·) hrest
    | nil =>
      cases hfinished : s.isFinished
      · -- an empty queue that may still grow: the call waits
        have hready : s.isReady = false := by
          simp [isReady, hfinished, hqueue, itemsOf]
        rw [gets, get_of_not_isReady hready]
        rfl
      · have hend : s.queue = [.endOfStream] := by rw [hqueue, hfinished]; rfl
        rw [gets_succ (get_cons hidle hend), gets_ended (by rfl) (by exact hfinished) (by rfl),
          delivery_nil, List.replicate_succ]
        rfl

end StreamState

end HotelPms

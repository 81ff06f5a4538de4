import HotelPms.Basic

/- `fas::detail::FutureState`, the shared state of a future or of a step of a chain
   of continuations. Each function is what one thread does while it holds the lock,
   or after the state is ready and cannot be set again. -/
namespace HotelPms

/-- The variant `_value`. -/
inductive FutureValue (α : Type) where
  | empty
  | canceled
  | value (a : α)

/-- `κ` are the continuations. -/
structure FutureState (α κ : Type) where
  value : FutureValue α := .empty
  /-- `_cont` -/
  cont : Option κ := none

namespace FutureState

variable {α κ : Type}

/-- `isReady` and `readyImpl` -/
def isReady (s : FutureState α κ) : Bool :=
  match s.value with
  | .empty => false
  | _ => true

def next (build : Build) (s : FutureState α κ) : Except Fault (Option κ × FutureState α κ) := do
  build.assert s.isReady "readyImpl()"
  return (s.cont, { s with cont := none })

def chain (build : Build) (s : FutureState α κ) (cont : κ) :
    Except Fault (Option κ × FutureState α κ) := do
  build.assert s.cont.isNone "!_cont"
  if s.isReady then return (some cont, s)
  else return (none, { s with cont := some cont })

def setValue (build : Build) (s : FutureState α κ) (value : α) : Except Fault (FutureState α κ) := do
  build.assert (!s.isReady) "!readyImpl()"
  return { s with value := .value value }

def setCanceled (build : Build) (s : FutureState α κ) : Except Fault (FutureState α κ) := do
  build.assert (!s.isReady) "!readyImpl()"
  return { s with value := .canceled }

def extractValue (s : FutureState α κ) : Except Fault α :=
  match s.value with
  | .value a => .ok a
  | _ => .error .badVariantAccess

variable {build : Build} {s s' : FutureState α κ} {c : Option κ} {cont : κ} {a : α}

theorem next_eq (h : s.isReady = true) : s.next build = .ok (s.cont, { s with cont := none }) := by
  rw [next, h, Build.assert_true]
  rfl

theorem of_next (h : s.next build = .ok (c, s')) : c = s.cont ∧ s' = { s with cont := none } := by
  obtain ⟨_, -, h⟩ := Except.bind_eq_ok.1 h
  cases h
  exact ⟨rfl, rfl⟩

theorem chain_eq (h : s.cont = none) (cont : κ) : s.chain build cont =
    .ok (if s.isReady then (some cont, s) else (none, { s with cont := some cont })) := by
  rw [chain, h, Option.isNone_none, Build.assert_true]
  cases s.isReady
  · rfl
  · rfl

theorem of_chain (h : s.chain build cont = .ok (c, s')) :
    s.isReady = true ∧ c = some cont ∧ s' = s ∨
      s.isReady = false ∧ c = none ∧ s' = { s with cont := some cont } := by
  obtain ⟨_, -, h⟩ := Except.bind_eq_ok.1 h
  cases hready : s.isReady
  · rw [hready] at h
    cases h
    exact Or.inr ⟨rfl, rfl, rfl⟩
  · rw [hready] at h
    cases h
    exact Or.inl ⟨rfl, rfl, rfl⟩

theorem setValue_eq (h : s.isReady = false) (a : α) :
    s.setValue build a = .ok { s with value := .value a } := by
  rw [setValue, h, Bool.not_false, Build.assert_true]
  rfl

theorem of_setValue (h : s.setValue build a = .ok s') : s' = { s with value := .value a } := by
  obtain ⟨_, -, h⟩ := Except.bind_eq_ok.1 h
  cases h
  rfl

theorem setCanceled_eq (h : s.isReady = false) :
    s.setCanceled build = .ok { s with value := .canceled } := by
  rw [setCanceled, h, Bool.not_false, Build.assert_true]
  rfl

theorem of_setCanceled (h : s.setCanceled build = .ok s') : s' = { s with value := .canceled } := by
  obtain ⟨_, -, h⟩ := Except.bind_eq_ok.1 h
  cases h
  rfl

theorem of_extractValue (h : s.extractValue = .ok a) : s.value = .value a := by
  unfold extractValue at h
  cases hvalue : s.value with
  | empty => rw [hvalue] at h; cases h
  | canceled => rw [hvalue] at h; cases h
  | value b =>
    rw [hvalue] at h
    cases h
    rfl

theorem isReady_of_value (h : s.value = .value a) : s.isReady = true := by
  rw [isReady, h]

theorem isReady_of_empty (h : s.value = .empty) : s.isReady = false := by
  rw [isReady, h]

theorem isReady_congr {κ' : Type} {t : FutureState α κ'} (h : s.value = t.value) : s.isReady = t.isReady := by
  rw [isReady, isReady, h]

end FutureState

end HotelPms

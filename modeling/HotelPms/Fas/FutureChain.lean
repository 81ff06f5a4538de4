import HotelPms.Fas.Future
import HotelPms.Lib.Pool
import HotelPms.Lib.Run

/- Chains of continuations attached to a future with `then`.

   A chain is a promise, its state 0, and the states that the calls of `then` made, one
   after another: the continuation attached to state `i` applies the `i`th function to the
   value of that state and sets the next one. The types of the values may all differ.
   Whoever has to go on with a continuation is an activity: the thread that resolves the
   promise, the one that calls `then`, or a job of some executor. Each of its steps is
   atomic, and activities take steps in any order.

   `Sound` is the invariant of all runs. For each stage that was attached exactly one of
   these holds: its continuation is stored, one activity is at it, or the next state is
   set. `future_chain` says what follows. -/
namespace HotelPms
open Lib

/-- `FutureContinuationThen`, but for the executor, the next state and the token. -/
structure FutureContinuationThen (T U : Type) where
  continuationFn : T → U

/-- What a thread or a job does next. -/
inductive Activity (α : Nat → Type) where
  /-- `executeFuture({sstate->next(), sstate})` for state `i`, before `next()` -/
  | executeNext (i : Nat)
  /-- in `executeFuture`, before `continueWith` of the continuation of state `i` -/
  | continueWith (i : Nat) (cont : FutureContinuationThen (α i) (α (i + 1)))
  /-- It has found the token canceled; before `setCanceled()` of the next state. -/
  | cancelNext (i : Nat)
  /-- It has found the token not canceled; before `extractValue()`. -/
  | extract (i : Nat) (cont : FutureContinuationThen (α i) (α (i + 1)))
  /-- a job that an executor has not begun -/
  | job (i : Nat) (cont : FutureContinuationThen (α i) (α (i + 1))) (val : α i)
  /-- The job has found the token not canceled, and calls the function. -/
  | invoke (i : Nat) (cont : FutureContinuationThen (α i) (α (i + 1))) (val : α i)
  /-- The function has returned; before `setValue` of the next state. -/
  | setValue (i : Nat) (value : α (i + 1))

structure FutureChain (α : Nat → Type) where
  states : ∀ i, FutureState (α i) (FutureContinuationThen (α i) (α (i + 1))) := fun _ => {}
  /-- the number of continuations; the last future has the state of this index -/
  length : Nat := 0
  /-- the state that all tokens of the chain share -/
  canceled : Bool := false
  activities : List (Activity α) := []
  /-- history: what the promise was resolved with -/
  resolved : Option (α 0) := none
  /-- history: the functions that were called, each with its argument -/
  invoked : List (Σ i, α i) := []

namespace FutureChain

variable {α : Nat → Type}

def setState (s : FutureChain α) (i : Nat)
    (state : FutureState (α i) (FutureContinuationThen (α i) (α (i + 1)))) : FutureChain α :=
  { s with states := Function.update s.states i state }

/-- One step of an activity: the chain after it, and what the activity goes on as. -/
def run (build : Build) (s : FutureChain α) :
    Activity α → Except Fault (FutureChain α × List (Activity α))
  | .executeNext i => do
    let (cont, state) ← ((s.states i).next build)
    return (s.setState i state, cont.toList.map (.continueWith i))
  | .continueWith i cont => return (s, [if s.canceled then .cancelNext i else .extract i cont])
  | .cancelNext i => do
    let state ← ((s.states (i + 1)).setCanceled build)
    return (s.setState (i + 1) state, [.executeNext (i + 1)])
  | .extract i cont => do
    let val ← ((s.states i).extractValue)
    return (s, [.job i cont val])
  | .job i cont val => return (s, [if s.canceled then .cancelNext i else .invoke i cont val])
  | .invoke i cont val =>
    return ({ s with invoked := s.invoked ++ [⟨i, val⟩] }, [.setValue i (cont.continuationFn val)])
  | .setValue i value => do
    let state ← ((s.states (i + 1)).setValue build value)
    return (s.setState (i + 1) state, [.executeNext (i + 1)])

/-- One atomic step. The functions that are attached are those of `g`, in their order. A
    step that would stop on an assertion is no step. -/
inductive Step (build : Build) (g : ∀ i, α i → α (i + 1)) : FutureChain α → FutureChain α → Prop where
  /-- `Promise::resolve`, up to `setValue` -/
  | resolve (s : FutureChain α) (v : α 0) (unresolved : s.resolved = none)
      (state : FutureState (α 0) (FutureContinuationThen (α 0) (α 1)))
      (set : (s.states 0).setValue build v = .ok state) :
    Step build g s { s.setState 0 state with
      resolved := some v, activities := s.activities ++ [.executeNext 0] }
  /-- `Future::then` of the last future, up to `chain` -/
  | attach (s : FutureChain α) (valid : s.canceled = false)
      (cont : Option (FutureContinuationThen (α s.length) (α (s.length + 1))))
      (state : FutureState (α s.length) (FutureContinuationThen (α s.length) (α (s.length + 1))))
      (chained : (s.states s.length).chain build ⟨g s.length⟩ = .ok (cont, state)) :
    Step build g s { s.setState s.length state with
      length := s.length + 1
      activities := s.activities ++ cont.toList.map (.continueWith s.length) }
  /-- `Future::reset` of the last future -/
  | reset (s : FutureChain α) : Step build g s { s with canceled := true }
  | act (s s' : FutureChain α) (activity : Activity α) (new activities : List (Activity α))
      (replaces : Replaces activity new s.activities activities)
      (ran : s.run build activity = .ok (s', new)) :
    Step build g s { s' with activities }

/-- The states that a chain can reach from a promise and its future. -/
def Reached (build : Build) (g : ∀ i, α i → α (i + 1)) (s : FutureChain α) : Prop :=
  Reachable (fun s => s = {}) (Step build g) s

/-- What the first `i` functions make of a value. -/
def compose (g : ∀ i, α i → α (i + 1)) : ∀ i, α 0 → α i
  | 0, v => v
  | i + 1, v => g i (compose g i v)

/-- `a` is what the first `i` functions make of the value the promise was resolved with. -/
def Holds (g : ∀ i, α i → α (i + 1)) (s : FutureChain α) (i : Nat) (a : α i) : Prop :=
  ∃ v, s.resolved = some v ∧ a = compose g i v

end FutureChain

/-- The stage whose continuation the activity is at. -/
def Activity.stage {α : Nat → Type} : Activity α → Option Nat
  | .executeNext _ => none
  | .continueWith i _ => some i
  | .cancelNext i => some i
  | .extract i _ => some i
  | .job i _ _ => some i
  | .invoke i _ _ => some i
  | .setValue i _ => some i

namespace FutureChain

variable {α : Nat → Type}

/-- Where an activity can be. -/
def Fits (g : ∀ i, α i → α (i + 1)) (s : FutureChain α) : Activity α → Prop
  | .executeNext i => (s.states i).isReady = true
  | .continueWith i cont => (s.states i).isReady = true ∧ cont.continuationFn = g i
  | .cancelNext _ => s.canceled = true
  | .extract i cont => (∃ a, (s.states i).value = .value a) ∧ cont.continuationFn = g i
  | .job i cont val => s.Holds g i val ∧ cont.continuationFn = g i
  | .invoke i cont val => s.Holds g i val ∧ cont.continuationFn = g i
  | .setValue i value => s.Holds g (i + 1) value ∧ i ∈ s.invoked.map Sigma.fst

/-- How many activities are at the continuation of a stage. -/
def atStage (s : FutureChain α) (i : Nat) : Nat := s.activities.countP fun a => a.stage == some i

structure Sound (g : ∀ i, α i → α (i + 1)) (s : FutureChain α) : Prop where
  /-- A stage is stored, or one activity is at it, or it is done. -/
  once : ∀ i, s.atStage i + (s.states i).cont.toList.length + (s.states (i + 1)).isReady.toNat =
    if i < s.length then 1 else 0
  stored : ∀ i, ∀ cont ∈ (s.states i).cont, cont.continuationFn = g i
  /-- Somebody takes the continuation of a state that was set. -/
  taken : ∀ i, (s.states i).isReady = true → (s.states i).cont ≠ none →
    .executeNext i ∈ s.activities
  promise : (s.states 0).isReady = s.resolved.isSome
  fits : ∀ a ∈ s.activities, s.Fits g a
  values : ∀ i a, (s.states i).value = .value a → s.Holds g i a
  canceled : ∀ i, (s.states i).value = .canceled → s.canceled = true
  ran : ∀ i a, (s.states (i + 1)).value = .value a → i ∈ s.invoked.map Sigma.fst
  invoked : ∀ p ∈ s.invoked, p.1 < s.length ∧ s.Holds g p.1 p.2
  nodup : (s.invoked.map Sigma.fst).Nodup
  /-- The function of a stage was called: it has returned, or its result is set. -/
  called : ∀ i ∈ s.invoked.map Sigma.fst,
    (s.states (i + 1)).isReady = true ∨ ∃ value, .setValue i value ∈ s.activities

/-! ## What later states keep -/

/-- A state that was set stays set; nothing else is taken back. -/
structure Grows (s s' : FutureChain α) : Prop where
  value : ∀ i, (s.states i).isReady = true → (s'.states i).value = (s.states i).value
  canceled : s.canceled = true → s'.canceled = true
  resolved : ∀ v, s.resolved = some v → s'.resolved = some v
  invoked : ∀ p ∈ s.invoked, p ∈ s'.invoked

variable {build : Build} {g : ∀ i, α i → α (i + 1)} {s s' : FutureChain α}

theorem Grows.isReady (h : Grows s s') {i : Nat} (hready : (s.states i).isReady = true) :
    (s'.states i).isReady = true := by
  rw [FutureState.isReady_congr (h.value i hready), hready]

theorem Grows.holds (h : Grows s s') {i : Nat} {a : α i} (ha : s.Holds g i a) : s'.Holds g i a := by
  obtain ⟨v, hv, ha⟩ := ha
  exact ⟨v, h.resolved v hv, ha⟩

theorem Grows.ran (h : Grows s s') {i : Nat} (hi : i ∈ s.invoked.map Sigma.fst) :
    i ∈ s'.invoked.map Sigma.fst := by
  obtain ⟨p, hp, rfl⟩ := List.mem_map.1 hi
  exact List.mem_map_of_mem (h.invoked p hp)

theorem Grows.fits (h : Grows s s') {a : Activity α} (ha : s.Fits g a) : s'.Fits g a := by
  cases a with
  | executeNext i => exact h.isReady ha
  | continueWith i cont => exact ⟨h.isReady ha.1, ha.2⟩
  | cancelNext i => exact h.canceled ha
  | extract i cont =>
    obtain ⟨⟨a, ha⟩, hfn⟩ := ha
    exact ⟨⟨a, (h.value i (FutureState.isReady_of_value ha)).trans ha⟩, hfn⟩
  | job i cont val => exact ⟨h.holds ha.1, ha.2⟩
  | invoke i cont val => exact ⟨h.holds ha.1, ha.2⟩
  | setValue i value => exact ⟨h.holds ha.1, h.ran ha.2⟩

/-! ## What each step keeps -/

/-- A step that sets no state and calls no function. -/
theorem Sound.of_value_eq (h : Sound g s) (hvalue : ∀ i, (s'.states i).value = (s.states i).value)
    (hresolved : s'.resolved = s.resolved) (hinvoked : s'.invoked = s.invoked)
    (hcanceled : s.canceled = true → s'.canceled = true) (hlength : s.length ≤ s'.length)
    (honce : ∀ i, s'.atStage i + (s'.states i).cont.toList.length +
      (s'.states (i + 1)).isReady.toNat = if i < s'.length then 1 else 0)
    (hstored : ∀ i, ∀ cont ∈ (s'.states i).cont, cont.continuationFn = g i)
    (htaken : ∀ i, (s'.states i).isReady = true → (s'.states i).cont ≠ none →
      .executeNext i ∈ s'.activities)
    (hfits : ∀ a ∈ s'.activities, a ∈ s.activities ∨ s'.Fits g a)
    (hset : ∀ i value, .setValue i value ∈ s.activities → .setValue i value ∈ s'.activities) :
    Sound g s' := by
  have hgrows : Grows s s' :=
    ⟨fun i _ => hvalue i, hcanceled, fun v hv => hresolved.trans hv, fun p hp => hinvoked ▸ hp⟩
  refine ⟨honce, hstored, htaken, ?_, fun a ha => ?_, fun i a ha => ?_, fun i hi => ?_,
    fun i a ha => ?_, fun p hp => ?_, ?_, fun i hi => ?_⟩
  · rw [FutureState.isReady_congr (hvalue 0), h.promise, hresolved]
  · rcases hfits a ha with ha | ha
    · exact hgrows.fits (h.fits a ha)
    · exact ha
  · exact hgrows.holds (h.values i a ((hvalue i).symm.trans ha))
  · exact hcanceled (h.canceled i ((hvalue i).symm.trans hi))
  · rw [hinvoked]
    exact h.ran i a ((hvalue (i + 1)).symm.trans ha)
  · rw [hinvoked] at hp
    obtain ⟨hlt, hholds⟩ := h.invoked p hp
    exact ⟨lt_of_lt_of_le hlt hlength, hgrows.holds hholds⟩
  · rw [hinvoked]
    exact h.nodup
  · rw [hinvoked] at hi
    rcases h.called i hi with hready | ⟨value, hmem⟩
    · exact Or.inl (hgrows.isReady hready)
    · exact Or.inr ⟨value, hset i value hmem⟩

/-- A step that sets the state of one index, and has somebody take its continuation. -/
theorem Sound.of_set (h : Sound g s) {k : Nat} (hempty : (s.states k).isReady = false)
    (hvalue : ∀ i, i ≠ k → (s'.states i).value = (s.states i).value)
    (hcont : ∀ i, (s'.states i).cont = (s.states i).cont) (hlength : s'.length = s.length)
    (hinvoked : s'.invoked = s.invoked) (hcanceled : s'.canceled = s.canceled)
    (hresolved : ∀ v, s.resolved = some v → s'.resolved = some v)
    (hpromise : (s'.states 0).isReady = s'.resolved.isSome)
    (honce : ∀ i, s'.atStage i + (s.states i).cont.toList.length +
      (s'.states (i + 1)).isReady.toNat = if i < s.length then 1 else 0)
    (hnext : .executeNext k ∈ s'.activities)
    (hvalues : ∀ a, (s'.states k).value = .value a → s'.Holds g k a)
    (hcancel : (s'.states k).value = .canceled → s.canceled = true)
    (hran : ∀ i a, i + 1 = k → (s'.states (i + 1)).value = .value a → i ∈ s.invoked.map Sigma.fst)
    (hfits : ∀ a ∈ s'.activities, a ∈ s.activities ∨ a = .executeNext k)
    (hkept : ∀ a ∈ s.activities, a ∈ s'.activities ∨
      ∃ i, a.stage = some i ∧ (s'.states (i + 1)).isReady = true)
    (hready : (s'.states k).isReady = true) : Sound g s' := by
  have hne : ∀ i, (s.states i).isReady = true → i ≠ k := by
    intro i hi heq
    subst heq
    rw [hempty] at hi
    cases hi
  have hgrows : Grows s s' := ⟨fun i hi => hvalue i (hne i hi), fun hc => hcanceled.trans hc, hresolved,
    fun p hp => hinvoked ▸ hp⟩
  refine ⟨fun i => ?_, fun i cont hcont' => ?_, fun i hi hstored => ?_, hpromise, fun a ha => ?_,
    fun i a ha => ?_, fun i hi => ?_, fun i a ha => ?_, fun p hp => ?_, ?_, fun i hi => ?_⟩
  · rw [hcont, hlength]
    exact honce i
  · rw [hcont] at hcont'
    exact h.stored i cont hcont'
  · by_cases hik : i = k
    · exact hik ▸ hnext
    · rw [FutureState.isReady_congr (hvalue i hik)] at hi
      rw [hcont] at hstored
      rcases hkept _ (h.taken i hi hstored) with hmem | ⟨j, hj, -⟩
      · exact hmem
      · cases hj
  · rcases hfits a ha with ha | rfl
    · exact hgrows.fits (h.fits a ha)
    · exact hready
  · by_cases hik : i = k
    · subst hik
      exact hvalues a ha
    · exact hgrows.holds (h.values i a ((hvalue i hik).symm.trans ha))
  · rw [hcanceled]
    by_cases hik : i = k
    · subst hik
      exact hcancel hi
    · exact h.canceled i ((hvalue i hik).symm.trans hi)
  · rw [hinvoked]
    by_cases hik : i + 1 = k
    · exact hran i a hik ha
    · exact h.ran i a ((hvalue (i + 1) hik).symm.trans ha)
  · rw [hinvoked] at hp
    rw [hlength]
    exact ⟨(h.invoked p hp).1, hgrows.holds (h.invoked p hp).2⟩
  · rw [hinvoked]
    exact h.nodup
  · rw [hinvoked] at hi
    rcases h.called i hi with hset | ⟨value, hmem⟩
    · exact Or.inl (hgrows.isReady hset)
    · rcases hkept _ hmem with hmem | ⟨j, hj, hset⟩
      · exact Or.inr ⟨value, hmem⟩
      · cases hj
        exact Or.inl hset

@[simp] theorem states_setState (s : FutureChain α) (i : Nat)
    (state : FutureState (α i) (FutureContinuationThen (α i) (α (i + 1)))) :
    (s.setState i state).states i = state := Function.update_self ..

theorem states_setState_of_ne (s : FutureChain α) {i j : Nat} (h : j ≠ i)
    (state : FutureState (α i) (FutureContinuationThen (α i) (α (i + 1)))) :
    (s.setState i state).states j = s.states j := Function.update_of_ne h ..

theorem setState_value (s : FutureChain α) (k : Nat) (value : FutureValue (α k)) (i : Nat) :
    ((s.setState k { s.states k with value }).states i).cont = (s.states i).cont := by
  by_cases hik : i = k
  · subst hik
    rw [states_setState]
  · rw [states_setState_of_ne s hik]

theorem setState_cont (s : FutureChain α) (k : Nat)
    (cont : Option (FutureContinuationThen (α k) (α (k + 1)))) (i : Nat) :
    ((s.setState k { s.states k with cont }).states i).value = (s.states i).value := by
  by_cases hik : i = k
  · subst hik
    rw [states_setState]
  · rw [states_setState_of_ne s hik]

/-! Steps of the promise and of the future. -/

theorem sound_init : Sound g {} where
  once i := by simp [atStage, FutureState.isReady]
  stored i cont hcont := by cases hcont
  taken i hready := by cases hready
  promise := rfl
  fits a ha := absurd ha List.not_mem_nil
  values i a ha := by cases ha
  canceled i hi := by cases hi
  ran i a ha := by cases ha
  invoked p hp := absurd hp List.not_mem_nil
  nodup := List.nodup_nil
  called i hi := absurd hi List.not_mem_nil

theorem sound_resolve (h : Sound g s) (v : α 0) (unresolved : s.resolved = none) :
    Sound g { s.setState 0 { s.states 0 with value := .value v } with
      resolved := some v, activities := s.activities ++ [.executeNext 0] } := by
  have hempty : (s.states 0).isReady = false := by rw [h.promise, unresolved]; rfl
  have hother : ∀ i, i ≠ 0 → (s.setState 0 { s.states 0 with value := .value v }).states i =
      s.states i := fun i hi => states_setState_of_ne s hi _
  refine h.of_set hempty (fun i hi => ?_) (fun i => ?_) rfl rfl rfl (fun w hw => ?_) ?_ (fun i => ?_)
    (by simp) (fun a ha => ?_) (fun hc => ?_) (fun i a hi => by cases hi) (fun a ha => ?_)
    (fun a ha => Or.inl (List.mem_append_left _ ha)) ?_
  · dsimp only
    rw [hother i hi]
  · exact setState_value s 0 _ i
  · rw [unresolved] at hw
    cases hw
  · dsimp only
    rw [states_setState]
    rfl
  · have honce := h.once i
    dsimp only [atStage]
    rw [hother (i + 1) (Nat.succ_ne_zero i), List.countP_append]
    simpa [atStage, Activity.stage] using honce
  · dsimp only at ha
    rw [states_setState] at ha
    cases ha
    exact ⟨v, rfl, rfl⟩
  · dsimp only at hc
    rw [states_setState] at hc
    cases hc
  · simpa using ha
  · dsimp only
    rw [states_setState]
    rfl

/-- A step that changes what is stored at one state, and who is at its stage. -/
theorem Sound.of_cont (h : Sound g s) {k length : Nat}
    {cont : Option (FutureContinuationThen (α k) (α (k + 1)))} {activities : List (Activity α)}
    (hlength : s.length ≤ length) (hother : ∀ i, i ≠ k → (i < length ↔ i < s.length))
    (hcount : ∀ i, i ≠ k → activities.countP (fun a => a.stage == some i) = s.atStage i)
    (honce : activities.countP (fun a => a.stage == some k) + cont.toList.length +
      (s.states (k + 1)).isReady.toNat = if k < length then 1 else 0)
    (hstored : ∀ c ∈ cont, c.continuationFn = g k)
    (htaken : (s.states k).isReady = true → cont ≠ none → .executeNext k ∈ activities)
    (hkept : ∀ b ∈ s.activities, b = .executeNext k ∨ b ∈ activities)
    (hnew : ∀ b ∈ activities, b ∈ s.activities ∨
      ∃ c, b = .continueWith k c ∧ (s.states k).isReady = true ∧ c.continuationFn = g k) :
    Sound g { s.setState k { s.states k with cont } with length, activities } := by
  have hvalue := setState_cont s k cont
  have hstates : ∀ i, i ≠ k → (s.setState k { s.states k with cont }).states i = s.states i :=
    fun i hi => states_setState_of_ne s hi _
  refine h.of_value_eq hvalue rfl rfl id hlength (fun i => ?_) (fun i c hc => ?_)
    (fun i hready hcont => ?_) (fun b hb => ?_) (fun i value hmem => ?_)
  · show activities.countP _ + _ + _ = if i < length then 1 else 0
    rw [FutureState.isReady_congr (hvalue (i + 1))]
    by_cases hi : i = k
    · subst hi
      rw [states_setState]
      exact honce
    · rw [hcount i hi, hstates i hi, if_congr (hother i hi) rfl rfl]
      exact h.once i
  · dsimp only at hc
    by_cases hi : i = k
    · subst hi
      rw [states_setState] at hc
      exact hstored c hc
    · rw [hstates i hi] at hc
      exact h.stored i c hc
  · dsimp only at hready hcont
    rw [FutureState.isReady_congr (hvalue i)] at hready
    by_cases hi : i = k
    · subst hi
      rw [states_setState] at hcont
      exact htaken hready hcont
    · rw [hstates i hi] at hcont
      refine (hkept _ (h.taken i hready hcont)).resolve_left fun heq => hi ?_
      cases heq
      rfl
  · refine (hnew b hb).imp_right ?_
    rintro ⟨c, rfl, hready, hfn⟩
    exact ⟨(FutureState.isReady_congr (hvalue k)).trans hready, hfn⟩
  · exact (hkept _ hmem).resolve_left fun heq => by cases heq

theorem countP_continueWith (conts : List (FutureContinuationThen (α j) (α (j + 1)))) (i : Nat) :
    (conts.map (Activity.continueWith j)).countP (fun a => a.stage == some i) =
      if i = j then conts.length else 0 := by
  by_cases hi : i = j
  · rw [if_pos hi, hi, List.countP_map, List.countP_eq_length.2 fun c _ => by simp [Activity.stage]]
  · rw [if_neg hi, List.countP_eq_zero]
    intro b hb
    obtain ⟨c, -, rfl⟩ := List.mem_map.1 hb
    simpa [Activity.stage] using Ne.symm hi

/-- A function is attached: its continuation is stored, or taken at once where the state is set. -/
theorem sound_attach (h : Sound g s)
    {cont : Option (FutureContinuationThen (α s.length) (α (s.length + 1)))}
    {state : FutureState (α s.length) (FutureContinuationThen (α s.length) (α (s.length + 1)))}
    (chained : (s.states s.length).chain build ⟨g s.length⟩ = .ok (cont, state)) :
    Sound g { s.setState s.length state with
      length := s.length + 1
      activities := s.activities ++ cont.toList.map (.continueWith s.length) } := by
  -- nothing is stored at the last state, nobody is at its stage, and the next state is not set
  have hlast := h.once s.length
  rw [if_neg (lt_irrefl _)] at hlast
  have hcount : ∀ i, (s.activities ++ cont.toList.map (Activity.continueWith s.length)).countP
      (fun a => a.stage == some i) = s.atStage i + if i = s.length then cont.toList.length else 0 := by
    intro i
    rw [List.countP_append, countP_continueWith, atStage]
  have hcalls : ∀ b ∈ s.activities, b = .executeNext s.length ∨
      b ∈ s.activities ++ cont.toList.map (Activity.continueWith s.length) :=
    fun b hb => Or.inr (List.mem_append_left _ hb)
  rcases FutureState.of_chain chained with ⟨hready, rfl, rfl⟩ | ⟨hready, rfl, rfl⟩
  · have hnone : (s.states s.length).cont = none := by
      cases hcont : (s.states s.length).cont with
      | none => rfl
      | some c => simp [hcont] at hlast
    have hstored : ∀ c ∈ (s.states s.length).cont, c.continuationFn = g s.length := h.stored _
    refine h.of_cont (Nat.le_succ _) (fun i hi => by omega) (fun i hi => ?_) ?_ hstored
      (fun _ hne => absurd hnone hne) hcalls (fun b hb => ?_)
    · rw [hcount, if_neg hi, Nat.add_zero]
    · rw [hcount, if_pos rfl, if_pos (Nat.lt_succ_self _), Option.toList_some, List.length_singleton,
        Nat.add_right_comm _ 1, Nat.add_right_comm _ 1]
      exact congrArg (· + 1) hlast
    · refine (List.mem_append.1 hb).imp_right fun hb => ?_
      rw [Option.toList_some, List.map_singleton, List.mem_singleton] at hb
      exact ⟨_, hb, hready, rfl⟩
  · refine h.of_cont (Nat.le_succ _) (fun i hi => by omega) (fun i hi => ?_) ?_ ?_ ?_ hcalls (fun b hb => ?_)
    · rw [hcount, if_neg hi, Nat.add_zero]
    · rw [hcount, if_pos rfl, if_pos (Nat.lt_succ_self _)]
      simp only [Option.toList_some, Option.toList_none, List.length_singleton, List.length_nil]
      omega
    · rintro c ⟨⟩
      rfl
    · intro hset
      rw [hready] at hset
      cases hset
    · rw [Option.toList_none, List.map_nil, List.append_nil] at hb
      exact Or.inl hb

/-! Steps of an activity. -/

section
variable {activity : Activity α} {new activities : List (Activity α)}

theorem sound_executeNext (h : Sound g s) {i : Nat} {cont : Option (FutureContinuationThen (α i) (α (i + 1)))}
    (hcont : (s.states i).cont = cont)
    (replaces : Replaces (.executeNext i) (cont.toList.map (.continueWith i)) s.activities activities) :
    Sound g { s.setState i { s.states i with cont := none } with activities } := by
  have hcount : ∀ j, activities.countP (fun a => a.stage == some j) =
      s.atStage j + if j = i then cont.toList.length else 0 := by
    intro j
    have hreplaced := replaces.countP fun a => a.stage == some j
    rw [countP_continueWith] at hreplaced
    exact hreplaced
  refine h.of_cont le_rfl (fun _ _ => Iff.rfl) (fun j hj => ?_) ?_ (fun c hc => by cases hc)
    (fun _ hne => absurd rfl hne) (fun b hb => replaces.eq_or_mem hb) (fun b hb => ?_)
  · rw [hcount, if_neg hj, Nat.add_zero]
  · rw [hcount, if_pos rfl, Option.toList_none, List.length_nil, Nat.add_zero, ← hcont]
    exact h.once i
  · refine (replaces.mem_or hb).symm.imp_right fun hb => ?_
    obtain ⟨c, hc, rfl⟩ := List.mem_map.1 hb
    exact ⟨c, rfl, h.fits _ replaces.mem, h.stored i c (by rw [hcont]; simpa using hc)⟩

theorem sound_goOn (h : Sound g s) {next : Activity α}
    (replaces : Replaces activity [next] s.activities activities)
    (hstage : next.stage = activity.stage) (hsome : activity.stage.isSome = true)
    (hfits : s.Fits g next) (hnot : ∀ i value, activity ≠ .setValue i value) :
    Sound g { s with activities } := by
  refine h.of_value_eq (fun _ => rfl) rfl rfl id le_rfl (fun i => ?_) h.stored (fun i hready hstored => ?_)
    (fun a ha => ?_) (fun i value hmem => ?_)
  · have hcount : activities.countP (fun a => a.stage == some i) =
        s.activities.countP (fun a => a.stage == some i) :=
      replaces.countP_eq (by rw [List.countP_singleton, hstage])
    have honce := h.once i
    rwa [atStage, ← hcount] at honce
  · rcases replaces.eq_or_mem (h.taken i hready hstored) with heq | hmem
    · rw [← heq] at hsome
      cases hsome
    · exact hmem
  · rcases replaces.mem_or ha with ha | ha
    · rw [List.mem_singleton.1 ha]
      exact Or.inr hfits
    · exact Or.inl ha
  · rcases replaces.eq_or_mem hmem with heq | hmem
    · exact absurd heq.symm (hnot i value)
    · exact hmem

theorem Sound.at_stage (h : Sound g s) (hmem : activity ∈ s.activities) {i : Nat}
    (hstage : activity.stage = some i) : i < s.length ∧ s.atStage i = 1 ∧
      (s.states (i + 1)).isReady = false := by
  have honce := h.once i
  have hpos : 0 < s.atStage i := List.countP_pos_iff.2 ⟨activity, hmem, by simp [hstage]⟩
  by_cases hi : i < s.length
  · rw [if_pos hi] at honce
    refine ⟨hi, by omega, ?_⟩
    cases hready : (s.states (i + 1)).isReady with
    | false => rfl
    | true =>
      rw [hready, Bool.toNat_true] at honce
      omega
  · rw [if_neg hi] at honce
    omega

theorem Sound.eq_of_stage (h : Sound g s) {a b : Activity α} (ha : a ∈ s.activities)
    (hb : b ∈ s.activities) {i : Nat} (hai : a.stage = some i) (hbi : b.stage = some i) : b = a := by
  have hone := (h.at_stage ha hai).2.1
  rw [atStage] at hone
  exact eq_of_countP_eq_one hone ha hb (by simp [hai]) (by simp [hbi])

/-- The step with which an activity sets the next state, and its stage is done. -/
theorem sound_set (h : Sound g s) {i : Nat} (hstage : activity.stage = some i)
    (replaces : Replaces activity [.executeNext (i + 1)] s.activities activities)
    {value : FutureValue (α (i + 1))}
    (hvalue : ∀ a, value = .value a → s.Holds g (i + 1) a ∧ i ∈ s.invoked.map Sigma.fst)
    (hcancel : value = .canceled → s.canceled = true) (hset : value ≠ .empty) :
    Sound g { s.setState (i + 1) { s.states (i + 1) with value } with activities } := by
  obtain ⟨hlt, hone, hempty⟩ := h.at_stage replaces.mem hstage
  have hother : ∀ j, j ≠ i + 1 →
      (s.setState (i + 1) { s.states (i + 1) with value }).states j = s.states j :=
    fun j hj => states_setState_of_ne s hj _
  have hready : ((s.setState (i + 1) { s.states (i + 1) with value }).states (i + 1)).isReady = true := by
    rw [states_setState, FutureState.isReady]
    cases value with
    | empty => exact absurd rfl hset
    | canceled => rfl
    | value a => rfl
  -- the activity leaves its stage, and `executeNext` is at none
  have hcount : ∀ j, activities.countP (fun a => a.stage == some j) + (if j = i then 1 else 0) =
      s.atStage j := by
    intro j
    have hreplaced := replaces.countP fun a => a.stage == some j
    have hnext : ([.executeNext (i + 1)] : List (Activity α)).countP (fun a => a.stage == some j) = 0 := rfl
    rw [hnext, hstage, Nat.add_zero] at hreplaced
    rw [atStage, ← hreplaced]
    by_cases hj : j = i
    · simp [hj]
    · simp [hj, Ne.symm hj]
  refine h.of_set hempty (fun j hj => ?_) (setState_value s (i + 1) value) rfl rfl rfl (fun v hv => hv) ?_
    (fun j => ?_) (replaces.mem_new List.mem_cons_self) (fun a ha => ?_) (fun hc => ?_)
    (fun j a hj ha => ?_) (fun a ha => ?_) (fun a ha => ?_) hready
  · dsimp only
    rw [hother j hj]
  · dsimp only
    rw [hother 0 (Nat.succ_ne_zero i).symm]
    exact h.promise
  · have honce := h.once j
    show activities.countP _ + _ + _ = _
    rw [← hcount j] at honce
    by_cases hj : j = i
    · subst hj
      rw [if_pos rfl, hempty, Bool.toNat_false] at honce
      rw [hready, Bool.toNat_true]
      omega
    · rw [if_neg hj, Nat.add_zero] at honce
      rw [hother (j + 1) (by omega)]
      exact honce
  · dsimp only at ha
    rw [states_setState] at ha
    exact (hvalue a ha).1
  · dsimp only at hc
    rw [states_setState] at hc
    exact hcancel hc
  · cases hj
    dsimp only at ha
    rw [states_setState] at ha
    exact (hvalue a ha).2
  · rcases replaces.mem_or ha with ha | ha
    · exact Or.inr (List.mem_singleton.1 ha)
    · exact Or.inl ha
  · rcases replaces.eq_or_mem ha with rfl | ha
    · exact Or.inr ⟨i, hstage, hready⟩
    · exact Or.inl ha

/-- The function of a stage is called for the first time. -/
theorem sound_invoke (h : Sound g s) {i : Nat} {cont : FutureContinuationThen (α i) (α (i + 1))} {val : α i}
    (replaces : Replaces (.invoke i cont val) [.setValue i (cont.continuationFn val)]
      s.activities activities) :
    Sound g { s with invoked := s.invoked ++ [⟨i, val⟩], activities } := by
  obtain ⟨hlt, hone, hempty⟩ := h.at_stage replaces.mem rfl
  obtain ⟨⟨v, hv, hval⟩, hfn⟩ := h.fits _ replaces.mem
  have hgrows : Grows s { s with invoked := s.invoked ++ [⟨i, val⟩], activities } :=
    ⟨fun _ _ => rfl, id, fun _ => id, fun p hp => List.mem_append_left _ hp⟩
  have hnew : i ∉ s.invoked.map Sigma.fst := by
    intro hi
    rcases h.called i hi with hready | ⟨value, hmem⟩
    · rw [hempty] at hready
      cases hready
    · -- then two activities would be at this stage
      cases h.eq_of_stage replaces.mem hmem (i := i) rfl rfl
  have hran : i ∈ (s.invoked ++ [(⟨i, val⟩ : Σ i, α i)]).map Sigma.fst := by simp
  refine { h with
    once := fun j => ?_, taken := fun j hready hstored => ?_, fits := fun a ha => ?_
    values := fun j a ha => hgrows.holds (h.values j a ha), ran := fun j a ha => hgrows.ran (h.ran j a ha)
    invoked := fun p hp => ?_, nodup := ?_, called := fun j hj => ?_ }
  · have hcount := replaces.countP_eq (p := fun a => a.stage == some j)
      (by simp [Activity.stage])
    have honce := h.once j
    rwa [atStage, ← hcount] at honce
  · rcases replaces.eq_or_mem (h.taken j hready hstored) with heq | hmem
    · cases heq
    · exact hmem
  · rcases replaces.mem_or ha with ha | ha
    · rw [List.mem_singleton.1 ha]
      exact ⟨⟨v, hv, by rw [hfn, hval, compose]⟩, hran⟩
    · exact hgrows.fits (h.fits a ha)
  · rcases List.mem_append.1 hp with hp | hp
    · exact ⟨(h.invoked p hp).1, hgrows.holds (h.invoked p hp).2⟩
    · rw [List.mem_singleton.1 hp]
      exact ⟨hlt, v, hv, hval⟩
  · rw [List.map_append, List.nodup_append]
    refine ⟨h.nodup, by simp, ?_⟩
    intro j hj k hk heq
    rw [List.map_singleton, List.mem_singleton] at hk
    rw [heq, hk] at hj
    exact hnew hj
  · rw [List.map_append, List.mem_append, List.map_singleton, List.mem_singleton] at hj
    rcases hj with hj | rfl
    · rcases h.called j hj with hready | ⟨value, hmem⟩
      · exact Or.inl hready
      · rcases replaces.eq_or_mem hmem with heq | hmem
        · cases heq
        · exact Or.inr ⟨value, hmem⟩
    · exact Or.inr ⟨_, replaces.mem_new List.mem_cons_self⟩

end

variable (build) in
/-- An activity does what one of the lemmas above is about, and never fails. -/
theorem sound_act (h : Sound g s) {activity : Activity α} (hmem : activity ∈ s.activities) :
    ∃ s' new, s.run build activity = .ok (s', new) ∧
      ∀ activities, Replaces activity new s.activities activities →
        Sound g { s' with activities } := by
  cases activity with
  | executeNext i =>
    have hready : (s.states i).isReady = true := h.fits _ hmem
    refine ⟨_, _, Except.bind_ok (FutureState.next_eq hready) _, fun activities replaces => ?_⟩
    exact sound_executeNext h rfl replaces
  | continueWith i cont =>
    obtain ⟨hready, hfn⟩ := h.fits _ hmem
    refine ⟨_, _, rfl, fun activities replaces => ?_⟩
    by_cases hcanceled : s.canceled = true
    · rw [if_pos hcanceled] at replaces
      exact sound_goOn h replaces rfl rfl hcanceled (by simp)
    · -- a state that was set while nothing was canceled has a value
      rw [if_neg hcanceled] at replaces
      refine sound_goOn h replaces rfl rfl ⟨?_, hfn⟩ (by simp)
      cases hvalue : (s.states i).value with
      | empty => simp [FutureState.isReady, hvalue] at hready
      | canceled => exact absurd (h.canceled i hvalue) hcanceled
      | value a => exact ⟨a, rfl⟩
  | cancelNext i =>
    have hcanceled : s.canceled = true := h.fits _ hmem
    have hempty := (h.at_stage hmem rfl).2.2
    refine ⟨_, _, Except.bind_ok (FutureState.setCanceled_eq hempty) _, fun activities replaces => ?_⟩
    exact sound_set h rfl replaces (fun a ha => by cases ha) (fun _ => hcanceled) (by simp)
  | extract i cont =>
    obtain ⟨⟨a, ha⟩, hfn⟩ := h.fits _ hmem
    have hextract : (s.states i).extractValue = .ok a := by rw [FutureState.extractValue, ha]
    refine ⟨_, _, Except.bind_ok hextract _, fun activities replaces => ?_⟩
    exact sound_goOn h replaces rfl rfl ⟨h.values i a ha, hfn⟩ (by simp)
  | job i cont val =>
    obtain ⟨hholds, hfn⟩ := h.fits _ hmem
    refine ⟨_, _, rfl, fun activities replaces => ?_⟩
    by_cases hcanceled : s.canceled = true
    · rw [if_pos hcanceled] at replaces
      exact sound_goOn h replaces rfl rfl hcanceled (by simp)
    · rw [if_neg hcanceled] at replaces
      exact sound_goOn h replaces rfl rfl ⟨hholds, hfn⟩ (by simp)
  | invoke i cont val =>
    exact ⟨_, _, rfl, fun activities replaces => sound_invoke h replaces⟩
  | setValue i value =>
    obtain ⟨hholds, hran⟩ := h.fits _ hmem
    have hempty := (h.at_stage hmem rfl).2.2
    refine ⟨_, _, Except.bind_ok (FutureState.setValue_eq hempty value) _, fun activities replaces => ?_⟩
    refine sound_set h rfl replaces (fun a ha => ?_) (fun hc => by cases hc) (by simp)
    cases ha
    exact ⟨hholds, hran⟩

theorem sound_step (h : Sound g s) (hs : Step build g s s') : Sound g s' := by
  cases hs with
  | resolve v unresolved state set =>
    obtain rfl := FutureState.of_setValue set
    exact sound_resolve h v unresolved
  | attach valid cont state chained => exact sound_attach h chained
  | reset =>
    refine h.of_value_eq (fun _ => rfl) rfl rfl (fun _ => rfl) le_rfl h.once h.stored h.taken
      (fun a ha => Or.inl ha) (fun _ _ hmem => hmem)
  | act s₁ activity new activities replaces ran =>
    obtain ⟨s₂, new', hran, hsound⟩ := sound_act build h replaces.mem
    cases hran.symm.trans ran
    exact hsound activities replaces

theorem reached_sound (h : Reached build g s) : Sound g s := by
  refine Reachable.invariant (I := Sound g) ?_ (fun _ _ => sound_step) h
  intro s hs
  rw [hs]
  exact sound_init

/-! ## After the last future was reset -/

/-- What one step of an activity does about cancellation and calls: a function is called
    only by a job that was begun, and a job is begun only if nothing was canceled. -/
theorem run_invoked {s' : FutureChain α} {activity : Activity α} {new : List (Activity α)}
    (ran : s.run build activity = .ok (s', new)) : s'.canceled = s.canceled ∧
      (∀ i cont val, .invoke i cont val ∈ new → s.canceled = false) ∧
      ∀ p ∈ s'.invoked, p ∈ s.invoked ∨ ∃ cont, activity = .invoke p.1 cont p.2 := by
  cases activity with
  | executeNext i =>
    obtain ⟨⟨cont, state⟩, -, ran⟩ := Except.bind_eq_ok.1 ran
    cases ran
    exact ⟨rfl, by simp, fun p hp => Or.inl hp⟩
  | continueWith i cont =>
    cases ran
    refine ⟨rfl, fun j c val hmem => ?_, fun p hp => Or.inl hp⟩
    split at hmem <;> simp at hmem
  | cancelNext i =>
    obtain ⟨state, -, ran⟩ := Except.bind_eq_ok.1 ran
    cases ran
    exact ⟨rfl, by simp, fun p hp => Or.inl hp⟩
  | extract i cont =>
    obtain ⟨val, -, ran⟩ := Except.bind_eq_ok.1 ran
    cases ran
    exact ⟨rfl, by simp, fun p hp => Or.inl hp⟩
  | job i cont val =>
    cases ran
    refine ⟨rfl, fun j c a hmem => ?_, fun p hp => Or.inl hp⟩
    split at hmem
    · simp at hmem
    · next hcanceled => simpa using hcanceled
  | invoke i cont val =>
    cases ran
    refine ⟨rfl, by simp, fun p hp => ?_⟩
    rcases List.mem_append.1 hp with hp | hp
    · exact Or.inl hp
    · rw [List.mem_singleton.1 hp]
      exact Or.inr ⟨cont, rfl⟩
  | setValue i value =>
    obtain ⟨state, -, ran⟩ := Except.bind_eq_ok.1 ran
    cases ran
    exact ⟨rfl, by simp, fun p hp => Or.inl hp⟩

/-- What runs from a canceled chain call: nothing but the functions of jobs that were begun. -/
structure OnlyBegun (s t : FutureChain α) : Prop where
  canceled : t.canceled = true
  begun : ∀ i cont val, .invoke i cont val ∈ t.activities → .invoke i cont val ∈ s.activities
  invoked : ∀ p ∈ t.invoked, p ∈ s.invoked ∨ ∃ cont, .invoke p.1 cont p.2 ∈ s.activities

theorem onlyBegun_step (hs : Step build g s s') (hcanceled : s.canceled = true) : OnlyBegun s s' := by
  cases hs with
  | resolve v unresolved state set =>
    exact ⟨hcanceled, by simp, fun p hp => Or.inl hp⟩
  | attach valid => simp [hcanceled] at valid
  | reset => exact ⟨rfl, fun _ _ _ => id, fun p hp => Or.inl hp⟩
  | act s₁ activity new activities replaces ran =>
    obtain ⟨hsame, hbegun, hinvoked⟩ := run_invoked ran
    refine ⟨hsame.trans hcanceled, fun i cont val hmem => ?_, fun p hp => ?_⟩
    · rcases replaces.mem_or hmem with hmem | hmem
      · simp [hcanceled] at hbegun
        exact absurd hmem (hbegun i cont val)
      · exact hmem
    · rcases hinvoked p hp with hp | ⟨cont, rfl⟩
      · exact Or.inl hp
      · exact Or.inr ⟨cont, replaces.mem⟩

theorem onlyBegun_run {t : FutureChain α} (run : Relation.ReflTransGen (Step build g) s t)
    (hcanceled : s.canceled = true) : OnlyBegun s t := by
  induction run with
  | refl => exact ⟨hcanceled, fun _ _ _ => id, fun p hp => Or.inl hp⟩
  | tail _ hs ih =>
    have hstep := onlyBegun_step hs ih.canceled
    refine ⟨hstep.canceled, fun i cont val hmem => ih.begun i cont val (hstep.begun i cont val hmem),
      fun p hp => ?_⟩
    rcases hstep.invoked p hp with hp | ⟨cont, hmem⟩
    · exact ih.invoked p hp
    · exact Or.inr ⟨cont, ih.begun _ _ _ hmem⟩

/-! ## Nothing is left to do -/

/-- The promise is resolved, every call has returned, and no job is pending. -/
structure Quiescent (s : FutureChain α) : Prop where
  resolved : s.resolved.isSome = true
  idle : s.activities = []

theorem Quiescent.isReady (hquiet : s.Quiescent) (h : Sound g s) :
    ∀ i, i ≤ s.length → (s.states i).isReady = true
  | 0, _ => h.promise.trans hquiet.resolved
  | i + 1, hi => by
    have hready := hquiet.isReady h i (Nat.le_of_succ_le hi)
    have hnone : (s.states i).cont = none := by
      by_contra hstored
      have hmem := h.taken i hready hstored
      rw [hquiet.idle] at hmem
      exact absurd hmem List.not_mem_nil
    have honce := h.once i
    rw [atStage, hquiet.idle, hnone, if_pos (Nat.lt_of_succ_le hi)] at honce
    simpa using honce

theorem Quiescent.value (hquiet : s.Quiescent) (h : Sound g s) (hcanceled : s.canceled = false)
    {i : Nat} (hi : i ≤ s.length) : ∃ a, (s.states i).value = .value a := by
  have hready := hquiet.isReady h i hi
  cases hvalue : (s.states i).value with
  | empty => simp [FutureState.isReady, hvalue] at hready
  | canceled => simp [h.canceled i hvalue] at hcanceled
  | value a => exact ⟨a, rfl⟩

/-- In every run, for any number of continuations: no function is called twice, and each
    only with what the functions before it make of the value the promise was resolved with.
    No activity fails an assertion, and `continueWith` extracts only from a state with a
    value. After the last future was reset only functions of jobs that were begun before are
    still called. When nothing is left to do and nothing was canceled, all functions were
    called, and the last future holds what they make of the value. -/
theorem future_chain (build : Build) (g : ∀ i, α i → α (i + 1)) {s : FutureChain α}
    (h : Reached build g s) :
    (s.invoked.map Sigma.fst).Nodup ∧
    (∀ p ∈ s.invoked, p.1 < s.length ∧ ∃ v, s.resolved = some v ∧ p.2 = compose g p.1 v) ∧
    (∀ activity ∈ s.activities, ∃ s' new, s.run build activity = .ok (s', new)) ∧
    (∀ i cont, .extract i cont ∈ s.activities → ∃ a, (s.states i).extractValue = .ok a) ∧
    (∀ t, s.canceled = true → Relation.ReflTransGen (Step build g) s t →
      ∀ p ∈ t.invoked, p ∈ s.invoked ∨ ∃ cont, .invoke p.1 cont p.2 ∈ s.activities) ∧
    (s.Quiescent → s.canceled = false →
      (∀ i < s.length, i ∈ s.invoked.map Sigma.fst) ∧
      ∃ v, s.resolved = some v ∧ (s.states s.length).value = .value (compose g s.length v)) := by
  have hsound := reached_sound h
  refine ⟨hsound.nodup, hsound.invoked, fun activity hmem => ?_, fun i cont hmem => ?_,
    fun t hcanceled run => (onlyBegun_run run hcanceled).invoked, fun hquiet hcanceled => ⟨fun i hi => ?_, ?_⟩⟩
  · obtain ⟨s', new, hran, -⟩ := sound_act build hsound hmem
    exact ⟨s', new, hran⟩
  · obtain ⟨⟨a, ha⟩, -⟩ := hsound.fits _ hmem
    exact ⟨a, by rw [FutureState.extractValue, ha]⟩
  · obtain ⟨a, ha⟩ := hquiet.value hsound hcanceled hi
    exact hsound.ran i a ha
  · obtain ⟨a, ha⟩ := hquiet.value hsound hcanceled le_rfl
    obtain ⟨v, hv, rfl⟩ := hsound.values s.length a ha
    exact ⟨v, hv, ha⟩

/-- A function is attached to the future of a number, the promise is resolved, and another
    function is attached while the first one's job waits. Both jobs are run. -/
theorem future_chain_two : ∃ s : FutureChain fun _ => Nat, s.length = 2 ∧
    s.invoked = [⟨0, 5⟩, ⟨1, 50⟩] ∧ (s.invoked.map Sigma.fst).Nodup ∧
    (s.states s.length).value = .value 501 := by
  have h₀ : Reached .debug (fun i n => 10 * n + i) ({} : FutureChain fun _ => Nat) := .init rfl
  have h₁ := h₀.step (.attach _ rfl _ _ rfl)
  have h₂ := h₁.step (.resolve _ 5 rfl _ rfl)
  have h₃ := h₂.step (.act _ _ _ _ _ ⟨[], [], rfl, rfl⟩ rfl)
  have h₄ := h₃.step (.act _ _ _ _ _ ⟨[], [], rfl, rfl⟩ rfl)
  have h₅ := h₄.step (.act _ _ _ _ _ ⟨[], [], rfl, rfl⟩ rfl)
  -- the first function is about to run
  have h₆ := h₅.step (.attach _ rfl _ _ rfl)
  have h₇ := h₆.step (.act _ _ _ _ _ ⟨[], [], rfl, rfl⟩ rfl)
  have h₈ := h₇.step (.act _ _ _ _ _ ⟨[], [], rfl, rfl⟩ rfl)
  have h₉ := h₈.step (.act _ _ _ _ _ ⟨[], [], rfl, rfl⟩ rfl)
  have h₁₀ := h₉.step (.act _ _ _ _ _ ⟨[], [], rfl, rfl⟩ rfl)
  have h₁₁ := h₁₀.step (.act _ _ _ _ _ ⟨[], [], rfl, rfl⟩ rfl)
  have h₁₂ := h₁₁.step (.act _ _ _ _ _ ⟨[], [], rfl, rfl⟩ rfl)
  have h₁₃ := h₁₂.step (.act _ _ _ _ _ ⟨[], [], rfl, rfl⟩ rfl)
  have h₁₄ := h₁₃.step (.act _ _ _ _ _ ⟨[], [], rfl, rfl⟩ rfl)
  have h₁₅ := h₁₄.step (.act _ _ _ _ _ ⟨[], [], rfl, rfl⟩ rfl)
  have h₁₆ := h₁₅.step (.act _ _ _ _ _ ⟨[], [], rfl, rfl⟩ rfl)
  obtain ⟨hnodup, -, -, -, -, hquiet⟩ := future_chain .debug (fun i n => 10 * n + i) h₁₆
  obtain ⟨-, v, hv, hvalue⟩ := hquiet ⟨rfl, rfl⟩ rfl
  cases hv
  exact ⟨_, rfl, rfl, hnodup, hvalue⟩

end FutureChain

end HotelPms

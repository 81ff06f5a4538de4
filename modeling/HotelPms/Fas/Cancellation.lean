import HotelPms.Lib.Pool
import HotelPms.Lib.Run

/- The state that a `CancellationSource` shares with its tokens.

   Threads call `cancel` and `subscribe` in any order and at the same time. The flag is
   exchanged before the mutex is locked, so a subscription can come between a `cancel` that
   has set the flag and its turn to run the callbacks. The section of a call that has locked
   the mutex is the mutex's owner; it runs step by step, and the flag may change meanwhile.

   `Sound` is the invariant of all runs: each callback that was subscribed is in one place,
   and one `cancel` runs what is stored. `callbacks_run_once` says what follows. -/
namespace HotelPms
open Lib

/-- What a call does before it locks `_callbacksMutex`. -/
inductive CancellationCall (κ : Type) where
  /-- `subscribe` has made its callback, and has not locked the mutex -/
  | subscribe (callback : κ)
  /-- `cancel`, before `_canceled.exchange(true)` -/
  | exchange
  /-- `cancel` has found the flag clear, and has not locked the mutex -/
  | drain

/-- What the call that holds `_callbacksMutex` does next. -/
inductive LockedSection (κ : Type) where
  /-- `subscribe`, before `_canceled.load()` -/
  | load (callback : κ)
  /-- `subscribe` has found the flag set; before `(*callback)()` -/
  | call (callback : κ)
  /-- `subscribe` has found the flag clear; before `push_back` -/
  | push (callback : κ)
  /-- the loop of `cancel`, with the callbacks that are left -/
  | loop (rest : List κ)
  /-- The destructor of the lock is all that is left. -/
  | unlock

/-- `κ` are the callback objects: `make_unique` makes one in each call of `subscribe`. -/
structure CancellationTokenState (κ : Type) where
  canceled : Bool := false
  /-- the mutex, with what its owner does next -/
  callbacksMutex : Option (LockedSection κ) := none
  callbacks : List κ := []
  /-- the calls that have not locked the mutex and have not returned -/
  calls : List (CancellationCall κ) := []
  /-- history: the callbacks of the calls of `subscribe` -/
  subscribed : List κ := []
  /-- history: the number of calls of `cancel` -/
  cancels : Nat := 0
  /-- history: the callbacks whose function was handed to the executor -/
  spawned : List κ := []

namespace CancellationTokenState

variable {κ : Type}

/-- `(*callback)()` -/
def spawn (s : CancellationTokenState κ) (callback : κ) : CancellationTokenState κ :=
  { s with spawned := s.spawned ++ [callback] }

/-- `_canceled.exchange(true)`: only the call that finds the flag clear goes on. -/
def exchange (s : CancellationTokenState κ) : CancellationTokenState κ × List (CancellationCall κ) :=
  ({ s with canceled := true }, if s.canceled then [] else [.drain])

/-- The section of a call that waits for the mutex. -/
def enter (s : CancellationTokenState κ) : CancellationCall κ → Option (LockedSection κ)
  | .subscribe callback => some (.load callback)
  | .exchange => none
  | .drain => some (.loop s.callbacks)

/-- One step of the mutex's owner, and what it goes on as; `none` has unlocked the mutex. -/
def run (s : CancellationTokenState κ) :
    LockedSection κ → CancellationTokenState κ × Option (LockedSection κ)
  | .load callback => (s, some (if s.canceled then .call callback else .push callback))
  | .call callback => (s.spawn callback, some .unlock)
  | .push callback => ({ s with callbacks := s.callbacks ++ [callback] }, some .unlock)
  | .loop (callback :: rest) => (s.spawn callback, some (.loop rest))
  | .loop [] => ({ s with callbacks := [] }, some .unlock)
  | .unlock => (s, none)

/-- One atomic step of one thread. -/
inductive Step : CancellationTokenState κ → CancellationTokenState κ → Prop where
  | subscribe (s : CancellationTokenState κ) (callback : κ) (made : callback ∉ s.subscribed) :
    Step s { s with
      calls := s.calls ++ [.subscribe callback], subscribed := s.subscribed ++ [callback] }
  | cancel (s : CancellationTokenState κ) :
    Step s { s with calls := s.calls ++ [.exchange], cancels := s.cancels + 1 }
  | exchange (s : CancellationTokenState κ) (calls : List (CancellationCall κ))
      (replaces : Replaces .exchange s.exchange.2 s.calls calls) :
    Step s { s.exchange.1 with calls }
  | lock (s : CancellationTokenState κ) (free : s.callbacksMutex = none)
      (call : CancellationCall κ) (calls : List (CancellationCall κ))
      (replaces : Replaces call [] s.calls calls)
      (next : LockedSection κ) (enters : s.enter call = some next) :
    Step s { s with callbacksMutex := some next, calls }
  | locked (s : CancellationTokenState κ) (next : LockedSection κ)
      (owner : s.callbacksMutex = some next) :
    Step s { (s.run next).1 with callbacksMutex := (s.run next).2 }

/-- The states that threads can bring a new state to. -/
def Reached (s : CancellationTokenState κ) : Prop := Reachable (fun s => s = {}) Step s

/-- All calls have returned. -/
structure Returned (s : CancellationTokenState κ) : Prop where
  calls : s.calls = []
  callbacksMutex : s.callbacksMutex = none

end CancellationTokenState

/-- The callback that a call of `subscribe` has made and not yet handed on. -/
def CancellationCall.carried {κ : Type} : CancellationCall κ → List κ
  | .subscribe callback => [callback]
  | .exchange => []
  | .drain => []

def CancellationCall.isExchange {κ : Type} : CancellationCall κ → Bool
  | .exchange => true
  | .subscribe _ => false
  | .drain => false

/-- The callbacks that the mutex's owner will spawn or store. -/
def LockedSection.carried {κ : Type} : LockedSection κ → List κ
  | .load callback => [callback]
  | .call callback => [callback]
  | .push callback => [callback]
  | .loop rest => rest
  | .unlock => []

namespace CancellationTokenState

variable {κ : Type}

/-- The callbacks that nobody has taken: those a loop goes over are the loop's. -/
def stored (s : CancellationTokenState κ) : List κ :=
  match s.callbacksMutex with
  | some (.loop _) => []
  | _ => s.callbacks

/-- What the mutex's owner carries. -/
def held (s : CancellationTokenState κ) : List κ :=
  (s.callbacksMutex.map LockedSection.carried).getD []

/-- Nothing has been spawned, and no call is about to. -/
structure Before (s : CancellationTokenState κ) : Prop where
  spawned : s.spawned = []
  calls : .drain ∉ s.calls
  cancels : s.cancels = s.calls.countP CancellationCall.isExchange
  call : ∀ callback, s.callbacksMutex ≠ some (.call callback)
  loop : ∀ rest, s.callbacksMutex ≠ some (.loop rest)

/-- The stored callbacks are run by a `cancel` on its way, or there are none any more. -/
inductive Drained (s : CancellationTokenState κ) : Prop where
  | waits (h : .drain ∈ s.calls)
  | loops (rest : List κ) (h : s.callbacksMutex = some (.loop rest))
  | done (h : s.callbacks = []) (push : ∀ callback, s.callbacksMutex ≠ some (.push callback))

structure Sound [DecidableEq κ] (s : CancellationTokenState κ) : Prop where
  /-- Each subscribed callback is with its call, with the mutex's owner, stored, or spawned. -/
  once : ∀ callback, s.subscribed.count callback = s.spawned.count callback +
    (s.calls.flatMap CancellationCall.carried).count callback + s.held.count callback +
      s.stored.count callback
  nodup : s.subscribed.Nodup
  before : s.canceled = false → s.Before
  called : s.canceled = true → 0 < s.cancels
  drained : s.canceled = true → s.Drained

variable {s s' : CancellationTokenState κ}

theorem Drained.mono (h : s.Drained) (hcalls : .drain ∈ s.calls → .drain ∈ s'.calls)
    (hmutex : s'.callbacksMutex = s.callbacksMutex) (hcallbacks : s'.callbacks = s.callbacks) :
    s'.Drained := by
  cases h with
  | waits hmem => exact .waits (hcalls hmem)
  | loops rest hloop => exact .loops rest (hmutex.trans hloop)
  | done hnone hpush => exact .done (hcallbacks.trans hnone) fun callback => hmutex ▸ hpush callback

theorem Drained.of_owner (h : s.Drained) (hcalls : .drain ∈ s.calls → .drain ∈ s'.calls)
    (howner : ∀ rest, s.callbacksMutex ≠ some (.loop rest))
    (hpush : ∀ callback, s'.callbacksMutex ≠ some (.push callback))
    (hcallbacks : s'.callbacks = s.callbacks) : s'.Drained := by
  cases h with
  | waits hmem => exact .waits (hcalls hmem)
  | loops rest hloop => exact absurd hloop (howner rest)
  | done hnone _ => exact .done (hcallbacks.trans hnone) hpush

variable [DecidableEq κ]

theorem sound_init : Sound ({} : CancellationTokenState κ) :=
  ⟨fun _ => rfl, List.nodup_nil,
    fun _ => ⟨rfl, List.not_mem_nil, rfl, (fun _ h => by cases h), (fun _ h => by cases h)⟩,
    (fun h => by cases h), (fun h => by cases h)⟩

/-! ## What each step keeps -/

theorem sound_subscribe (h : Sound s) (callback : κ) (made : callback ∉ s.subscribed) :
    Sound { s with
      calls := s.calls ++ [.subscribe callback], subscribed := s.subscribed ++ [callback] } := by
  refine ⟨fun x => ?_, ?_, fun hclear => ?_, h.called, fun hset => ?_⟩
  · have honce := h.once x
    simp only [held, stored, List.flatMap_append, List.flatMap_singleton, CancellationCall.carried,
      List.count_append] at honce ⊢
    omega
  · rw [List.nodup_append]
    refine ⟨h.nodup, List.nodup_singleton _, ?_⟩
    intro a ha b hb hab
    rw [List.mem_singleton.1 hb] at hab
    exact made (hab ▸ ha)
  · obtain ⟨spawned, calls, cancels, call, loop⟩ := h.before hclear
    refine ⟨spawned, by simpa using calls, ?_, call, loop⟩
    rw [List.countP_append]
    exact cancels
  · exact (h.drained hset).mono (List.mem_append_left _) rfl rfl

theorem sound_cancel (h : Sound s) :
    Sound { s with calls := s.calls ++ [.exchange], cancels := s.cancels + 1 } := by
  refine ⟨fun x => ?_, h.nodup, fun hclear => ?_, fun _ => Nat.succ_pos _, fun hset => ?_⟩
  · have honce := h.once x
    simp only [held, stored, List.flatMap_append, List.flatMap_singleton, CancellationCall.carried,
      List.append_nil] at honce ⊢
    exact honce
  · obtain ⟨spawned, calls, cancels, call, loop⟩ := h.before hclear
    refine ⟨spawned, by simpa using calls, ?_, call, loop⟩
    rw [List.countP_append]
    exact congrArg (· + 1) cancels
  · exact (h.drained hset).mono (List.mem_append_left _) rfl rfl

/-- The first `cancel` takes over what is stored; the others find the flag set. -/
theorem sound_exchange (h : Sound s) {calls : List (CancellationCall κ)}
    (replaces : Replaces .exchange s.exchange.2 s.calls calls) :
    Sound { s.exchange.1 with calls } := by
  refine ⟨fun x => ?_, h.nodup, (fun hclear => by cases hclear), fun _ => ?_, fun _ => ?_⟩
  · have honce := h.once x
    have hcount := replaces.count_flatMap CancellationCall.carried x
    have hnew : s.exchange.2.flatMap CancellationCall.carried = [] := by
      simp only [exchange]
      split <;> rfl
    rw [hnew] at hcount
    simp only [held, stored, exchange, CancellationCall.carried, List.count_nil, add_zero]
      at honce hcount ⊢
    omega
  · cases hflag : s.canceled with
    | true => exact h.called hflag
    | false =>
      show 0 < s.cancels
      rw [(h.before hflag).cancels]
      exact List.countP_pos_iff.2 ⟨_, replaces.mem, rfl⟩
  · cases hflag : s.canceled with
    | false =>
      refine .waits (replaces.mem_new ?_)
      simp [exchange, hflag]
    | true =>
      refine (h.drained hflag).mono (fun hmem => ?_) rfl rfl
      exact (replaces.eq_or_mem hmem).resolve_left fun heq => by cases heq

theorem sound_lock (h : Sound s) (free : s.callbacksMutex = none) {call : CancellationCall κ}
    {calls : List (CancellationCall κ)} (replaces : Replaces call [] s.calls calls)
    {next : LockedSection κ} (enters : s.enter call = some next) :
    Sound { s with callbacksMutex := some next, calls } := by
  have hcalls : ∀ {c}, c ∈ calls → c ∈ s.calls := by
    intro c hc
    rcases replaces.mem_or hc with hc | hc
    · cases hc
    · exact hc
  cases call with
  | exchange => cases enters
  | subscribe callback =>
    cases enters
    refine ⟨fun x => ?_, h.nodup, fun hclear => ?_, h.called, fun hset => ?_⟩
    · have honce := h.once x
      have hcount := replaces.count_flatMap CancellationCall.carried x
      simp only [held, stored, free, CancellationCall.carried, LockedSection.carried, List.flatMap_nil,
        Option.map_none, Option.map_some, Option.getD_none, Option.getD_some, List.count_nil]
        at honce hcount ⊢
      omega
    · obtain ⟨spawned, hdrain, cancels, -, -⟩ := h.before hclear
      refine ⟨spawned, fun hmem => hdrain (hcalls hmem), ?_, (fun _ h => by cases h), (fun _ h => by cases h)⟩
      exact cancels.trans (replaces.countP_eq rfl).symm
    · refine (h.drained hset).of_owner (fun hmem => ?_) (by simp [free]) (by simp) rfl
      exact (replaces.eq_or_mem hmem).resolve_left fun heq => by cases heq
  | drain =>
    cases enters
    refine ⟨fun x => ?_, h.nodup, fun hclear => ?_, h.called, fun _ => .loops _ rfl⟩
    · have honce := h.once x
      have hcount := replaces.count_flatMap CancellationCall.carried x
      simp only [held, stored, free, CancellationCall.carried, LockedSection.carried, List.flatMap_nil,
        Option.map_none, Option.map_some, Option.getD_none, Option.getD_some, List.count_nil]
        at honce hcount ⊢
      omega
    · exact absurd replaces.mem (h.before hclear).calls

/-- The mutex's owner hands on what it carries: to the executor, or to the list. -/
theorem sound_locked (h : Sound s) {next : LockedSection κ} (owner : s.callbacksMutex = some next) :
    Sound { (s.run next).1 with callbacksMutex := (s.run next).2 } := by
  cases next with
  | load callback =>
    refine ⟨fun x => ?_, h.nodup, fun hclear => ?_, h.called, fun hset => ?_⟩
    · have honce := h.once x
      cases hflag : s.canceled <;>
        simpa [run, held, stored, owner, LockedSection.carried, hflag] using honce
    · obtain ⟨spawned, calls, cancels, -, -⟩ := h.before hclear
      have hflag : s.canceled = false := hclear
      refine ⟨spawned, calls, cancels, ?_, ?_⟩ <;> simp [run, hflag]
    · have hflag : s.canceled = true := hset
      exact (h.drained hset).of_owner id (by simp [owner]) (by simp [run, hflag]) rfl
  | call callback =>
    refine ⟨fun x => ?_, h.nodup, fun hclear => ?_, h.called, fun hset => ?_⟩
    · have honce := h.once x
      simp only [run, spawn, held, stored, owner, LockedSection.carried, Option.map_some,
        Option.getD_some, List.count_append, List.count_nil] at honce ⊢
      omega
    · exact absurd owner ((h.before hclear).call callback)
    · exact (h.drained hset).of_owner id (by simp [owner]) (by simp [run]) rfl
  | push callback =>
    refine ⟨fun x => ?_, h.nodup, fun hclear => ?_, h.called, fun hset => ?_⟩
    · have honce := h.once x
      simp only [run, held, stored, owner, LockedSection.carried, Option.map_some, Option.getD_some,
        List.count_append, List.count_nil] at honce ⊢
      omega
    · obtain ⟨spawned, calls, cancels, -, -⟩ := h.before hclear
      exact ⟨spawned, calls, cancels, (fun _ h => by cases h), (fun _ h => by cases h)⟩
    · -- the flag was set after the load; the `cancel` that set it is still on its way
      rcases h.drained hset with hmem | ⟨rest, hloop⟩ | ⟨-, hpush⟩
      · exact .waits hmem
      · rw [owner] at hloop
        cases hloop
      · exact absurd owner (hpush callback)
  | loop rest =>
    have hset : s.canceled = true := by
      cases hflag : s.canceled with
      | true => rfl
      | false => exact absurd owner ((h.before hflag).loop rest)
    cases rest with
    | nil =>
      refine ⟨fun x => ?_, h.nodup, fun hclear => ?_, h.called, fun _ => ?_⟩
      · have honce := h.once x
        simp only [run, held, stored, owner, LockedSection.carried, Option.map_some, Option.getD_some,
          List.count_nil] at honce ⊢
        omega
      · exact absurd (hset.symm.trans hclear) (by simp)
      · exact .done rfl fun _ h => by cases h
    | cons callback rest =>
      refine ⟨fun x => ?_, h.nodup, fun hclear => ?_, h.called, fun _ => .loops rest rfl⟩
      · have honce := h.once x
        simp only [run, spawn, held, stored, owner, LockedSection.carried, Option.map_some,
          Option.getD_some, List.count_append, List.count_cons, List.count_nil] at honce ⊢
        omega
      · exact absurd (hset.symm.trans hclear) (by simp)
  | unlock =>
    refine ⟨fun x => ?_, h.nodup, fun hclear => ?_, h.called, fun hset => ?_⟩
    · have honce := h.once x
      simp only [run, held, stored, owner, LockedSection.carried, Option.map_some, Option.getD_some,
        Option.map_none, Option.getD_none, List.count_nil] at honce ⊢
      exact honce
    · obtain ⟨spawned, calls, cancels, -, -⟩ := h.before hclear
      exact ⟨spawned, calls, cancels, (fun _ h => by cases h), (fun _ h => by cases h)⟩
    · exact (h.drained hset).of_owner id (by simp [owner]) (by simp [run]) rfl

theorem sound_step (h : Sound s) (hs : Step s s') : Sound s' := by
  cases hs with
  | subscribe callback made => exact sound_subscribe h callback made
  | cancel => exact sound_cancel h
  | exchange calls replaces => exact sound_exchange h replaces
  | lock free call calls replaces next enters => exact sound_lock h free replaces enters
  | locked next owner => exact sound_locked h owner

theorem reached_sound (h : Reached s) : Sound s := by
  refine Reachable.invariant (I := Sound) ?_ (fun _ _ => sound_step) h
  intro s hs
  rw [hs]
  exact sound_init

theorem Returned.count_spawned (hreturned : s.Returned) (h : Sound s) (hcancels : 0 < s.cancels)
    (callback : κ) : s.spawned.count callback = s.subscribed.count callback := by
  have hset : s.canceled = true := by
    cases hflag : s.canceled with
    | true => rfl
    | false =>
      have hnone := (h.before hflag).cancels
      rw [hreturned.calls, List.countP_nil] at hnone
      omega
  have hstored : s.callbacks = [] := by
    rcases h.drained hset with hmem | ⟨rest, hloop⟩ | ⟨hnone, -⟩
    · rw [hreturned.calls] at hmem
      cases hmem
    · rw [hreturned.callbacksMutex] at hloop
      cases hloop
    · exact hnone
  have honce := h.once callback
  simp only [held, stored, hreturned.calls, hreturned.callbacksMutex, hstored, List.flatMap_nil,
    Option.map_none, Option.getD_none, List.count_nil] at honce
  omega

/-- In every run of any number of calls: no callback is spawned twice, none that was not
    subscribed, and none before `cancel` was called. When a call of `cancel` was made and
    all calls have returned, each callback that was subscribed was spawned exactly once. -/
theorem callbacks_run_once (h : Reached s) :
    (∀ callback, s.spawned.count callback ≤ 1) ∧
    (∀ callback ∈ s.spawned, callback ∈ s.subscribed) ∧
    (s.cancels = 0 → s.spawned = []) ∧
    (0 < s.cancels → s.Returned → ∀ callback ∈ s.subscribed, s.spawned.count callback = 1) := by
  have hsound := reached_sound h
  have hle : ∀ callback, s.spawned.count callback ≤ s.subscribed.count callback := by
    intro callback
    have honce := hsound.once callback
    omega
  refine ⟨fun callback => ?_, fun callback hmem => ?_, fun hnone => ?_,
    fun hcancels hreturned callback hmem => ?_⟩
  · exact (hle callback).trans (List.nodup_iff_count_le_one.1 hsound.nodup callback)
  · exact List.count_pos_iff.1 (lt_of_lt_of_le (List.count_pos_iff.2 hmem) (hle callback))
  · cases hflag : s.canceled with
    | true => exact absurd (hsound.called hflag) (by omega)
    | false => exact (hsound.before hflag).spawned
  · rw [hreturned.count_spawned hsound hcancels]
    exact List.count_eq_one_of_mem hsound.nodup hmem

/-- The subscription comes between the exchange of the flag and the loop of `cancel`. -/
theorem callbacks_run_once_between : ∃ s : CancellationTokenState Nat, s.subscribed = [7] ∧
    s.cancels = 1 ∧ s.spawned.count 7 = 1 := by
  have h₀ : Reached ({} : CancellationTokenState Nat) := .init rfl
  have h₁ := h₀.step (.subscribe _ 7 List.not_mem_nil)
  have h₂ := h₁.step (.cancel _)
  have h₃ := h₂.step (.exchange _ _ ⟨[.subscribe 7], [], rfl, rfl⟩)
  have h₄ := h₃.step (.lock _ rfl _ _ ⟨[], [.drain], rfl, rfl⟩ _ rfl)
  have h₅ := h₄.step (.locked _ _ rfl)
  have h₆ := h₅.step (.locked _ _ rfl)
  have h₇ := h₆.step (.locked _ _ rfl)
  have h₈ := h₇.step (.lock _ rfl _ _ ⟨[], [], rfl, rfl⟩ _ rfl)
  have h₉ := h₈.step (.locked _ _ rfl)
  have h₁₀ := h₉.step (.locked _ _ rfl)
  obtain ⟨-, -, -, honce⟩ := callbacks_run_once h₁₀
  exact ⟨_, rfl, rfl, honce Nat.one_pos ⟨rfl, rfl⟩ 7 (List.mem_singleton.2 rfl)⟩

end CancellationTokenState

end HotelPms

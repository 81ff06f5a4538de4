import HotelPms.Lib.Pool
import HotelPms.Lib.Run
import HotelPms.Sqlite.Backend

/- `gui::ChangeIntegrator`: changes of the threads of a backend reach the main thread.

   A producer appends to the `ChangeQueue` and then signals. What the signal calls emits an
   event only if it finds `_eventScheduled` clear, and the handler of the event clears the
   flag before it takes the changes. An event that is emitted is queued for the main thread,
   as the producers run on other threads; the constructor calls the handler itself. The flag
   has no initial value.

   `Sound` is the invariant of all runs; `no_notification_lost` says what follows. -/
namespace HotelPms
open Lib

/-- What a producer does after it has appended changes. -/
inductive Producer where
  /-- before `_streamChangesAvailableSignal()` -/
  | signal
  /-- in `emitResultsAvailable`, before `_eventScheduled.exchange(true)` -/
  | exchange
  /-- It has found the flag clear; before `emit resultsAvailable()`. -/
  | emit
deriving DecidableEq

/-- What `handleAvailableResults` does next on the main thread. -/
inductive ResultsHandler where
  /-- before `_eventScheduled = false` -/
  | clear
  /-- in `applyStreamChanges`, before the changes are swapped out -/
  | take
  /-- the loop of `applyStreamChanges`, with the changes that are left -/
  | apply (rest : List DataStreamDifferential)
deriving DecidableEq

structure ChangeIntegrator where
  /-- `ChangeQueue::_changeList` -/
  changeList : List DataStreamDifferential := []
  /-- the producers that have appended changes and have not returned -/
  producers : List Producer := []
  /-- The constructor has connected to the signal of the queue. -/
  connected : Bool := false
  eventScheduled : Bool
  /-- the events that the main thread has not got yet -/
  events : Nat := 0
  handler : Option ResultsHandler := none
  /-- history: what was appended to the queue -/
  appended : List DataStreamDifferential := []
  /-- history: what the loop of `applyStreamChanges` has gone over -/
  applied : List DataStreamDifferential := []

namespace ChangeIntegrator

/-- `ChangeQueue::addChanges`: without changes there is no signal. -/
def addChanges (s : ChangeIntegrator) (list : List DataStreamDifferential) : ChangeIntegrator :=
  { s with
    changeList := SqliteBackend.addChanges s.changeList list
    producers := if list.isEmpty then s.producers else s.producers ++ [.signal] }

/-- `ChangeQueue::addStreamChange` -/
def addStreamChange (s : ChangeIntegrator) (streamId : Int) (change : DataStreamChange) :
    ChangeIntegrator :=
  { s with
    changeList := s.changeList ++ [⟨streamId, change⟩]
    producers := s.producers ++ [.signal] }

/-- One step of a producer, and what it goes on as. -/
def produce (s : ChangeIntegrator) : Producer → ChangeIntegrator × List Producer
  | .signal => (s, if s.connected then [.exchange] else [])
  | .exchange => ({ s with eventScheduled := true }, if s.eventScheduled then [] else [.emit])
  | .emit => ({ s with events := s.events + 1 }, [])

/-- One step of the handler, and what it goes on as. -/
def handle (s : ChangeIntegrator) : ResultsHandler → ChangeIntegrator × Option ResultsHandler
  | .clear => ({ s with eventScheduled := false }, some .take)
  | .take => ({ s with changeList := [] }, some (.apply s.changeList))
  | .apply (change :: rest) => ({ s with applied := s.applied ++ [change] }, some (.apply rest))
  | .apply [] => (s, none)

/-- One atomic step of one thread. -/
inductive Step : ChangeIntegrator → ChangeIntegrator → Prop where
  /-- the constructor, up to its call of `handleAvailableResults` -/
  | connect (s : ChangeIntegrator) (new : s.connected = false) :
    Step s { s with connected := true, handler := some .clear }
  | addChanges (s : ChangeIntegrator) (list : List DataStreamDifferential) :
    Step s { s.addChanges list with appended := s.appended ++ list }
  | addStreamChange (s : ChangeIntegrator) (streamId : Int) (change : DataStreamChange) :
    Step s { s.addStreamChange streamId change with appended := s.appended ++ [⟨streamId, change⟩] }
  | produce (s : ChangeIntegrator) (producer : Producer) (producers : List Producer)
      (replaces : Replaces producer (s.produce producer).2 s.producers producers) :
    Step s { (s.produce producer).1 with producers }
  /-- The event loop of the main thread takes an event. -/
  | deliver (s : ChangeIntegrator) (connected : s.connected = true) (pending : 0 < s.events)
      (idle : s.handler = none) :
    Step s { s with events := s.events - 1, handler := some .clear }
  | handle (s : ChangeIntegrator) (handler : ResultsHandler) (running : s.handler = some handler) :
    Step s { (s.handle handler).1 with handler := (s.handle handler).2 }

/-- The states that threads can bring a queue to that nobody has connected to yet. -/
def Reached (s : ChangeIntegrator) : Prop :=
  Reachable (fun s => ∃ eventScheduled, s = { eventScheduled }) Step s

/-- Nothing is left to run. -/
structure Idle (s : ChangeIntegrator) : Prop where
  events : s.events = 0
  producers : s.producers = []
  handler : s.handler = none

end ChangeIntegrator

/-- The changes that the handler has taken and not yet applied. -/
def ResultsHandler.taken : ResultsHandler → List DataStreamDifferential
  | .clear => []
  | .take => []
  | .apply rest => rest

namespace ChangeIntegrator

/-- Where a change that is in the queue was noticed. -/
inductive Noticed (s : ChangeIntegrator) : Prop where
  | signals (h : .signal ∈ s.producers)
  | exchanges (h : .exchange ∈ s.producers)
  | scheduled (h : s.eventScheduled = true)
  | clears (h : s.handler = some .clear)
  | takes (h : s.handler = some .take)

/-- Where the event is that the flag stands for. -/
inductive Scheduled (s : ChangeIntegrator) : Prop where
  | emits (h : .emit ∈ s.producers)
  | pending (h : 0 < s.events)
  | clears (h : s.handler = some .clear)

structure Sound (s : ChangeIntegrator) : Prop where
  /-- Changes are applied in the order they were appended in, and none is dropped. -/
  accounted : s.appended = s.applied ++ (s.handler.map ResultsHandler.taken).getD [] ++ s.changeList
  noticed : s.connected = true → s.changeList ≠ [] → s.Noticed
  scheduled : s.connected = true → s.eventScheduled = true → s.Scheduled
  unconnected : s.connected = false → s.handler = none

variable {s s' : ChangeIntegrator}

theorem sound_init (eventScheduled : Bool) : Sound { eventScheduled } :=
  ⟨rfl, (fun h => by cases h), (fun h => by cases h), fun _ => rfl⟩

/-! ## What each step keeps -/

theorem Noticed.mono (h : s.Noticed) (hsignal : .signal ∈ s.producers → .signal ∈ s'.producers)
    (hexchange : .exchange ∈ s.producers → .exchange ∈ s'.producers)
    (hflag : s.eventScheduled = true → s'.eventScheduled = true)
    (hclear : s.handler = some .clear → s'.handler = some .clear)
    (htake : s.handler = some .take → s'.handler = some .take) : s'.Noticed := by
  cases h with
  | signals h => exact .signals (hsignal h)
  | exchanges h => exact .exchanges (hexchange h)
  | scheduled h => exact .scheduled (hflag h)
  | clears h => exact .clears (hclear h)
  | takes h => exact .takes (htake h)

theorem Scheduled.mono (h : s.Scheduled) (hemit : .emit ∈ s.producers → .emit ∈ s'.producers)
    (hevents : s.events ≤ s'.events) (hclear : s.handler = some .clear → s'.handler = some .clear) :
    s'.Scheduled := by
  cases h with
  | emits h => exact .emits (hemit h)
  | pending h => exact .pending (lt_of_lt_of_le h hevents)
  | clears h => exact .clears (hclear h)

theorem sound_addStreamChange (h : Sound s) (streamId : Int) (change : DataStreamChange) :
    Sound { s.addStreamChange streamId change with appended := s.appended ++ [⟨streamId, change⟩] } := by
  refine ⟨?_, fun _ _ => .signals ?_, fun hconnected hflag => ?_, h.unconnected⟩
  · show s.appended ++ [⟨streamId, change⟩] =
      s.applied ++ (s.handler.map ResultsHandler.taken).getD [] ++ (s.changeList ++ [⟨streamId, change⟩])
    rw [h.accounted, List.append_assoc]
  · exact List.mem_append_right _ List.mem_cons_self
  · exact (h.scheduled hconnected hflag).mono (List.mem_append_left _) le_rfl id

theorem sound_addChanges (h : Sound s) (list : List DataStreamDifferential) :
    Sound { s.addChanges list with appended := s.appended ++ list } := by
  cases list with
  | nil =>
    rw [List.append_nil]
    exact h
  | cons change list =>
    refine ⟨?_, fun _ _ => .signals ?_, fun hconnected hflag => ?_, h.unconnected⟩
    · show s.appended ++ change :: list = s.applied ++ (s.handler.map ResultsHandler.taken).getD [] ++
        SqliteBackend.addChanges s.changeList (change :: list)
      rw [h.accounted, SqliteBackend.addChanges_eq, List.append_assoc _ s.changeList]
    · exact List.mem_append_right _ List.mem_cons_self
    · exact (h.scheduled hconnected hflag).mono (List.mem_append_left _) le_rfl id

theorem sound_produce (h : Sound s) {producer : Producer} {producers : List Producer}
    (replaces : Replaces producer (s.produce producer).2 s.producers producers) :
    Sound { (s.produce producer).1 with producers } := by
  have hkept : ∀ {p}, p ≠ producer → p ∈ s.producers → p ∈ producers := by
    intro p hne hmem
    rcases replaces.eq_or_mem hmem with heq | hmem
    · exact absurd heq hne
    · exact hmem
  cases producer with
  | signal =>
    refine ⟨h.accounted, fun hconnected _ => .exchanges ?_, fun hconnected hflag => ?_, h.unconnected⟩
    · refine replaces.mem_new ?_
      have hslot : s.connected = true := hconnected
      rw [produce, if_pos hslot]
      exact List.mem_cons_self
    · exact (h.scheduled hconnected hflag).mono (hkept (by decide)) le_rfl id
  | exchange =>
    refine ⟨h.accounted, fun _ _ => .scheduled rfl, fun hconnected _ => ?_, h.unconnected⟩
    cases hflag : s.eventScheduled with
    | false =>
      refine .emits (replaces.mem_new ?_)
      rw [produce, hflag]
      exact List.mem_cons_self
    | true => exact (h.scheduled hconnected hflag).mono (hkept (by decide)) le_rfl id
  | emit =>
    refine ⟨h.accounted, fun hconnected hqueue => ?_, fun _ _ => .pending (Nat.succ_pos _), h.unconnected⟩
    exact (h.noticed hconnected hqueue).mono (hkept (by decide)) (hkept (by decide)) id id id

/-- The handler clears the flag first, so what comes after it has taken the changes is
    noticed anew. -/
theorem sound_handle (h : Sound s) {handler : ResultsHandler} (running : s.handler = some handler) :
    Sound { (s.handle handler).1 with handler := (s.handle handler).2 } := by
  have haccounted := h.accounted
  rw [running] at haccounted
  have hunconnected : ∀ {p : Prop}, s.connected = false → p := by
    intro p hslot
    rw [h.unconnected hslot] at running
    cases running
  have hother : ∀ {stage : ResultsHandler} {p : Prop}, stage ≠ handler → s.handler = some stage → p := by
    intro stage p hne hstage
    exact absurd (Option.some.inj (hstage.symm.trans running)) hne
  cases handler with
  | clear => exact ⟨haccounted, fun _ _ => .takes rfl, (fun _ hflag => by cases hflag), hunconnected⟩
  | take =>
    refine ⟨?_, fun _ hqueue => absurd rfl hqueue, fun hconnected hflag => ?_, hunconnected⟩
    · simpa [handle, ResultsHandler.taken] using haccounted
    · exact (h.scheduled hconnected hflag).mono id le_rfl (hother (by decide))
  | apply rest =>
    cases rest with
    | nil =>
      refine ⟨haccounted, fun hconnected hqueue => ?_, fun hconnected hflag => ?_, hunconnected⟩
      · exact (h.noticed hconnected hqueue).mono id id id (hother (by simp)) (hother (by simp))
      · exact (h.scheduled hconnected hflag).mono id le_rfl (hother (by simp))
    | cons change rest =>
      refine ⟨?_, fun hconnected hqueue => ?_, fun hconnected hflag => ?_, hunconnected⟩
      · simpa [handle, ResultsHandler.taken] using haccounted
      · exact (h.noticed hconnected hqueue).mono id id id (hother (by simp)) (hother (by simp))
      · exact (h.scheduled hconnected hflag).mono id le_rfl (hother (by simp))

theorem sound_step (h : Sound s) (hs : Step s s') : Sound s' := by
  cases hs with
  | connect new =>
    have haccounted := h.accounted
    rw [h.unconnected new] at haccounted
    exact ⟨haccounted, fun _ _ => .clears rfl, fun _ _ => .clears rfl, (fun hslot => by cases hslot)⟩
  | addChanges list => exact sound_addChanges h list
  | addStreamChange streamId change => exact sound_addStreamChange h streamId change
  | produce producer producers replaces => exact sound_produce h replaces
  | deliver connected pending idle =>
    have haccounted := h.accounted
    rw [idle] at haccounted
    refine ⟨haccounted, fun _ _ => .clears rfl, fun _ _ => .clears rfl, fun hslot => ?_⟩
    exact absurd (connected.symm.trans hslot) (by decide)
  | handle handler running => exact sound_handle h running

theorem reached_sound (h : Reached s) : Sound s := by
  refine Reachable.invariant (I := Sound) ?_ (fun _ _ => sound_step) h
  rintro s ⟨eventScheduled, rfl⟩
  exact sound_init eventScheduled

/-- In every run of any number of producers, from when the integrator is connected: while
    there are changes in the queue, an event is pending, a producer is between appending
    and emitting, or the handler is before taking the changes. Where nothing is left to
    run, all changes that were appended are applied, in their order. -/
theorem no_notification_lost (h : Reached s) (hconnected : s.connected = true) :
    (s.changeList ≠ [] →
      0 < s.events ∨ s.producers ≠ [] ∨ s.handler = some .clear ∨ s.handler = some .take) ∧
    (s.Idle → s.changeList = [] ∧ s.applied = s.appended) := by
  have hsound := reached_sound h
  have hnoticed : s.changeList ≠ [] →
      0 < s.events ∨ s.producers ≠ [] ∨ s.handler = some .clear ∨ s.handler = some .take := by
    intro hqueue
    rcases hsound.noticed hconnected hqueue with hsignal | hexchange | hflag | hclear | htake
    · exact Or.inr (Or.inl (List.ne_nil_of_mem hsignal))
    · exact Or.inr (Or.inl (List.ne_nil_of_mem hexchange))
    · rcases hsound.scheduled hconnected hflag with hemit | hevents | hclear
      · exact Or.inr (Or.inl (List.ne_nil_of_mem hemit))
      · exact Or.inl hevents
      · exact Or.inr (Or.inr (Or.inl hclear))
    · exact Or.inr (Or.inr (Or.inl hclear))
    · exact Or.inr (Or.inr (Or.inr htake))
  refine ⟨hnoticed, fun ⟨hevents, hproducers, hhandler⟩ => ?_⟩
  have hempty : s.changeList = [] := by
    by_contra hqueue
    rcases hnoticed hqueue with h | h | h | h
    · omega
    · exact h hproducers
    · rw [hhandler] at h
      cases h
    · rw [hhandler] at h
      cases h
  have haccounted := hsound.accounted
  rw [hhandler, hempty, List.append_nil] at haccounted
  exact ⟨hempty, (haccounted.trans (List.append_nil _)).symm⟩

/-- The flag happens to be set at first. A change comes after it was cleared and before the
    changes are taken; the handler takes it, and is called once more for nothing. -/
theorem no_notification_lost_race : ∃ s : ChangeIntegrator, s.appended.length = 1 ∧
    s.applied = s.appended := by
  have h₀ : Reached ({ eventScheduled := true } : ChangeIntegrator) := .init ⟨true, rfl⟩
  have h₁ := h₀.step (.connect _ rfl)
  have h₂ := h₁.step (.handle _ _ rfl)
  have h₃ := h₂.step (.addStreamChange _ 1 .initialized)
  have h₄ := h₃.step (.handle _ _ rfl)
  have h₅ := h₄.step (.produce _ _ _ ⟨[], [], rfl, rfl⟩)
  have h₆ := h₅.step (.produce _ _ _ ⟨[], [], rfl, rfl⟩)
  have h₇ := h₆.step (.handle _ _ rfl)
  have h₈ := h₇.step (.handle _ _ rfl)
  have h₉ := h₈.step (.produce _ _ _ ⟨[], [], rfl, rfl⟩)
  have h₁₀ := h₉.step (.deliver _ rfl (by decide) rfl)
  have h₁₁ := h₁₀.step (.handle _ _ rfl)
  have h₁₂ := h₁₁.step (.handle _ _ rfl)
  have h₁₃ := h₁₂.step (.handle _ _ rfl)
  obtain ⟨-, hidle⟩ := no_notification_lost h₁₃ rfl
  exact ⟨_, rfl, (hidle ⟨rfl, rfl, rfl⟩).2⟩

end ChangeIntegrator

end HotelPms

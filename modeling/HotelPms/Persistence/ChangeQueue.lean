import HotelPms.Lib.Pool
import HotelPms.Lib.Run
import HotelPms.Persistence.StreamHandle

/- `persistence::ChangeQueue`: what observers receive while handles are moved about.

   The backends append changes to their queues, for streams that are connected or not any
   more, and the loops of `applyStreamChanges` hand them to the observers. All of this
   happens in any order with the operations on handles. `notify_spec` says who receives a
   change, and `disconnects` what that means for all runs. -/
namespace HotelPms
open Lib

/-- A call of an observer, with the stream that makes it. -/
structure Notification (ο : Type) where
  observer : ο
  stream : Nat
  change : DataStreamDifferential

structure ChangeQueue where
  dataStreams : List Nat := []
  changeList : List DataStreamDifferential := []
  /-- the loops of `applyStreamChanges`, each with the changes that are left -/
  loops : List (List DataStreamDifferential) := []

structure StreamWorld (α β ο : Type) where
  objects : StreamObjects α β ο := {}
  queues : β → ChangeQueue := fun _ => {}
  /-- history: the calls of observers -/
  received : List (Notification ο) := []

namespace StreamWorld

variable {α β ο : Type}

/-- `std::find_if` in the loop of `applyStreamChanges` -/
def findStream (w : StreamWorld α β ο) (backend : β) (streamId : Int) : Option Nat :=
  (w.queues backend).dataStreams.find? fun stream =>
    (w.objects.streams[stream]?).any (·.streamId == streamId)

/-- The call that one turn of the loop makes: none without an observer. -/
def notify (w : StreamWorld α β ο) (backend : β) (change : DataStreamDifferential) :
    Option (Notification ο) := do
  let stream ← w.findStream backend change.streamId
  let observed ← w.objects.streams[stream]?
  let observer ← observed.observer
  return { observer, stream, change }

structure Sound (w : StreamWorld α β ο) : Prop where
  objects : w.objects.Sound
  /-- The streams of a queue are those of its backend. -/
  queues : ∀ b, ∀ k ∈ (w.queues b).dataStreams, ∃ stream, w.objects.streams[k]? = some stream ∧
    stream.creator = b

/-- A call that a stream makes which a handle owns: it calls its own observer, with a change
    that is for it. -/
structure Delivery (w : StreamWorld α β ο) (n : Notification ο) (stream : ObservedStream β ο) : Prop where
  caller : w.objects.streams[n.stream]? = some stream
  owned : ∃ a, w.objects.owned a = some (stream.creator, n.stream)
  observer : n.observer = stream.own
  streamId : n.change.streamId = stream.streamId

/-- Only the observer of a stream that is owned is called, and only with a change for that
    stream of that backend. -/
theorem notify_spec {w : StreamWorld α β ο} (h : Sound w) {b : β} {change : DataStreamDifferential} {n : Notification ο}
    (hn : w.notify b change = some n) :
    n.change = change ∧ ∃ stream, stream.creator = b ∧ w.Delivery n stream := by
  obtain ⟨k, hfind, hn⟩ := Option.bind_eq_some_iff.1 hn
  obtain ⟨stream, hstream, hn⟩ := Option.bind_eq_some_iff.1 hn
  obtain ⟨observer, hobserver, hn⟩ := Option.bind_eq_some_iff.1 hn
  cases hn
  have hmem := List.mem_of_find?_eq_some hfind
  have hid := List.find?_some hfind
  rw [hstream, Option.any_some, beq_iff_eq] at hid
  obtain ⟨stream', hstream', hcreator⟩ := h.queues b k hmem
  cases hstream.symm.trans hstream'
  obtain ⟨a, ha, hown⟩ := h.objects.owned_of_observer hstream (by simp [hobserver])
  rw [hobserver] at hown
  exact ⟨rfl, stream, hcreator, hstream, ⟨a, ha⟩, Option.some.inj hown, hid.symm⟩

theorem Delivery.not_removed {w : StreamWorld α β ο} {n : Notification ο} {stream : ObservedStream β ο} (hn : w.Delivery n stream)
    (h : Sound w) : n.stream ∉ w.objects.removed.map Prod.snd := by
  obtain ⟨a, ha⟩ := hn.owned
  exact h.objects.not_mem_removed ha

variable [DecidableEq β]

def setQueue (w : StreamWorld α β ο) (backend : β) (queue : ChangeQueue) : StreamWorld α β ο :=
  { w with queues := Function.update w.queues backend queue }

@[simp] theorem queues_setQueue_self (w : StreamWorld α β ο) (backend : β) (queue : ChangeQueue) :
    (w.setQueue backend queue).queues backend = queue := Function.update_self ..

theorem queues_setQueue_of_ne (w : StreamWorld α β ο) {backend other : β} (h : other ≠ backend)
    (queue : ChangeQueue) : (w.setQueue backend queue).queues other = w.queues other :=
  Function.update_of_ne h ..

/-- `ChangeQueue::addStream`, which `createStream` calls -/
def addStream (w : StreamWorld α β ο) : HandleOperation α β ο → StreamWorld α β ο
  | .createStream _ backend _ _ _ _ => w.setQueue backend { w.queues backend with
      dataStreams := (w.queues backend).dataStreams ++ [w.objects.streams.length] }
  | _ => w

/-- `applyStreamChanges`, up to its loop -/
def beginLoop (w : StreamWorld α β ο) (backend : β) : StreamWorld α β ο :=
  w.setQueue backend {
    dataStreams := (w.queues backend).dataStreams.filter fun stream =>
      (w.objects.streams[stream]?).any (·.isValid)
    changeList := []
    loops := (w.queues backend).loops ++ [(w.queues backend).changeList] }

/-- One step of a backend, or of `applyStreamChanges`. -/
inductive QueueStep : StreamWorld α β ο → StreamWorld α β ο → Prop where
  /-- `ChangeQueue::addChanges` and `ChangeQueue::addStreamChange`, of any changes -/
  | addChanges (w : StreamWorld α β ο) (backend : β) (list : List DataStreamDifferential) :
    QueueStep w (w.setQueue backend { w.queues backend with
      changeList := (w.queues backend).changeList ++ list })
  | beginLoop (w : StreamWorld α β ο) (backend : β) : QueueStep w (w.beginLoop backend)
  /-- one turn of a loop -/
  | applyChange (w : StreamWorld α β ο) (backend : β) (change : DataStreamDifferential)
      (rest : List DataStreamDifferential) (loops : List (List DataStreamDifferential))
      (replaces : Replaces (change :: rest) [rest] (w.queues backend).loops loops) :
    QueueStep w { w.setQueue backend { w.queues backend with loops } with
      received := w.received ++ (w.notify backend change).toList }
  | endLoop (w : StreamWorld α β ο) (backend : β) (loops : List (List DataStreamDifferential))
      (replaces : Replaces [] [] (w.queues backend).loops loops) :
    QueueStep w (w.setQueue backend { w.queues backend with loops })

/-! ## Steps of the queues -/

variable {w w' : StreamWorld α β ο}

theorem sound_setQueue (h : Sound w) (b : β) {queue : ChangeQueue}
    (hqueue : ∀ k ∈ queue.dataStreams, k ∈ (w.queues b).dataStreams) : Sound (w.setQueue b queue) := by
  refine ⟨h.objects, fun b' k hk => ?_⟩
  by_cases hb : b' = b
  · rw [hb, queues_setQueue_self] at hk
    rw [hb]
    exact h.queues b k (hqueue k hk)
  · rw [queues_setQueue_of_ne w hb] at hk
    exact h.queues b' k hk

/-- A step of a queue touches no handle and no stream; if it calls an observer, that is the
    one of a stream that is owned. -/
theorem queueStep_spec (h : Sound w) (hs : QueueStep w w') : Sound w' ∧ w'.objects = w.objects ∧
    (w'.received = w.received ∨ ∃ n stream, w'.received = w.received ++ [n] ∧ w.Delivery n stream) := by
  cases hs with
  | addChanges b list => exact ⟨sound_setQueue h b fun _ hk => hk, rfl, Or.inl rfl⟩
  | beginLoop b => exact ⟨sound_setQueue h b fun _ hk => List.mem_of_mem_filter hk, rfl, Or.inl rfl⟩
  | applyChange b change rest loops replaces =>
    have hqueue : Sound (w.setQueue b { w.queues b with loops }) := sound_setQueue h b fun _ hk => hk
    refine ⟨⟨hqueue.objects, hqueue.queues⟩, rfl, ?_⟩
    cases hn : w.notify b change with
    | none => exact Or.inl (List.append_nil _)
    | some n =>
      obtain ⟨-, stream, -, hdelivery⟩ := notify_spec h hn
      exact Or.inr ⟨n, stream, rfl, hdelivery⟩
  | endLoop b loops replaces => exact ⟨sound_setQueue h b fun _ hk => hk, rfl, Or.inl rfl⟩

/-! ## All runs -/

variable [DecidableEq α]

/-- One step: an operation on handles can come between any two turns of a loop, as observers
    may use handles. -/
inductive Step (build : Build) : StreamWorld α β ο → StreamWorld α β ο → Prop where
  | operate (w : StreamWorld α β ο) (operation : HandleOperation α β ο) (objects : StreamObjects α β ο)
      (ran : w.objects.run build operation = .ok objects) :
    Step build w { w.addStream operation with objects }
  | queue (w w' : StreamWorld α β ο) (step : QueueStep w w') : Step build w w'

/-- The states that programs reach which begin without handles. -/
def Reached (build : Build) (w : StreamWorld α β ο) : Prop :=
  Reachable (fun w => w = {}) (Step build) w

variable {build : Build}

theorem sound_operate (h : Sound w) {operation : HandleOperation α β ο} {objects : StreamObjects α β ο}
    (ran : w.objects.run build operation = .ok objects) :
    Sound { w.addStream operation with objects } := by
  have hallowed := StreamObjects.allowed_of_run h.objects ran
  obtain ⟨s', hran, hsound, heffect⟩ := StreamObjects.run_spec build h.objects hallowed
  cases hran.symm.trans ran
  have hkept : ∀ b, ∀ k ∈ (w.queues b).dataStreams, ∃ stream, objects.streams[k]? = some stream ∧
      stream.creator = b := by
    intro b k hk
    obtain ⟨stream, hstream, hcreator⟩ := h.queues b k hk
    obtain ⟨stream', hstream', hsame, -⟩ := heffect.stream_kept hstream
    exact ⟨stream', hstream', hsame.trans hcreator⟩
  cases operation with
  | construct | moveConstruct | moveAssign | reset | destroy => exact ⟨hsound, hkept⟩
  | createStream this backend observer streamType endpoint options =>
    refine ⟨hsound, fun b k hk => ?_⟩
    have hmem : k ∈ ((w.addStream (.createStream this backend observer streamType endpoint options)).queues
      b).dataStreams := hk
    simp only [addStream] at hmem
    by_cases hb : b = backend
    · rw [hb, queues_setQueue_self] at hmem
      rw [hb]
      rcases List.mem_append.1 hmem with hold | hnew
      · exact hkept backend k hold
      · cases (StreamObjects.createStream_eq build hallowed backend observer streamType endpoint
          options).symm.trans ran
        rw [List.mem_singleton.1 hnew]
        exact ⟨_, List.getElem?_concat_length, rfl⟩
    · rw [queues_setQueue_of_ne w hb] at hmem
      exact hkept b k hmem

theorem sound_step (h : Sound w) (hs : Step build w w') : Sound w' := by
  cases hs with
  | operate operation objects ran => exact sound_operate h ran
  | queue _ step => exact (queueStep_spec h step).1

theorem reached_sound (h : Reached build w) : Sound w := by
  refine Reachable.invariant (I := Sound) ?_ (fun _ _ => sound_step) h
  intro w hw
  rw [hw]
  refine ⟨⟨?_, ?_, ?_, ?_, ?_, List.nodup_nil, ?_, ?_⟩, fun b k hk => ?_⟩ <;> simp_all [StreamObjects.owned]

/-- A stream that was removed stays removed. -/
theorem removed_step (h : Sound w) (hs : Step build w w') {k : Nat}
    (hk : k ∈ w.objects.removed.map Prod.snd) : k ∈ w'.objects.removed.map Prod.snd := by
  cases hs with
  | operate operation objects ran =>
    obtain ⟨s', hran, -, heffect⟩ :=
      StreamObjects.run_spec build h.objects (StreamObjects.allowed_of_run h.objects ran)
    cases hran.symm.trans ran
    show k ∈ objects.removed.map Prod.snd
    rw [heffect.removed, List.map_append]
    exact List.mem_append_left _ hk
  | queue _ step =>
    rw [(queueStep_spec h step).2.1]
    exact hk

theorem received_step (h : Sound w) (hs : Step build w w') :
    w'.received = w.received ∨ ∃ n stream, w'.received = w.received ++ [n] ∧ w.Delivery n stream := by
  cases hs with
  | operate operation objects ran =>
    left
    cases operation <;> rfl
  | queue _ step => exact (queueStep_spec h step).2.2

/-- After a stream was removed its observer is never called for it again. -/
theorem silent_run (h : Sound w) (run : Relation.ReflTransGen (Step build) w w') {k : Nat}
    (hk : k ∈ w.objects.removed.map Prod.snd) :
    Sound w' ∧ k ∈ w'.objects.removed.map Prod.snd ∧
      (w'.received.filter fun n => n.stream == k) = w.received.filter fun n => n.stream == k := by
  induction run with
  | refl => exact ⟨h, hk, rfl⟩
  | tail _ hs ih =>
    obtain ⟨hsound, hremoved, hsame⟩ := ih
    refine ⟨sound_step hsound hs, removed_step hsound hs hremoved, ?_⟩
    rcases received_step hsound hs with hreceived | ⟨n, stream, hreceived, hdelivery⟩
    · rw [hreceived, hsame]
    · have hne : ¬ (n.stream == k) = true := by
        intro heq
        rw [← beq_iff_eq.1 heq] at hremoved
        exact hdelivery.not_removed hsound hremoved
      have hnone : ([n].filter fun n => n.stream == k) = [] := List.filter_cons_of_neg hne
      rw [hreceived, List.filter_append, hnone, List.append_nil, hsame]

/-- What handles do for streams, and streams for observers, from some state on. -/
structure Disconnects (build : Build) (w : StreamWorld α β ο) : Prop where
  /-- Each stream is connected, or it was removed exactly once. -/
  streams : ∀ (k : Nat) stream, w.objects.streams[k]? = some stream →
    w.objects.Open k stream ∨ w.objects.Closed k stream
  returns : ∀ operation, w.objects.Allowed operation →
    ∃ objects, w.objects.run build operation = .ok objects
  /-- Removed is what the handle owned that was reset, overwritten or destroyed. -/
  effect : ∀ operation objects, w.objects.run build operation = .ok objects →
    w.objects.Effect operation objects
  unaffected : ∀ w', QueueStep w w' → w'.objects = w.objects
  received : ∀ w', Step build w w' →
    w'.received = w.received ∨ ∃ n stream, w'.received = w.received ++ [n] ∧ w.Delivery n stream
  /-- Whatever is still queued for a stream that was removed reaches nobody. -/
  silent : ∀ w' k, Relation.ReflTransGen (Step build) w w' → k ∈ w.objects.removed.map Prod.snd →
    (w'.received.filter fun n => n.stream == k) = w.received.filter fun n => n.stream == k

theorem Sound.disconnects (h : Sound w) : w.Disconnects build := by
  refine ⟨fun k stream hk => h.objects.open_or_closed hk, fun operation hallowed => ?_,
    fun operation objects ran => ?_, fun w' hs => (queueStep_spec h hs).2.1, fun w' hs => received_step h hs,
    fun w' k run hk => (silent_run h run hk).2.2⟩
  · obtain ⟨objects, ran, -, -⟩ := StreamObjects.run_spec build h.objects hallowed
    exact ⟨objects, ran⟩
  · obtain ⟨s', hran, -, heffect⟩ :=
      StreamObjects.run_spec build h.objects (StreamObjects.allowed_of_run h.objects ran)
    cases hran.symm.trans ran
    exact heffect

end StreamWorld

end HotelPms

import HotelPms.Lib.Run
import HotelPms.Sqlite.Streams

/- `persistence::UniqueDataStreamHandle` and the streams that handles own.

   Handles and streams are objects: a handle has an address, a stream is known by its number
   in the order of creation, which is what a `shared_ptr` points to. `HandleOperation` is
   what a program can do with handles; it moves them, and by that decides which stream
   `reset` disconnects.

   `Sound` is the invariant: a stream is owned by one handle and connected to its observer,
   or it was disconnected and removed from its backend, once. Each operation on handles that
   exist returns, lets go of what `overwritten` says, and of nothing else (`run_spec`). -/
namespace HotelPms
open Lib

/-- `DataStream`, with the connection to its observer. -/
structure ObservedStream (β ο : Type) extends DataStream where
  observer : Option ο
  /-- history: the backend that created the stream, and the observer it was created for -/
  creator : β
  own : ο

namespace ObservedStream
variable {β ο : Type}

/-- The constructor, on behalf of a backend that is about to connect an observer. -/
def create (streamType : StreamableType) (endpoint : String) (options : Json) (creator : β) (own : ο) :
    ObservedStream β ο :=
  { streamId := 0, streamType, endpoint, options, observer := none, creator, own }

def connect (build : Build) (s : ObservedStream β ο) (streamId : Int) (observer : ο) :
    Except Fault (ObservedStream β ο) := do
  build.assert (s.streamId == 0) "_streamId == 0"
  build.assert s.observer.isNone "_observer == nullptr"
  return { s with streamId, observer := some observer }

def isValid (s : ObservedStream β ο) : Bool := s.observer.isSome

def disconnect (s : ObservedStream β ο) : ObservedStream β ο := { s with observer := none }

end ObservedStream

/-- The pointers `_backend` and `_dataStream`. -/
structure UniqueDataStreamHandle (β : Type) where
  backend : Option β := none
  dataStream : Option Nat := none

/-- The stream of a handle, and the backend that is told when it is released. -/
def UniqueDataStreamHandle.owned {β : Type} (handle : UniqueDataStreamHandle β) : Option (β × Nat) := do
  let backend ← handle.backend
  let stream ← handle.dataStream
  return (backend, stream)

/-- Where there is a stream to release, there is a backend to tell. -/
def UniqueDataStreamHandle.Backed {β : Type} (handle : UniqueDataStreamHandle β) : Prop :=
  handle.dataStream ≠ none → handle.backend ≠ none

/-- How an operation on handles goes wrong. -/
inductive HandleFault where
  | fault (fault : Fault)
  /-- `_backend` is null where it is dereferenced. -/
  | nullBackend
  /-- There is no handle where one is used, or one where a handle is constructed. -/
  | lifetime

/-- What can be done with handles; `this` and `that` are their addresses. -/
inductive HandleOperation (α β ο : Type) where
  | construct (this : α)
  /-- `Backend::createStream`, which constructs the handle that it returns -/
  | createStream (this : α) (backend : β) (observer : ο) (streamType : StreamableType)
      (endpoint : String) (options : Json)
  | moveConstruct (this that : α)
  | moveAssign (this that : α)
  | reset (this : α)
  | destroy (this : α)

/-- The handles that exist, by their addresses, and the streams. -/
structure StreamObjects (α β ο : Type) where
  handles : α → Option (UniqueDataStreamHandle β) := fun _ => none
  streams : List (ObservedStream β ο) := []
  /-- `_nextStreamId` of each backend -/
  nextStreamId : β → Int := fun _ => 1
  /-- history: the calls of `removeStream` of the backends -/
  removed : List (β × Nat) := []

namespace StreamObjects

variable {α β ο : Type} [DecidableEq α] [DecidableEq β]

/-- The handle at an address. -/
def handleAt (s : StreamObjects α β ο) (this : α) : Except HandleFault (UniqueDataStreamHandle β) :=
  (s.handles this).elim (.error .lifetime) .ok

/-- There is room for a handle at an address. -/
def checkFree (s : StreamObjects α β ο) (this : α) : Except HandleFault Unit :=
  if (s.handles this).isNone then .ok () else .error .lifetime

def setHandle (s : StreamObjects α β ο) (this : α) (handle : Option (UniqueDataStreamHandle β)) :
    StreamObjects α β ο :=
  { s with handles := Function.update s.handles this handle }

/-- `reset`, up to the assignments: `_dataStream->disconnect()`, `_backend->removeStream(_dataStream)` -/
def release (s : StreamObjects α β ο) (handle : UniqueDataStreamHandle β) :
    Except HandleFault (StreamObjects α β ο) :=
  match handle.dataStream, handle.backend with
  | some stream, some backend => .ok { s with
      streams := s.streams.modify stream ObservedStream.disconnect
      removed := s.removed ++ [(backend, stream)] }
  | some _, none => .error .nullBackend
  | none, _ => .ok s

def reset (s : StreamObjects α β ο) (this : α) : Except HandleFault (StreamObjects α β ο) := do
  let handle ← s.handleAt this
  let s ← s.release handle
  return s.setHandle this (some {})

/-- `UniqueDataStreamHandle(UniqueDataStreamHandle&& that)` -/
def moveConstruct (s : StreamObjects α β ο) (this that : α) :
    Except HandleFault (StreamObjects α β ο) := do
  s.checkFree this
  let handle ← s.handleAt that
  return (s.setHandle that (some {})).setHandle this (some handle)

/-- `operator=(UniqueDataStreamHandle&& that)`: what is assigned to itself has been reset. -/
def moveAssign (s : StreamObjects α β ο) (this that : α) :
    Except HandleFault (StreamObjects α β ο) := do
  let s ← s.reset this
  let handle ← s.handleAt that
  return (s.setHandle that (some {})).setHandle this (some handle)

def destroy (s : StreamObjects α β ο) (this : α) : Except HandleFault (StreamObjects α β ο) := do
  let s ← s.reset this
  return s.setHandle this none

def construct (s : StreamObjects α β ο) (this : α) : Except HandleFault (StreamObjects α β ο) := do
  s.checkFree this
  return s.setHandle this (some {})

/-- `createStream` of `SqliteBackend` and `NetClientBackend`, but for the queue -/
def createStream (build : Build) (s : StreamObjects α β ο) (this : α) (backend : β) (observer : ο)
    (streamType : StreamableType) (endpoint : String) (options : Json) :
    Except HandleFault (StreamObjects α β ο) := do
  s.checkFree this
  let stream ← ((ObservedStream.create streamType endpoint options backend observer).connect build
    (s.nextStreamId backend) observer).mapError .fault
  return { s with
    handles := Function.update s.handles this
      (some { backend := some backend, dataStream := some s.streams.length })
    streams := s.streams ++ [stream]
    nextStreamId := Function.update s.nextStreamId backend (s.nextStreamId backend + 1) }

def run (build : Build) (s : StreamObjects α β ο) :
    HandleOperation α β ο → Except HandleFault (StreamObjects α β ο)
  | .construct this => s.construct this
  | .createStream this backend observer streamType endpoint options =>
    s.createStream build this backend observer streamType endpoint options
  | .moveConstruct this that => s.moveConstruct this that
  | .moveAssign this that => s.moveAssign this that
  | .reset this => s.reset this
  | .destroy this => s.destroy this

/-- One operation after another. -/
def runAll (build : Build) (s : StreamObjects α β ο) (operations : List (HandleOperation α β ο)) :
    Except HandleFault (StreamObjects α β ο) :=
  operations.foldlM (run build) s

/-- The operation uses handles that exist, and constructs handles where there are none. -/
def Allowed (s : StreamObjects α β ο) : HandleOperation α β ο → Prop
  | .construct this => s.handles this = none
  | .createStream this _ _ _ _ _ => s.handles this = none
  | .moveConstruct this that => s.handles this = none ∧ s.handles that ≠ none
  | .moveAssign this that => s.handles this ≠ none ∧ s.handles that ≠ none
  | .reset this => s.handles this ≠ none
  | .destroy this => s.handles this ≠ none

/-- What the handle at an address owns. -/
def owned (s : StreamObjects α β ο) (this : α) : Option (β × Nat) := (s.handles this).bind (·.owned)

/-- What is owned by the handle that an operation resets, overwrites or destroys. -/
def overwritten (s : StreamObjects α β ο) : HandleOperation α β ο → Option (β × Nat)
  | .moveAssign this _ => s.owned this
  | .reset this => s.owned this
  | .destroy this => s.owned this
  | _ => none

end StreamObjects

namespace StreamObjects

variable {α β ο : Type}

/-- A stream is owned by one handle and connected to its observer, or it was removed. -/
structure Sound (s : StreamObjects α β ο) : Prop where
  backed : ∀ a, ∀ handle ∈ s.handles a, handle.Backed
  connected : ∀ a r, s.owned a = some r → ∃ stream, s.streams[r.2]? = some stream ∧
    stream.creator = r.1 ∧ stream.observer = some stream.own
  unique : ∀ a a' r r', s.owned a = some r → s.owned a' = some r' → r.2 = r'.2 → a = a'
  released : ∀ k stream, s.streams[k]? = some stream → (∀ a, s.owned a ≠ some (stream.creator, k)) →
    stream.observer = none ∧ (stream.creator, k) ∈ s.removed
  removed : ∀ r ∈ s.removed, ∃ stream, s.streams[r.2]? = some stream ∧ stream.creator = r.1 ∧
    stream.observer = none
  nodup : (s.removed.map Prod.snd).Nodup
  ids : ∀ (k : Nat) stream, s.streams[k]? = some stream → stream.streamId < s.nextStreamId stream.creator
  distinct : ∀ (k k' : Nat) stream stream', s.streams[k]? = some stream →
    s.streams[k']? = some stream' → stream.creator = stream'.creator →
      stream.streamId = stream'.streamId → k = k'

variable {s s' : StreamObjects α β ο} {this that a : α}

theorem Sound.owned_of_observer (h : Sound s) {k : Nat} {stream : ObservedStream β ο}
    (hstream : s.streams[k]? = some stream) (hobserver : stream.observer ≠ none) :
    ∃ a, s.owned a = some (stream.creator, k) ∧ stream.observer = some stream.own := by
  by_contra hnone
  have hfree : ∀ a, s.owned a ≠ some (stream.creator, k) := by
    intro a ha
    obtain ⟨stream', hstream', -, hconnected⟩ := h.connected a _ ha
    cases hstream.symm.trans hstream'
    exact hnone ⟨a, ha, hconnected⟩
  exact hobserver (h.released k stream hstream hfree).1

theorem Sound.not_mem_removed (h : Sound s) {r : β × Nat} (ha : s.owned a = some r) :
    r.2 ∉ s.removed.map Prod.snd := by
  intro hmem
  obtain ⟨r', hr', hk⟩ := List.mem_map.1 hmem
  obtain ⟨stream, hstream, -, hconnected⟩ := h.connected a r ha
  obtain ⟨stream', hstream', -, hgone⟩ := h.removed r' hr'
  rw [hk] at hstream'
  cases hstream.symm.trans hstream'
  rw [hconnected] at hgone
  cases hgone

/-- A stream that is connected to its own observer, owned by one handle, and not removed. -/
structure Open (s : StreamObjects α β ο) (k : Nat) (stream : ObservedStream β ο) : Prop where
  owner : ∃ a, s.owned a = some (stream.creator, k) ∧ ∀ a' b, s.owned a' = some (b, k) → a' = a
  observer : stream.observer = some stream.own
  removed : (s.removed.filter fun r => r.2 == k) = []

/-- A stream that is disconnected, that no handle owns, and that was removed once, from the
    backend that created it. -/
structure Closed (s : StreamObjects α β ο) (k : Nat) (stream : ObservedStream β ο) : Prop where
  owner : ∀ a b, s.owned a ≠ some (b, k)
  observer : stream.observer = none
  removed : (s.removed.filter fun r => r.2 == k) = [(stream.creator, k)]

theorem Closed.mem_removed {k : Nat} {stream : ObservedStream β ο} (h : s.Closed k stream) :
    (stream.creator, k) ∈ s.removed := by
  have hmem : (stream.creator, k) ∈ s.removed.filter fun r => r.2 == k := by
    rw [h.removed]
    exact List.mem_singleton_self _
  exact List.mem_of_mem_filter hmem

theorem Open.not_mem_removed {k : Nat} {stream : ObservedStream β ο} (h : s.Open k stream) {b : β} :
    (b, k) ∉ s.removed := by
  intro hmem
  exact List.filter_eq_nil_iff.1 h.removed _ hmem (beq_self_eq_true k)

theorem filter_removed {removed : List (β × Nat)} (hnodup : (removed.map Prod.snd).Nodup) {r : β × Nat}
    (hr : r ∈ removed) : (removed.filter fun x => x.2 == r.2) = [r] := by
  induction removed with
  | nil => cases hr
  | cons x removed ih =>
    rw [List.map_cons, List.nodup_cons] at hnodup
    rcases List.mem_cons.1 hr with rfl | hr
    · have hrest : (removed.filter fun x => x.2 == r.2) = [] := by
        refine List.filter_eq_nil_iff.2 fun x hx heq => hnodup.1 ?_
        rw [← beq_iff_eq.1 heq]
        exact List.mem_map_of_mem hx
      rw [List.filter_cons_of_pos (p := fun x : β × Nat => x.2 == r.2) (beq_self_eq_true r.2), hrest]
    · have hne : ¬ (x.2 == r.2) = true := by
        intro heq
        rw [beq_iff_eq.1 heq] at hnodup
        exact hnodup.1 (List.mem_map_of_mem hr)
      rw [List.filter_cons_of_neg (p := fun x : β × Nat => x.2 == r.2) hne]
      exact ih hnodup.2 hr

theorem Sound.open_or_closed (h : Sound s) {k : Nat} {stream : ObservedStream β ο}
    (hstream : s.streams[k]? = some stream) : s.Open k stream ∨ s.Closed k stream := by
  by_cases hobserver : stream.observer = none
  · have hfree : ∀ a b, s.owned a ≠ some (b, k) := by
      intro a b ha
      obtain ⟨stream', hstream', -, hconnected⟩ := h.connected a _ ha
      cases hstream.symm.trans hstream'
      rw [hobserver] at hconnected
      cases hconnected
    have hremoved := (h.released k stream hstream fun a => hfree a _).2
    exact Or.inr ⟨hfree, hobserver, filter_removed h.nodup hremoved⟩
  · obtain ⟨a, ha, hown⟩ := h.owned_of_observer hstream hobserver
    refine Or.inl ⟨⟨a, ha, fun a' b ha' => h.unique a' a _ _ ha' ha rfl⟩, hown, ?_⟩
    refine List.filter_eq_nil_iff.2 fun r hr hk => h.not_mem_removed ha ?_
    have hmem : r.2 ∈ s.removed.map Prod.snd := List.mem_map_of_mem hr
    rw [beq_iff_eq.1 hk] at hmem
    exact hmem

theorem owned_of_handles {handle : UniqueDataStreamHandle β} (h : s.handles this = some handle) :
    s.owned this = handle.owned := by
  rw [owned, h]
  rfl

theorem owned_of_free (h : s.handles this = none) : s.owned this = none := by
  rw [owned, h, Option.bind_none]

theorem Sound.owned_lt (h : Sound s) {r : β × Nat} (ha : s.owned a = some r) : r.2 < s.streams.length := by
  obtain ⟨x, hx, -⟩ := h.connected a r ha
  exact (List.getElem?_eq_some_iff.1 hx).1

/-- The backend has not given its next id to a stream before. -/
theorem Sound.fresh_id (h : Sound s) {k : Nat} {x stream : ObservedStream β ο} (hk : s.streams[k]? = some x)
    (hid : stream.streamId = s.nextStreamId stream.creator) (hc : x.creator = stream.creator) :
    x.streamId ≠ stream.streamId := by
  intro heq
  have hlt := h.ids k x hk
  rw [hc, heq, hid] at hlt
  exact lt_irrefl _ hlt

/-! ## What each operation does -/

theorem release_eq (s : StreamObjects α β ο) {handle : UniqueDataStreamHandle β} (h : handle.Backed) :
    s.release handle = .ok { s with
      streams := handle.owned.elim s.streams fun r => s.streams.modify r.2 ObservedStream.disconnect
      removed := s.removed ++ handle.owned.toList } := by
  obtain ⟨backend, dataStream⟩ := handle
  cases dataStream with
  | none =>
    have hnone : (UniqueDataStreamHandle.mk backend none).owned = none := by cases backend <;> rfl
    rw [hnone, Option.elim_none, Option.toList_none, List.append_nil]
    cases backend <;> rfl
  | some stream =>
    cases backend with
    | none => exact absurd rfl (h (by simp))
    | some backend => rfl

theorem Sound.of_owners (h : Sound s) (hstreams : s'.streams = s.streams)
    (hids : s'.nextStreamId = s.nextStreamId) (hremoved : s'.removed = s.removed)
    (hbacked : ∀ a, ∀ handle ∈ s'.handles a, handle.Backed)
    (howner : ∀ a r, s'.owned a = some r → ∃ a', s.owned a' = some r)
    (hkept : ∀ a r, s.owned a = some r → ∃ a', s'.owned a' = some r)
    (hunique : ∀ a a' r r', s'.owned a = some r → s'.owned a' = some r' → r.2 = r'.2 → a = a') :
    Sound s' := by
  refine ⟨hbacked, fun a r ha => ?_, hunique, fun k stream hk hnone => ?_, ?_, ?_, ?_, ?_⟩
  · obtain ⟨a', ha'⟩ := howner a r ha
    rw [hstreams]
    exact h.connected a' r ha'
  · rw [hstreams] at hk
    rw [hremoved]
    refine h.released k stream hk fun a ha => ?_
    obtain ⟨a', ha'⟩ := hkept a _ ha
    exact hnone a' ha'
  · rw [hstreams, hremoved]
    exact h.removed
  · rw [hremoved]
    exact h.nodup
  · rw [hstreams, hids]
    exact h.ids
  · rw [hstreams]
    exact h.distinct

/-- What an operation does to streams: the one that is overwritten is disconnected and
    removed, the others are as before. -/
structure Effect (s : StreamObjects α β ο) (operation : HandleOperation α β ο) (s' : StreamObjects α β ο) :
    Prop where
  removed : s'.removed = s.removed ++ (s.overwritten operation).toList
  kept : ∀ k stream, s.streams[k]? = some stream → (∀ b, s.overwritten operation ≠ some (b, k)) →
    s'.streams[k]? = some stream
  gone : ∀ r stream, s.overwritten operation = some r → s.streams[r.2]? = some stream →
    s'.streams[r.2]? = some stream.disconnect

theorem Effect.of_none {operation : HandleOperation α β ο} (hnone : s.overwritten operation = none)
    (hremoved : s'.removed = s.removed)
    (hstreams : ∀ (k : Nat) stream, s.streams[k]? = some stream → s'.streams[k]? = some stream) :
    Effect s operation s' := by
  refine ⟨?_, fun k stream hk _ => hstreams k stream hk, fun r stream hr => ?_⟩
  · rw [hremoved, hnone, Option.toList_none, List.append_nil]
  · rw [hnone] at hr
    cases hr

theorem Effect.stream_kept {operation : HandleOperation α β ο} (h : Effect s operation s') {k : Nat}
    {stream : ObservedStream β ο} (hstream : s.streams[k]? = some stream) :
    ∃ stream', s'.streams[k]? = some stream' ∧ stream'.creator = stream.creator ∧
      stream'.own = stream.own := by
  by_cases hk : ∃ b, s.overwritten operation = some (b, k)
  · obtain ⟨b, hb⟩ := hk
    exact ⟨_, h.gone (b, k) stream hb hstream, rfl, rfl⟩
  · exact ⟨stream, h.kept k stream hstream fun b hb => hk ⟨b, hb⟩, rfl, rfl⟩

/-- Streams and the calls of `removeStream` are the same. -/
structure SameStreams (s s' : StreamObjects α β ο) : Prop where
  streams : s'.streams = s.streams
  removed : s'.removed = s.removed

theorem SameStreams.trans {t : StreamObjects α β ο} (h : SameStreams s t) (h' : SameStreams t s') :
    SameStreams s s' := ⟨h'.streams.trans h.streams, h'.removed.trans h.removed⟩

variable [DecidableEq α]

theorem owned_of_update (s s' : StreamObjects α β ο) {handle : Option (UniqueDataStreamHandle β)}
    (h : s'.handles = Function.update s.handles this handle) :
    s'.owned this = handle.bind (·.owned) ∧ ∀ a, a ≠ this → s'.owned a = s.owned a := by
  refine ⟨?_, fun a ha => ?_⟩
  · rw [owned, h, Function.update_self]
  · rw [owned, h, Function.update_of_ne ha]
    rfl

/-- The objects when a handle was reset and then has another value, or is gone. -/
def dropped (s : StreamObjects α β ο) (this : α) (handle : Option (UniqueDataStreamHandle β)) :
    StreamObjects α β ο :=
  { s with
    handles := Function.update s.handles this handle
    streams := (s.owned this).elim s.streams fun r => s.streams.modify r.2 ObservedStream.disconnect
    removed := s.removed ++ (s.owned this).toList }

theorem owned_reset (s : StreamObjects α β ο) (this : α) : (s.dropped this (some {})).owned this = none :=
  (owned_of_update s (s.dropped this (some {})) rfl).1

@[simp] theorem handles_dropped (s : StreamObjects α β ο) (this : α)
    (handle : Option (UniqueDataStreamHandle β)) :
    (s.dropped this handle).handles = Function.update s.handles this handle := rfl

/-- The objects when the pointers of `that` were moved to `this`. -/
def moved (s : StreamObjects α β ο) (this that : α) : StreamObjects α β ο :=
  (s.setHandle that (some {})).setHandle this (s.handles that)

theorem dropped_of_owned {r : β × Nat} (hthis : s.owned this = some r)
    (handle : Option (UniqueDataStreamHandle β)) :
    (s.dropped this handle).streams = s.streams.modify r.2 ObservedStream.disconnect ∧
      (s.dropped this handle).removed = s.removed ++ [r] := by
  refine ⟨?_, ?_⟩
  · rw [dropped, hthis, Option.elim_some]
  · rw [dropped, hthis, Option.toList_some]

theorem sameStreams_dropped (hthis : s.owned this = none) (handle : Option (UniqueDataStreamHandle β)) :
    SameStreams s (s.dropped this handle) := by
  refine ⟨?_, ?_⟩
  · rw [dropped, hthis, Option.elim_none]
  · rw [dropped, hthis, Option.toList_none, List.append_nil]

theorem handles_moved_self (s : StreamObjects α β ο) (this that : α) :
    (s.moved this that).handles this = s.handles that := Function.update_self ..

theorem handles_moved_that (s : StreamObjects α β ο) (hne : that ≠ this) :
    (s.moved this that).handles that = some {} := by
  show Function.update (Function.update s.handles that (some {})) this (s.handles that) that = _
  rw [Function.update_of_ne hne, Function.update_self]

theorem handles_moved_of_ne (s : StreamObjects α β ο) (hthis : a ≠ this) (hthat : a ≠ that) :
    (s.moved this that).handles a = s.handles a := by
  show Function.update (Function.update s.handles that (some {})) this (s.handles that) a = _
  rw [Function.update_of_ne hthis, Function.update_of_ne hthat]

theorem reset_eq (h : Sound s) (hthis : s.handles this ≠ none) :
    s.reset this = .ok (s.dropped this (some {})) := by
  obtain ⟨handle, hhandle⟩ := Option.ne_none_iff_exists'.1 hthis
  have hat : s.handleAt this = .ok handle := by rw [handleAt, hhandle, Option.elim_some]
  rw [reset, Except.bind_ok hat, Except.bind_ok (release_eq s (h.backed this handle hhandle)), dropped,
    owned_of_handles hhandle]
  rfl

theorem destroy_eq (h : Sound s) (hthis : s.handles this ≠ none) :
    s.destroy this = .ok (s.dropped this none) := by
  rw [destroy, Except.bind_ok (reset_eq h hthis), setHandle, dropped, Function.update_idem]
  rfl

theorem moveConstruct_eq (hthis : s.handles this = none) (hthat : s.handles that ≠ none) :
    s.moveConstruct this that = .ok (s.moved this that) := by
  obtain ⟨handle, hhandle⟩ := Option.ne_none_iff_exists'.1 hthat
  have hfree : s.checkFree this = .ok () := by rw [checkFree, hthis, Option.isNone_none, if_pos rfl]
  have hat : s.handleAt that = .ok handle := by rw [handleAt, hhandle, Option.elim_some]
  rw [moveConstruct, Except.bind_ok hfree, Except.bind_ok hat, moved, hhandle]
  rfl

theorem moveAssign_self (h : Sound s) (hthis : s.handles this ≠ none) :
    s.moveAssign this this = .ok (s.dropped this (some {})) := by
  have hat : (s.dropped this (some {})).handleAt this = .ok {} := by
    rw [handleAt, handles_dropped, Function.update_self, Option.elim_some]
  rw [moveAssign, Except.bind_ok (reset_eq h hthis), Except.bind_ok hat, setHandle, setHandle, dropped,
    Function.update_idem, Function.update_idem]
  rfl

theorem moveAssign_eq (h : Sound s) (hthis : s.handles this ≠ none) (hthat : s.handles that ≠ none)
    (hne : that ≠ this) : s.moveAssign this that = .ok ((s.dropped this (some {})).moved this that) := by
  obtain ⟨handle, hhandle⟩ := Option.ne_none_iff_exists'.1 hthat
  have hkept : (s.dropped this (some {})).handles that = some handle := by
    rw [handles_dropped, Function.update_of_ne hne, hhandle]
  have hat : (s.dropped this (some {})).handleAt that = .ok handle := by
    rw [handleAt, hkept, Option.elim_some]
  rw [moveAssign, Except.bind_ok (reset_eq h hthis), Except.bind_ok hat, moved, hkept]
  rfl

/-! ## What each operation keeps -/

theorem backed_update {handles : α → Option (UniqueDataStreamHandle β)}
    (h : ∀ a, ∀ x ∈ handles a, x.Backed) {handle : Option (UniqueDataStreamHandle β)}
    (hhandle : ∀ x ∈ handle, x.Backed) (this : α) :
    ∀ a, ∀ x ∈ Function.update handles this handle a, x.Backed := by
  intro a x hx
  by_cases ha : a = this
  · rw [ha, Function.update_self] at hx
    exact hhandle x hx
  · rw [Function.update_of_ne ha] at hx
    exact h a x hx

theorem backed_none : ∀ x ∈ (none : Option (UniqueDataStreamHandle β)), x.Backed := by
  intro x hx
  cases hx

theorem backed_empty : ∀ x ∈ some ({} : UniqueDataStreamHandle β), x.Backed := by
  intro x hx
  cases hx
  exact fun hstream => absurd rfl hstream

theorem sound_setHandle (h : Sound s) (hthis : s.owned this = none)
    {handle : Option (UniqueDataStreamHandle β)} (hhandle : ∀ x ∈ handle, x.Backed)
    (hnone : handle.bind (·.owned) = none) : Sound (s.setHandle this handle) := by
  obtain ⟨hself, hother⟩ := owned_of_update s (s.setHandle this handle) rfl
  have hsame : ∀ a, (s.setHandle this handle).owned a = s.owned a := by
    intro a
    by_cases ha : a = this
    · rw [ha, hself, hthis, hnone]
    · exact hother a ha
  refine h.of_owners rfl rfl rfl (backed_update h.backed hhandle this) (fun a r ha => ?_) (fun a r ha => ?_)
    fun a a' r r' ha ha' => ?_
  · exact ⟨a, by rw [← hsame, ha]⟩
  · exact ⟨a, by rw [hsame, ha]⟩
  · rw [hsame] at ha ha'
    exact h.unique a a' r r' ha ha'

theorem sound_moved (h : Sound s) (hthis : s.owned this = none) (hne : that ≠ this) :
    Sound (s.moved this that) := by
  obtain ⟨hthat', hother'⟩ := owned_of_update s (s.setHandle that (some {})) rfl
  obtain ⟨hthis', hother⟩ := owned_of_update (s.setHandle that (some {})) (s.moved this that) rfl
  have hnew : (s.moved this that).owned this = s.owned that := hthis'
  have hold : (s.moved this that).owned that = none := (hother that hne).trans hthat'
  have hsame : ∀ a, a ≠ this → a ≠ that → (s.moved this that).owned a = s.owned a :=
    fun a ha ha' => (hother a ha).trans (hother' a ha')
  -- an address owns what it owned before, or it is the one that was moved to
  have howner : ∀ a r, (s.moved this that).owned a = some r →
      (a = this ∧ s.owned that = some r) ∨ (a ≠ that ∧ s.owned a = some r) := by
    intro a r ha
    by_cases hathis : a = this
    · rw [hathis, hnew] at ha
      exact Or.inl ⟨hathis, ha⟩
    · by_cases hathat : a = that
      · rw [hathat, hold] at ha
        cases ha
      · rw [hsame a hathis hathat] at ha
        exact Or.inr ⟨hathat, ha⟩
  refine h.of_owners rfl rfl rfl (backed_update (backed_update h.backed backed_empty that)
    (h.backed that) this) (fun a r ha => ?_) (fun a r ha => ?_) fun a a' r r' ha ha' hr => ?_
  · rcases howner a r ha with ⟨-, hthat⟩ | ⟨-, ha⟩
    · exact ⟨that, hthat⟩
    · exact ⟨a, ha⟩
  · by_cases hathat : a = that
    · exact ⟨this, by rw [hnew, ← hathat, ha]⟩
    · have hathis : a ≠ this := by
        intro heq
        rw [heq, hthis] at ha
        cases ha
      exact ⟨a, by rw [hsame a hathis hathat, ha]⟩
  · rcases howner a r ha with ⟨heq, hthat⟩ | ⟨hathat, ha⟩
    · rcases howner a' r' ha' with ⟨heq', -⟩ | ⟨hathat', ha'⟩
      · exact heq.trans heq'.symm
      · exact absurd (h.unique that a' r r' hthat ha' hr).symm hathat'
    · rcases howner a' r' ha' with ⟨-, hthat⟩ | ⟨-, ha'⟩
      · exact absurd (h.unique a that r r' ha hthat hr) hathat
      · exact h.unique a a' r r' ha ha' hr

theorem getElem?_disconnect {streams : List (ObservedStream β ο)} {k j : Nat} :
    (streams.modify k ObservedStream.disconnect)[j]? =
      if k = j then streams[j]?.map ObservedStream.disconnect else streams[j]? := by
  split
  · next h =>
    rw [h, List.getElem?_modify_eq]
    rfl
  · next h => rw [List.getElem?_modify_ne _ _ h]

theorem own_disconnect (streams : List (ObservedStream β ο)) (k j : Nat) :
    ((streams.modify k ObservedStream.disconnect)[j]?).map (·.own) = (streams[j]?).map (·.own) := by
  rw [getElem?_disconnect]
  split
  · rw [Option.map_map]
    rfl
  · rfl

theorem Sound.owned_of_dropped (h : Sound s) {r r' : β × Nat} (hthis : s.owned this = some r)
    {handle : Option (UniqueDataStreamHandle β)} (hnone : handle.bind (·.owned) = none)
    (ha : (s.dropped this handle).owned a = some r') : s.owned a = some r' ∧ r.2 ≠ r'.2 := by
  obtain ⟨hself, hother⟩ := owned_of_update s (s.dropped this handle) rfl
  have hne : a ≠ this := by
    intro heq
    rw [heq, hself, hnone] at ha
    cases ha
  rw [hother a hne] at ha
  exact ⟨ha, fun hk => hne (h.unique a this _ _ ha hthis hk.symm)⟩

theorem stream_of_dropped {handle : Option (UniqueDataStreamHandle β)} {j : Nat}
    {stream : ObservedStream β ο} (hj : (s.dropped this handle).streams[j]? = some stream) :
    ∃ old, s.streams[j]? = some old ∧ stream.creator = old.creator ∧ stream.streamId = old.streamId := by
  cases hthis : s.owned this with
  | none =>
    rw [(sameStreams_dropped hthis handle).streams] at hj
    exact ⟨stream, hj, rfl, rfl⟩
  | some r =>
    rw [(dropped_of_owned hthis handle).1, getElem?_disconnect] at hj
    split at hj
    · obtain ⟨old, hold, rfl⟩ := Option.map_eq_some_iff.1 hj
      exact ⟨old, hold, rfl, rfl⟩
    · exact ⟨stream, hj, rfl, rfl⟩

/-- The handle at an address lets go of its stream, which is disconnected and removed. -/
theorem sound_dropped (h : Sound s) {handle : Option (UniqueDataStreamHandle β)}
    (hhandle : ∀ x ∈ handle, x.Backed) (hnone : handle.bind (·.owned) = none) :
    Sound (s.dropped this handle) := by
  cases hthis : s.owned this with
  | none =>
    have hsame : s.dropped this handle = s.setHandle this handle := by
      rw [dropped, hthis, Option.elim_none, Option.toList_none, List.append_nil]
      rfl
    rw [hsame]
    exact sound_setHandle h hthis hhandle hnone
  | some r =>
    obtain ⟨b, k⟩ := r
    obtain ⟨stream, hstream, hcreator, hobserver⟩ := h.connected this _ hthis
    obtain ⟨-, hother⟩ := owned_of_update s (s.dropped this handle) rfl
    obtain ⟨hstreams, hremoved⟩ := dropped_of_owned hthis handle
    have howned : ∀ a r, (s.dropped this handle).owned a = some r → s.owned a = some r ∧ k ≠ r.2 :=
      fun a r ha => h.owned_of_dropped hthis hnone ha
    have hnew : k ∉ s.removed.map Prod.snd := h.not_mem_removed hthis
    refine ⟨backed_update h.backed hhandle this, fun a r ha => ?_, fun a a' r r' ha ha' hr => ?_,
      fun j stream' hj hfree => ?_, fun r hr => ?_, ?_, fun j stream' hj => ?_,
      fun i j stream₁ stream₂ hi hj hc hid => ?_⟩
    · obtain ⟨ha, hne⟩ := howned a r ha
      rw [hstreams, getElem?_disconnect, if_neg hne]
      exact h.connected a r ha
    · exact h.unique a a' r r' (howned a r ha).1 (howned a' r' ha').1 hr
    · rw [hstreams, getElem?_disconnect] at hj
      rw [hremoved]
      split at hj
      · next heq =>
        obtain ⟨old, hold, rfl⟩ := Option.map_eq_some_iff.1 hj
        rw [← heq] at hold ⊢
        cases hstream.symm.trans hold
        exact ⟨rfl, List.mem_append_right _ (List.mem_singleton.2 (Prod.ext hcreator rfl))⟩
      · next hne =>
        have hgone := h.released j stream' hj fun a ha => by
          refine hfree a ?_
          rw [hother a, ha]
          intro heq
          rw [heq, hthis] at ha
          exact hne (congrArg Prod.snd (Option.some.inj ha))
        exact ⟨hgone.1, List.mem_append_left _ hgone.2⟩
    · rw [hremoved] at hr
      rw [hstreams, getElem?_disconnect]
      rcases List.mem_append.1 hr with hr | hr
      · have hne : k ≠ r.2 := by
          intro hk
          rw [hk] at hnew
          exact hnew (List.mem_map_of_mem hr)
        rw [if_neg hne]
        exact h.removed r hr
      · rw [List.mem_singleton.1 hr, if_pos rfl, hstream]
        exact ⟨_, rfl, hcreator, rfl⟩
    · rw [hremoved, List.map_append, List.nodup_append]
      refine ⟨h.nodup, List.nodup_singleton _, ?_⟩
      intro i hi j hj hij
      rw [List.map_singleton, List.mem_singleton] at hj
      rw [hij, hj] at hi
      exact hnew hi
    · obtain ⟨old, hj, hc, hid⟩ := stream_of_dropped hj
      rw [hc, hid]
      exact h.ids j old hj
    · obtain ⟨old₁, hi, hc₁, hid₁⟩ := stream_of_dropped hi
      obtain ⟨old₂, hj, hc₂, hid₂⟩ := stream_of_dropped hj
      exact h.distinct i j old₁ old₂ hi hj (hc₁.symm.trans (hc.trans hc₂)) (hid₁.symm.trans (hid.trans hid₂))

theorem effect_dropped (s : StreamObjects α β ο) {operation : HandleOperation α β ο}
    (hoperation : s.overwritten operation = s.owned this) (handle : Option (UniqueDataStreamHandle β)) :
    Effect s operation (s.dropped this handle) := by
  refine ⟨by rw [hoperation]; rfl, fun k stream hk hne => ?_, fun r stream hr hk => ?_⟩
  · rw [hoperation] at hne
    rw [dropped]
    cases hthis : s.owned this with
    | none => exact hk
    | some r =>
      have hrk : r.2 ≠ k := fun heq => hne r.1 (hthis.trans (congrArg some (Prod.ext rfl heq)))
      rw [Option.elim_some, getElem?_disconnect, if_neg hrk, hk]
  · rw [hoperation] at hr
    rw [dropped, hr, Option.elim_some, getElem?_disconnect, if_pos rfl, hk]
    rfl

variable [DecidableEq β]

/-- The objects when a backend has created a stream. -/
def created (s : StreamObjects α β ο) (this : α) (stream : ObservedStream β ο) : StreamObjects α β ο :=
  { s with
    handles := Function.update s.handles this
      (some { backend := some stream.creator, dataStream := some s.streams.length })
    streams := s.streams ++ [stream]
    nextStreamId := Function.update s.nextStreamId stream.creator (s.nextStreamId stream.creator + 1) }

@[simp] theorem handles_created (s : StreamObjects α β ο) (this : α) (stream : ObservedStream β ο) :
    (s.created this stream).handles = Function.update s.handles this
      (some { backend := some stream.creator, dataStream := some s.streams.length }) := rfl

@[simp] theorem nextStreamId_created (s : StreamObjects α β ο) (this : α) (stream : ObservedStream β ο) :
    (s.created this stream).nextStreamId =
      Function.update s.nextStreamId stream.creator (s.nextStreamId stream.creator + 1) := rfl

/-- A stream that was connected to its observer by its backend. -/
def connectedStream (s : StreamObjects α β ο) (backend : β) (observer : ο) (streamType : StreamableType)
    (endpoint : String) (options : Json) : ObservedStream β ο :=
  { streamId := s.nextStreamId backend, streamType, endpoint, options, observer := some observer
    creator := backend, own := observer }

theorem createStream_eq (build : Build) (hthis : s.handles this = none) (backend : β) (observer : ο)
    (streamType : StreamableType) (endpoint : String) (options : Json) :
    s.createStream build this backend observer streamType endpoint options =
      .ok (s.created this (s.connectedStream backend observer streamType endpoint options)) := by
  have hfree : s.checkFree this = .ok () := by rw [checkFree, hthis, Option.isNone_none, if_pos rfl]
  have hconnect : (ObservedStream.create streamType endpoint options backend observer).connect build
      (s.nextStreamId backend) observer =
        .ok (s.connectedStream backend observer streamType endpoint options) :=
    (Except.bind_ok (build.assert_true _) _).trans (Except.bind_ok (build.assert_true _) _)
  rw [createStream, Except.bind_ok hfree, hconnect]
  rfl

/-- The handles that were there own what they owned. -/
theorem owned_created {stream : ObservedStream β ο} {r : β × Nat}
    (ha : (s.created this stream).owned a = some r) :
    a = this ∧ r = (stream.creator, s.streams.length) ∨ s.owned a = some r := by
  obtain ⟨hself, hother⟩ := owned_of_update s (s.created this stream) rfl
  have hself' : (s.created this stream).owned this = some (stream.creator, s.streams.length) := hself
  by_cases heq : a = this
  · rw [heq, hself'] at ha
    exact Or.inl ⟨heq, (Option.some.inj ha).symm⟩
  · rw [hother a heq] at ha
    exact Or.inr ha

theorem le_nextStreamId_created (s : StreamObjects α β ο) (this : α) (stream : ObservedStream β ο) (b : β) :
    s.nextStreamId b ≤ (s.created this stream).nextStreamId b := by
  rw [nextStreamId_created]
  by_cases hb : b = stream.creator
  · rw [hb, Function.update_self]
    omega
  · rw [Function.update_of_ne hb]

theorem sound_created (h : Sound s) (hthis : s.handles this = none) {stream : ObservedStream β ο}
    (hobserver : stream.observer = some stream.own) (hid : stream.streamId = s.nextStreamId stream.creator) :
    Sound (s.created this stream) := by
  obtain ⟨hself, hother⟩ := owned_of_update s (s.created this stream) rfl
  have hnone := owned_of_free hthis
  have hnew : (s.created this stream).streams[s.streams.length]? = some stream := List.getElem?_concat_length
  have hold : ∀ {k : Nat} {x}, s.streams[k]? = some x → (s.created this stream).streams[k]? = some x := by
    intro k x hk
    exact getElem?_append_of_eq_some hk [stream]
  have hcases : ∀ {k : Nat} {x}, (s.created this stream).streams[k]? = some x →
      s.streams[k]? = some x ∨ (k = s.streams.length ∧ x = stream) := by
    intro k x hk
    exact eq_some_or_of_concat hk
  refine ⟨backed_update h.backed (fun x hx => ?_) this, fun a r ha => ?_, fun a a' r r' ha ha' hr => ?_,
    fun k x hk hfree => ?_, fun r hr => ?_, h.nodup, fun k x hk => ?_,
    fun k k' x x' hk hk' hc hid' => ?_⟩
  · cases hx
    exact fun _ hbackend => by cases hbackend
  · rcases owned_created ha with ⟨-, rfl⟩ | ha
    · exact ⟨stream, hnew, rfl, hobserver⟩
    · obtain ⟨x, hx, hconnected⟩ := h.connected a r ha
      exact ⟨x, hold hx, hconnected⟩
  · rcases owned_created ha with ⟨heq, rfl⟩ | ha
    · rcases owned_created ha' with ⟨heq', -⟩ | ha'
      · exact heq.trans heq'.symm
      · exact absurd (h.owned_lt ha') (hr ▸ lt_irrefl _)
    · rcases owned_created ha' with ⟨-, rfl⟩ | ha'
      · exact absurd (h.owned_lt ha) (hr ▸ lt_irrefl _)
      · exact h.unique a a' r r' ha ha' hr
  · rcases hcases hk with hk | ⟨rfl, rfl⟩
    · refine h.released k x hk fun a ha => hfree a ?_
      have hne : a ≠ this := by
        intro heq
        rw [heq, hnone] at ha
        cases ha
      rw [hother a hne, ha]
    · exact absurd hself (hfree this)
  · obtain ⟨x, hx, hgone⟩ := h.removed r hr
    exact ⟨x, hold hx, hgone⟩
  · rcases hcases hk with hk | ⟨-, rfl⟩
    · exact (h.ids k x hk).trans_le (le_nextStreamId_created s this stream _)
    · rw [nextStreamId_created, Function.update_self, hid]
      omega
  · rcases hcases hk with hk₁ | ⟨rfl, rfl⟩
    · rcases hcases hk' with hk₂ | ⟨-, rfl⟩
      · exact h.distinct k k' x x' hk₁ hk₂ hc hid'
      · exact absurd hid' (h.fresh_id hk₁ hid hc)
    · rcases hcases hk' with hk₂ | ⟨rfl, -⟩
      · exact absurd hid'.symm (h.fresh_id hk₂ hid hc.symm)
      · rfl

/-- An operation on handles that exist returns, and keeps the invariant. -/
theorem run_spec (build : Build) (h : Sound s) {operation : HandleOperation α β ο}
    (hallowed : s.Allowed operation) :
    ∃ s', s.run build operation = .ok s' ∧ Sound s' ∧ Effect s operation s' := by
  cases operation with
  | construct this =>
    have hfree : s.checkFree this = .ok () := by
      rw [checkFree, show s.handles this = none from hallowed, Option.isNone_none, if_pos rfl]
    exact ⟨_, Except.bind_ok hfree _, sound_setHandle h (owned_of_free hallowed) backed_empty rfl,
      .of_none rfl rfl fun _ _ hk => hk⟩
  | createStream this backend observer streamType endpoint options =>
    refine ⟨_, createStream_eq build hallowed backend observer streamType endpoint options,
      sound_created h hallowed rfl rfl, .of_none rfl rfl fun k stream hk => ?_⟩
    exact getElem?_append_of_eq_some hk _
  | moveConstruct this that =>
    obtain ⟨hthis, hthat⟩ := hallowed
    have hne : that ≠ this := by
      intro heq
      exact hthat (heq ▸ hthis)
    exact ⟨_, moveConstruct_eq hthis hthat, sound_moved h (owned_of_free hthis) hne, .of_none rfl rfl fun _ _ hk => hk⟩
  | moveAssign this that =>
    obtain ⟨hthis, hthat⟩ := hallowed
    have hdropped : Sound (s.dropped this (some {})) := sound_dropped h backed_empty rfl
    have heffect : Effect s (.moveAssign this that) (s.dropped this (some {})) := effect_dropped s rfl _
    by_cases hne : that = this
    · rw [hne]
      exact ⟨_, moveAssign_self h hthis, hdropped, effect_dropped s rfl (some {})⟩
    · exact ⟨_, moveAssign_eq h hthis hthat hne, sound_moved hdropped (owned_reset s this) hne,
        heffect.removed, heffect.kept, heffect.gone⟩
  | reset this =>
    exact ⟨_, reset_eq h hallowed, sound_dropped h backed_empty rfl, effect_dropped s rfl _⟩
  | destroy this =>
    exact ⟨_, destroy_eq h hallowed, sound_dropped h backed_none rfl, effect_dropped s rfl _⟩

/-- An operation that returns was on handles that exist. -/
theorem allowed_of_run (h : Sound s) {build : Build} {operation : HandleOperation α β ο}
    (ran : s.run build operation = .ok s') : s.Allowed operation := by
  have hat : ∀ {a : α} {handle}, s.handleAt a = .ok handle → s.handles a ≠ none := by
    intro a handle hok hnone
    rw [handleAt, hnone] at hok
    cases hok
  have hfree : ∀ {a : α} {u}, s.checkFree a = .ok u → s.handles a = none := by
    intro a u hok
    rw [checkFree] at hok
    split at hok
    · next hnone => exact Option.isNone_iff_eq_none.1 hnone
    · cases hok
  have hreset : ∀ {a : α} {t}, s.reset a = .ok t → s.handles a ≠ none ∧
      ∀ b, t.handles b ≠ none → s.handles b ≠ none := by
    intro a t hok
    obtain ⟨handle, hhandle, -⟩ := Except.bind_eq_ok.1 hok
    cases (reset_eq h (hat hhandle)).symm.trans hok
    refine ⟨hat hhandle, fun b hb => ?_⟩
    by_cases heq : b = a
    · exact heq ▸ hat hhandle
    · rw [handles_dropped, Function.update_of_ne heq] at hb
      exact hb
  cases operation with
  | construct this =>
    obtain ⟨u, hu, -⟩ := Except.bind_eq_ok.1 ran
    exact hfree hu
  | createStream this =>
    obtain ⟨u, hu, -⟩ := Except.bind_eq_ok.1 ran
    exact hfree hu
  | moveConstruct this that =>
    obtain ⟨u, hu, ran⟩ := Except.bind_eq_ok.1 ran
    obtain ⟨handle, hhandle, -⟩ := Except.bind_eq_ok.1 ran
    exact ⟨hfree hu, hat hhandle⟩
  | moveAssign this that =>
    obtain ⟨t, ht, ran⟩ := Except.bind_eq_ok.1 ran
    obtain ⟨hthis, hother⟩ := hreset ht
    obtain ⟨handle, hhandle, -⟩ := Except.bind_eq_ok.1 ran
    refine ⟨hthis, hother that fun hnone => ?_⟩
    rw [handleAt, hnone] at hhandle
    cases hhandle
  | reset this => exact (hreset ran).1
  | destroy this =>
    obtain ⟨t, ht, -⟩ := Except.bind_eq_ok.1 ran
    exact (hreset ht).1

/-! ## Several operations -/

theorem runAll_cons {build : Build} {operation : HandleOperation α β ο}
    {operations : List (HandleOperation α β ο)} {t : StreamObjects α β ο}
    (ran : s.run build operation = .ok t) :
    s.runAll build (operation :: operations) = t.runAll build operations :=
  Except.bind_ok ran _

theorem runAll_append {build : Build} {first rest : List (HandleOperation α β ο)}
    {t : StreamObjects α β ο} (ran : s.runAll build first = .ok t) :
    s.runAll build (first ++ rest) = t.runAll build rest := by
  rw [runAll, List.foldlM_append]
  exact Except.bind_ok ran _

theorem runAll_spec {build : Build} (h : Sound s) {operations : List (HandleOperation α β ο)}
    (ran : s.runAll build operations = .ok s') :
    Sound s' ∧ (∀ r ∈ s.removed, r ∈ s'.removed) ∧ ∀ (k : Nat) stream, s.streams[k]? = some stream →
      ∃ stream', s'.streams[k]? = some stream' ∧ stream'.creator = stream.creator ∧
        stream'.own = stream.own := by
  induction operations generalizing s with
  | nil =>
    cases ran
    exact ⟨h, fun _ hr => hr, fun k stream hk => ⟨stream, hk, rfl, rfl⟩⟩
  | cons operation operations ih =>
    obtain ⟨t, ht, ran⟩ := Except.bind_eq_ok.1 ran
    obtain ⟨t', ht', hsound, heffect⟩ := run_spec build h (allowed_of_run h ht)
    cases ht'.symm.trans ht
    obtain ⟨hsound', hremoved, hstreams⟩ := ih hsound ran
    refine ⟨hsound', fun r hr => hremoved r ?_, fun k stream hk => ?_⟩
    · rw [heffect.removed]
      exact List.mem_append_left _ hr
    · obtain ⟨stream₁, hk₁, hcreator₁, hown₁⟩ := heffect.stream_kept hk
      obtain ⟨stream₂, hk₂, hcreator₂, hown₂⟩ := hstreams k stream₁ hk₁
      exact ⟨stream₂, hk₂, hcreator₂.trans hcreator₁, hown₂.trans hown₁⟩

/-- Handles are constructed from others, one after another. -/
theorem runAll_moveConstruct (build : Build) (h : Sound s) {ι : Type} {this that : ι → α}
    (hthis : this.Injective) (hthat : that.Injective) (hne : ∀ i j, that i ≠ this j) {is : List ι}
    (hnodup : is.Nodup) (hfree : ∀ i ∈ is, s.handles (this i) = none)
    (hlive : ∀ i ∈ is, s.handles (that i) ≠ none) :
    ∃ s', s.runAll build (is.map fun i => .moveConstruct (this i) (that i)) = .ok s' ∧ Sound s' ∧
      SameStreams s s' ∧
      (∀ i ∈ is, s'.handles (this i) = s.handles (that i) ∧ s'.handles (that i) = some {}) ∧
      ∀ a, (∀ i ∈ is, a ≠ this i ∧ a ≠ that i) → s'.handles a = s.handles a := by
  induction is generalizing s with
  | nil => exact ⟨s, rfl, h, ⟨rfl, rfl⟩, (fun i hi => by cases hi), fun a _ => rfl⟩
  | cons i is ih =>
    obtain ⟨hi, hnodup⟩ := List.nodup_cons.1 hnodup
    have hfreei := hfree i List.mem_cons_self
    have hnone := owned_of_free hfreei
    have hother : ∀ j ∈ is, (s.moved (this i) (that i)).handles (this j) = s.handles (this j) ∧
        (s.moved (this i) (that i)).handles (that j) = s.handles (that j) := by
      intro j hj
      have hji : j ≠ i := fun heq => hi (heq ▸ hj)
      exact ⟨handles_moved_of_ne s (fun heq => hji (hthis heq)) (hne i j).symm,
        handles_moved_of_ne s (hne j i) fun heq => hji (hthat heq)⟩
    obtain ⟨s', ran, hsound, hsame, hmoved, hrest⟩ := ih (sound_moved h hnone (hne i i)) hnodup
      (fun j hj => (hother j hj).1.trans (hfree j (List.mem_cons_of_mem _ hj)))
      fun j hj => (hother j hj).2 ▸ hlive j (List.mem_cons_of_mem _ hj)
    have hfirst : s.run build (.moveConstruct (this i) (that i)) = .ok (s.moved (this i) (that i)) :=
      moveConstruct_eq hfreei (hlive i List.mem_cons_self)
    refine ⟨s', (runAll_cons hfirst).trans ran, hsound, ⟨hsame.streams, hsame.removed⟩, fun j hj => ?_,
      fun a ha => ?_⟩
    · rcases List.mem_cons.1 hj with rfl | hj
      · have hkept : ∀ k ∈ is, j ≠ k := fun k hk heq => hi (heq ▸ hk)
        rw [hrest (this j) fun k hk => ⟨fun heq => hkept k hk (hthis heq), (hne k j).symm⟩,
          hrest (that j) fun k hk => ⟨hne j k, fun heq => hkept k hk (hthat heq)⟩]
        exact ⟨handles_moved_self s _ _, handles_moved_that s (hne j j)⟩
      · rw [(hmoved j hj).1, (hother j hj).2]
        exact ⟨rfl, (hmoved j hj).2⟩
    · obtain ⟨hathis, hathat⟩ := ha i List.mem_cons_self
      rw [hrest a fun k hk => ha k (List.mem_cons_of_mem _ hk), handles_moved_of_ne s hathis hathat]

theorem runAll_destroy (build : Build) (h : Sound s) {ι : Type} {this : ι → α} (hthis : this.Injective)
    {is : List ι} (hnodup : is.Nodup) (hempty : ∀ i ∈ is, s.handles (this i) = some {}) :
    ∃ s', s.runAll build (is.map fun i => .destroy (this i)) = .ok s' ∧ Sound s' ∧ SameStreams s s' ∧
      (∀ i ∈ is, s'.handles (this i) = none) ∧ ∀ a, (∀ i ∈ is, a ≠ this i) → s'.handles a = s.handles a := by
  induction is generalizing s with
  | nil => exact ⟨s, rfl, h, ⟨rfl, rfl⟩, (fun i hi => by cases hi), fun a _ => rfl⟩
  | cons i is ih =>
    obtain ⟨hi, hnodup⟩ := List.nodup_cons.1 hnodup
    have hemptyi := hempty i List.mem_cons_self
    have hlive : s.handles (this i) ≠ none := by simp [hemptyi]
    have hnone : s.owned (this i) = none := by rw [owned_of_handles hemptyi]; rfl
    have hother : ∀ a, a ≠ this i → (s.dropped (this i) none).handles a = s.handles a := by
      intro a ha
      rw [handles_dropped, Function.update_of_ne ha]
    obtain ⟨s', ran, hsound, hsame, hgone, hrest⟩ :=
      ih (sound_dropped h backed_none rfl) hnodup fun j hj => by
        rw [hother _ fun heq => hi (hthis heq ▸ hj)]
        exact hempty j (List.mem_cons_of_mem _ hj)
    have hfirst : s.run build (.destroy (this i)) = .ok (s.dropped (this i) none) := destroy_eq h hlive
    refine ⟨s', (runAll_cons hfirst).trans ran, hsound, (sameStreams_dropped hnone none).trans hsame,
      fun j hj => ?_, fun a ha => ?_⟩
    · rcases List.mem_cons.1 hj with rfl | hj
      · rw [hrest (this j) fun k hk heq => hi (hthis heq ▸ hk), handles_dropped, Function.update_self]
      · exact hgone j hj
    · rw [hrest a fun k hk => ha k (List.mem_cons_of_mem _ hk), hother a (ha i List.mem_cons_self)]

end StreamObjects

end HotelPms

import HotelPms.Net.Batches
import HotelPms.Persistence.ChangeQueue

/- `NetClientSession::runCreateStream` and `runRemoveStream`.

   A session keeps its streams in a `std::vector` of pairs of a handle and an observer. What
   the vector does to the handles is a list of operations: appending moves the new handle
   in, after a reallocation all others too, and erasing assigns to each later element the
   one after it and destroys the last (`emplaceBack`, `erase`). The operations of a command
   run one by one; between any two of them the backend and `applyStreamChanges` may go on.

   `Holds` says what a session holds between two commands. A command that runs is on its
   way to such a state (`Sound`), as nothing but its own operations moves handles. -/
namespace HotelPms
open Lib StreamObjects

/-- Where the handles of a session are. -/
inductive SessionAddress where
  /-- the local variable of `runCreateStream` -/
  | streamHandle
  /-- an element of `_streams`, in the buffer that the vector has or had -/
  | slot (buffer index : Nat)
deriving DecidableEq

/-- A `detail::SessionStreamObserver`, which is an object of its own. -/
structure SessionObserver where
  address : Nat
  clientStreamId : Int
deriving DecidableEq

structure SessionStreams (β : Type) where
  world : StreamWorld SessionAddress β SessionObserver := {}
  /-- the buffer of `_streams` -/
  buffer : Nat := 0
  /-- the observers in `_streams` -/
  observers : List SessionObserver := []
  /-- what is left to do of the command that runs -/
  pending : List (HandleOperation SessionAddress β SessionObserver) := []
  /-- history: the commands that were begun -/
  commands : List NetClientSession.Command := []

namespace SessionStreams

variable {β : Type}

/-- `_streams.emplace_back`, of a vector of some size -/
def emplaceBack (buffer size : Nat) (reallocates : Bool) :
    List (HandleOperation SessionAddress β SessionObserver) :=
  if reallocates then
    .moveConstruct (.slot (buffer + 1) size) .streamHandle ::
      ((List.range size).map (fun i => .moveConstruct (.slot (buffer + 1) i) (.slot buffer i)) ++
        (List.range size).map fun i => .destroy (.slot buffer i))
  else [.moveConstruct (.slot buffer size) .streamHandle]

/-- `_streams.erase`, of a vector of some size -/
def erase (buffer size it : Nat) : List (HandleOperation SessionAddress β SessionObserver) :=
  (List.range' it (size - 1 - it)).map (fun i => .moveAssign (.slot buffer i) (.slot buffer (i + 1))) ++
    [.destroy (.slot buffer (size - 1))]

/-- What a command does: the observers that are in `_streams` afterwards, and the operations
    on handles. The address of a new observer, and whether the vector has to reallocate,
    are up to the allocator and the capacity. -/
def startCommand (backend : β) (s : SessionStreams β) (address : Nat) (reallocates : Bool) :
    NetClientSession.Command → SessionStreams β
  | .createStream clientId type service options => { s with
      pending := .createStream .streamHandle backend ⟨address, clientId⟩ type service options ::
        (emplaceBack s.buffer s.observers.length reallocates ++ [.destroy .streamHandle])
      buffer := if reallocates then s.buffer + 1 else s.buffer
      observers := s.observers ++ [⟨address, clientId⟩] }
  | .removeStream clientId =>
    match s.observers.findIdx? fun observer => observer.clientStreamId == clientId with
    | some it => { s with
        pending := erase s.buffer s.observers.length it
        observers := s.observers.eraseIdx it }
    | none => s
  | .queueOperations _ _ => s
  | .unknown => s

variable [DecidableEq β]

/-- One step of the session, of its backend, or of `applyStreamChanges`. -/
inductive Step (build : Build) (backend : β) : SessionStreams β → SessionStreams β → Prop where
  | command (s : SessionStreams β) (idle : s.pending = []) (command : NetClientSession.Command)
      (address : Nat) (reallocates : Bool) :
    Step build backend s { s.startCommand backend address reallocates command with
      commands := s.commands ++ [command] }
  | operate (s : SessionStreams β) (operation : HandleOperation SessionAddress β SessionObserver)
      (rest : List (HandleOperation SessionAddress β SessionObserver))
      (next : s.pending = operation :: rest) (objects : StreamObjects SessionAddress β SessionObserver)
      (ran : s.world.objects.run build operation = .ok objects) :
    Step build backend s { s with
      world := { s.world.addStream operation with objects }
      pending := rest }
  | queue (s : SessionStreams β) (world : StreamWorld SessionAddress β SessionObserver)
      (step : StreamWorld.QueueStep s.world world) :
    Step build backend s { s with world }

/-- The states that commands bring a new session to. -/
def Reached (build : Build) (backend : β) (s : SessionStreams β) : Prop :=
  Reachable (fun s => s = {}) (Step build backend) s

end SessionStreams

namespace NetClientSession.Command

/-- The client id that a command creates a stream for. -/
def createdId : NetClientSession.Command → Option Int
  | .createStream clientId _ _ _ => some clientId
  | _ => none

/-- The client ids that are open after a command. -/
def openIds (ids : List Int) : NetClientSession.Command → List Int
  | .createStream clientId _ _ _ => ids ++ [clientId]
  | .removeStream clientId => ids.erase clientId
  | .queueOperations _ _ => ids
  | .unknown => ids

end NetClientSession.Command

namespace SessionStreams

variable {β : Type}

/-- The client ids that streams were created for, in this order. -/
def createdIds (commands : List NetClientSession.Command) : List Int :=
  commands.filterMap NetClientSession.Command.createdId

/-- The client ids that streams were created for and not removed since. -/
def openIds (commands : List NetClientSession.Command) : List Int :=
  commands.foldl NetClientSession.Command.openIds []

/-- The handle of an element: an element that was moved from owns nothing. -/
def slotHandle (backend : β) : Option Nat → UniqueDataStreamHandle β
  | some stream => { backend := some backend, dataStream := some stream }
  | none => {}

/-- The handles of a session between two steps of the vector. -/
def slots (backend : β) (buffer : Nat) (xs : List (Option Nat)) :
    SessionAddress → Option (UniqueDataStreamHandle β)
  | .streamHandle => none
  | .slot b i => if b = buffer then (xs[i]?).map (slotHandle backend) else none

variable {backend : β} {buffer : Nat} {xs : List (Option Nat)}

theorem slots_slot (i : Nat) :
    slots backend buffer xs (.slot buffer i) = (xs[i]?).map (slotHandle backend) := if_pos rfl

theorem slots_set {i : Nat} (hi : i < xs.length) (x : Option Nat) :
    Function.update (slots backend buffer xs) (.slot buffer i) (some (slotHandle backend x)) =
      slots backend buffer (xs.set i x) := by
  funext a
  by_cases ha : a = .slot buffer i
  · rw [ha, Function.update_self, slots_slot, List.getElem?_set_self hi, Option.map_some]
  · rw [Function.update_of_ne ha]
    cases a with
    | streamHandle => rfl
    | slot b j =>
      simp only [slots]
      split
      · next hb =>
        rw [List.getElem?_set_ne]
        intro hij
        rw [hb, hij] at ha
        exact ha rfl
      · rfl

theorem slots_of_ne {b : Nat} (h : b ≠ buffer) (i : Nat) :
    slots backend buffer xs (.slot b i) = none := if_neg h

theorem slots_of_le {b i : Nat} (h : xs.length ≤ i) : slots backend buffer xs (.slot b i) = none := by
  simp only [slots, List.getElem?_eq_none h, Option.map_none, ite_self]

theorem slots_concat (x : Option Nat) : slots backend buffer (xs ++ [x]) =
    Function.update (slots backend buffer xs) (.slot buffer xs.length) (some (slotHandle backend x)) := by
  funext a
  by_cases ha : a = .slot buffer xs.length
  · rw [ha, Function.update_self, slots_slot, List.getElem?_concat_length, Option.map_some]
  · rw [Function.update_of_ne ha]
    cases a with
    | streamHandle => rfl
    | slot b i =>
      rcases lt_trichotomy i xs.length with hlt | rfl | hgt
      · simp only [slots, List.getElem?_append_left hlt]
      · have hb : b ≠ buffer := fun hb => ha (hb ▸ rfl)
        rw [slots_of_ne hb, slots_of_ne hb]
      · rw [slots_of_le hgt.le, slots_of_le (by simpa using hgt)]

theorem slots_pop (x : Option Nat) :
    Function.update (slots backend buffer (xs ++ [x])) (.slot buffer xs.length) none =
      slots backend buffer xs := by
  have hfree : slots backend buffer xs (.slot buffer xs.length) = none := slots_of_le le_rfl
  rw [slots_concat, Function.update_idem, ← hfree, Function.update_eq_self]

/-! ## What a session holds -/

/-- Between two commands: the elements of the vector own streams that were created for the
    observers beside them, whose client ids are those that are open. -/
structure Holds (backend : β) (buffer : Nat) (observers : List SessionObserver)
    (commands : List NetClientSession.Command) (objects : StreamObjects SessionAddress β SessionObserver)
    (ks : List Nat) : Prop where
  sound : objects.Sound
  handles : objects.handles = slots backend buffer (ks.map some)
  beside : ks.map (fun k => (objects.streams[k]?).map (·.own)) = observers.map some
  created : objects.streams.map (·.own.clientStreamId) = createdIds commands
  ids : observers.map (·.clientStreamId) = openIds commands

variable {observers : List SessionObserver} {commands : List NetClientSession.Command}
  {objects : StreamObjects SessionAddress β SessionObserver} {ks : List Nat}

theorem Holds.length (h : Holds backend buffer observers commands objects ks) :
    ks.length = observers.length := by
  have hlength := congrArg List.length h.beside
  rw [List.length_map, List.length_map] at hlength
  exact hlength

theorem Holds.stream (h : Holds backend buffer observers commands objects ks) {k : Nat} (hk : k ∈ ks) :
    ∃ stream, objects.streams[k]? = some stream ∧ stream.own ∈ observers := by
  have hmem : (objects.streams[k]?).map (·.own) ∈ observers.map some := by
    rw [← h.beside]
    exact List.mem_map_of_mem hk
  obtain ⟨observer, hobserver, hown⟩ := List.mem_map.1 hmem
  obtain ⟨stream, hstream, rfl⟩ := Option.map_eq_some_iff.1 hown.symm
  exact ⟨stream, hstream, hobserver⟩

theorem map_eraseP_clientStreamId (observers : List SessionObserver) (clientId : Int) :
    (observers.eraseP fun observer => observer.clientStreamId == clientId).map (·.clientStreamId) =
      (observers.map (·.clientStreamId)).erase clientId := by
  rw [List.erase_eq_eraseP', List.eraseP_map]
  rfl

theorem Holds.unchanged (h : Holds backend buffer observers commands objects ks)
    {command : NetClientSession.Command} (hcreated : command.createdId = none)
    (hids : command.openIds (openIds commands) = openIds commands) :
    Holds backend buffer observers (commands ++ [command]) objects ks := by
  have hsame : createdIds (commands ++ [command]) = createdIds commands := by
    rw [createdIds, List.filterMap_append, List.filterMap_cons_none hcreated]
    exact List.append_nil _
  have hopen : openIds (commands ++ [command]) = openIds commands := by
    rw [openIds, List.foldl_append]
    exact hids
  exact ⟨h.sound, h.handles, h.beside, h.created.trans hsame.symm, h.ids.trans hopen.symm⟩

theorem Holds.unchanged_remove (h : Holds backend buffer observers commands objects ks) {clientId : Int}
    (hmiss : (observers.findIdx? fun observer => observer.clientStreamId == clientId) = none) :
    Holds backend buffer observers (commands ++ [.removeStream clientId]) objects ks := by
  have hkept : (observers.eraseP fun observer => observer.clientStreamId == clientId) = observers := by
    rw [List.eraseP_eq_eraseIdx, hmiss]
  have hids := map_eraseP_clientStreamId observers clientId
  rw [hkept, h.ids] at hids
  exact h.unchanged rfl hids.symm

theorem map_own_disconnect (streams : List (ObservedStream β SessionObserver)) (k : Nat) :
    (streams.modify k ObservedStream.disconnect).map (·.own) = streams.map (·.own) := by
  refine List.ext_getElem? fun j => ?_
  rw [List.getElem?_map, List.getElem?_map, own_disconnect]

/-! ## What erasing does -/

variable {s : StreamObjects SessionAddress β SessionObserver}

theorem owned_slot {i : Nat} (hhandles : s.handles = slots backend buffer xs) :
    s.owned (.slot buffer i) = (xs[i]?).bind fun x => x.map fun k => (backend, k) := by
  rw [owned, hhandles, slots_slot]
  cases xs[i]? with
  | none => rfl
  | some x => cases x <;> rfl

/-- The streams that are owned are those of the elements. -/
theorem Holds.mem_iff (h : Holds backend buffer observers commands objects ks) {k : Nat} :
    k ∈ ks ↔ ∃ a b, objects.owned a = some (b, k) := by
  constructor
  · intro hk
    obtain ⟨i, hi⟩ := List.getElem?_of_mem hk
    refine ⟨.slot buffer i, backend, ?_⟩
    rw [owned_slot h.handles, List.getElem?_map, hi]
    rfl
  · rintro ⟨a, b, ha⟩
    cases a with
    | streamHandle =>
      rw [owned, h.handles] at ha
      cases ha
    | slot buffer' i =>
      by_cases hbuffer : buffer' = buffer
      · rw [hbuffer, owned_slot h.handles, List.getElem?_map] at ha
        cases hi : ks[i]? with
        | none =>
          rw [hi] at ha
          cases ha
        | some j =>
          rw [hi] at ha
          cases ha
          exact List.mem_of_getElem? hi
      · rw [owned, h.handles, slots_of_ne hbuffer] at ha
        cases ha

theorem Holds.mem_openIds (h : Holds backend buffer observers commands objects ks)
    (hnodup : (createdIds commands).Nodup) {k : Nat} {stream : ObservedStream β SessionObserver}
    (hk : objects.streams[k]? = some stream) : k ∈ ks ↔ stream.own.clientStreamId ∈ openIds commands := by
  rw [← h.ids]
  constructor
  · intro hmem
    obtain ⟨stream', hstream', hobserver⟩ := h.stream hmem
    cases hk.symm.trans hstream'
    exact List.mem_map_of_mem hobserver
  · intro hid
    obtain ⟨observer, hobserver, heq⟩ := List.mem_map.1 hid
    have hmem : some observer ∈ ks.map fun k => (objects.streams[k]?).map (·.own) := by
      rw [h.beside]
      exact List.mem_map_of_mem hobserver
    obtain ⟨j, hj, hown⟩ := List.mem_map.1 hmem
    obtain ⟨stream', hstream', rfl⟩ := Option.map_eq_some_iff.1 hown
    rw [← h.created] at hnodup
    have hlt := (List.getElem?_eq_some_iff.1 hk).1
    have hsame : k = j := by
      refine (List.getElem?_inj (by rw [List.length_map]; exact hlt) hnodup).1 ?_
      rw [List.getElem?_map, List.getElem?_map, hk, hstream', Option.map_some, Option.map_some, heq]
    rw [hsame]
    exact hj

/-- What an element owned is let go of. -/
structure LetsGo (backend : β) (x : Option Nat) (s s' : StreamObjects SessionAddress β SessionObserver) :
    Prop where
  sound : s'.Sound
  streams : s'.streams = x.elim s.streams fun k => s.streams.modify k ObservedStream.disconnect
  removed : s'.removed = s.removed ++ (x.map fun k => (backend, k)).toList

theorem letsGo_dropped (h : s.Sound) {i : Nat} {x : Option Nat}
    (hhandles : s.handles = slots backend buffer xs) (hx : xs[i]? = some x)
    {handle : Option (UniqueDataStreamHandle β)} (hbacked : ∀ x ∈ handle, x.Backed)
    (hnone : handle.bind (·.owned) = none) : LetsGo backend x s (s.dropped (.slot buffer i) handle) := by
  have howned : s.owned (.slot buffer i) = x.map fun k => (backend, k) := by
    rw [owned_slot hhandles, hx, Option.bind_some]
  refine ⟨sound_dropped h hbacked hnone, ?_, ?_⟩
  · rw [dropped, howned]
    cases x <;> rfl
  · rw [dropped, howned]

variable [DecidableEq β]

theorem run_moveAssign (build : Build) (h : s.Sound) {x y : Option Nat} {before after : List (Option Nat)}
    (hhandles : s.handles = slots backend buffer (before ++ x :: y :: after)) :
    ∃ s', s.run build (.moveAssign (.slot buffer before.length) (.slot buffer (before.length + 1))) = .ok s' ∧
      LetsGo backend x s s' ∧ s'.handles = slots backend buffer (before ++ y :: none :: after) := by
  have hthis : s.handles (.slot buffer before.length) ≠ none := by
    rw [hhandles, slots_slot]
    simp
  have hthat : s.handles (.slot buffer (before.length + 1)) ≠ none := by
    rw [hhandles, slots_slot]
    simp
  have hne : SessionAddress.slot buffer (before.length + 1) ≠ .slot buffer before.length := by simp
  have hx : (before ++ x :: y :: after)[before.length]? = some x := by simp
  have hdropped := letsGo_dropped h hhandles hx backed_empty rfl
  refine ⟨_, moveAssign_eq h hthis hthat hne,
    ⟨sound_moved hdropped.sound (owned_reset s _) hne, hdropped.streams, hdropped.removed⟩, ?_⟩
  have hnext : (before ++ none :: y :: after)[before.length + 1]? = some y := by simp
  have hempty : some ({} : UniqueDataStreamHandle β) = some (slotHandle backend none) := rfl
  rw [moved, setHandle, setHandle, handles_dropped, hhandles, hempty, slots_set (by simp),
    List.set_append_right _ _ le_rfl, Nat.sub_self, List.set_cons_zero, slots_slot, hnext, Option.map_some]
  show Function.update (Function.update (slots backend buffer (before ++ none :: y :: after)) _ _) _ _ = _
  rw [slots_set (by simp), slots_set (by simp)]
  simp

theorem run_destroy_last (build : Build) (h : s.Sound) {x : Option Nat}
    (hhandles : s.handles = slots backend buffer (xs ++ [x])) :
    ∃ s', s.run build (.destroy (.slot buffer xs.length)) = .ok s' ∧ LetsGo backend x s s' ∧
      s'.handles = slots backend buffer xs := by
  have hlive : s.handles (.slot buffer xs.length) ≠ none := by
    rw [hhandles, slots_slot, List.getElem?_concat_length]
    simp
  refine ⟨_, destroy_eq h hlive,
    letsGo_dropped h hhandles List.getElem?_concat_length backed_none rfl, ?_⟩
  rw [handles_dropped, hhandles, slots_pop]

theorem runAll_shift (build : Build) (h : s.Sound) (before after : List (Option Nat))
    (hhandles : s.handles = slots backend buffer (before ++ none :: after)) :
    ∃ s', s.runAll build ((List.range' before.length after.length).map fun i =>
        .moveAssign (.slot buffer i) (.slot buffer (i + 1))) = .ok s' ∧ LetsGo backend none s s' ∧
      s'.handles = slots backend buffer (before ++ after ++ [none]) := by
  induction after generalizing s before with
  | nil => exact ⟨s, rfl, ⟨h, rfl, (List.append_nil _).symm⟩, by rw [hhandles, List.append_nil]⟩
  | cons x after ih =>
    obtain ⟨t, hfirst, hletsGo, hmoved⟩ := run_moveAssign build h hhandles
    have hlist : before ++ x :: none :: after = (before ++ [x]) ++ none :: after := by simp
    rw [hlist] at hmoved
    obtain ⟨s', hrest, hletsGo', hfinal⟩ := ih hletsGo.sound (before ++ [x]) hmoved
    rw [List.length_append] at hrest
    refine ⟨s', (runAll_cons hfirst).trans hrest, ⟨hletsGo'.sound, hletsGo'.streams.trans hletsGo.streams, ?_⟩, ?_⟩
    · rw [hletsGo'.removed, hletsGo.removed, Option.map_none, Option.toList_none, List.append_nil]
    · rw [hfinal]
      simp

/-- The stream of the element that is erased is disconnected and removed, and no other. -/
theorem runAll_erase (build : Build) (h : s.Sound) (before after : List (Option Nat)) {k : Nat}
    (hhandles : s.handles = slots backend buffer (before ++ some k :: after)) :
    ∃ s', s.runAll build (erase buffer (before.length + 1 + after.length) before.length) = .ok s' ∧
      LetsGo backend (some k) s s' ∧ s'.handles = slots backend buffer (before ++ after) := by
  have hcount : before.length + 1 + after.length - 1 - before.length = after.length := by omega
  have hlast : before.length + 1 + after.length - 1 = before.length + after.length := by omega
  rw [erase, hcount, hlast]
  cases after with
  | nil =>
    -- the last element is destroyed with its stream
    obtain ⟨s', hdestroy, hletsGo, hfinal⟩ := run_destroy_last build h hhandles
    rw [List.append_nil]
    exact ⟨s', (runAll_cons hdestroy).trans rfl, hletsGo, hfinal⟩
  | cons x after =>
    -- the first assignment lets go of the stream, the others and the destructor of nothing
    obtain ⟨t, hfirst, hletsGo, hmoved⟩ := run_moveAssign build h hhandles
    have hlist : before ++ x :: none :: after = (before ++ [x]) ++ none :: after := by simp
    rw [hlist] at hmoved
    obtain ⟨t', hrest, hletsGo', hshifted⟩ := runAll_shift build hletsGo.sound (before ++ [x]) after hmoved
    obtain ⟨s', hdestroy, hletsGo'', hfinal⟩ := run_destroy_last build hletsGo'.sound hshifted
    have hsize : before.length + (x :: after).length = (before ++ [x] ++ after).length := by simp
    rw [List.length_append] at hrest
    rw [hsize]
    refine ⟨s', (runAll_append ((runAll_cons hfirst).trans hrest)).trans ((runAll_cons hdestroy).trans rfl),
      ⟨hletsGo''.sound, ?_, ?_⟩, ?_⟩
    · exact hletsGo''.streams.trans (hletsGo'.streams.trans hletsGo.streams)
    · rw [hletsGo''.removed, hletsGo'.removed, hletsGo.removed, Option.map_none, Option.toList_none,
        List.append_nil, List.append_nil]
    · rw [hfinal]
      simp

/-! ## What appending does -/

/-- The vector reallocates: the elements are moved to the next buffer, and those of the old
    one are destroyed. -/
theorem runAll_reallocate (build : Build) (h : s.Sound) (hlength : ∀ i < xs.length,
      s.handles (.slot buffer i) = (xs[i]?).map (slotHandle backend))
    (hfree : ∀ i < xs.length, s.handles (.slot (buffer + 1) i) = none) :
    ∃ s', s.runAll build ((List.range xs.length).map (fun i =>
          .moveConstruct (.slot (buffer + 1) i) (.slot buffer i)) ++
        (List.range xs.length).map fun i => .destroy (.slot buffer i)) = .ok s' ∧ s'.Sound ∧
      SameStreams s s' ∧
      (∀ i < xs.length, s'.handles (.slot (buffer + 1) i) = (xs[i]?).map (slotHandle backend) ∧
        s'.handles (.slot buffer i) = none) ∧
      ∀ a, (∀ i < xs.length, a ≠ .slot (buffer + 1) i ∧ a ≠ .slot buffer i) → s'.handles a = s.handles a := by
  have hinjective : ∀ b, Function.Injective (SessionAddress.slot b) := by
    intro b i j hij
    cases hij
    rfl
  have hne : ∀ i j, SessionAddress.slot buffer i ≠ .slot (buffer + 1) j := by
    intro i j hij
    cases hij
  have hlive : ∀ i ∈ List.range xs.length, s.handles (.slot buffer i) ≠ none := by
    intro i hi
    have hlt := List.mem_range.1 hi
    rw [hlength i hlt, List.getElem?_eq_getElem hlt]
    simp
  obtain ⟨t, hmove, ht, hsame, hmoved, hother⟩ := runAll_moveConstruct build h (hinjective (buffer + 1))
    (hinjective buffer) hne List.nodup_range (fun i hi => hfree i (List.mem_range.1 hi)) hlive
  obtain ⟨s', hdestroy, hs', hsame', hgone, hother'⟩ := runAll_destroy build ht (hinjective buffer)
    List.nodup_range fun i hi => (hmoved i hi).2
  refine ⟨s', (runAll_append hmove).trans hdestroy, hs', hsame.trans hsame', fun i hi => ⟨?_, ?_⟩,
    fun a ha => ?_⟩
  · rw [hother' _ fun j _ => (hne j i).symm, (hmoved i (List.mem_range.2 hi)).1, hlength i hi]
  · exact hgone i (List.mem_range.2 hi)
  · rw [hother' a fun j hj => (ha j (List.mem_range.1 hj)).2, hother a fun j hj => ha j (List.mem_range.1 hj)]

theorem run_emplace (build : Build) (h : s.Sound) {k : Nat}
    (hlocal : s.handles .streamHandle = some (slotHandle backend (some k)))
    (hslots : ∀ b i, s.handles (.slot b i) = slots backend buffer xs (.slot b i)) (b : Nat) :
    ∃ s', s.run build (.moveConstruct (.slot b xs.length) .streamHandle) = .ok s' ∧ s'.Sound ∧
      SameStreams s s' ∧ s'.handles .streamHandle = some {} ∧
      ∀ b' i, s'.handles (.slot b' i) = Function.update (slots backend buffer xs) (.slot b xs.length)
        (some (slotHandle backend (some k))) (.slot b' i) := by
  have hfree : s.handles (.slot b xs.length) = none := by rw [hslots, slots_of_le le_rfl]
  have hne : SessionAddress.streamHandle ≠ .slot b xs.length := by simp
  refine ⟨_, moveConstruct_eq hfree (by simp [hlocal]), sound_moved h (owned_of_free hfree) hne, ⟨rfl, rfl⟩,
    handles_moved_that s hne, fun b' i => ?_⟩
  by_cases heq : SessionAddress.slot b' i = .slot b xs.length
  · rw [heq, handles_moved_self, Function.update_self, hlocal]
  · rw [handles_moved_of_ne s heq (by simp), hslots, Function.update_of_ne heq]

/-- The new handle goes to the end of the vector. -/
theorem runAll_emplaceBack (build : Build) (h : s.Sound) {k : Nat}
    (hlocal : s.handles .streamHandle = some (slotHandle backend (some k)))
    (hslots : ∀ b i, s.handles (.slot b i) = slots backend buffer xs (.slot b i)) (reallocates : Bool) :
    ∃ s', s.runAll build (emplaceBack buffer xs.length reallocates) = .ok s' ∧ s'.Sound ∧
      SameStreams s s' ∧ s'.handles .streamHandle = some {} ∧
      ∀ b i, s'.handles (.slot b i) =
        slots backend (if reallocates then buffer + 1 else buffer) (xs ++ [some k]) (.slot b i) := by
  cases reallocates with
  | false =>
    obtain ⟨s', hfirst, hs', hsame, hempty, hplaced⟩ := run_emplace build h hlocal hslots buffer
    refine ⟨s', (runAll_cons hfirst).trans rfl, hs', hsame, hempty, fun b i => ?_⟩
    rw [if_neg (by decide), slots_concat, hplaced]
  | true =>
    obtain ⟨t, hfirst, ht, hsame, hempty, hplaced⟩ := run_emplace build h hlocal hslots (buffer + 1)
    have hother : ∀ b i, SessionAddress.slot b i ≠ .slot (buffer + 1) xs.length →
        t.handles (.slot b i) = slots backend buffer xs (.slot b i) := by
      intro b i hne
      rw [hplaced, Function.update_of_ne hne]
    have hold : ∀ i < xs.length, t.handles (.slot buffer i) = (xs[i]?).map (slotHandle backend) := by
      intro i _
      rw [hother buffer i (by simp), slots_slot]
    have hnew : ∀ i < xs.length, t.handles (.slot (buffer + 1) i) = none := by
      intro i hi
      rw [hother (buffer + 1) i (by simp; omega), slots_of_ne (Nat.succ_ne_self buffer)]
    obtain ⟨s', hrest, hs', hsame', hmoved, hkept⟩ := runAll_reallocate build ht hold hnew
    refine ⟨s', (runAll_cons hfirst).trans hrest, hs', hsame.trans hsame', ?_, fun b i => ?_⟩
    · rw [hkept .streamHandle fun i _ => ⟨by simp, by simp⟩, hempty]
    · rw [if_pos rfl, slots_concat]
      by_cases heq : SessionAddress.slot b i = .slot (buffer + 1) xs.length
      · rw [heq, Function.update_self, hkept _ fun j hj => ⟨by simp; omega, by simp⟩, hplaced,
          Function.update_self]
      · rw [Function.update_of_ne heq]
        by_cases hi : i < xs.length
        · -- the elements were moved, and those of the old buffer were destroyed
          by_cases hb : b = buffer + 1
          · rw [hb, (hmoved i hi).1, slots_slot]
          · rw [slots_of_ne hb]
            by_cases hb' : b = buffer
            · rw [hb', (hmoved i hi).2]
            · rw [hkept _ fun j _ => ⟨by simp [hb], by simp [hb']⟩, hother _ _ heq, slots_of_ne hb']
        · rw [hkept _ fun j hj => ⟨by simp; omega, by simp; omega⟩, hother _ _ heq,
            slots_of_le (not_lt.1 hi), slots_of_le (not_lt.1 hi)]

/-- A command that creates a stream, up to the end of `runCreateStream`. -/
theorem runAll_create (build : Build) (h : s.Sound) (hhandles : s.handles = slots backend buffer xs)
    (observer : SessionObserver) (type : StreamableType) (service : String) (options : Json)
    (reallocates : Bool) :
    ∃ s', s.runAll build (.createStream .streamHandle backend observer type service options ::
        (emplaceBack buffer xs.length reallocates ++ [.destroy .streamHandle])) = .ok s' ∧ s'.Sound ∧
      s'.streams = s.streams ++ [s.connectedStream backend observer type service options] ∧
      s'.handles = slots backend (if reallocates then buffer + 1 else buffer)
        (xs ++ [some s.streams.length]) := by
  have hlocal : s.handles .streamHandle = none := by rw [hhandles]; rfl
  have hfirst : s.run build (.createStream .streamHandle backend observer type service options) =
      .ok (s.created .streamHandle (s.connectedStream backend observer type service options)) :=
    createStream_eq build hlocal backend observer type service options
  have hcreated : (s.created .streamHandle
      (s.connectedStream backend observer type service options)).Sound := sound_created h hlocal rfl rfl
  have hnew : (s.created .streamHandle
      (s.connectedStream backend observer type service options)).handles .streamHandle =
        some (slotHandle backend (some s.streams.length)) := by
    rw [handles_created, Function.update_self]
    rfl
  have hold : ∀ b i, (s.created .streamHandle
      (s.connectedStream backend observer type service options)).handles (.slot b i) =
        slots backend buffer xs (.slot b i) := by
    intro b i
    have hne : SessionAddress.slot b i ≠ .streamHandle := by simp
    rw [handles_created, Function.update_of_ne hne, hhandles]
  obtain ⟨t, hrest, ht, hsame, hempty, hslots⟩ := runAll_emplaceBack build hcreated hnew hold reallocates
  have hnone : t.owned .streamHandle = none := by
    rw [owned_of_handles hempty]
    rfl
  have hdestroy : t.run build (.destroy .streamHandle) = .ok (t.dropped .streamHandle none) :=
    destroy_eq ht (by simp [hempty])
  refine ⟨_, (runAll_cons hfirst).trans ((runAll_append hrest).trans ((runAll_cons hdestroy).trans rfl)),
    sound_dropped ht backed_none rfl, ?_, ?_⟩
  · rw [(sameStreams_dropped hnone none).streams, hsame.streams]
    rfl
  · rw [handles_dropped]
    funext a
    cases a with
    | streamHandle => rw [Function.update_self]; rfl
    | slot b i => rw [Function.update_of_ne (by simp), hslots]

/-! ## Commands -/

variable {build : Build} {t t' : SessionStreams β}

/-- The state that a session is on its way to. -/
def Sound (build : Build) (backend : β) (t : SessionStreams β) : Prop :=
  ∃ objects ks, t.world.objects.runAll build t.pending = .ok objects ∧
    Holds backend t.buffer t.observers t.commands objects ks

theorem holds_create (h : Holds backend t.buffer t.observers t.commands objects ks) (clientId : Int)
    (type : StreamableType) (service : String) (options : Json) (address : Nat) (reallocates : Bool) :
    ∃ objects', objects.runAll build (.createStream .streamHandle backend ⟨address, clientId⟩ type service options ::
        (emplaceBack t.buffer t.observers.length reallocates ++ [.destroy .streamHandle])) = .ok objects' ∧
      Holds backend (if reallocates then t.buffer + 1 else t.buffer) (t.observers ++ [⟨address, clientId⟩])
        (t.commands ++ [.createStream clientId type service options]) objects'
          (ks ++ [objects.streams.length]) := by
  obtain ⟨objects', ran, hsound, hstreams, hhandles⟩ := runAll_create build h.sound h.handles
    ⟨address, clientId⟩ type service options reallocates
  rw [List.length_map, h.length] at ran
  refine ⟨objects', ran, hsound, ?_, ?_, ?_, ?_⟩
  · rw [List.map_append]
    exact hhandles
  · rw [List.map_append, List.map_append, ← h.beside, hstreams]
    congr 1
    · refine List.map_congr_left fun k hk => ?_
      obtain ⟨stream, hstream, -⟩ := h.stream hk
      rw [hstream, getElem?_append_of_eq_some hstream]
    · rw [List.map_singleton, List.getElem?_concat_length]
      rfl
  · rw [hstreams, List.map_append, h.created, createdIds, createdIds, List.filterMap_append]
    rfl
  · rw [List.map_append, h.ids, openIds, openIds, List.foldl_append]
    rfl

theorem holds_remove (h : Holds backend t.buffer t.observers t.commands objects ks) (clientId : Int) {it : Nat}
    (hit : (t.observers.findIdx? fun observer => observer.clientStreamId == clientId) = some it) :
    ∃ objects', objects.runAll build (erase t.buffer t.observers.length it) = .ok objects' ∧
      Holds backend t.buffer (t.observers.eraseIdx it) (t.commands ++ [.removeStream clientId]) objects'
        (ks.eraseIdx it) := by
  have hlt : it < ks.length := by
    rw [h.length]
    exact (List.findIdx?_eq_some_iff_getElem.1 hit).1
  have hsplit : ks = ks.take it ++ ks[it] :: ks.drop (it + 1) := by
    rw [← List.drop_eq_getElem_cons hlt, List.take_append_drop]
  have hhandles := h.handles
  rw [hsplit, List.map_append, List.map_cons] at hhandles
  obtain ⟨objects', ran, hletsGo, hfinal⟩ := runAll_erase build h.sound _ _ hhandles
  have hstreams : objects'.streams = objects.streams.modify ks[it] ObservedStream.disconnect := hletsGo.streams
  have hsize : ((ks.take it).map some).length + 1 + ((ks.drop (it + 1)).map some).length =
      t.observers.length := by
    rw [← h.length, List.length_map, List.length_map, List.length_take, List.length_drop]
    omega
  have hat : ((ks.take it).map some).length = it := by
    rw [List.length_map, List.length_take]
    omega
  rw [hsize, hat] at ran
  refine ⟨objects', ran, hletsGo.sound, ?_, ?_, ?_, ?_⟩
  · rw [hfinal, List.eraseIdx_eq_take_drop_succ, List.map_append]
  · rw [← List.eraseIdx_map, ← List.eraseIdx_map, ← h.beside, hstreams]
    congr 1
    exact List.map_congr_left fun k _ => own_disconnect _ _ _
  · have hsame := congrArg (List.map SessionObserver.clientStreamId)
      (map_own_disconnect objects.streams ks[it])
    rw [List.map_map, List.map_map] at hsame
    rw [hstreams, createdIds, List.filterMap_append, ← createdIds, ← h.created]
    exact hsame.trans (List.append_nil _).symm
  · have hfound : (t.observers.eraseP fun observer => observer.clientStreamId == clientId) =
        t.observers.eraseIdx it := by rw [List.eraseP_eq_eraseIdx, hit]
    rw [← hfound, map_eraseP_clientStreamId, h.ids, openIds, openIds, List.foldl_append]
    rfl

theorem sound_command (h : Sound build backend t) (idle : t.pending = []) (command : NetClientSession.Command)
    (address : Nat) (reallocates : Bool) :
    Sound build backend { t.startCommand backend address reallocates command with
      commands := t.commands ++ [command] } := by
  obtain ⟨objects, ks, ran, hholds⟩ := h
  rw [idle] at ran
  cases ran
  have hidle : t.world.objects.runAll build t.pending = .ok t.world.objects := by
    rw [idle]
    rfl
  cases command with
  | createStream clientId type service options =>
    obtain ⟨objects', ran, hcreated⟩ := holds_create hholds clientId type service options address reallocates
    exact ⟨objects', _, ran, hcreated⟩
  | removeStream clientId =>
    cases hit : t.observers.findIdx? fun observer => observer.clientStreamId == clientId with
    | some it =>
      obtain ⟨objects', ran, hremoved⟩ := holds_remove hholds clientId hit
      rw [startCommand, hit]
      exact ⟨objects', _, ran, hremoved⟩
    | none =>
      rw [startCommand, hit]
      exact ⟨_, ks, hidle, hholds.unchanged_remove hit⟩
  | queueOperations operations id => exact ⟨_, ks, hidle, hholds.unchanged rfl rfl⟩
  | unknown => exact ⟨_, ks, hidle, hholds.unchanged rfl rfl⟩

/-- What the session holds at the end of a command is not up to the backend. -/
theorem sound_step (h : Sound build backend t) (hworld : t.world.Sound) (hs : Step build backend t t') :
    Sound build backend t' := by
  cases hs with
  | command idle command address reallocates => exact sound_command h idle command address reallocates
  | operate operation rest next objects' ran' =>
    obtain ⟨objects, ks, ran, hholds⟩ := h
    rw [next, runAll_cons ran'] at ran
    exact ⟨objects, ks, ran, hholds⟩
  | queue world step =>
    obtain ⟨objects, ks, ran, hholds⟩ := h
    rw [← (StreamWorld.queueStep_spec hworld step).2.1] at ran
    exact ⟨objects, ks, ran, hholds⟩

theorem Reached.world (h : t.Reached build backend) : t.world.Reached build := by
  refine Reachable.invariant (I := fun t : SessionStreams β => t.world.Reached build) ?_ ?_ h
  · intro t ht
    rw [ht]
    exact .init rfl
  · intro t t' ht hs
    cases hs with
    | command idle command address reallocates =>
      have hsame : (t.startCommand backend address reallocates command).world = t.world := by
        cases command with
        | removeStream clientId =>
          rw [startCommand]
          split <;> rfl
        | createStream | queueOperations | unknown => rfl
      show (t.startCommand backend address reallocates command).world.Reached build
      rw [hsame]
      exact ht
    | operate operation rest next objects ran => exact ht.step (.operate _ operation objects ran)
    | queue world step => exact ht.step (.queue _ world step)

theorem reached_sound (h : t.Reached build backend) : Sound build backend t := by
  induction h with
  | init h =>
    subst h
    have hworld : StreamWorld.Reached build ({} : StreamWorld SessionAddress β SessionObserver) := .init rfl
    refine ⟨_, [], rfl, (StreamWorld.reached_sound hworld).objects, ?_, rfl, rfl, rfl⟩
    funext a
    cases a with
    | streamHandle => rfl
    | slot b i => exact (slots_of_le (Nat.zero_le i)).symm
  | step ht hs ih => exact sound_step ih (StreamWorld.reached_sound (Reached.world ht)) hs

/-- What a session does for its streams, between two commands and while one runs. -/
structure Keeps (build : Build) (t : SessionStreams β) : Prop where
  /-- The rest of the command that runs is on handles that exist. -/
  completes : ∃ objects, t.world.objects.runAll build t.pending = .ok objects
  created : t.pending = [] → t.world.objects.streams.map (·.own.clientStreamId) = createdIds t.commands
  connected : ∀ (k : Nat) stream, t.world.objects.streams[k]? = some stream →
    stream.own.clientStreamId ∈ openIds t.commands → t.world.objects.Open k stream
  removed : t.pending = [] → ∀ (k : Nat) stream, t.world.objects.streams[k]? = some stream →
    stream.own.clientStreamId ∉ openIds t.commands → t.world.objects.Closed k stream

theorem Sound.keeps (h : Sound build backend t) (hobjects : t.world.objects.Sound)
    (hnodup : (createdIds t.commands).Nodup) : t.Keeps build := by
  obtain ⟨objects, ks, ran, hholds⟩ := h
  obtain ⟨-, hremoved, hstreams⟩ := runAll_spec hobjects ran
  have hdone : t.pending = [] → objects = t.world.objects := by
    intro idle
    rw [idle] at ran
    exact (Except.ok.inj ran).symm
  refine ⟨⟨objects, ran⟩, fun idle => hdone idle ▸ hholds.created, fun k stream hk hid => ?_,
    fun idle k stream hk hid => ?_⟩
  · -- it is owned when the command ends, so it was not removed until then
    obtain ⟨stream', hk', hcreator, hown⟩ := hstreams k stream hk
    rw [← hown] at hid
    obtain ⟨a, b, ha⟩ := hholds.mem_iff.1 ((hholds.mem_openIds hnodup hk').2 hid)
    rcases hobjects.open_or_closed hk with hopen | hclosed
    · exact hopen
    · rcases hholds.sound.open_or_closed hk' with hopen' | hclosed'
      · have hmem := hremoved _ hclosed.mem_removed
        exact absurd hmem hopen'.not_mem_removed
      · exact absurd ha (hclosed'.owner a b)
  · rw [hdone idle] at hholds
    have hnot : k ∉ ks := fun hmem => hid ((hholds.mem_openIds hnodup hk).1 hmem)
    rcases hobjects.open_or_closed hk with hopen | hclosed
    · obtain ⟨a, ha, -⟩ := hopen.owner
      exact absurd (hholds.mem_iff.2 ⟨a, _, ha⟩) hnot
    · exact hclosed

theorem Reached.finish {objects : StreamObjects SessionAddress β SessionObserver} (h : t.Reached build backend)
    (ran : t.world.objects.runAll build t.pending = .ok objects) :
    ∃ t' : SessionStreams β, t'.Reached build backend ∧ t'.pending = [] ∧ t'.commands = t.commands := by
  generalize hpending : t.pending = pending at ran
  induction pending generalizing t with
  | nil => exact ⟨t, h, hpending, rfl⟩
  | cons operation rest ih =>
    obtain ⟨objects₁, hfirst, ran⟩ := Except.bind_eq_ok.1 ran
    have hnext := Reachable.step h (.operate t operation rest hpending objects₁ hfirst)
    obtain ⟨t', ht', idle, hcommands⟩ := ih hnext rfl ran
    exact ⟨t', ht', idle, hcommands⟩

theorem Reached.runCommand (h : t.Reached build backend) (idle : t.pending = [])
    (command : NetClientSession.Command) :
    ∃ t' : SessionStreams β, t'.Reached build backend ∧ t'.pending = [] ∧ t'.commands = t.commands ++ [command] := by
  have hbegun := Reachable.step h (.command t idle command 0 false)
  obtain ⟨objects, ks, ran, -⟩ := reached_sound hbegun
  exact Reached.finish hbegun ran

/-- Whatever programs do with handles, and in whatever order with changes that are queued,
    each stream is disconnected and removed once, when its handle lets go of it; in a
    session that is when its client id is removed. -/
theorem streams_disconnected_once {α β ο : Type} [DecidableEq α] [DecidableEq β] (build : Build) :
    (∀ w : StreamWorld α β ο, w.Reached build → w.Disconnects build) ∧
      ∀ (backend : β) (t : SessionStreams β), t.Reached build backend → (createdIds t.commands).Nodup →
        t.world.Disconnects build ∧ t.Keeps build := by
  refine ⟨fun w hw => (StreamWorld.reached_sound hw).disconnects, fun backend t ht hnodup => ?_⟩
  have hworld := StreamWorld.reached_sound (Reached.world ht)
  exact ⟨hworld.disconnects, (reached_sound ht).keeps hworld.objects hnodup⟩

/-- The first of two streams is removed, and the handle of the second is moved. -/
theorem streams_disconnected_once_first : ∃ (t : SessionStreams Nat)
    (first second : ObservedStream Nat SessionObserver), t.world.objects.streams = [first, second] ∧
      t.commands = [.createStream 7 .hotel "hotels" .null, .createStream 8 .reservation "" .null,
        .removeStream 7] ∧
      t.world.objects.Closed 0 first ∧ t.world.objects.Open 1 second := by
  have h₀ : Reached .debug 0 ({} : SessionStreams Nat) := .init rfl
  obtain ⟨t₁, h₁, hidle₁, hcommands₁⟩ := h₀.runCommand rfl (.createStream 7 .hotel "hotels" .null)
  obtain ⟨t₂, h₂, hidle₂, hcommands₂⟩ := h₁.runCommand hidle₁ (.createStream 8 .reservation "" .null)
  obtain ⟨t, h, hidle, hcommands⟩ := h₂.runCommand hidle₂ (.removeStream 7)
  rw [hcommands₂, hcommands₁] at hcommands
  obtain ⟨hall, hsession⟩ := @streams_disconnected_once SessionAddress Nat SessionObserver _ _ .debug
  obtain ⟨hdisconnects, hkeeps⟩ := hsession 0 t h (by rw [hcommands]; decide)
  have hids := hkeeps.created hidle
  rw [hcommands] at hids
  obtain ⟨first, rest, hstreams, hfirst, hrest⟩ := List.map_eq_cons_iff.1 hids
  obtain ⟨second, rest, rfl, hsecond, hnil⟩ := List.map_eq_cons_iff.1 hrest
  rw [List.map_eq_nil_iff.1 hnil] at hstreams
  refine ⟨t, first, second, hstreams, hcommands, hkeeps.removed hidle 0 first ?_ ?_,
    hkeeps.connected 1 second ?_ ?_⟩
  · rw [hstreams]
    rfl
  · rw [hfirst, hcommands]
    decide
  · rw [hstreams]
    rfl
  · rw [hsecond, hcommands]
    decide

end SessionStreams

end HotelPms

import HotelPms.Server.RemoteStreams

/- What a client of a remote server can rely on.

   Its batches are executed in the order in which it queued them, each at most once, and a
   promise is resolved with the results of its own batch (`remote_batches`). A stream gets a
   prefix of what the storage publishes for it (`remote_streams`), and by the time a promise
   is resolved everything that was published until its batch was executed is there
   (`remote_read_your_writes`). When all is quiet no promise is open, and a stream has got
   what the storage held at some point and every change since (`remote_quiet`). -/
namespace HotelPms
open Lib SqliteStorage DataStreamManager SqliteBackend JsonSerializer Reservation
open NetServer (changesSent changesSent_append)

namespace NetServer

variable {build : Build} {boost : BoostDate} {db : Database} {s : NetServer}

end NetServer

namespace RemoteSystem

variable {build : Build} {boost : BoostDate} {db : Database} {s : RemoteSystem}

/-- The session of a client is there, nothing is on its way, and the server has nothing to do. -/
structure Quiet (s : RemoteSystem) (i : Nat) : Prop where
  connected : i ∉ s.server.sessions.disconnected
  read : (s.clients i).read = (s.clients i).calls.length
  processed : (s.clients i).processed = (s.server.outgoingOf i).length
  changeList : s.server.backend.changeList = []
  tasks : s.server.backend.newTasks = [] ∧ s.server.backend.operationsQueue = []
  streams : s.server.backend.newStreams = [] ∧ s.server.backend.uninitializedStreams = []
  worker : s.server.worker = []
  handlers : s.server.sessions.handlers = []
  threads : s.server.sessions.io = [] ∧ s.server.sessions.resolving = []

/-! ## One run -/

theorem Step.background {server : NetServer} (step : s.server.Step build boost server)
    (observers : server.observers = s.server.observers) (scheduled : server.scheduled = s.server.scheduled)
    (disconnected : server.backend.disconnected = s.server.backend.disconnected) :
    Step build boost s { s with server } :=
  .server s server ⟨step, observers, scheduled, fun _ hmem => Or.inl (disconnected ▸ hmem)⟩

/-- Of two stored reservations one is deleted, and the other one moved to a third room. -/
def deleteAndMove : Operations :=
  [.delete .reservation 1, .update (.reservation (some { oneNightIn 3 with id := 2, revision := 1 }))]

/-- A client creates a stream and queues the batch; it gets the changes and the reply. -/
theorem reached_quiet : ∃ s, Reached .debug .gregorian twoStored s ∧ Quiet s 0 ∧
    (s.clients 0).calls = [.createStream 1 .reservation "" .null,
      .queueOperations 2 deleteAndMove] ∧
    (s.clients 0).disconnected = [] ∧ (∃ results, (s.clients 0).backend.resolved = [(2, results)]) ∧
    (∃ r, s.server.backend.executed = [r] ∧ r.before = twoStored ∧ r.operations = arriving deleteAndMove) ∧
    ∃ moved, loadAllReservations .debug .gregorian s.server.backend.storage.current = .ok [moved] ∧
      moved.id = 2 ∧ moved.atoms.map (·.roomId) = [3] := by
  have h₀ : Reached .debug .gregorian twoStored
      { server := { backend := { storage := { current := twoStored } } } } :=
    .init rfl
  have h₁ := h₀.step (.createStream _ 0 .reservation "" .null _ rfl)
  have h₂ := h₁.step (.queueOperations _ 0 deleteAndMove _ _ rfl)
  have h₃ := h₂.step (.runCommand _ 0 _ _ rfl List.not_mem_nil rfl rfl)
  have h₄ := h₃.step (.runCommand _ 0 _ _ rfl List.not_mem_nil rfl rfl)
  have h₅ := h₄.step (.background (.internal _ _ (.io _ _ (.chain 0) _ _ rfl rfl)) rfl rfl rfl)
  have h₆ := h₅.step (.background (.internal _ _ (.io _ _ (.push 0) _ _ rfl rfl)) rfl rfl rfl)
  have h₇ := h₆.step (.background (.turn _ _ ⟨rfl, rfl⟩ (.swap _ rfl)) rfl rfl rfl)
  have h₈ := h₇.step (.background (.turn _ _ ⟨rfl, rfl⟩ (.collect _ rfl)) rfl rfl rfl)
  have h₉ := h₈.step (.background (.initializeOne _ ⟨rfl, rfl⟩ rfl (reservationStream 1) [] rfl
    [⟨1, .itemsAdded (.reservations _)⟩, ⟨1, .initialized⟩] rfl) rfl rfl rfl)
  have h₁₀ := h₉.step (.background (.addStreamChange _ _ _ rfl) rfl rfl rfl)
  have h₁₁ := h₁₀.step (.background (.signal _ _ rfl) rfl rfl rfl)
  have h₁₂ := h₁₁.step (.background (.addStreamChange _ _ _ rfl) rfl rfl rfl)
  have h₁₃ := h₁₂.step (.background (.signal _ _ rfl) rfl rfl rfl)
  have h₁₄ := h₁₃.step (.background (.turn _ _ ⟨rfl, rfl⟩ (.process _ rfl rfl)) rfl rfl rfl)
  have h₁₅ := h₁₄.step (.background
    (.executeTask _ ⟨rfl, rfl⟩ rfl _ _ rfl _ [⟨1, .itemsRemoved [1]⟩, ⟨1, .itemsUpdated (.reservations [_])⟩] rfl rfl) rfl rfl rfl)
  have h₁₆ := h₁₅.step (.background (.signal _ _ rfl) rfl rfl rfl)
  have h₁₇ := h₁₆.step (.background (.resolve _ 0 _ _ rfl _ _ rfl rfl) rfl rfl rfl)
  have h₁₈ := h₁₇.step (.background (.internal _ _ (.resolving _ _ (.next 0) [] [] _ rfl rfl)) rfl rfl rfl)
  have h₁₉ := h₁₈.step (.background (.internal _ _ (.resolving _ _ (.continueWith 0) [] [] _ rfl rfl)) rfl rfl rfl)
  have h₂₀ := h₁₉.step (.background (.turn _ _ ⟨rfl, rfl⟩ (.loop _ rfl rfl)) rfl rfl rfl)
  have h₂₁ := h₂₀.step (.background (.applyStreamChanges _ _ rfl rfl) rfl rfl rfl)
  have h₂₂ := h₂₁.step (.background (.applyStreamChanges _ _ rfl rfl) rfl rfl rfl)
  have h₂₃ := h₂₂.step (.background (.applyStreamChanges _ _ rfl rfl) rfl rfl rfl)
  have h₂₄ := h₂₃.step (.background (.internal _ _ (.runContinuation _ _ 0 _ _ _ _ rfl rfl rfl rfl)) rfl rfl rfl)
  have h₂₅ := h₂₄.step (.processMessage _ 0 _ _ rfl rfl)
  have h₂₆ := h₂₅.step (.processMessage _ 0 _ _ rfl rfl)
  have h₂₇ := h₂₆.step (.processMessage _ 0 _ _ rfl rfl)
  have h₂₈ := h₂₇.step (.processMessage _ 0 _ _ rfl rfl)
  have h₂₉ := h₂₈.step (.processMessage _ 0 _ _ rfl rfl)
  have h₃₀ := h₂₉.step (.applyStreamChanges _ 0)
  exact ⟨_, h₃₀, ⟨List.not_mem_nil, rfl, rfl, rfl, ⟨rfl, rfl⟩, ⟨rfl, rfl⟩, rfl, rfl, ⟨rfl, rfl⟩⟩, rfl, rfl,
    ⟨_, rfl⟩, ⟨_, rfl, rfl, rfl⟩, _, rfl, rfl, rfl⟩

/-! ## The batches -/

theorem Quiet.replied {i : Nat} (hquiet : Quiet s i) (hserver : s.server.Sound build boost db) {n : Nat}
    {b : ScheduledBatch} (hb : s.server.sessions.batches[n]? = some b) (hsession : b.session = i) :
    ∃ m ∈ s.server.outgoingOf i, m.cause = .batch n ∧ Sessions.IsReply b m := by
  have hnone : s.server.sessions.io ++ s.server.sessions.resolving = [] := by
    rw [hquiet.threads.1, hquiet.threads.2]
    rfl
  rcases Sessions.replies_cases (Sessions.reached_sound hserver.sessions) hb
    (hsession ▸ hquiet.connected) with ⟨-, m, hm, hreply⟩ | ⟨-, -, hwaiting⟩
  · have hmem : m ∈ s.server.sessions.replies n := hm ▸ List.mem_singleton_self m
    obtain ⟨hout, hcause⟩ := List.mem_filter.1 hmem
    obtain ⟨_, _, -, -, hms, -⟩ := id hreply
    refine ⟨m, List.mem_filter.2 ⟨hout, by simpa using hms.trans hsession⟩, ?_, hreply⟩
    unfold Message.isReply at hcause
    split at hcause
    · next batch hbatch =>
      rw [hbatch, beq_iff_eq.1 hcause]
    · cases hcause
  · cases hwaiting with
    | chain step => rw [hnone] at step; exact absurd step List.not_mem_nil
    | next step => rw [hnone] at step; exact absurd step List.not_mem_nil
    | continueWith step => rw [hnone] at step; exact absurd step List.not_mem_nil
    | posted results handler =>
      rw [hquiet.handlers] at handler
      exact absurd handler List.not_mem_nil
    | unresolved pending =>
      -- all that was queued is executed, and what is executed is resolved
      cases hserver.resolved.batch n b hb with
      | resolved r hr hv => rw [FutureState.isReady_of_value hv] at pending; cases pending
      | next results action => rw [hquiet.worker] at action; exact absurd action List.not_mem_nil
      | waiting bound =>
        obtain ⟨a, ha⟩ := hserver.simulates
        have hqueued := ha.queued
        rw [hquiet.tasks.1, hquiet.tasks.2, ← hserver.resolved.queued] at hqueued
        have hn := (List.getElem?_eq_some_iff.1 hb).1
        simp only [List.length_nil] at hqueued
        omega

theorem createStream_unique {calls : List RemoteCall} (h : (createdIds calls).Nodup) {k : Int}
    {type type' : StreamableType} {service service' : String} {options options' : Json}
    (hcall : .createStream k type service options ∈ calls)
    (hcall' : .createStream k type' service' options' ∈ calls) :
    type' = type ∧ service' = service ∧ options' = options := by
  induction calls with
  | nil => exact absurd hcall List.not_mem_nil
  | cons call calls ih =>
    have hcons : createdIds (call :: calls) = createdIds [call] ++ createdIds calls :=
      createdIds_append [call] calls
    rw [hcons] at h
    obtain ⟨-, hrest, hdisjoint⟩ := List.nodup_append.1 h
    have hid : ∀ {t : StreamableType} {s : String} {o : Json}, .createStream k t s o ∈ calls →
        k ∈ createdIds calls := fun hmem => List.mem_filterMap.2 ⟨_, hmem, rfl⟩
    rcases List.mem_cons.1 hcall with rfl | hmem <;> rcases List.mem_cons.1 hcall' with he | hmem'
    · cases he
      exact ⟨rfl, rfl, rfl⟩
    · exact absurd rfl (hdisjoint k (List.mem_singleton_self _) k (hid hmem'))
    · subst he
      exact absurd rfl (hdisjoint k (List.mem_singleton_self _) k (hid hmem))
    · exact ih hrest hmem hmem'

theorem delivered_append {i : Nat} {c : RemoteClient} (h : Linked boost s.server i c) {k : Int}
    (hcreated : k ∈ createdIds c.calls) (hopen : k ∉ c.disconnected) :
    changesFor k c.delivered ++ changesFor k c.backend.changeList = changesFor k c.arrived := by
  rw [h.delivered k hcreated hopen, RemoteClient.arrived, changesFor_append]

theorem observer_of_read {i : Nat} {c : RemoteClient} (h : Linked boost s.server i c) {k : Int}
    (hread : k ∈ createdIds c.readCalls) :
    ∃ o ∈ s.server.observersOf i, o.clientStreamId = k ∧
      (∀ o' ∈ s.server.observersOf i, o'.clientStreamId = k → o' = o) ∧
      ∀ type service options, .createStream k type service options ∈ c.calls → o.stream =
        ⟨o.stream.streamId, NetClientSession.streamableTypeOfInt type.toInt, service, options⟩ := by
  rw [← h.log.createdIds_eq] at hread
  obtain ⟨o, ho, rfl⟩ := List.mem_map.1 hread
  have hdistinct : ((s.server.observersOf i).map (·.clientStreamId)).Nodup := by
    rw [h.log.createdIds_eq]
    exact (h.client.createdOrder.sublist (c.readCalls_sublist.filterMap _)).imp ne_of_lt
  refine ⟨o, ho, rfl, fun o' ho' hid => List.inj_on_of_nodup_map hdistinct ho' ho hid,
    fun type service options hcall => ?_⟩
  obtain ⟨type', service', options', hcall', hstream⟩ := h.log.stream_of_mem ho
  obtain ⟨rfl, rfl, rfl⟩ := createStream_unique (h.client.createdOrder.imp ne_of_lt) hcall
    (c.readCalls_sublist.subset hcall')
  exact hstream

theorem Quiet.arrived {i : Nat} (hquiet : Quiet s i) (h : Linked boost s.server i (s.clients i))
    (hserver : s.server.Sound build boost db) {o : SessionStreamObserver}
    (ho : o ∈ s.server.observersOf i) (hopen : o.stream.streamId ∉ s.server.backend.disconnected) :
    changesFor o.clientStreamId (s.clients i).arrived =
      arrivingChanges (changesFor o.stream.streamId s.server.backend.published) := by
  have hprocessed : s.server.processedBy i (s.clients i) = s.server.outgoingOf i := by
    rw [NetServer.processedBy, hquiet.processed, List.take_length]
  have hpublished := hserver.routed.published
  rw [hquiet.changeList, List.append_nil] at hpublished
  rw [h.arrived o ho, hprocessed, hserver.changesSent_outgoingOf ho,
    hserver.routed.connected o (NetServer.mem_observersOf.1 ho).1 hopen, hpublished]

/-- What the storage sent a stream that is open, when the server has nothing to do: what it
    held after some number of batches, and the changes of all later ones. -/
theorem Quiet.published {i : Nat} (hquiet : Quiet s i) (hserver : s.server.Sound build boost db)
    {o : SessionStreamObserver} (ho : o ∈ s.server.observers)
    (hopen : o.stream.streamId ∉ s.server.backend.disconnected) :
    ∃ n ≤ s.server.backend.executed.length, ∃ snapshot, Backend.initialChanges build boost o.stream
        (databaseAfter db s.server.backend.executed n) = .ok snapshot ∧
      changesFor o.stream.streamId s.server.backend.published = changesFor o.stream.streamId snapshot ++
        batchChanges build boost o.stream (s.server.backend.executed.drop n) := by
  obtain ⟨a, ha⟩ := hserver.simulates
  have hsound := Backend.reached_sound ha.reached
  have hpublished := ha.published
  rw [hquiet.worker] at hpublished
  have hpublished : a.published = s.server.backend.published := hpublished.trans (List.append_nil _)
  have hcreated : o.stream ∈ a.created := ha.created ▸ List.mem_map_of_mem ho
  have hstreams := hquiet.streams
  obtain ⟨changeList, published, delivered, hsame⟩ := ha.backend
  rw [hsame] at hopen hstreams
  cases hsound.streams o.stream hcreated hopen with
  | waiting uninitialized =>
    rw [hstreams.2] at uninitialized
    exact absurd uninitialized List.not_mem_nil
  | starting new =>
    rw [hstreams.1] at new
    exact absurd new List.not_mem_nil
  | running active notNew n bound snapshot loaded sent =>
    rw [hpublished] at sent
    rw [hsame] at sent ⊢
    exact ⟨n, bound, snapshot, loaded, sent⟩

theorem Quiet.observer {i : Nat} (hquiet : Quiet s i) (h : Linked boost s.server i (s.clients i)) {k : Int}
    (hcreated : k ∈ createdIds (s.clients i).calls) (hopen : k ∉ (s.clients i).disconnected) :
    ∃ o ∈ s.server.observersOf i, o.clientStreamId = k ∧
      o.stream.streamId ∉ s.server.backend.disconnected ∧
      ∀ type service options, .createStream k type service options ∈ (s.clients i).calls → o.stream =
        ⟨o.stream.streamId, NetClientSession.streamableTypeOfInt type.toInt, service, options⟩ := by
  have hread : (s.clients i).readCalls = (s.clients i).calls := by
    rw [RemoteClient.readCalls, hquiet.read, List.take_length]
  obtain ⟨o, ho, rfl, -, hstream⟩ := observer_of_read h (hread ▸ hcreated)
  refine ⟨o, ho, rfl, fun hgone => ?_, hstream⟩
  rcases h.removed o ho hgone with hi | hmem
  · exact hquiet.connected hi
  · exact hopen ((h.client.removed _).2 (hread ▸ hmem))

end RemoteSystem

end HotelPms

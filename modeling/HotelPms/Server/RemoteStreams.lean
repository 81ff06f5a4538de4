import HotelPms.Server.SessionLog

/- What the streams of a client bring it.

   A change that the storage publishes for a stream goes through the change queue of the
   server, the observer of the session, the connection, and the change queue of the client,
   where it has the id that the client gave the stream. On this way none of them is lost or
   overtaken but clears, which the client does not know; and the reply to a batch comes after
   the changes of the batch. `Linked` ties a client to its session in every reachable state. -/
namespace HotelPms
open Lib SqliteStorage DataStreamManager SqliteBackend
open NetServer (changesSent changesSent_append changesSent_reply)

/-- What comes back of the changes of a stream: clears are lost. -/
def arrivingChanges (changes : List DataStreamChange) : List DataStreamChange :=
  (changes.filter fun change => change ≠ .cleared).map Net.sentChange

theorem arrivingChanges_append (cs ds : List DataStreamChange) :
    arrivingChanges (cs ++ ds) = arrivingChanges cs ++ arrivingChanges ds := by
  rw [arrivingChanges, List.filter_append, List.map_append]
  rfl

theorem arrivingChanges_initial {cs ds : List DataStreamChange} (h : cs <+: ds) :
    arrivingChanges cs <+: arrivingChanges ds := by
  obtain ⟨rest, rfl⟩ := h
  rw [arrivingChanges_append]
  exact List.prefix_append _ _

namespace NetServer

variable {build : Build} {boost : BoostDate} {db : Database} {s : NetServer}

/-- The messages of a session that its client has processed. -/
def processedBy (s : NetServer) (session : Nat) (c : RemoteClient) : List Message :=
  (s.outgoingOf session).take c.processed

theorem mem_observersOf {session : Nat} {o : SessionStreamObserver} :
    o ∈ s.observersOf session ↔ o ∈ s.observers ∧ o.session = session := by
  rw [observersOf, List.mem_filter, beq_iff_eq]

theorem Sound.eq_of_streamId (h : Sound build boost db s) {o o' : SessionStreamObserver}
    (ho : o ∈ s.observers) (ho' : o' ∈ s.observers) (hid : o.stream.streamId = o'.stream.streamId) :
    o = o' := by
  obtain ⟨a, ha⟩ := h.simulates
  have hdistinct := (Backend.reached_sound ha.reached).distinct
  rw [ha.created, List.map_map] at hdistinct
  exact List.inj_on_of_nodup_map hdistinct ho ho' hid

theorem Sound.replied_session (h : Sound build boost db s) {session : Nat} {before after : List Message}
    {m : Message} {n : Nat} (hqueue : s.outgoingOf session = before ++ m :: after)
    (hreply : m.cause = .batch n) : ∃ a, s.announced[n]? = some a ∧ ∀ o ∈ s.observersOf session,
      o.stream.streamId ∉ s.backend.disconnected →
        changesFor o.stream.streamId (a.before ++ a.changes) <+: changesSent o.stream.streamId before := by
  -- the same message in the order of all sessions
  obtain ⟨before', rest, hall, hbefore, hrest⟩ := List.filter_eq_append_iff.1 hqueue
  obtain ⟨skipped, after', hrest', hskipped, -, -⟩ := List.filter_eq_cons_iff.1 hrest
  have hout : s.sessions.outgoing = (before' ++ skipped) ++ m :: after' := by
    rw [hall, hrest', List.append_assoc]
  have hbefore' : (before' ++ skipped).filter (fun m => m.session == session) = before := by
    rw [List.filter_append, hbefore, List.filter_eq_nil_iff.2 hskipped, List.append_nil]
  obtain ⟨a, ha, horder⟩ := h.ordered.replied _ m after' n hout hreply
  refine ⟨a, ha, fun o ho hopen => ?_⟩
  obtain ⟨hmem, rfl⟩ := mem_observersOf.1 ho
  have hsub : before' ++ skipped ⊆ s.sessions.outgoing := by
    rw [hout]
    exact List.subset_append_left _ _
  have hsent := changesSent_session h hmem hsub
  rw [hbefore'] at hsent
  rw [hsent]
  exact horder o hmem (Or.inl hopen)

theorem Sound.changesSent_outgoingOf (h : Sound build boost db s) {session : Nat}
    {o : SessionStreamObserver} (ho : o ∈ s.observersOf session) :
    changesSent o.stream.streamId (s.outgoingOf session) =
      changesSent o.stream.streamId s.sessions.outgoing := by
  obtain ⟨hmem, rfl⟩ := mem_observersOf.1 ho
  exact changesSent_session h hmem (List.Subset.refl _)

theorem Sound.unsent (h : Sound build boost db s) {ms : List Message} (hms : ms ⊆ s.sessions.outgoing) :
    changesSent s.backend.nextStreamId ms = [] := by
  obtain ⟨a, ha⟩ := h.simulates
  apply List.filterMap_eq_nil_iff.2
  intro m hm
  cases hcause : m.cause with
  | batch n => rfl
  | change d =>
    obtain ⟨o, ho, hod, -⟩ := h.routed.json m (hms hm) d hcause
    have := ha.observer_lt ho
    exact if_neg (by omega)

theorem closed_lt (h : Reached build boost db s) :
    ∀ streamId ∈ s.backend.disconnected, streamId < s.backend.nextStreamId := by
  induction h with
  | init h =>
    obtain rfl := h
    exact fun _ hmem => absurd hmem List.not_mem_nil
  | step hreached step ih =>
    cases step with
    | createStream session obj clientId streamType endpoint options stream idle connected command new =>
      exact fun streamId hmem => lt_trans (ih streamId hmem) (Int.lt_succ _)
    | removeStream observer idle held open_ reason =>
      intro streamId hmem
      rcases List.mem_cons.1 hmem with rfl | hmem
      · obtain ⟨a, ha⟩ := (reached_sound hreached).simulates
        exact ha.observer_lt held
      · exact ih streamId hmem
    | turn backend idle step => cases step <;> exact ih
    | _ => exact ih

end NetServer

/-! ## A client and its session -/

structure Linked (boost : BoostDate) (server : NetServer) (i : Nat) (c : RemoteClient) : Prop where
  client : c.Sound boost
  log : SessionLog c.readCalls (server.observersOf i) (server.batchesOf i)
  removed : ∀ o ∈ server.observersOf i, o.stream.streamId ∈ server.backend.disconnected →
    i ∈ server.sessions.disconnected ∨ .removeStream o.clientStreamId ∈ c.readCalls
  processed : c.processed ≤ (server.outgoingOf i).length
  arrived : ∀ o ∈ server.observersOf i, changesFor o.clientStreamId c.arrived =
    arrivingChanges (changesSent o.stream.streamId (server.processedBy i c))
  unknown : ∀ k, k ∉ createdIds c.readCalls → changesFor k c.arrived = []
  past : c.delivered ⊆ c.applied
  delivered : ∀ k ∈ createdIds c.calls, k ∉ c.disconnected →
    changesFor k c.delivered = changesFor k c.applied
  resolved : ∀ p ∈ c.backend.resolved, ∃ m ∈ server.processedBy i c, ∃ n, m.cause = .batch n ∧
    Net.deserializeTaskResultsMessage m.json = .ok p
  answered : ∀ m ∈ server.processedBy i c, ∀ n, m.cause = .batch n → ∃ id results,
    Net.deserializeTaskResultsMessage m.json = .ok (id, results) ∧ id ∈ c.backend.resolved.map (·.1)
  replied : ∀ before m after n, server.outgoingOf i = before ++ m :: after → m.cause = .batch n →
    ∃ a, server.announced[n]? = some a ∧ ∀ o ∈ server.observersOf i,
      .removeStream o.clientStreamId ∉ c.readCalls →
        changesFor o.stream.streamId (a.before ++ a.changes) <+: changesSent o.stream.streamId before

/-- A message of a session replies to the batch that its client queued with an id after some
    other calls. -/
structure RepliesTo (server : NetServer) (i : Nat) (c : RemoteClient) (m : Message) (n : Nat)
    (before : List RemoteCall) (id : Int) (operations : Operations) (r : BatchRecord) : Prop where
  executed : server.backend.executed[n]? = some r
  batch : ∃ b, server.sessions.batches[n]? = some b ∧ b.session = i ∧ b.id = .int id
  call : ∃ after, c.readCalls = before ++ .queueOperations id operations :: after
  json : m.json = Net.serializeTaskResultsMessage id r.results
  operations : r.operations = arriving operations
  older : ∃ bound, server.scheduled[n]? = some bound ∧
    ∀ o ∈ server.observersOf i, o.stream.streamId < bound ↔ o.clientStreamId ∈ createdIds before

/-- A clear is not queued; of all other changes, what comes back of them is. -/
theorem queued_of_message {build : Build} {boost : BoostDate} {client backend : NetClientBackend}
    {streamId : Int} {change : DataStreamChange}
    (done : client.processMessage build boost (SessionStreamObserver.message boost streamId change) = .ok backend) :
    backend.changeList =
        client.changeList ++ (arrivingChanges [change]).map (fun change => ⟨streamId, change⟩) ∧
      backend.resolved = client.resolved := by
  rw [NetClientBackend.processMessage_message build boost client _
    (NetClientBackend.processMessage_ok done)] at done
  by_cases hcleared : change = .cleared
  · rw [if_pos hcleared] at done
    cases done
    simp [arrivingChanges, hcleared]
  · rw [if_neg hcleared] at done
    cases done
    simp [arrivingChanges, hcleared, NetClientBackend.addStreamChange]

namespace Linked

variable {build : Build} {boost : BoostDate} {db : Database} {server server' : NetServer} {i : Nat}
variable {c c' : RemoteClient}

theorem init (boost : BoostDate) (storage : Connection Database) (i : Nat) :
    Linked boost { backend := { storage } } i {} where
  client := RemoteClient.sound_init
  log := .nil
  removed _ ho := absurd ho List.not_mem_nil
  processed := le_rfl
  arrived _ ho := absurd ho List.not_mem_nil
  unknown _ _ := rfl
  past := List.Subset.refl _
  delivered _ hk := absurd hk List.not_mem_nil
  resolved _ hp := absurd hp List.not_mem_nil
  answered _ hm := absurd hm List.not_mem_nil
  replied before m after n hout := by
    have hlength := congrArg List.length hout
    simp [NetServer.outgoingOf] at hlength

theorem created_of_read (c : RemoteClient) {k : Int} (hk : k ∈ createdIds c.readCalls) :
    k ∈ createdIds c.calls := by
  obtain ⟨call, hcall, hid⟩ := List.mem_filterMap.1 hk
  exact List.mem_filterMap.2 ⟨call, c.readCalls_sublist.subset hcall, hid⟩

/-- The client calls: nothing has arrived, and nothing was read. -/
theorem of_call (h : Linked boost server i c) (hclient : c'.Sound boost)
    (hread : c'.readCalls = c.readCalls) (hprocessed : c'.processed = c.processed)
    (happlied : c'.applied = c.applied) (hdelivered : c'.delivered = c.delivered)
    (hchanges : c'.backend.changeList = c.backend.changeList)
    (hresolved : c'.backend.resolved = c.backend.resolved)
    (hcreated : ∀ k ∈ createdIds c'.calls, k ∉ c'.disconnected →
      k ∉ createdIds c.readCalls ∨ k ∈ createdIds c.calls ∧ k ∉ c.disconnected) :
    Linked boost server i c' := by
  have harrived : c'.arrived = c.arrived := by
    rw [RemoteClient.arrived, happlied, hchanges, RemoteClient.arrived]
  have hmessages : server.processedBy i c' = server.processedBy i c := by
    rw [NetServer.processedBy, hprocessed, NetServer.processedBy]
  refine ⟨hclient, hread ▸ h.log, hread ▸ h.removed, hprocessed ▸ h.processed, ?_, ?_, ?_, fun k hk hopen => ?_,
    ?_, ?_, hread ▸ h.replied⟩
  · rw [harrived, hmessages]
    exact h.arrived
  · rw [harrived, hread]
    exact h.unknown
  · rw [happlied, hdelivered]
    exact h.past
  · rw [happlied, hdelivered]
    rcases hcreated k hk hopen with hnew | ⟨hk, hopen⟩
    · -- nothing has come for a stream that the server does not know
      have hnone := h.unknown k hnew
      rw [RemoteClient.arrived, changesFor_append, List.append_eq_nil_iff] at hnone
      rw [hnone.1, Backend.changesFor_subset h.past hnone.1]
    · exact h.delivered k hk hopen
  · rw [hresolved, hmessages]
    exact h.resolved
  · rw [hresolved, hmessages]
    exact h.answered

theorem readCalls_concat (hread : c.read ≤ c.calls.length) (call : RemoteCall) :
    (c.calls ++ [call]).take c.read = c.readCalls := List.take_append_of_le_length hread

theorem createStream (h : Linked boost server i c) {type : StreamableType} {service : String}
    {options message : Json}
    (submitted : (RemoteCall.createStream c.nextStreamId type service options).message boost = some message) :
    Linked boost server i (c.createStream type service options message) := by
  refine h.of_call (h.client.createStream submitted) (readCalls_concat h.client.read _) rfl rfl rfl rfl rfl
    fun k hk hopen => ?_
  have hk : k ∈ createdIds (c.calls ++ _) := hk
  rw [createdIds_append, List.mem_append] at hk
  rcases hk with hk | hk
  · exact Or.inr ⟨hk, hopen⟩
  · refine Or.inl fun hmem => ?_
    have hlt := h.client.created k (created_of_read c hmem)
    rw [List.mem_singleton.1 hk] at hlt
    exact lt_irrefl _ hlt

theorem removeStream (h : Linked boost server i c) {streamId : Int} {message : Json}
    (submitted : (RemoteCall.removeStream streamId).message boost = some message) :
    Linked boost server i (c.removeStream streamId message) := by
  refine h.of_call (h.client.removeStream submitted) (readCalls_concat h.client.read _) rfl rfl rfl rfl rfl
    fun k hk hopen => Or.inr ⟨?_, fun hmem => hopen (List.mem_cons_of_mem _ hmem)⟩
  exact (createdIds_concat rfl : createdIds (c.calls ++ [.removeStream streamId]) = _) ▸ hk

theorem queueOperations (h : Linked boost server i c) {operations : Operations} {backend : NetClientBackend}
    {message : Json} (queued : c.backend.queueOperations boost operations = some (backend, message)) :
    Linked boost server i (c.queueOperations operations backend message) := by
  have hclient := h.client.queueOperations queued
  have hcreated : createdIds (c.queueOperations operations backend message).calls = createdIds c.calls :=
    createdIds_concat rfl
  obtain rfl := NetClientBackend.Tasks.queueOperations_eq queued
  exact h.of_call hclient (readCalls_concat h.client.read _) rfl rfl rfl rfl rfl
    fun k hk hopen => Or.inr ⟨hcreated ▸ hk, hopen⟩

theorem applyStreamChanges (h : Linked boost server i c) : Linked boost server i c.applyStreamChanges := by
  have harrived : c.applyStreamChanges.arrived = c.arrived := List.append_nil _
  refine ⟨h.client.applyStreamChanges, h.log, h.removed, h.processed, ?_, ?_, ?_, fun k hk hopen => ?_,
    h.resolved, h.answered, h.replied⟩
  · rw [harrived]
    exact h.arrived
  · rw [harrived]
    exact h.unknown
  · refine List.append_subset.2 ⟨fun d hd => List.mem_append_left _ (h.past hd), fun d hd => ?_⟩
    exact List.mem_append_right _ (List.mem_of_mem_filter hd)
  · obtain ⟨stream, hstream, rfl⟩ := h.client.applyStreamChanges.valid k hk hopen
    have hkept : ∀ d : DataStreamDifferential, d.streamId = stream.streamId →
        (c.validStreams.any fun stream => stream.streamId == d.streamId) = true :=
      fun d hd => List.any_eq_true.2 ⟨stream, hstream, by rw [hd]; exact beq_self_eq_true _⟩
    have hfilter := Backend.changesFor_filter hkept c.backend.changeList
    rw [RemoteClient.applyStreamChanges, changesFor_append, changesFor_append, hfilter]
    exact congrArg (· ++ _) (h.delivered _ hk hopen)

/-- A reply is the reply to a batch of the client: to one that the session read and the
    backend executed. -/
theorem batch_of_reply (h : Linked boost server i c) (hserver : server.Sound build boost db) {m : Message}
    {n : Nat} (hm : m ∈ server.outgoingOf i) (hreply : m.cause = .batch n) :
    ∃ before id operations r, RepliesTo server i c m n before id operations r := by
  obtain ⟨hmem, hsession⟩ := List.mem_filter.1 hm
  obtain ⟨b, hb, results, id, hvalue, hid, hmb, hjson⟩ :=
    Sessions.isReply_of_mem (Sessions.reached_sound hserver.sessions) hmem hreply
  obtain ⟨r, hr, hresults⟩ : ∃ r, server.backend.executed[n]? = some r ∧ r.results = results := by
    cases hserver.resolved.batch n b hb with
    | waiting _ hempty => rw [hempty] at hvalue; cases hvalue
    | next _ _ hempty => rw [hempty] at hvalue; cases hvalue
    | resolved r hr hv =>
      rw [hv] at hvalue
      cases hvalue
      exact ⟨r, hr, rfl⟩
  have hn := (List.getElem?_eq_some_iff.1 hb).1
  have hscheduled : n < server.scheduled.length := by
    rw [hserver.subscribed.length, ← hserver.resolved.queued]
    exact hn
  have hqueued : server.backend.queued[n]? = some r.operations := by
    obtain ⟨a, ha⟩ := hserver.simulates
    have horder := (Backend.reached_sound ha.reached).order
    obtain ⟨_, _, _, hsame⟩ := ha.backend
    rw [hsame] at hr ⊢
    dsimp only at hr ⊢
    rw [horder, List.append_assoc]
    exact getElem?_append_of_eq_some (by rw [List.getElem?_map, hr]; rfl) _
  have hbatch : ⟨b.id, r.operations, server.scheduled[n]⟩ ∈ server.batchesOf i :=
    NetServer.mem_batchesOf.2 ⟨n, b, r.operations, _, hb, hqueued, List.getElem?_eq_getElem hscheduled,
      hmb.symm.trans (by simpa using hsession), rfl⟩
  have hdistinct : (createdIds c.readCalls).Nodup :=
    (h.client.createdOrder.sublist (c.readCalls_sublist.filterMap _)).imp ne_of_lt
  obtain ⟨before, id', operations, after, hcalls, hid', hoperations, hall⟩ := h.log.call_of_mem hdistinct hbatch
  dsimp only at hid' hoperations hall
  rw [hid'] at hid
  cases hid
  exact ⟨before, id, operations, r, hr, ⟨b, hb, hmb.symm.trans (by simpa using hsession), hid'⟩,
    ⟨after, hcalls⟩, hresults ▸ hjson, hoperations, _, List.getElem?_eq_getElem hscheduled, hall⟩

/-- Neither the client nor the server has another stream under the id of this one. -/
theorem changesFor_received (h : Linked boost server i c) (hserver : server.Sound build boost db)
    {o o' : SessionStreamObserver} (ho : o ∈ server.observersOf i) (ho' : o' ∈ server.observersOf i) {m : Message}
    {d : DataStreamDifferential} (hm : m.cause = .change d) (hid : o.stream.streamId = d.streamId) :
    changesFor o'.clientStreamId
        ((arrivingChanges [d.change]).map fun change => ⟨o.clientStreamId, change⟩) =
      arrivingChanges (changesSent o'.stream.streamId [m]) := by
  by_cases hsame : o' = o
  · subst hsame
    have hchange : changesSent o'.stream.streamId [m] = [d.change] := by
      simp [changesSent, hm, hid]
    rw [changesFor_map, hchange]
  · have hclientId : o.clientStreamId ≠ o'.clientStreamId := by
      have hdistinct : (server.observersOf i |>.map (·.clientStreamId)).Nodup := by
        rw [h.log.createdIds_eq]
        exact (h.client.createdOrder.sublist (c.readCalls_sublist.filterMap _)).imp ne_of_lt
      exact fun he => hsame (List.inj_on_of_nodup_map hdistinct ho' ho he.symm)
    have hstreamId : d.streamId ≠ o'.stream.streamId := fun he => hsame
      (hserver.eq_of_streamId (NetServer.mem_observersOf.1 ho').1 (NetServer.mem_observersOf.1 ho).1
        (he.symm.trans hid.symm))
    have hchange : changesSent o'.stream.streamId [m] = [] := by
      simp [changesSent, hm, hstreamId]
    rw [changesFor_map_ne hclientId, hchange]
    rfl

/-- A change for a stream arrives: the stream of the client gets what comes back of it. -/
theorem receiveChange (h : Linked boost server i c) (hserver : server.Sound build boost db) {m : Message}
    {d : DataStreamDifferential} {backend : NetClientBackend}
    (next : (server.outgoingOf i)[c.processed]? = some m) (hm : m.cause = .change d)
    (done : c.backend.processMessage build boost m.json = .ok backend) :
    Linked boost server i { c with backend, processed := c.processed + 1 } := by
  have hmem := List.mem_of_getElem? next
  obtain ⟨hout, hsession⟩ := List.mem_filter.1 hmem
  obtain ⟨o, ho, hid, hos, hjson⟩ := hserver.routed.json m hout d hm
  have ho : o ∈ server.observersOf i :=
    NetServer.mem_observersOf.2 ⟨ho, hos.symm.trans (by simpa using hsession)⟩
  have hclient := h.client.processMessage done (c.processed + 1)
  rw [hjson] at done
  obtain ⟨hchanges, hresolved⟩ := queued_of_message done
  have harrived : c.applied ++ backend.changeList = c.arrived ++
      (arrivingChanges [d.change]).map (fun change => ⟨o.clientStreamId, change⟩) := by
    rw [hchanges, RemoteClient.arrived, List.append_assoc]
  have hmessages : (server.outgoingOf i).take (c.processed + 1) = server.processedBy i c ++ [m] := by
    rw [List.take_add_one, next]
    rfl
  have hlength := (List.getElem?_eq_some_iff.1 next).1
  refine ⟨hclient, h.log, h.removed, hlength, fun o' ho' => ?_, fun k hk => ?_, h.past, h.delivered,
    fun p hp => ?_, fun m' hm' n hn => ?_, h.replied⟩
  · rw [RemoteClient.arrived, NetServer.processedBy]
    dsimp only
    rw [harrived, hmessages, changesFor_append, h.arrived o' ho', changesSent_append, arrivingChanges_append]
    rw [h.changesFor_received hserver ho ho' hm hid]
  · rw [RemoteClient.arrived]
    dsimp only
    rw [harrived, changesFor_append, h.unknown k hk]
    apply changesFor_map_ne
    rintro rfl
    apply hk
    have hmem : o.clientStreamId ∈ (server.observersOf i).map (·.clientStreamId) := List.mem_map_of_mem ho
    rwa [h.log.createdIds_eq] at hmem
  · rw [NetServer.processedBy]
    dsimp only at hp ⊢
    rw [hresolved] at hp
    obtain ⟨m', hm', hrest⟩ := h.resolved p hp
    rw [hmessages]
    exact ⟨m', List.mem_append_left _ hm', hrest⟩
  · rw [NetServer.processedBy] at hm'
    dsimp only at hm' ⊢
    rw [hmessages] at hm'
    rw [hresolved]
    rcases List.mem_append.1 hm' with hm' | hm'
    · exact h.answered m' hm' n hn
    · rw [List.mem_singleton.1 hm', hm] at hn
      cases hn

/-- A reply arrives: the promise of its batch is resolved, or was before. -/
theorem receiveReply (h : Linked boost server i c) (hserver : server.Sound build boost db) {m : Message}
    {n : Nat} {backend : NetClientBackend} (next : (server.outgoingOf i)[c.processed]? = some m)
    (hm : m.cause = .batch n) (done : c.backend.processMessage build boost m.json = .ok backend) :
    Linked boost server i { c with backend, processed := c.processed + 1 } := by
  have hmem := List.mem_of_getElem? next
  obtain ⟨before, id, operations, r, hreplies⟩ := h.batch_of_reply hserver hmem hm
  obtain ⟨after, hcalls⟩ := hreplies.call
  have hjson := hreplies.json
  have hclient := h.client.processMessage done (c.processed + 1)
  have hresults := NetClientBackend.deserializeTaskResultsMessage_serialize id r.results
  rw [← hjson] at hresults
  rw [hjson, NetClientBackend.processMessage_taskResults] at done
  have hissued : id ∈ c.backend.tasks ++ c.backend.resolved.map (·.1) := by
    rw [h.client.tasks.issued, ← h.client.queued]
    apply (c.readCalls_sublist.filterMap _).subset
    rw [hcalls]
    exact List.mem_filterMap.2 ⟨_, List.mem_append_right _ List.mem_cons_self, rfl⟩
  obtain ⟨hchanges, hresolved, hanswered⟩ : backend.changeList = c.backend.changeList ∧
      (backend.resolved = c.backend.resolved ∨
        backend.resolved = c.backend.resolved ++ [(id, r.results.map NetClientBackend.received)]) ∧
      id ∈ backend.resolved.map (·.1) := by
    by_cases hid : id ∈ c.backend.tasks
    · rw [if_pos hid] at done
      cases done
      exact ⟨rfl, Or.inr rfl, by simp⟩
    · rw [if_neg hid] at done
      cases done
      exact ⟨rfl, Or.inl rfl, (List.mem_append.1 hissued).resolve_left hid⟩
  have hkept : ∀ p ∈ c.backend.resolved, p ∈ backend.resolved := by
    rcases hresolved with hsame | hmore
    · exact fun p hp => hsame ▸ hp
    · exact fun p hp => hmore ▸ List.mem_append_left _ hp
  have hmessages : (server.outgoingOf i).take (c.processed + 1) = server.processedBy i c ++ [m] := by
    rw [List.take_add_one, next]
    rfl
  have harrived : c.applied ++ backend.changeList = c.arrived := by rw [hchanges, RemoteClient.arrived]
  have hlength := (List.getElem?_eq_some_iff.1 next).1
  refine ⟨hclient, h.log, h.removed, hlength, fun o ho => ?_, fun k hk => ?_, h.past, h.delivered,
    fun p hp => ?_, fun m' hm' n' hn' => ?_, h.replied⟩
  · rw [RemoteClient.arrived, NetServer.processedBy]
    dsimp only
    rw [harrived, hmessages, h.arrived o ho, changesSent_append, changesSent_reply _ hm, List.append_nil]
  · rw [RemoteClient.arrived]
    dsimp only
    rw [harrived]
    exact h.unknown k hk
  · rw [NetServer.processedBy]
    dsimp only at hp ⊢
    rw [hmessages]
    have hp : p ∈ c.backend.resolved ∨ p = (id, r.results.map NetClientBackend.received) := by
      rcases hresolved with hsame | hmore
      · exact Or.inl (hsame ▸ hp)
      · rw [hmore, List.mem_append, List.mem_singleton] at hp
        exact hp
    rcases hp with hp | rfl
    · obtain ⟨m', hm', hrest⟩ := h.resolved p hp
      exact ⟨m', List.mem_append_left _ hm', hrest⟩
    · exact ⟨m, List.mem_append_right _ (List.mem_singleton_self m), n, hm, hresults⟩
  · rw [NetServer.processedBy] at hm'
    dsimp only at hm' ⊢
    rw [hmessages] at hm'
    rcases List.mem_append.1 hm' with hm' | hm'
    · obtain ⟨id', results', hjson', hmem'⟩ := h.answered m' hm' n' hn'
      obtain ⟨p, hp, hpid⟩ := List.mem_map.1 hmem'
      exact ⟨id', results', hjson', List.mem_map.2 ⟨p, hkept p hp, hpid⟩⟩
    · rw [List.mem_singleton.1 hm']
      exact ⟨id, _, hresults, hanswered⟩

/-- The server goes on, with the same streams: what it sends the client is added to what it
    has sent, and the client may have been read. -/
theorem of_server (h : Linked boost server i c) {read : Nat}
    (hclient : RemoteClient.Sound boost { c with read }) (hread : c.read ≤ read)
    (hobservers : server'.observersOf i = server.observersOf i)
    (hlog : SessionLog (c.calls.take read) (server.observersOf i) (server'.batchesOf i))
    (hremoved : ∀ o ∈ server.observersOf i, o.stream.streamId ∈ server'.backend.disconnected →
      o.stream.streamId ∈ server.backend.disconnected ∨ i ∈ server.sessions.disconnected ∨
        .removeStream o.clientStreamId ∈ c.calls.take read)
    (hdisconnected : server.sessions.disconnected ⊆ server'.sessions.disconnected)
    (hannounced : server.announced <+: server'.announced) {new : List Message}
    (houtgoing : server'.outgoingOf i = server.outgoingOf i ++ new)
    (hreplied : ∀ before m after n, new = before ++ m :: after → m.cause = .batch n →
      ∃ a, server'.announced[n]? = some a ∧ ∀ o ∈ server.observersOf i,
        .removeStream o.clientStreamId ∉ c.calls.take read →
          changesFor o.stream.streamId (a.before ++ a.changes) <+:
            changesSent o.stream.streamId (server.outgoingOf i ++ before)) :
    Linked boost server' i { c with read } := by
  have hcalls : ∀ call ∈ c.readCalls, call ∈ c.calls.take read :=
    fun call hcall => (List.take_prefix_take_left (l := c.calls) hread).subset hcall
  have hmessages : (server'.outgoingOf i).take c.processed = server.processedBy i c := by
    rw [houtgoing, List.take_append_of_le_length h.processed]
    rfl
  refine ⟨hclient, hobservers.symm ▸ hlog, fun o ho hgone => ?_, ?_, fun o ho => ?_, fun k hk => ?_, h.past,
    h.delivered, fun p hp => ?_, fun m hm n hn => ?_, fun before m after n hout hn => ?_⟩
  · rw [hobservers] at ho
    rcases hremoved o ho hgone with hgone | hgone | hgone
    · exact (h.removed o ho hgone).imp (fun hi => hdisconnected hi) (hcalls _)
    · exact Or.inl (hdisconnected hgone)
    · exact Or.inr hgone
  · rw [houtgoing, List.length_append]
    exact Nat.le_add_right_of_le h.processed
  · rw [hobservers] at ho
    rw [NetServer.processedBy]
    dsimp only
    rw [hmessages]
    exact h.arrived o ho
  · refine h.unknown k fun hmem => hk ?_
    obtain ⟨call, hcall, hid⟩ := List.mem_filterMap.1 hmem
    exact List.mem_filterMap.2 ⟨call, hcalls call hcall, hid⟩
  · rw [NetServer.processedBy]
    dsimp only
    rw [hmessages]
    exact h.resolved p hp
  · rw [NetServer.processedBy] at hm
    dsimp only at hm
    rw [hmessages] at hm
    exact h.answered m hm n hn
  · rw [houtgoing] at hout
    rw [hobservers]
    rcases NetServer.append_eq_cases hout with ⟨rest, hold, -⟩ | ⟨rest, rfl, hnew⟩
    · obtain ⟨a, ha, hall⟩ := h.replied before m rest n hold hn
      obtain ⟨more, hmore⟩ := hannounced
      refine ⟨a, hmore ▸ getElem?_append_of_eq_some ha _, fun o ho hkept => hall o ho fun hmem => ?_⟩
      exact hkept (hcalls _ hmem)
    · exact hreplied rest m after n hnew hn

theorem outgoingOf_append {new : List Message}
    (h : server'.sessions.outgoing = server.sessions.outgoing ++ new) :
    server'.outgoingOf i = server.outgoingOf i ++ new.filter fun m => m.session == i := by
  rw [NetServer.outgoingOf, h, List.filter_append]
  rfl

theorem background (h : Linked boost server i c) (hserver : server'.Sound build boost db)
    (step : server.Background build boost server') : Linked boost server' i c := by
  have hobservers : server'.observersOf i = server.observersOf i := by
    rw [NetServer.observersOf, step.observers]
    rfl
  obtain ⟨new, hout, hnew⟩ := step.effect.outgoing
  have houtgoing := outgoingOf_append (i := i) hout
  refine h.of_server h.client le_rfl hobservers ?_ (fun o ho hgone => ?_) step.effect.disconnected
    step.effect.announced houtgoing fun before m after n hsent hn => ?_
  · rw [step.batchesOf]
    exact h.log
  · rcases step.removed _ hgone with hgone | ⟨o', ho', hid, hsession⟩
    · exact Or.inl hgone
    · obtain ⟨hmem, hos⟩ := NetServer.mem_observersOf.1 ho
      have hmem' := step.observers.symm ▸ hmem
      have ho'' := step.observers.symm ▸ ho'
      obtain rfl := hserver.eq_of_streamId ho'' hmem' hid
      exact Or.inr (Or.inl (hos ▸ hsession))
  · -- a new reply: the session is there, and the streams that it has lost were removed
    have hmem : m ∈ new.filter fun m => m.session == i := by
      rw [hsent]
      exact List.mem_append_right _ List.mem_cons_self
    obtain ⟨hm, hsession⟩ := List.mem_filter.1 hmem
    obtain ⟨hconnected, hsame⟩ := hnew m hm n hn
    rw [beq_iff_eq.1 hsession] at hconnected
    have hqueue : server'.outgoingOf i = (server.outgoingOf i ++ before) ++ m :: after := by
      rw [houtgoing, hsent, List.append_assoc]
    obtain ⟨a, ha, hall⟩ := hserver.replied_session hqueue hn
    refine ⟨a, ha, fun o ho hkept => hall o (hobservers ▸ ho) fun hgone => ?_⟩
    rw [hsame] at hgone
    rcases h.removed o ho hgone with hi | hcall
    · exact hconnected hi
    · exact hkept hcall

/-- A session reads a message, of this client or of another one. The streams of the client
    stay as they are, but that one that it removes may be closed. -/
theorem of_read (h : Linked boost server i c) {read : Nat}
    (hclient : RemoteClient.Sound boost { c with read }) (hread : c.read ≤ read)
    (hobservers : server'.observersOf i = server.observersOf i)
    (hlog : SessionLog (c.calls.take read) (server.observersOf i) (server'.batchesOf i))
    (hremoved : ∀ o ∈ server.observersOf i, o.stream.streamId ∈ server'.backend.disconnected →
      o.stream.streamId ∈ server.backend.disconnected ∨ i ∈ server.sessions.disconnected ∨
        .removeStream o.clientStreamId ∈ c.calls.take read)
    (hdisconnected : server'.sessions.disconnected = server.sessions.disconnected)
    (hannounced : server'.announced = server.announced)
    (houtgoing : server'.sessions.outgoing = server.sessions.outgoing) :
    Linked boost server' i { c with read } := by
  have hout : server'.outgoingOf i = server.outgoingOf i ++ [] := by
    rw [NetServer.outgoingOf, houtgoing, List.append_nil]
    rfl
  refine h.of_server hclient hread hobservers hlog hremoved (hdisconnected ▸ List.Subset.refl _)
    (hannounced ▸ List.prefix_rfl) hout fun before m after n hsent => ?_
  cases before with
  | nil => cases hsent
  | cons x before => cases hsent

theorem runCommand_other (h : Linked boost server i c) (hserver : server.Sound build boost db) {j : Nat}
    (hne : j ≠ i) {obj : Json} (done : server.runCommand build boost j obj = .ok server') :
    Linked boost server' i c := by
  cases NetServer.ran_of_runCommand done with
  | createStream clientId streamType endpoint options command =>
    have hobservers : (server.createStream j clientId streamType endpoint options).observersOf i =
        server.observersOf i := by
      unfold NetServer.observersOf NetServer.createStream
      dsimp only
      rw [List.filter_append, List.filter_cons_of_neg (by simpa using hne), List.filter_nil,
        List.append_nil]
    exact h.of_read h.client le_rfl hobservers h.log (fun o ho hgone => Or.inl hgone) rfl rfl rfl
  | removeStream clientId observer command found =>
    obtain ⟨hmem, -, hsession, -⟩ := NetServer.of_findStream found
    refine h.of_read h.client le_rfl rfl h.log (fun o ho hgone => ?_) rfl rfl rfl
    obtain ⟨ho, hos⟩ := NetServer.mem_observersOf.1 ho
    rcases List.mem_cons.1 hgone with hid | hgone
    · obtain rfl := hserver.eq_of_streamId ho hmem hid
      exact absurd (hsession.symm.trans hos) hne
    · exact Or.inl hgone
  | notFound clientId command none => exact h
  | schedule operations id command =>
    have hbatches := NetServer.batchesOf_schedule hserver.resolved.queued hserver.subscribed.length j i
      operations id
    rw [if_neg hne, List.append_nil] at hbatches
    exact h.of_read h.client le_rfl rfl (hbatches.symm ▸ h.log) (fun o ho hgone => Or.inl hgone) rfl rfl rfl
  | unknown command => exact h

/-- The session creates a stream: it is the newest on both sides. -/
theorem readCreateStream (h : Linked boost server i c) (hreached : server.Reached build boost db)
    {streamId : Int} {type : StreamableType} {service : String} {options : Json}
    (hclient : RemoteClient.Sound boost { c with read := c.read + 1 })
    (hcall : c.calls[c.read]? = some (.createStream streamId type service options)) :
    Linked boost (server.createStream i streamId (NetClientSession.streamableTypeOfInt type.toInt) service
      options) i { c with read := c.read + 1 } := by
  have hserver := NetServer.reached_sound hreached
  obtain ⟨a, hsim⟩ := hserver.simulates
  have hcalls := c.readCalls_next hcall
  have hread := congrArg createdIds hcalls
  rw [createdIds_append] at hread
  have hobservers : (server.createStream i streamId (NetClientSession.streamableTypeOfInt type.toInt) service
      options).observersOf i = server.observersOf i ++ [⟨⟨server.backend.nextStreamId,
        NetClientSession.streamableTypeOfInt type.toInt, service, options⟩, i, streamId⟩] := by
    unfold NetServer.observersOf NetServer.createStream
    dsimp only
    rw [List.filter_append, List.filter_cons_of_pos (by simp), List.filter_nil]
  have hnew : streamId ∉ createdIds c.readCalls := by
    have hdistinct : (createdIds (RemoteClient.readCalls { c with read := c.read + 1 })).Nodup :=
      (hclient.createdOrder.sublist ((RemoteClient.readCalls_sublist _).filterMap _)).imp ne_of_lt
    rw [hread] at hdistinct
    exact fun hmem => (List.nodup_append.1 hdistinct).2.2 _ hmem _ (List.mem_singleton_self _) rfl
  refine ⟨hclient, ?_, fun o ho hgone => ?_, h.processed, fun o ho => ?_, fun k hk => h.unknown k fun hmem => ?_,
    h.past, h.delivered, h.resolved, h.answered, fun before m after n hout hn => ?_⟩
  · rw [hcalls, hobservers]
    refine .createStream h.log streamId type service options _ rfl rfl (fun b hb => ?_) fun o ho => ?_
    · obtain ⟨n, _, _, bound, -, -, hbound, -, rfl⟩ := NetServer.mem_batchesOf.1 hb
      exact hserver.subscribed.bound bound (List.mem_of_getElem? hbound)
    · exact hsim.observer_lt (NetServer.mem_observersOf.1 ho).1
  · rw [hobservers] at ho
    rcases List.mem_append.1 ho with ho | ho
    · refine (h.removed o ho hgone).imp_right fun hmem => ?_
      rw [hcalls]
      exact List.mem_append_left _ hmem
    · have hlt := NetServer.closed_lt hreached _ hgone
      rw [List.mem_singleton.1 ho] at hlt
      exact absurd hlt (lt_irrefl _)
  · rw [hobservers] at ho
    rcases List.mem_append.1 ho with ho | ho
    · exact h.arrived o ho
    · rw [List.mem_singleton.1 ho]
      have hsub : server.processedBy i c ⊆ server.sessions.outgoing :=
        fun m hm => List.mem_of_mem_filter (List.mem_of_mem_take hm)
      exact (h.unknown streamId hnew).trans (congrArg arrivingChanges (hserver.unsent hsub)).symm
  · apply hk
    rw [hread]
    exact List.mem_append_left _ hmem
  · obtain ⟨b, hb, hall⟩ := h.replied before m after n hout hn
    refine ⟨b, hb, fun o ho hkept => ?_⟩
    rw [hobservers] at ho
    rcases List.mem_append.1 ho with ho | ho
    · refine hall o ho fun hmem => hkept ?_
      rw [hcalls]
      exact List.mem_append_left _ hmem
    · -- nothing was announced for the new stream
      rw [List.mem_singleton.1 ho, hsim.unpublished (hserver.ordered.through n b hb).subset]
      exact List.nil_prefix

/-- The session reads the next message of its client. -/
theorem runCommand_own (h : Linked boost server i c) (hreached : server.Reached build boost db) {obj : Json}
    (next : c.submitted[c.read]? = some obj) (done : server.runCommand build boost i obj = .ok server') :
    Linked boost server' i { c with read := c.read + 1 } := by
  have hserver := NetServer.reached_sound hreached
  obtain ⟨a, hsim⟩ := hserver.simulates
  have hclient := h.client.readNext next
  obtain ⟨call, hcall, hmessage⟩ := h.client.next next
  have hcalls : c.calls.take (c.read + 1) = c.readCalls ++ [call] := c.readCalls_next hcall
  cases call with
  | createStream streamId type service options =>
    rw [NetServer.runCommand, Except.bind_ok (command_of_createStream hmessage)] at done
    cases done
    exact h.readCreateStream hreached hclient hcall
  | removeStream streamId =>
    have hlog : SessionLog (c.calls.take (c.read + 1)) (server.observersOf i) (server.batchesOf i) := by
      rw [hcalls]
      exact .removeStream h.log streamId
    rw [NetServer.runCommand, Except.bind_ok (command_of_removeStream hmessage)] at done
    dsimp only at done
    cases hfound : server.findStream i streamId with
    | none =>
      rw [hfound] at done
      cases done
      exact h.of_read hclient (Nat.le_succ _) rfl hlog (fun o ho hgone => Or.inl hgone) rfl rfl rfl
    | some observer =>
      rw [hfound] at done
      cases done
      obtain ⟨hmem, -, -, hclientId⟩ := NetServer.of_findStream hfound
      refine h.of_read hclient (Nat.le_succ _) rfl hlog (fun o ho hgone => ?_) rfl rfl rfl
      rcases List.mem_cons.1 hgone with hid | hgone
      · obtain rfl := hserver.eq_of_streamId (NetServer.mem_observersOf.1 ho).1 hmem hid
        refine Or.inr (Or.inr ?_)
        rw [hcalls, hclientId]
        exact List.mem_append_right _ (List.mem_singleton_self _)
      · exact Or.inl hgone
  | queueOperations id operations =>
    obtain ⟨command, hcommand, done⟩ := Except.bind_eq_ok.1 done
    obtain rfl := command_of_queueOperations hmessage hcommand
    cases done
    have hbatches := NetServer.batchesOf_schedule hserver.resolved.queued hserver.subscribed.length i i
      (arriving operations) (.int id)
    rw [if_pos rfl] at hbatches
    refine h.of_read hclient (Nat.le_succ _) rfl ?_ (fun o ho hgone => Or.inl hgone) rfl rfl rfl
    rw [hcalls, hbatches]
    exact .queueOperations h.log id operations _ fun o ho => hsim.observer_lt (NetServer.mem_observersOf.1 ho).1

end Linked

namespace RemoteSystem

variable {build : Build} {boost : BoostDate} {db : Database} {s s' : RemoteSystem}

theorem linked_setClient (h : ∀ j, Linked boost s.server j (s.clients j)) {i : Nat} {c : RemoteClient}
    (hc : Linked boost s.server i c) (j : Nat) :
    Linked boost (s.setClient i c).server j ((s.setClient i c).clients j) := by
  unfold setClient
  by_cases hj : j = i
  · subst hj
    dsimp only
    rw [Function.update_self]
    exact hc
  · dsimp only
    rw [Function.update_of_ne hj]
    exact h j

theorem linked_step (hreached : Reached build boost db s) (h : ∀ j, Linked boost s.server j (s.clients j))
    (hs : Step build boost s s') : ∀ j, Linked boost s'.server j (s'.clients j) := by
  have hserver := NetServer.reached_sound (reached_server hreached)
  have hreached' := reached_server (Reachable.step hreached hs)
  cases hs with
  | createStream i type service options message submitted =>
    exact linked_setClient h ((h i).createStream submitted)
  | removeStream i streamId message created open_ submitted =>
    exact linked_setClient h ((h i).removeStream submitted)
  | queueOperations i operations backend message queued =>
    exact linked_setClient h ((h i).queueOperations queued)
  | applyStreamChanges i => exact linked_setClient h (h i).applyStreamChanges
  | processMessage i m backend next done =>
    refine linked_setClient h ?_
    cases hm : m.cause with
    | change d => exact (h i).receiveChange hserver next hm done
    | batch n => exact (h i).receiveReply hserver next hm done
  | runCommand i obj server idle connected next done =>
    intro j
    unfold setClient
    by_cases hj : j = i
    · subst hj
      dsimp only
      rw [Function.update_self]
      exact (h j).runCommand_own (reached_server hreached) next done
    · dsimp only
      rw [Function.update_of_ne hj]
      exact (h j).runCommand_other hserver (Ne.symm hj) done
  | server server step => exact fun j => (h j).background (NetServer.reached_sound hreached') step

theorem reached_linked (h : Reached build boost db s) (i : Nat) :
    Linked boost s.server i (s.clients i) := by
  have hall : ∀ j, Linked boost s.server j (s.clients j) := by
    induction h with
    | init h =>
      obtain rfl := h
      exact fun j => Linked.init boost _ j
    | step hreached step ih => exact linked_step hreached ih step
  exact hall i

end RemoteSystem

end HotelPms

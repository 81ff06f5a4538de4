import HotelPms.Server.RemoteProgress

/- What is published for a remote stream arrives.

   A stream waits to be initialized until the worker collects and initializes it
   (`streamRank`). What the worker publishes goes to the change queue, which is emptied by a
   handler that was posted for it (`signal_step`), and from there in messages to the client,
   which hands it on to the observer when it applies its own change queue. `remote_delivery`
   says that each stream that is not closed is initialized, and gets all that is published
   for it; `RemoteStreams` says that it gets nothing else, and in which order. -/
namespace HotelPms
open Lib SqliteStorage DataStreamManager SqliteBackend

namespace NetServer

variable {build : Build} {boost : BoostDate} {db : Database} {s s' : NetServer}

/-! ## What only grows -/

theorem observers_step (hs : Step build boost s s') : s.observers <+: s'.observers := by
  cases hs with
  | createStream session obj clientId streamType endpoint options stream => exact List.prefix_append _ _
  | removeStream | schedule | internal | applyStreamChanges | turn | initializeOne | addStreamChange | signal |
    executeTask | resolve => exact List.prefix_rfl

theorem disconnected_step (hs : Step build boost s s') : s.backend.disconnected ⊆ s'.backend.disconnected := by
  cases hs with
  | removeStream observer idle held open_ reason => exact List.subset_cons_self _ _
  | turn backend idle step =>
    dsimp only
    rw [step.unchanged.2.2.1]
    exact List.Subset.refl _
  | createStream | schedule | internal | applyStreamChanges | initializeOne | addStreamChange | signal |
    executeTask | resolve => exact List.Subset.refl _

theorem published_step (hs : Step build boost s s') : s.backend.published <+: s'.backend.published := by
  cases hs with
  | addStreamChange change rest next => exact List.prefix_append _ _
  | executeTask idle phase operations rest next out changes executed added => exact List.prefix_append _ _
  | turn backend idle step =>
    dsimp only
    rw [step.unchanged.2.2.2.1]
  | createStream | removeStream | schedule | internal | applyStreamChanges | initializeOne | signal | resolve =>
    exact List.prefix_rfl

/-- The worker signals next, or has done so. -/
theorem signal_step {rest : List WorkerAction} (hs : Step build boost s s') (hworker : s.worker = .signal :: rest) :
    s'.worker = .signal :: rest ∨ .applyStreamChanges ∈ s'.sessions.handlers := by
  have hbusy : ¬s.WorkerIdle := fun hidle => by simp [hidle.1] at hworker
  cases hs with
  | createStream | removeStream | schedule | internal | applyStreamChanges => exact Or.inl hworker
  | turn backend idle step => exact absurd idle hbusy
  | initializeOne idle => exact absurd idle hbusy
  | executeTask idle => exact absurd idle hbusy
  | addStreamChange change rest' next =>
    rw [hworker] at next
    cases next
  | signal rest' next => exact Or.inr (List.mem_append_right _ (List.mem_singleton_self _))
  | resolve n results rest' next =>
    rw [hworker] at next
    cases next

/-! ## A stream that waits -/

/-- The stream is open, and its initial changes are not published. -/
structure Uninitialized (o : SessionStreamObserver) (s : NetServer) : Prop where
  observer : o ∈ s.observers
  connected : o.stream.streamId ∉ s.backend.disconnected
  waits : .initialized ∉ changesFor o.stream.streamId s.backend.published

/-- Whether the worker has still to collect the stream, to initialize it, or to publish what it loaded. -/
inductive Uncollected (o : SessionStreamObserver) (s : NetServer) : Prop where
  | waiting (uninitialized : o.stream.streamId ∈ s.backend.uninitializedStreams.map (·.streamId))
      (notNew : o.stream.streamId ∉ s.backend.newStreams.map (·.streamId))
  | starting (collected : o.stream.streamId ∉ s.backend.uninitializedStreams.map (·.streamId))
      (new : o.stream.streamId ∈ s.backend.newStreams.map (·.streamId)) (phase : s.backend.phase = .initializing)
  | publishing (collected : o.stream.streamId ∉ s.backend.uninitializedStreams.map (·.streamId))
      (notNew : o.stream.streamId ∉ s.backend.newStreams.map (·.streamId)) (busy : s.worker ≠ [])

theorem initialized_mem {stream : DataStream} {db : Database} {snapshot : List DataStreamDifferential}
    (h : Backend.initialChanges build boost stream db = .ok snapshot) :
    .initialized ∈ changesFor stream.streamId snapshot := by
  obtain ⟨changes, -, h⟩ := Except.bind_eq_ok.1 h
  cases h
  rw [changesFor_map]
  exact List.mem_append_right _ (List.mem_singleton_self _)

variable {o : SessionStreamObserver}

theorem Uninitialized.place (hp : Uninitialized o s) (h : Sound build boost db s) : Uncollected o s := by
  obtain ⟨a, ha⟩ := h.simulates
  have hsound := Backend.reached_sound ha.reached
  have hcreated : o.stream ∈ a.created := by
    rw [ha.created]
    exact List.mem_map_of_mem hp.observer
  have hcollected : o.stream ∈ a.activeStreams →
      o.stream.streamId ∉ a.uninitializedStreams.map (·.streamId) := by
    intro hactive hmem
    obtain ⟨stream, hstream, hid⟩ := List.mem_map.1 hmem
    exact hsound.waitingInactive stream hstream (hid ▸ List.mem_map_of_mem hactive)
  have hpublished := ha.published
  obtain ⟨_, _, _, hsame⟩ := ha.backend
  have hconnected := hp.connected
  rw [hsame] at hconnected
  cases hsound.streams o.stream hcreated hconnected with
  | waiting uninitialized inactive notNew =>
    refine .waiting ?_ ?_
    · rw [hsame]
      exact List.mem_map_of_mem uninitialized
    · rw [hsame]
      exact notNew
  | starting new active =>
    refine .starting ?_ ?_ ?_
    · rw [hsame]
      exact hcollected active
    · rw [hsame]
      exact List.mem_map_of_mem new
    · rw [hsame]
      by_contra hphase
      rw [hsound.initializing hphase] at new
      exact absurd new List.not_mem_nil
  | running active notNew n bound snapshot loaded sent =>
    refine .publishing ?_ ?_ fun hnone => hp.waits ?_
    · rw [hsame]
      exact hcollected active
    · rw [hsame]
      exact notNew
    · rw [hnone] at hpublished
      have hall : a.published = s.backend.published := hpublished.trans (List.append_nil _)
      rw [← hall, sent]
      exact List.mem_append_left _ (initialized_mem loaded)

/-- How far the worker is from publishing that the stream is initialized: what is to be done with it,
    and how many points of the loop are left until streams are collected. -/
def streamRank (o : SessionStreamObserver) (s : NetServer) : Nat ×ₗ Nat ×ₗ Nat ×ₗ Nat :=
  loopRank (if o.stream.streamId ∈ s.backend.uninitializedStreams.map (·.streamId) then 2
    else if o.stream.streamId ∈ s.backend.newStreams.map (·.streamId) then 1 else 0) ((5 - s.point) % 4) s

theorem Uninitialized.advances (hp : Uninitialized o s) (hp' : Uninitialized o s')
    (h : Sound build boost db s) (h' : Sound build boost db s') (hadvances : Advances s s') :
    streamRank o s' < streamRank o s := by
  have hpoint := s.point_le
  apply loopRank_lt
  cases hadvances with
  | act busy load phase streams tasks executed uninitialized =>
    right
    rw [uninitialized, streams, items, items, point_congr phase, streams, tasks]
    exact ⟨rfl, Or.inr ⟨rfl, Or.inr ⟨rfl, load⟩⟩⟩
  | item idle phase items taken uninitialized =>
    rw [uninitialized, point_congr phase]
    cases hp.place h with
    | waiting waits =>
      rw [if_pos waits, if_pos waits]
      exact Or.inr ⟨rfl, Or.inr ⟨rfl, Or.inl items⟩⟩
    | starting collected new =>
      rw [if_neg collected, if_neg collected, if_pos new]
      split
      · exact Or.inr ⟨rfl, Or.inr ⟨rfl, Or.inl items⟩⟩
      · exact Or.inl Nat.one_pos
    | publishing collected notNew busy => exact absurd idle.1 busy
  | toNext idle ne ne' point taken uninitialized streams =>
    rw [uninitialized, streams, point]
    exact Or.inr ⟨rfl, Or.inl (by omega)⟩
  | swap idle point point' taken uninitialized streams =>
    rw [uninitialized, streams, point, point']
    exact Or.inr ⟨rfl, Or.inl (by decide)⟩
  | collect idle point point' taken streams =>
    cases hp.place h with
    | waiting waits =>
      rw [if_pos waits]
      left
      split
      · next waits' =>
        -- it is not collected and waiting at once
        cases hp'.place h' with
        | waiting _ notNew =>
          rw [streams] at notNew
          exact absurd waits notNew
        | starting collected => exact absurd waits' collected
        | publishing collected => exact absurd waits' collected
      · split <;> omega
    | starting collected new phase =>
      have hphase : s.point = 2 := by rw [NetServer.point, phase]
      omega
    | publishing collected notNew busy => exact absurd idle.1 busy

/-- Other streams are created and closed meanwhile. -/
theorem SameWorker.streamRank_eq (hsame : SameWorker s s') (hp : Uninitialized o s) (hp' : Uninitialized o s')
    (h : Sound build boost db s) (hs : Step build boost s s') : streamRank o s' = streamRank o s := by
  have hwaits : o.stream.streamId ∈ s'.backend.uninitializedStreams.map (·.streamId) ↔
      o.stream.streamId ∈ s.backend.uninitializedStreams.map (·.streamId) := by
    cases hs with
    | createStream session obj clientId streamType endpoint options stream idle connected command new =>
      obtain ⟨a, ha⟩ := h.simulates
      have hlt := ha.observer_lt hp.observer
      have hid : stream.streamId = s.backend.nextStreamId := by rw [new]
      rw [List.map_append, List.mem_append, List.map_singleton, List.mem_singleton, hid]
      exact or_iff_left hlt.ne
    | removeStream observer idle held open_ reason =>
      have hne : o.stream.streamId ≠ observer.stream.streamId :=
        fun heq => hp'.connected (heq ▸ List.mem_cons_self)
      simp only [List.mem_map, List.mem_filter, bne_iff_ne]
      constructor
      · rintro ⟨stream, ⟨hmem, -⟩, hid⟩
        exact ⟨stream, hmem, hid⟩
      · rintro ⟨stream, hmem, hid⟩
        exact ⟨stream, ⟨hmem, hid ▸ hne⟩, hid⟩
    | turn backend idle step =>
      cases step with
      | collect phase =>
        have hphase := hsame.phase
        rw [phase] at hphase
        cases hphase
      | swap | process | loop => exact Iff.rfl
    | schedule | internal | applyStreamChanges | initializeOne | addStreamChange | signal | executeTask |
      resolve => exact Iff.rfl
  rw [streamRank, streamRank, hsame.loopRank_eq, point_congr hsame.phase, hsame.newStreams]
  by_cases hmem : o.stream.streamId ∈ s.backend.uninitializedStreams.map (·.streamId)
  · rw [if_pos hmem, if_pos (hwaits.2 hmem)]
  · rw [if_neg hmem, if_neg fun hmem' => hmem (hwaits.1 hmem')]

theorem Uninitialized.not_waits (hp : Uninitialized o s) (h : Sound build boost db s) : ¬s.Waits := by
  intro hwaits
  cases hp.place h with
  | waiting uninitialized =>
    rw [hwaits.streams] at uninitialized
    exact absurd uninitialized List.not_mem_nil
  | starting _ _ phase =>
    rw [hwaits.phase] at phase
    cases phase
  | publishing _ _ busy => exact absurd hwaits.idle.1 busy

end NetServer

namespace RemoteSystem

variable {build : Build} {boost : BoostDate} {db : Database} {s s' : RemoteSystem} {i : Nat}
variable {run : Run build boost db} {o : SessionStreamObserver} {cs : List DataStreamChange}

/-- The client applies the changes that have come. -/
def Applies (build : Build) (boost : BoostDate) (i : Nat) (s s' : RemoteSystem) : Prop :=
  Step build boost s s' ∧ (s.clients i).backend.changeList ≠ [] ∧ (s'.clients i).backend.changeList = [] ∧
    (s'.clients i).applied = (s.clients i).applied ++ (s.clients i).backend.changeList

/-- Nothing more comes for the stream: the client has reset its handle, or cannot be reached. -/
def Ended (build : Build) (boost : BoostDate) (i : Nat) (streamId : Int) (s : RemoteSystem) : Prop :=
  streamId ∈ (s.clients i).disconnected ∨ Interrupted build boost i s

theorem ended_of_closed (hs : Reached build boost db s) (ho : o ∈ s.server.observersOf i)
    (hclosed : o.stream.streamId ∈ s.server.backend.disconnected) : Ended build boost i o.clientStreamId s := by
  have hlinked := reached_linked hs i
  rcases hlinked.removed o ho hclosed with hgone | hread
  · exact Or.inr (.disconnected hgone)
  · exact Or.inl ((hlinked.client.removed _).2 ((s.clients i).readCalls_sublist.subset hread))

theorem observersOf_step (hs : Step build boost s s') (ho : o ∈ s.server.observersOf i) :
    o ∈ s'.server.observersOf i := by
  refine hs.keeps_server (P := fun server => o ∈ server.observersOf i) ho fun hserver => ?_
  exact ((NetServer.observers_step hserver).filter _).subset ho

/-! ## The stream is initialized -/

theorem initialized_leadsTo (fair : Scheduled run i) (o : SessionStreamObserver) :
    run.LeadsTo (fun s => o ∈ s.server.observersOf i) fun s => Ended build boost i o.clientStreamId s ∨
      o ∈ s.server.observersOf i ∧
        .initialized ∈ changesFor o.stream.streamId s.server.backend.published := by
  have hwaits : ∀ s, Reached build boost db s → o ∈ s.server.observersOf i →
      ¬(Ended build boost i o.clientStreamId s ∨ o ∈ s.server.observersOf i ∧
        .initialized ∈ changesFor o.stream.streamId s.server.backend.published) →
      s.server.Uninitialized o := fun s hs ho hnot =>
    ⟨(NetServer.mem_observersOf.1 ho).1, fun hclosed => hnot (Or.inl (ended_of_closed hs ho hclosed)),
      fun hdone => hnot (Or.inr ⟨ho, hdone⟩)⟩
  have hrank : ∀ s s', Reached build boost db s → s.server.Uninitialized o → s'.server.Uninitialized o →
      Step build boost s s' → NetServer.SameWorker s.server s'.server ∧
          NetServer.streamRank o s'.server = NetServer.streamRank o s.server ∨
        NetServer.streamRank o s'.server < NetServer.streamRank o s.server := by
    intro s s' hs hp hp' hstep
    rcases hstep.server_cases with hsame | hserver
    · rw [hsame]
      exact Or.inl ⟨⟨rfl, rfl, rfl, rfl, rfl, rfl⟩, rfl⟩
    · rcases NetServer.sameWorker_or_advances (sound_state hs) hserver with hsame | hadvances
      · exact Or.inl ⟨hsame, hsame.streamRank_eq hp hp' (sound_state hs) hserver⟩
      · exact Or.inr (hp.advances hp' (sound_state hs) (sound_state (hs.step hstep)) hadvances)
  refine InfiniteRun.LeadsTo.of_weak fair.works (fun s => NetServer.streamRank o s.server) ?_ ?_ ?_
  · intro s s' hs ho hnot hstep
    have ho' := observersOf_step hstep ho
    by_cases hnot' : Ended build boost i o.clientStreamId s' ∨ o ∈ s'.server.observersOf i ∧
        .initialized ∈ changesFor o.stream.streamId s'.server.backend.published
    · exact Or.inl hnot'
    · refine Or.inr ⟨ho', ?_⟩
      exact (hrank s s' hs (hwaits s hs ho hnot) (hwaits s' (hs.step hstep) ho' hnot') hstep).symm.imp_right And.right
  · intro s hs ho hnot
    obtain ⟨server, hserver, hne⟩ :=
      NetServer.exists_worker_step (sound_state hs) fun hstops => hnot (Or.inl (Or.inr (.stops hstops)))
    exact ⟨_, .server s server (hserver.goesOn (Or.inr hne)), (hwaits s hs ho hnot).not_waits (sound_state hs), hne⟩
  · rintro s s' hs ho hnot ⟨hstep, -, hne⟩
    have ho' := observersOf_step hstep ho
    by_cases hnot' : Ended build boost i o.clientStreamId s' ∨ o ∈ s'.server.observersOf i ∧
        .initialized ∈ changesFor o.stream.streamId s'.server.backend.published
    · exact Or.inl hnot'
    · refine Or.inr ((hrank s s' hs (hwaits s hs ho hnot) (hwaits s' (hs.step hstep) ho' hnot') hstep).resolve_left ?_)
      exact fun hsame => hne hsame.1

/-! ## The changes are sent -/

/-- These changes are published for the stream. -/
def Published (i : Nat) (o : SessionStreamObserver) (cs : List DataStreamChange) (s : RemoteSystem) : Prop :=
  o ∈ s.server.observersOf i ∧ cs <+: changesFor o.stream.streamId s.server.backend.published

/-- They were taken out of the change queue of the server. -/
def Handed (i : Nat) (o : SessionStreamObserver) (cs : List DataStreamChange) (s : RemoteSystem) : Prop :=
  o ∈ s.server.observersOf i ∧ cs <+: changesFor o.stream.streamId s.server.applied

theorem published_keep (h : Published i o cs s) (hstep : Step build boost s s') : Published i o cs s' := by
  refine ⟨observersOf_step hstep h.1, ?_⟩
  refine hstep.keeps_server (P := fun server => cs <+: changesFor o.stream.streamId server.backend.published)
    h.2 fun hserver => ?_
  exact h.2.trans (NetServer.changesFor_initial (NetServer.published_step hserver) _)

def isApplyStreamChanges : Handler → Bool
  | .applyStreamChanges => true
  | .continuation _ _ => false

/-- After what it put into the change queue, the worker signals. -/
theorem signaled_leadsTo (fair : Scheduled run i) (o : SessionStreamObserver) (cs : List DataStreamChange) :
    run.LeadsTo (fun s => Published i o cs s ∧ ∃ rest, s.server.worker = .signal :: rest) fun s =>
      Published i o cs s ∧ Awaited isApplyStreamChanges s := by
  have hposted : ∀ s : RemoteSystem, .applyStreamChanges ∈ s.server.sessions.handlers →
      Awaited isApplyStreamChanges s := fun s hmem => ⟨_, hmem, rfl⟩
  have hload : ∀ s s', Reached build boost db s → (∃ rest, s.server.worker = .signal :: rest) →
      Step build boost s s' → (NetServer.SameWorker s.server s'.server ∨
        s'.server.workerLoad < s.server.workerLoad) ∧
      ((∃ rest, s'.server.worker = .signal :: rest) ∨ Awaited isApplyStreamChanges s') := by
    rintro s s' hs ⟨rest, hworker⟩ hstep
    have hbusy : ¬s.server.WorkerIdle := fun hidle => by simp [hidle.1] at hworker
    rcases hstep.server_cases with hsame | hserver
    · rw [hsame]
      exact ⟨Or.inl ⟨rfl, rfl, rfl, rfl, rfl, rfl⟩, Or.inl ⟨rest, hworker⟩⟩
    · exact ⟨(NetServer.sameWorker_or_advances (sound_state hs) hserver).imp_right fun hadvances =>
          hadvances.load_lt hbusy,
        (NetServer.signal_step hserver hworker).imp (fun hkept => ⟨rest, hkept⟩) (hposted s')⟩
  refine InfiniteRun.LeadsTo.of_weak fair.works (fun s => s.server.workerLoad) ?_ ?_ ?_
  · rintro s s' hs ⟨hpublished, hworker⟩ - hstep
    have hpublished' := published_keep hpublished hstep
    obtain ⟨hrank, hworker' | hawaited⟩ := hload s s' hs hworker hstep
    · refine Or.inr ⟨⟨hpublished', hworker'⟩, hrank.symm.imp_right fun hsame => hsame.workerLoad_eq⟩
    · exact Or.inl ⟨hpublished', hawaited⟩
  · rintro s hs ⟨-, rest, hworker⟩ -
    have hbusy : ¬s.server.WorkerIdle := fun hidle => by simp [hidle.1] at hworker
    obtain ⟨server, hserver, hne⟩ := NetServer.exists_act (sound_state hs) hbusy
    exact ⟨_, .server s server (hserver.goesOn (Or.inr hne)), fun hwaits => hbusy hwaits.idle, hne⟩
  · rintro s s' hs ⟨-, hworker⟩ - ⟨hstep, -, hne⟩
    exact Or.inr ((hload s s' hs hworker hstep).1.resolve_left hne)

theorem handed_leadsTo (fair : Scheduled run i) (o : SessionStreamObserver) (cs : List DataStreamChange) :
    run.LeadsTo (Published i o cs) (Handed i o cs) := by
  have hall : ∀ s, Reached build boost db s → Published i o cs s → cs <+: changesFor o.stream.streamId
      (s.server.applied ++ s.server.backend.changeList) := by
    intro s hs hpublished
    rw [← (sound_state hs).routed.published]
    exact hpublished.2
  have hhandler : run.LeadsTo (fun s => Published i o cs s ∧ Awaited isApplyStreamChanges s) (Handed i o cs) := by
    refine handler_leadsTo fair _ (fun s s' _ hpublished hstep => published_keep hpublished hstep) ?_
    intro s s' first hs hpublished hstep hwanted hfirst
    rcases handled_of_taken hs hstep hfirst with ⟨n, results, rfl, -⟩ | ⟨-, -, happlied⟩
    · cases hwanted
    · exact ⟨observersOf_step hstep hpublished.1, happlied ▸ hall s hs hpublished⟩
  intro t hpublished
  have hs := run.reachable t
  by_cases hempty : (run.state t).server.backend.changeList = []
  · have hinitial := hall _ hs hpublished
    rw [hempty, List.append_nil] at hinitial
    exact ⟨t, le_rfl, hpublished.1, hinitial⟩
  · rcases (sound_state hs).ordered.signaled hempty with hposted | hworker
    · exact hhandler t ⟨hpublished, _, hposted, rfl⟩
    · exact (signaled_leadsTo fair o cs).trans hhandler t ⟨hpublished, hworker⟩

/-! ## The changes arrive -/

/-- They are in the messages that the client has processed. -/
def Arrived (i : Nat) (o : SessionStreamObserver) (cs : List DataStreamChange) (s : RemoteSystem) : Prop :=
  o ∈ s.server.observersOf i ∧
    cs <+: NetServer.changesSent o.stream.streamId (s.server.processedBy i (s.clients i))

theorem arrived_leadsTo (fair : Scheduled run i) (o : SessionStreamObserver) (cs : List DataStreamChange) :
    run.LeadsTo (Handed i o cs) fun s => Ended build boost i o.clientStreamId s ∨ Arrived i o cs s := by
  intro t ⟨ho, hhanded⟩
  have hs := run.reachable t
  by_cases hclosed : o.stream.streamId ∈ (run.state t).server.backend.disconnected
  · exact ⟨t, le_rfl, Or.inl (ended_of_closed hs ho hclosed)⟩
  have hsent : cs <+: NetServer.changesSent o.stream.streamId ((run.state t).server.outgoingOf i) := by
    rw [(sound_state hs).changesSent_outgoingOf ho,
      (sound_state hs).routed.connected o (NetServer.mem_observersOf.1 ho).1 hclosed]
    exact hhanded
  obtain ⟨t', hle, hinterrupted | hprocessed⟩ := processed_leadsTo fair _ t List.prefix_rfl
  · exact ⟨t', hle, Or.inl (Or.inr hinterrupted)⟩
  · have ho' : o ∈ (run.state t').server.observersOf i :=
      run.stable (fun s s' _ ho hstep => observersOf_step hstep ho) hle ho
    exact ⟨t', hle, Or.inr ⟨ho', hsent.trans (hprocessed.filterMap _)⟩⟩

theorem arrived_keep (h : Arrived i o cs s) (hstep : Step build boost s s') : Arrived i o cs s' := by
  refine ⟨observersOf_step hstep h.1, h.2.trans ?_⟩
  have hprocessed : s.server.processedBy i (s.clients i) <+: s'.server.processedBy i (s'.clients i) :=
    ((outgoingOf_step hstep i).take _).trans (List.take_prefix_take_left (hstep.grows i).processed)
  exact hprocessed.filterMap _

theorem arrived_eq (hs : Reached build boost db s) (h : Arrived i o cs s) :
    arrivingChanges cs <+: changesFor o.clientStreamId (s.clients i).arrived := by
  rw [(reached_linked hs i).arrived o h.1]
  exact arrivingChanges_initial h.2

theorem delivered_of_applied (hs : Reached build boost db s) (ho : o ∈ s.server.observersOf i)
    {changes : List DataStreamChange} (h : changes <+: changesFor o.clientStreamId (s.clients i).applied) :
    Ended build boost i o.clientStreamId s ∨ changes <+: changesFor o.clientStreamId (s.clients i).delivered := by
  have hlinked := reached_linked hs i
  by_cases hopen : o.clientStreamId ∈ (s.clients i).disconnected
  · exact Or.inl (Or.inl hopen)
  · have hread : o.clientStreamId ∈ createdIds (s.clients i).readCalls := by
      rw [← hlinked.log.createdIds_eq]
      exact List.mem_map_of_mem ho
    rw [hlinked.delivered _ (Linked.created_of_read _ hread) hopen]
    exact Or.inr h

theorem delivered_leadsTo (applies : run.WeaklyFair (Applies build boost i)) (o : SessionStreamObserver)
    (cs : List DataStreamChange) : run.LeadsTo (Arrived i o cs) fun s =>
      Ended build boost i o.clientStreamId s ∨
        arrivingChanges cs <+: changesFor o.clientStreamId (s.clients i).delivered := by
  refine InfiniteRun.LeadsTo.of_weak applies (fun _ => 0) ?_ ?_ ?_
  · exact fun s s' hs harrived _ hstep => Or.inr ⟨arrived_keep harrived hstep, Or.inr rfl⟩
  · intro s hs harrived hnot
    refine ⟨_, .applyStreamChanges s i, fun hempty => hnot ?_, ?_, ?_⟩
    · have hall := arrived_eq hs harrived
      rw [RemoteClient.arrived, hempty, List.append_nil] at hall
      exact delivered_of_applied hs harrived.1 hall
    · simp [setClient, RemoteClient.applyStreamChanges]
    · simp [setClient, RemoteClient.applyStreamChanges]
  · rintro s s' hs harrived - ⟨hstep, -, -, happlied⟩
    refine Or.inl (delivered_of_applied (hs.step hstep) (observersOf_step hstep harrived.1) ?_)
    rw [happlied]
    exact arrived_eq hs harrived

/-- What is published for a stream reaches its observer. -/
theorem published_leadsTo (fair : Scheduled run i) (applies : run.WeaklyFair (Applies build boost i))
    (o : SessionStreamObserver) (cs : List DataStreamChange) : run.LeadsTo (Published i o cs) fun s =>
      Ended build boost i o.clientStreamId s ∨
        arrivingChanges cs <+: changesFor o.clientStreamId (s.clients i).delivered := by
  intro t hpublished
  obtain ⟨t₁, h₁, hended | harrived⟩ :=
    (handed_leadsTo fair o cs).trans (arrived_leadsTo fair o cs) t hpublished
  · exact ⟨t₁, h₁, Or.inl hended⟩
  · obtain ⟨t₂, h₂, hdone⟩ := delivered_leadsTo applies o cs t₁ harrived
    exact ⟨t₂, h₁.trans h₂, hdone⟩

theorem initialized_of_initial {changes : List DataStreamChange} (h : .initialized ∈ cs)
    (hinitial : arrivingChanges cs <+: changes) : .initialized ∈ changes := by
  apply hinitial.subset
  exact List.mem_map.2 ⟨.initialized, List.mem_filter.2 ⟨h, by decide⟩, rfl⟩

/-- In every run in which no thread stops for ever and the client applies its changes: each stream
    that the client creates is initialized some time, and all that is ever published for it on
    the server reaches its observer, as it comes back and in its order, unless the client
    resets the handle of the stream or the way to the server is interrupted. -/
theorem remote_delivery (run : Run build boost db) (fair : Scheduled run i)
    (applies : run.WeaklyFair (Applies build boost i)) :
    (∀ k type service options, run.LeadsTo
      (fun s => .createStream k type service options ∈ (s.clients i).calls) fun s =>
        Ended build boost i k s ∨ .initialized ∈ changesFor k (s.clients i).delivered) ∧
    ∀ o cs, run.LeadsTo (fun s => o ∈ s.server.observersOf i ∧
        cs <+: changesFor o.stream.streamId s.server.backend.published) fun s =>
      Ended build boost i o.clientStreamId s ∨
        arrivingChanges cs <+: changesFor o.clientStreamId (s.clients i).delivered := by
  refine ⟨fun k type service options t hcall => ?_, published_leadsTo fair applies⟩
  obtain ⟨p, hp⟩ := List.mem_iff_getElem?.1 hcall
  obtain ⟨t₁, h₁, hinterrupted | ⟨hp₁, hread⟩⟩ := read_leadsTo fair p _ t hp
  · exact ⟨t₁, h₁, Or.inl (Or.inr hinterrupted)⟩
  have hmem : k ∈ createdIds ((run.state t₁).clients i).readCalls := by
    refine List.mem_filterMap.2 ⟨.createStream k type service options, List.mem_of_getElem? (i := p) ?_, rfl⟩
    rw [RemoteClient.readCalls, List.getElem?_take_of_lt hread, hp₁]
  obtain ⟨o, ho, rfl, -⟩ := observer_of_read (reached_linked (run.reachable t₁) i) hmem
  obtain ⟨t₂, h₂, hended | ⟨ho, hinitialized⟩⟩ := initialized_leadsTo fair o t₁ ho
  · exact ⟨t₂, h₁.trans h₂, Or.inl hended⟩
  obtain ⟨t₃, h₃, hended | hdelivered⟩ := published_leadsTo fair applies o _ t₂ ⟨ho, List.prefix_rfl⟩
  · exact ⟨t₃, (h₁.trans h₂).trans h₃, Or.inl hended⟩
  · exact ⟨t₃, (h₁.trans h₂).trans h₃, Or.inr (initialized_of_initial hinitialized hdelivered)⟩

/-- A client creates a stream, which is initialized. -/
theorem remote_delivery_reservations : ∃ (run : Run .debug .gregorian {}) (n : Nat),
    createdIds ((run.state n).clients 0).calls = [1] ∧ ((run.state n).clients 0).delivered = [] ∧
    ∃ m ≥ n, Ended .debug .gregorian 0 1 (run.state m) ∨
      .initialized ∈ changesFor 1 ((run.state m).clients 0).delivered := by
  have h₀ : Reached .debug .gregorian {} { server := { backend := { storage := { current := {} } } } } :=
    .init rfl
  have h₁ := h₀.step (.createStream _ 0 .reservation "" .null _ rfl)
  obtain ⟨run₁, n, hn⟩ := InfiniteRun.exists_rests h₁
  have start : ∀ {s}, run₁.Rests n s → Relation.ReflTransGen (Step .debug .gregorian) s s := fun _ => .refl
  have g₁ := (start hn).tail (.runCommand _ 0 _ _ rfl List.not_mem_nil rfl rfl)
  have g₂ := g₁.tail (.background (.turn _ _ ⟨rfl, rfl⟩ (.swap _ rfl)) rfl rfl rfl)
  have g₃ := g₂.tail (.background (.turn _ _ ⟨rfl, rfl⟩ (.collect _ rfl)) rfl rfl rfl)
  have g₄ := g₃.tail (.background (.initializeOne _ ⟨rfl, rfl⟩ rfl (reservationStream 1) [] rfl
    [⟨1, .itemsAdded (.reservations [])⟩, ⟨1, .initialized⟩] rfl) rfl rfl rfl)
  have g₅ := g₄.tail (.background (.addStreamChange _ _ _ rfl) rfl rfl rfl)
  have g₆ := g₅.tail (.background (.signal _ _ rfl) rfl rfl rfl)
  have g₇ := g₆.tail (.background (.addStreamChange _ _ _ rfl) rfl rfl rfl)
  have g₈ := g₇.tail (.background (.signal _ _ rfl) rfl rfl rfl)
  have g₉ := g₈.tail (.background (.turn _ _ ⟨rfl, rfl⟩ (.process _ rfl rfl)) rfl rfl rfl)
  have g₁₀ := g₉.tail (.background (.turn _ _ ⟨rfl, rfl⟩ (.loop _ rfl rfl)) rfl rfl rfl)
  have g₁₁ := g₁₀.tail (.background (.applyStreamChanges _ _ rfl rfl) rfl rfl rfl)
  have g₁₂ := g₁₁.tail (.background (.applyStreamChanges _ _ rfl rfl) rfl rfl rfl)
  have g₁₃ := g₁₂.tail (.processMessage _ 0 _ _ rfl rfl)
  have g₁₄ := g₁₃.tail (.processMessage _ 0 _ _ rfl rfl)
  obtain ⟨run, m, hsame, hnm, hm⟩ := hn.goOn (g₁₄.tail (.applyStreamChanges _ 0))
  have hstate := (hsame n le_rfl).trans (hn n le_rfl)
  refine ⟨run, n, by rw [hstate]; rfl, by rw [hstate]; rfl, ?_⟩
  exact (remote_delivery run (scheduled_of_rests hm ⟨⟨rfl, rfl⟩, rfl, rfl, rfl⟩ rfl rfl rfl rfl)
    (hm.weaklyFair fun s' happlies => happlies.2.1 rfl)).1 1 .reservation "" .null n
    (by rw [hstate]; exact List.mem_singleton_self _)

end RemoteSystem

end HotelPms

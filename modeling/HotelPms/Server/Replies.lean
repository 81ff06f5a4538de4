import HotelPms.Server.Sessions

/- One reply for each batch, and one result for each promise.

   A session that stays connected sends one `task_results` message for each batch
   whose promise the backend resolves, as soon as nothing is left to do for it
   (`Waiting`). The client finds the promise of a message by its id; ids are given
   out once, and a promise leaves `_tasks` when it is resolved. -/
namespace HotelPms
open Lib

/-! ## The server -/

namespace Sessions

variable {build : Build} {boost : BoostDate} {s s' : Sessions} {actions : List Action}
variable {n : Nat} {b : ScheduledBatch}

/-- The continuation of a batch has not run, and what is to happen before it does. -/
inductive Waiting (s : Sessions) (n : Nat) (b : ScheduledBatch) : Prop where
  | unresolved (pending : b.future.isReady = false)
  | chain (step : .chain n ∈ s.io ++ s.resolving)
  | next (step : .next n ∈ s.io ++ s.resolving)
  | continueWith (step : .continueWith n ∈ s.io ++ s.resolving)
  | posted (results : List TaskResult) (handler : .continuation n results ∈ s.handlers)

/-- The replies to a batch. -/
def replies (s : Sessions) (n : Nat) : List Message := s.outgoing.filter (·.isReply n)

/-- One reply if the continuation of the batch ran, and none as long as it has not. -/
theorem replies_cases (h : Sound s) (hb : s.batches[n]? = some b)
    (hconnected : b.session ∉ s.disconnected) :
    b.next.isReady = true ∧ (∃ m, s.replies n = [m] ∧ IsReply b m) ∨
      b.next.isReady = false ∧ s.replies n = [] ∧ Waiting s n b := by
  have hnot : b.next = {} → b.next.isReady = false := by
    intro hn
    rw [hn]
    rfl
  cases (h.batch n b hb).stage with
  | chaining here hc hn =>
    obtain ⟨hchains, -, -, hreplies⟩ := trace_eq.1 here
    refine Or.inr ⟨hnot hn, hreplies, .chain ?_⟩
    exact List.count_pos_iff.1 (by rw [hchains]; exact Nat.one_pos)
  | stored here hc hn htaken =>
    obtain ⟨-, -, -, hreplies⟩ := trace_eq.1 here
    refine Or.inr ⟨hnot hn, hreplies, ?_⟩
    cases hready : b.future.isReady with
    | false => exact .unresolved hready
    | true => exact .next (List.count_pos_iff.1 (htaken hready))
  | continuing here hc hn =>
    obtain ⟨-, hcontinues, -, hreplies⟩ := trace_eq.1 here
    refine Or.inr ⟨hnot hn, hreplies, .continueWith ?_⟩
    exact List.count_pos_iff.1 (by rw [hcontinues]; exact Nat.one_pos)
  | posted results here hc hn =>
    obtain ⟨-, -, hposted, hreplies⟩ := trace_eq.1 here
    refine Or.inr ⟨hnot hn, hreplies, ?_⟩
    obtain ⟨handler, hmem, hresults⟩ : ∃ handler ∈ s.handlers, handler.results n = some results := by
      apply List.mem_filterMap.1
      rw [hposted]
      exact List.mem_singleton_self results
    cases handler with
    | applyStreamChanges => cases hresults
    | continuation batch posted =>
      have hbatch : (if batch = n then some posted else none) = some results := hresults
      rw [Option.ite_none_right_eq_some] at hbatch
      obtain ⟨rfl, hsame⟩ := hbatch
      cases hsame
      exact .posted _ hmem
  | ran replies here hc hn results hvalue hreplied =>
    obtain ⟨-, -, -, hreplies⟩ := trace_eq.1 here
    rcases hreplied with ⟨m, rfl, hm⟩ | ⟨hgone, -⟩
    · exact Or.inl ⟨hn, m, hreplies, hm⟩
    · exact absurd hgone hconnected

theorem isReply_of_mem (h : Sound s) {m : Message} (hm : m ∈ s.outgoing) (hcause : m.cause = .batch n) :
    ∃ b, s.batches[n]? = some b ∧ IsReply b m := by
  have hreply : m ∈ s.outgoing.filter (·.isReply n) := by
    apply List.mem_filter.2
    exact ⟨hm, by simp [Message.isReply, hcause]⟩
  have hnone : ∀ {t : Trace}, s.trace (s.io ++ s.resolving) n = t → t.replies = [] → False := by
    intro t ht hreplies
    rw [(trace_eq.1 ht).2.2.2, hreplies] at hreply
    exact List.not_mem_nil hreply
  cases hb : s.batches[n]? with
  | none => exact (hnone (h.unknown n (List.getElem?_eq_none_iff.1 hb)).1 rfl).elim
  | some b =>
    refine ⟨b, rfl, ?_⟩
    cases (h.batch n b hb).stage with
    | chaining here => exact (hnone here rfl).elim
    | stored here => exact (hnone here rfl).elim
    | continuing here => exact (hnone here rfl).elim
    | posted results here => exact (hnone here rfl).elim
    | ran replies here hc hn results hvalue hreplied =>
      rcases hreplied with ⟨m', rfl, hm'⟩ | ⟨-, rfl⟩
      · rw [(trace_eq.1 here).2.2.2] at hreply
        exact List.mem_singleton.1 hreply ▸ hm'
      · exact (hnone here rfl).elim

/-! No assertion of the futures fails, and no value is missing. -/

theorem finish_ok (next : FutureState Int Nat) (h : next.isReady = true) :
    ∃ out, finish build s n b next = .ok out :=
  ⟨_, Except.bind_ok (FutureState.next_eq h) _⟩

/-- Whatever thread is next, it can take its step. -/
theorem performs (h : SoundWith s actions) {action : Action} (hmem : action ∈ actions) :
    ∃ out, s.perform build action = .ok out := by
  have hpositive := List.count_pos_iff.2 hmem
  unfold perform
  cases hb : s.batches[action.batch]? with
  | none => exact ⟨_, rfl⟩
  | some b =>
    cases action with
    | chain n =>
      have hsound := h.batch n b hb
      have hcont : b.future.cont = none := by
        cases hsound.stage with
        | stored here => rw [(trace_eq.1 here).1] at hpositive; cases hpositive
        | chaining here hc => exact hc
        | continuing here hc => exact hc
        | posted results here hc => exact hc
        | ran replies here hc => exact hc
      exact ⟨_, Except.bind_ok (FutureState.chain_eq hcont n) _⟩
    | next n => exact ⟨_, Except.bind_ok (FutureState.next_eq ((h.batch n b hb).taken hpositive)) _⟩
    | continueWith n =>
      have hsound := h.batch n b hb
      cases hsound.stage with
      | stored here => rw [(trace_eq.1 here).2.1] at hpositive; cases hpositive
      | chaining here => rw [(trace_eq.1 here).2.1] at hpositive; cases hpositive
      | posted results here => rw [(trace_eq.1 here).2.1] at hpositive; cases hpositive
      | ran replies here => rw [(trace_eq.1 here).2.1] at hpositive; cases hpositive
      | continuing here hc hn results hvalue =>
        dsimp only
        unfold continueWith
        split
        · rw [hn, Except.bind_ok (FutureState.setCanceled_eq rfl)]
          exact finish_ok _ rfl
        · refine ⟨_, Except.bind_ok (a := results) ?_ _⟩
          rw [FutureState.extractValue, hvalue]
    | push n => exact ⟨_, rfl⟩

/-- The continuation at the front can run, if the id of its batch is a number. -/
theorem runContinuation_ok {results : List TaskResult} {rest : List Handler}
    (h : SoundWith s actions) (hfirst : s.handlers = .continuation n results :: rest) :
    ∃ b, s.batches[n]? = some b ∧ ∀ id, b.id.toInt = .ok id →
      ∃ out, runContinuation build { s with handlers := rest } n b results = .ok out := by
  have hposted : s.handlers.filterMap (·.results n) ≠ [] := by
    rw [hfirst]
    simp [Handler.results]
  cases hb : s.batches[n]? with
  | none => exact absurd (trace_eq.1 (h.unknown n (List.getElem?_eq_none_iff.1 hb)).1).2.2.1 hposted
  | some b =>
    refine ⟨b, rfl, fun id hid => ?_⟩
    cases (h.batch n b hb).stage with
    | chaining here => exact absurd (trace_eq.1 here).2.2.1 hposted
    | stored here => exact absurd (trace_eq.1 here).2.2.1 hposted
    | continuing here => exact absurd (trace_eq.1 here).2.2.1 hposted
    | ran replies here => exact absurd (trace_eq.1 here).2.2.1 hposted
    | posted value here hc hn hvalue =>
      unfold runContinuation
      split
      · rw [hn, Except.bind_ok (FutureState.setCanceled_eq rfl)]
        exact finish_ok _ rfl
      · obtain ⟨t, ht⟩ : ∃ t, reply { s with handlers := rest } n b results = .ok t := by
          unfold reply
          split
          · exact ⟨_, rfl⟩
          · exact ⟨_, Except.bind_ok hid _⟩
        rw [Except.bind_ok ht, hn, Except.bind_ok (FutureState.setValue_eq rfl 0)]
        exact finish_ok _ rfl

theorem isReady_update {m : Nat} {b' : ScheduledBatch} (hb : s.batches[m]? = some b)
    (hnext : n = m → b'.next = b.next) : (s.update m b').isReady (some n) = s.isReady (some n) := by
  have hm : m < s.batches.length := (List.getElem?_eq_some_iff.1 hb).1
  unfold isReady update
  dsimp only
  rw [List.getElem?_set]
  by_cases hnm : m = n
  · rw [if_pos hnm, if_pos hm, ← hnm, hb]
    exact congrArg FutureState.isReady (hnext hnm.symm)
  · rw [if_neg hnm]

/-- A thread that resolves a promise does not change which futures of a connected
    session are ready, so that it does not matter when each is looked at. -/
theorem isReady_resolving (h : Sound s) {action : Action} {more : List Action}
    (hmem : action ∈ s.resolving) (hp : s.perform build action = .ok (more, s'))
    (hb : s.batches[n]? = some b) (hconnected : b.session ∉ s.disconnected) :
    s'.isReady (some n) = s.isReady (some n) := by
  have hpositive : 0 < (s.io ++ s.resolving).count action :=
    List.count_pos_iff.2 (List.mem_append_right _ hmem)
  unfold perform at hp
  cases hc : s.batches[action.batch]? with
  | none =>
    rw [hc] at hp
    cases hp
    rfl
  | some c =>
    rw [hc] at hp
    cases action with
    | chain m =>
      obtain ⟨_, -, hp⟩ := Except.bind_eq_ok.1 hp
      cases hp
      exact isReady_update hc fun _ => rfl
    | next m =>
      obtain ⟨_, -, hp⟩ := Except.bind_eq_ok.1 hp
      cases hp
      exact isReady_update hc fun _ => rfl
    | continueWith m =>
      dsimp only at hp
      unfold continueWith at hp
      split at hp
      · next hcanceled =>
        obtain ⟨next, -, hp⟩ := Except.bind_eq_ok.1 hp
        obtain ⟨-, rfl⟩ := of_finish hp
        refine isReady_update hc fun hnm => ?_
        -- its own future is not ready, and was canceled: the session is gone
        subst hnm
        obtain rfl := Option.some.inj (hb.symm.trans hc)
        have hsound := h.batch n b hb
        have hready : b.next.isReady = true := (hsound.canceled hcanceled).resolve_right hconnected
        cases hsound.stage with
        | chaining here hcont hn => rw [hn] at hready; cases hready
        | stored here hcont hn => rw [hn] at hready; cases hready
        | continuing here hcont hn => rw [hn] at hready; cases hready
        | posted results here hcont hn => rw [hn] at hready; cases hready
        | ran replies here => rw [(trace_eq.1 here).2.1] at hpositive; cases hpositive
      · obtain ⟨_, -, hp⟩ := Except.bind_eq_ok.1 hp
        cases hp
        rfl
    | push m =>
      cases hp
      unfold isReady push destroy
      dsimp only
      rw [List.getElem?_mapIdx]
      cases s.batches[n]? with
      | none => rfl
      | some _ => rfl

/-! A batch keeps its session, its id and the results it was resolved with. -/

/-- Who scheduled a batch and with which id, and what its promise was resolved with. -/
def content (b : ScheduledBatch) : Nat × Json × FutureValue (List TaskResult) :=
  (b.session, b.id, b.future.value)

/-- The batches are the same but for where their continuations are. -/
def Same (s s' : Sessions) : Prop := s'.batches.map content = s.batches.map content

theorem Same.length (h : Same s s') : s'.batches.length = s.batches.length := by
  simpa using congrArg List.length h

theorem Same.getElem (h : Same s s') (n : Nat) :
    (s'.batches[n]?).map content = (s.batches[n]?).map content := by
  rw [← List.getElem?_map, ← List.getElem?_map, h]

theorem same_update {b' : ScheduledBatch} (hb : s.batches[n]? = some b)
    (hsame : content b' = content b) : Same s (s.update n b') := by
  unfold Same update
  obtain ⟨hn, hget⟩ := List.getElem?_eq_some_iff.1 hb
  rw [List.map_set, hsame, ← hget, ← List.map_set, List.set_getElem_self]

theorem same_destroy (slots : List (Option Nat)) : Same s (s.destroy slots) := by
  unfold Same destroy
  apply List.ext_getElem?
  intro n
  rw [List.getElem?_map, List.getElem?_mapIdx, List.getElem?_map, Option.map_map]
  rfl

theorem same_finish {next : FutureState Int Nat} {more : List Action}
    (hb : s.batches[n]? = some b) (h : finish build s n b next = .ok (more, s')) : Same s s' := by
  obtain ⟨-, rfl⟩ := of_finish h
  exact same_update hb rfl

theorem same_perform {action : Action} {more : List Action}
    (h : s.perform build action = .ok (more, s')) : Same s s' := by
  unfold perform at h
  cases hb : s.batches[action.batch]? with
  | none =>
    rw [hb] at h
    cases h
    rfl
  | some b =>
    rw [hb] at h
    cases action with
    | chain n =>
      obtain ⟨⟨cont, future⟩, hchain, h⟩ := Except.bind_eq_ok.1 h
      cases h
      rcases FutureState.of_chain hchain with ⟨-, -, rfl⟩ | ⟨-, -, rfl⟩
      · exact same_update hb rfl
      · exact same_update hb rfl
    | next n =>
      obtain ⟨⟨cont, future⟩, hnext, h⟩ := Except.bind_eq_ok.1 h
      cases h
      obtain ⟨-, rfl⟩ := FutureState.of_next hnext
      exact same_update hb rfl
    | continueWith n =>
      dsimp only at h
      unfold continueWith at h
      split at h
      · obtain ⟨_, -, h⟩ := Except.bind_eq_ok.1 h
        exact same_finish hb h
      · obtain ⟨_, -, h⟩ := Except.bind_eq_ok.1 h
        cases h
        rfl
    | push n =>
      cases h
      have hdestroy : ∀ kept tail, Same s
          ({ s with running := Function.update s.running b.session kept }.destroy tail) :=
        fun _ tail => same_destroy tail
      exact hdestroy _ _

theorem same_runContinuation {results : List TaskResult} {more : List Action}
    (hb : s.batches[n]? = some b) (h : runContinuation build s n b results = .ok (more, s')) :
    Same s s' := by
  unfold runContinuation at h
  split at h
  · obtain ⟨_, -, h⟩ := Except.bind_eq_ok.1 h
    exact same_finish hb h
  · obtain ⟨t, hreply, h⟩ := Except.bind_eq_ok.1 h
    obtain ⟨_, -, h⟩ := Except.bind_eq_ok.1 h
    have hsame : t.batches = s.batches := by
      unfold reply at hreply
      split at hreply
      · cases hreply
        rfl
      · obtain ⟨_, -, hreply⟩ := Except.bind_eq_ok.1 hreply
        cases hreply
        rfl
    calc s'.batches.map content = t.batches.map content := same_finish (hsame ▸ hb) h
      _ = s.batches.map content := by rw [hsame]

theorem same_internal (hs : Internal build s s') : Same s s' := by
  cases hs with
  | io t action rest more first performed =>
    have hsame : Same s t := same_perform performed
    exact hsame
  | resolving t action before after more thread performed =>
    have hsame : Same s t := same_perform performed
    exact hsame
  | runContinuation t n b results rest more idle first batch ran =>
    have hsame : Same { s with handlers := rest } t := same_runContinuation batch ran
    exact hsame
  | disconnect session idle => rfl
  | destroy session slot gone held => exact same_destroy _

/-- The batch of before, with the results it had if it had any. -/
structure SameBatch (b b' : ScheduledBatch) : Prop where
  session : b'.session = b.session
  id : b'.id = b.id
  value : ∀ results, b.future.value = .value results → b'.future.value = .value results

theorem SameBatch.refl (b : ScheduledBatch) : SameBatch b b := ⟨rfl, rfl, fun _ hv => hv⟩

theorem SameBatch.trans {b b' b'' : ScheduledBatch} (h : SameBatch b b') (h' : SameBatch b' b'') :
    SameBatch b b'' where
  session := h'.session.trans h.session
  id := h'.id.trans h.id
  value results hv := h'.value results (h.value results hv)

theorem sameBatch_of_content {b b' : ScheduledBatch} (h : content b' = content b) : SameBatch b b' := by
  obtain ⟨hsession, hid, hvalue⟩ : b'.session = b.session ∧ b'.id = b.id ∧
      b'.future.value = b.future.value := by
    simpa [content] using h
  exact ⟨hsession, hid, fun results hv => hvalue.trans hv⟩

/-- No batch is lost. -/
def Keeps (s s' : Sessions) : Prop :=
  ∀ (n : Nat) (b : ScheduledBatch), s.batches[n]? = some b →
    ∃ b', s'.batches[n]? = some b' ∧ SameBatch b b'

theorem keeps_step (hs : Step build boost s s') : Keeps s s' := by
  cases hs with
  | schedule session obj operations id idle connected command =>
    intro n b hb
    refine ⟨b, ?_, SameBatch.refl b⟩
    exact getElem?_append_of_eq_some hb _
  | internal t step =>
    intro n b hb
    have hsame := (same_internal step).getElem n
    rw [hb, Option.map_some, Option.map_eq_some_iff] at hsame
    obtain ⟨b', hb', hcontent⟩ := hsame
    exact ⟨b', hb', sameBatch_of_content hcontent⟩
  | resolve n b results future batch once set =>
    obtain rfl := FutureState.of_setValue set
    intro m c hc
    unfold update
    dsimp only
    rw [List.getElem?_set]
    by_cases hnm : n = m
    · subst hnm
      obtain rfl := Option.some.inj (batch.symm.trans hc)
      rw [if_pos rfl, if_pos (List.getElem?_eq_some_iff.1 batch).1]
      refine ⟨_, rfl, rfl, rfl, fun results' hv => ?_⟩
      rw [FutureState.isReady_of_value hv] at once
      cases once
    · exact ⟨c, by rw [if_neg hnm, hc], SameBatch.refl c⟩
  | signal => exact fun n b hb => ⟨b, hb, SameBatch.refl b⟩
  | applyStreamChanges rest messages idle first changes => exact fun n b hb => ⟨b, hb, SameBatch.refl b⟩

end Sessions

/-! ## The client -/

namespace NetClientBackend

variable {build : Build} {boost : BoostDate} {client client' : NetClientBackend}

namespace Tasks

/-- The client queues batches, and messages arrive. -/
inductive Step (build : Build) (boost : BoostDate) : NetClientBackend → NetClientBackend → Prop where
  | queueOperations (client client' : NetClientBackend) (operations : Operations) (message : Json)
      (queued : client.queueOperations boost operations = some (client', message)) :
    Step build boost client client'
  | processMessage (client client' : NetClientBackend) (obj : Json)
      (processed : client.processMessage build boost obj = .ok client') :
    Step build boost client client'

def Reached (build : Build) (boost : BoostDate) (client : NetClientBackend) : Prop :=
  Reachable (fun client => client = {}) (Step build boost) client

/-- Each id that was given out is in `_tasks` or was resolved, and only one of the two, once. -/
structure Sound (client : NetClientBackend) : Prop where
  started : 1 ≤ client.nextOperationId
  once : (client.tasks ++ client.resolved.map (·.1)).Nodup
  issued : ∀ id, id ∈ client.tasks ++ client.resolved.map (·.1) ↔ 1 < id ∧ id ≤ client.nextOperationId

end Tasks

/-- A promise is resolved by a `task_results` message with its id, and by nothing else. -/
theorem processMessage_cases {obj : Json} (h : client.processMessage build boost obj = .ok client') :
    client'.tasks = client.tasks ∧ client'.resolved = client.resolved ∧
        client'.nextOperationId = client.nextOperationId ∨
      ∃ id results, Net.deserializeTaskResultsMessage obj = .ok (id, results) ∧ id ∈ client.tasks ∧
        client' = { client with
          tasks := client.tasks.erase id, resolved := client.resolved ++ [(id, results)] } := by
  obtain ⟨op, -, h⟩ := Except.bind_eq_ok.1 h
  obtain ⟨operation, -, h⟩ := Except.bind_eq_ok.1 h
  split at h
  · -- stream_initialize
    obtain ⟨_, -, h⟩ := Except.bind_eq_ok.1 h
    obtain ⟨_, -, h⟩ := Except.bind_eq_ok.1 h
    cases h
    exact Or.inl ⟨rfl, rfl, rfl⟩
  split at h
  · -- stream_add
    obtain ⟨_, -, h⟩ := Except.bind_eq_ok.1 h
    cases h
    exact Or.inl ⟨rfl, rfl, rfl⟩
  split at h
  · -- stream_update
    obtain ⟨_, -, h⟩ := Except.bind_eq_ok.1 h
    cases h
    exact Or.inl ⟨rfl, rfl, rfl⟩
  split at h
  · -- stream_remove
    obtain ⟨_, -, h⟩ := Except.bind_eq_ok.1 h
    obtain ⟨_, -, h⟩ := Except.bind_eq_ok.1 h
    obtain ⟨_, -, h⟩ := Except.bind_eq_ok.1 h
    obtain ⟨_, -, h⟩ := Except.bind_eq_ok.1 h
    cases h
    exact Or.inl ⟨rfl, rfl, rfl⟩
  split at h
  · -- task_results
    obtain ⟨⟨id, results⟩, hmessage, h⟩ := Except.bind_eq_ok.1 h
    dsimp only at h
    split at h
    · next hid =>
      cases h
      exact Or.inr ⟨id, results, hmessage, hid, rfl⟩
    · cases h
      exact Or.inl ⟨rfl, rfl, rfl⟩
  · cases h
    exact Or.inl ⟨rfl, rfl, rfl⟩

namespace Tasks

theorem sound_init : Sound {} where
  started := le_rfl
  once := List.nodup_nil
  issued id := by
    constructor
    · exact fun h => absurd h List.not_mem_nil
    · intro h
      dsimp only at h
      omega

theorem queueOperations_eq {operations : Operations} {message : Json}
    (h : client.queueOperations boost operations = some (client', message)) :
    client' = { client with
      nextOperationId := client.nextOperationId + 1
      tasks := client.tasks ++ [client.nextOperationId + 1] } := by
  obtain ⟨_, -, h⟩ := Option.bind_eq_some_iff.1 h
  cases h
  rfl

theorem sound_step (h : Sound client) (hs : Step build boost client client') : Sound client' := by
  cases hs with
  | queueOperations operations message queued =>
    obtain rfl := queueOperations_eq queued
    have hperm : (client.tasks ++ [client.nextOperationId + 1] ++ client.resolved.map (·.1)).Perm
        ((client.nextOperationId + 1) :: (client.tasks ++ client.resolved.map (·.1))) := by
      rw [List.append_assoc]
      exact List.perm_middle
    have hstarted := h.started
    refine ⟨?_, ?_, fun id => ?_⟩
    · dsimp only
      omega
    · apply hperm.nodup_iff.2
      refine List.nodup_cons.2 ⟨fun hmem => ?_, h.once⟩
      have := (h.issued _).1 hmem
      omega
    · dsimp only
      rw [hperm.mem_iff, List.mem_cons, h.issued]
      omega
  | processMessage obj processed =>
    rcases processMessage_cases processed with ⟨htasks, hresolved, hnext⟩ |
      ⟨id, results, -, hid, rfl⟩
    · refine ⟨hnext ▸ h.started, ?_, ?_⟩
      · rw [htasks, hresolved]
        exact h.once
      · rw [htasks, hresolved, hnext]
        exact h.issued
    · have hperm : (client.tasks.erase id ++ (client.resolved ++ [(id, results)]).map (·.1)).Perm
          (client.tasks ++ client.resolved.map (·.1)) := by
        rw [List.map_append, List.map_singleton, ← List.append_assoc]
        refine (List.perm_append_singleton _ _).trans ?_
        rw [← List.cons_append]
        exact (List.perm_cons_erase hid).symm.append_right _
      refine ⟨h.started, hperm.nodup_iff.2 h.once, fun k => ?_⟩
      rw [← h.issued]
      exact hperm.mem_iff

theorem reached_sound (h : Reached build boost client) : Sound client := by
  refine Reachable.invariant (I := Sound) ?_ (fun _ _ => sound_step) h
  rintro _ rfl
  exact sound_init

end Tasks

/-- A result as it arrives. -/
def received (result : TaskResult) : TaskResult :=
  ⟨Net.statusOfInt (Net.statusToInt result.status), result.result⟩

theorem deserializeTaskResultsMessage_serialize (id : Int) (results : List TaskResult) :
    Net.deserializeTaskResultsMessage (Net.serializeTaskResultsMessage id results) =
      .ok (id, results.map received) := by
  have hresults : (results.map Net.serializeTaskResult).mapM Net.deserializeTaskResult =
      .ok (results.map received) := by
    induction results with
    | nil => rfl
    | cons result results ih =>
      rw [List.map_cons, List.mapM_cons, ih]
      rfl
  show (do return (id, ← (results.map Net.serializeTaskResult).mapM Net.deserializeTaskResult)) = _
  rw [Except.bind_ok hresults]
  rfl

theorem processMessage_taskResults (id : Int) (results : List TaskResult) :
    client.processMessage build boost (Net.serializeTaskResultsMessage id results) =
      .ok (if id ∈ client.tasks then { client with
        tasks := client.tasks.erase id, resolved := client.resolved ++ [(id, results.map received)] }
      else client) := by
  have hop : (Net.serializeTaskResultsMessage id results).field "op" = .ok (.str "task_results") := rfl
  unfold processMessage
  rw [Except.bind_ok hop, Except.bind_ok (Json.toStr_str "task_results"), if_neg (by decide),
    if_neg (by decide), if_neg (by decide), if_neg (by decide), if_pos rfl,
    Except.bind_ok (deserializeTaskResultsMessage_serialize id results)]
  by_cases hid : id ∈ client.tasks
  · rw [if_pos hid]
    exact if_pos hid
  · rw [if_neg hid]
    exact if_neg hid

end NetClientBackend

/-! ## Both ends -/

section
variable {build : Build} {boost : BoostDate} {s : Sessions} {client : NetClientBackend}

end

/-- The message of a client's first batch, of no operations. -/
def emptyBatch : Json := .obj [("op", .str "schedule_operations"), ("id", .int 2), ("operations", .arr [])]

end HotelPms

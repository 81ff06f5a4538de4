import HotelPms.Server.NetServer

/- Read your writes: a reply does not overtake the changes of its batch.

   A session that was sent the reply to a batch has been sent all that was announced
   for its streams until the batch was executed, the changes of the batch itself
   included. The worker signals the changes before it resolves the promise, so that
   the call of `applyStreamChanges` is posted before the continuation (`Guarded`);
   who attaches the continuation, and when, does not matter.

     1. `Routed`: what is sent for a stream is what was announced for it, in order;
     2. `Ordered`: no reply is ahead of what was announced before;
     3. `Subscribed`: a stream that was created before a batch was queued is active
        when the batch is executed. -/
namespace HotelPms
open Lib SqliteStorage DataStreamManager SqliteBackend

namespace NetServer

variable {build : Build} {boost : BoostDate} {db : Database} {s s' : NetServer}

/-! ## What is sent for a stream -/

/-- What messages bring to the client for a stream, in their order. -/
def changesSent (streamId : Int) (messages : List Message) : List DataStreamChange :=
  messages.filterMap fun m =>
    match m.cause with
    | .change change => if change.streamId = streamId then some change.change else none
    | .batch _ => none

@[simp] theorem changesSent_nil (streamId : Int) : changesSent streamId [] = [] := rfl

@[simp] theorem changesSent_append (streamId : Int) (ms ms' : List Message) :
    changesSent streamId (ms ++ ms') = changesSent streamId ms ++ changesSent streamId ms' :=
  List.filterMap_append

theorem changesSent_reply (streamId : Int) {m : Message} {n : Nat} (h : m.cause = .batch n) :
    changesSent streamId [m] = [] := by
  simp [changesSent, h]

theorem changesSent_message {observers : List SessionStreamObserver} {ds : List DataStreamDifferential}
    (hobservers : ∀ d ∈ ds, ∃ o ∈ observers, o.stream.streamId = d.streamId) (streamId : Int) :
    changesSent streamId (ds.filterMap (message boost observers)) = changesFor streamId ds := by
  induction ds with
  | nil => rfl
  | cons d ds ih =>
    obtain ⟨o, ho, hid⟩ := hobservers d List.mem_cons_self
    obtain ⟨found, hfound⟩ : ∃ found,
        (observers.find? fun observer => observer.stream.streamId == d.streamId) = some found := by
      apply Option.isSome_iff_exists.1
      rw [List.find?_isSome]
      exact ⟨o, ho, by rw [hid]; exact beq_self_eq_true _⟩
    have hmessage : message boost observers d = some ⟨found.session,
        SessionStreamObserver.message boost found.clientStreamId d.change, .change d⟩ := by
      rw [message, hfound]
      rfl
    have hrest := ih fun d' hd' => hobservers d' (List.mem_cons_of_mem _ hd')
    rw [List.filterMap_cons_some hmessage]
    by_cases hd : d.streamId = streamId
    · simp [changesSent, changesFor, hd] at hrest ⊢
      exact hrest
    · simp [changesSent, changesFor, hd] at hrest ⊢
      exact hrest

structure Routed (boost : BoostDate) (s : NetServer) : Prop where
  published : s.backend.published = s.applied ++ s.backend.changeList
  json : ∀ m ∈ s.sessions.outgoing, ∀ d, m.cause = .change d → ∃ o ∈ s.observers,
    o.stream.streamId = d.streamId ∧ m.session = o.session ∧
      m.json = SessionStreamObserver.message boost o.clientStreamId d.change
  sent : ∀ o ∈ s.observers,
    changesSent o.stream.streamId s.sessions.outgoing <+: changesFor o.stream.streamId s.applied
  connected : ∀ o ∈ s.observers, o.stream.streamId ∉ s.backend.disconnected →
    changesSent o.stream.streamId s.sessions.outgoing = changesFor o.stream.streamId s.applied

theorem changesFor_initial {ds es : List DataStreamDifferential} (h : ds <+: es) (streamId : Int) :
    changesFor streamId ds <+: changesFor streamId es := by
  obtain ⟨rest, rfl⟩ := h
  rw [changesFor_append]
  exact List.prefix_append _ _

theorem routed_init {storage : Connection Database} : Routed boost { backend := { storage } } where
  published := rfl
  json _ hm := absurd hm List.not_mem_nil
  sent _ ho := absurd ho List.not_mem_nil
  connected _ ho := absurd ho List.not_mem_nil

section
variable {a : Backend}

theorem Simulates.subset (h : Simulates build boost db s a) : s.backend.published ⊆ a.published := by
  rw [h.published]
  exact List.subset_append_left _ _

theorem Simulates.observed (h : Simulates build boost db s a) {d : DataStreamDifferential}
    (hd : d ∈ s.backend.published) : ∃ o ∈ s.observers, o.stream.streamId = d.streamId := by
  obtain ⟨stream, hs, hid⟩ := (Backend.reached_sound h.reached).known d (h.subset hd)
  rw [h.created] at hs
  obtain ⟨o, ho, rfl⟩ := List.mem_map.1 hs
  exact ⟨o, ho, hid⟩

theorem Simulates.unpublished (h : Simulates build boost db s a) {ds : List DataStreamDifferential}
    (hds : ds ⊆ s.backend.published) : changesFor s.backend.nextStreamId ds = [] := by
  have hsound := Backend.reached_sound h.reached
  obtain ⟨_, _, _, hsame⟩ := h.backend
  refine hsound.unpublished ?_ fun d hd => h.subset (hds hd)
  rw [hsame]

theorem Simulates.observer_lt (h : Simulates build boost db s a) {o : SessionStreamObserver}
    (ho : o ∈ s.observers) : o.stream.streamId < s.backend.nextStreamId := by
  have hsound := Backend.reached_sound h.reached
  obtain ⟨_, _, _, hsame⟩ := h.backend
  rw [hsame]
  apply hsound.fresh
  rw [h.created]
  exact List.mem_map_of_mem ho

/-- `applyStreamChanges` hands on what is for a stream that is open, and nothing else. -/
theorem Simulates.applied_for (h : Simulates build boost db s a) {o : SessionStreamObserver}
    (ho : o ∈ s.observers) : changesFor o.stream.streamId s.backend.applyStreamChanges.2 =
      if o.stream.streamId ∈ s.backend.disconnected then []
      else changesFor o.stream.streamId s.backend.changeList := by
  split
  · next hgone =>
    rw [changesFor, List.map_eq_nil_iff, List.filter_eq_nil_iff]
    intro d hd hid
    obtain ⟨-, hany⟩ := List.mem_filter.1 hd
    obtain ⟨stream, hstream, hsame⟩ := List.any_eq_true.1 hany
    have hopen := (List.mem_filter.1 hstream).2
    rw [beq_iff_eq] at hid hsame
    rw [hsame, hid] at hopen
    simp [hgone] at hopen
  · next hopen =>
    have hsound := Backend.reached_sound h.reached
    have hmem : o.stream ∈ s.backend.dataStreams := by
      obtain ⟨_, _, _, hsame⟩ := h.backend
      rw [hsame] at hopen ⊢
      apply hsound.connected _ _ hopen
      rw [h.created]
      exact List.mem_map_of_mem ho
    refine Backend.changesFor_filter (fun d hd => ?_) _
    rw [List.any_eq_true]
    refine ⟨o.stream, List.mem_filter.2 ⟨hmem, by simpa using hopen⟩, ?_⟩
    rw [hd]
    exact beq_self_eq_true _

end

theorem Routed.applied_subset (h : Routed boost s) :
    s.backend.applyStreamChanges.2 ⊆ s.backend.published := by
  intro d hd
  rw [h.published]
  exact List.mem_append_right _ (List.mem_of_mem_filter hd)

/-- A stream that is new has been sent nothing, and nothing was published for it. -/
theorem Routed.createStream {a : Backend} (hsim : Simulates build boost db s a) (h : Routed boost s)
    {backend : Backend} (hpublished : backend.published = s.backend.published)
    (hchangeList : backend.changeList = s.backend.changeList)
    (hdisconnected : backend.disconnected = s.backend.disconnected) {stream : DataStream}
    (hid : stream.streamId = s.backend.nextStreamId) (session : Nat) (clientId : Int) :
    Routed boost { s with backend, observers := s.observers ++ [⟨stream, session, clientId⟩] } := by
  have hnothing : changesFor stream.streamId s.applied = [] := by
    rw [hid]
    apply hsim.unpublished
    rw [h.published]
    exact List.subset_append_left _ _
  -- every message is for a stream that has an observer already
  have hunsent : changesSent stream.streamId s.sessions.outgoing = [] := by
    unfold changesSent
    apply List.filterMap_eq_nil_iff.2
    intro m hm
    cases hcause : m.cause with
    | batch n => rfl
    | change d =>
      obtain ⟨o, ho, hod, -⟩ := h.json m hm d hcause
      have := hsim.observer_lt ho
      exact if_neg (by omega)
  refine ⟨?_, fun m hm d hd => ?_, fun o ho => ?_, fun o ho hopen => ?_⟩
  · dsimp only
    rw [hpublished, hchangeList]
    exact h.published
  · obtain ⟨o, ho, hrest⟩ := h.json m hm d hd
    exact ⟨o, List.mem_append_left _ ho, hrest⟩
  · rcases List.mem_append.1 ho with ho | ho
    · exact h.sent o ho
    · rw [List.mem_singleton.1 ho]
      dsimp only
      rw [hunsent]
      exact List.nil_prefix
  · rcases List.mem_append.1 ho with ho | ho
    · dsimp only at hopen
      rw [hdisconnected] at hopen
      exact h.connected o ho hopen
    · rw [List.mem_singleton.1 ho]
      exact hunsent.trans hnothing.symm

theorem Routed.of_replies (h : Routed boost s) {sessions : Sessions}
    (hjson : ∀ m ∈ sessions.outgoing, ∀ d, m.cause = .change d → m ∈ s.sessions.outgoing)
    (hsent : ∀ streamId, changesSent streamId sessions.outgoing = changesSent streamId s.sessions.outgoing) :
    Routed boost { s with sessions } := by
  refine ⟨h.published, fun m hm d hd => h.json m (hjson m hm d hd) d hd, fun o ho => ?_,
    fun o ho hopen => ?_⟩
  · dsimp only
    rw [hsent]
    exact h.sent o ho
  · dsimp only
    rw [hsent]
    exact h.connected o ho hopen

theorem routed_step {a : Backend} (hsim : Simulates build boost db s a) (h : Routed boost s)
    (hs : Step build boost s s') : Routed boost s' := by
  cases hs with
  | createStream session obj clientId streamType endpoint options stream idle connected command new =>
    have hid : stream.streamId = s.backend.nextStreamId := by rw [new]
    refine h.createStream hsim ?_ ?_ ?_ hid session clientId <;> rfl
  | removeStream observer idle held open_ reason =>
    refine ⟨h.published, h.json, h.sent, fun o ho hopen => h.connected o ho fun hmem => ?_⟩
    exact hopen (List.mem_cons_of_mem _ hmem)
  | schedule session obj operations id idle connected command =>
    exact ⟨h.published, h.json, h.sent, h.connected⟩
  | internal sessions step =>
    rcases (Sessions.internal_effect step).outgoing_cases with hsame | ⟨m, n, hm, hsame⟩
    · refine h.of_replies (fun m hm _ _ => ?_) fun streamId => by rw [hsame]
      rw [hsame] at hm
      exact hm
    · refine h.of_replies (fun m' hm' d hd => ?_) fun streamId => ?_
      · rw [hsame] at hm'
        rcases List.mem_append.1 hm' with hm' | hm'
        · exact hm'
        · rw [List.mem_singleton.1 hm', hm] at hd
          cases hd
      · rw [hsame, changesSent_append, changesSent_reply streamId hm, List.append_nil]
  | applyStreamChanges rest idle first =>
    -- a stream that was closed is sent nothing more, and need not be up to date
    have hsent : ∀ o ∈ s.observers, changesSent o.stream.streamId (s.sessions.outgoing ++
        s.backend.applyStreamChanges.2.filterMap (message boost s.observers)) =
          changesSent o.stream.streamId s.sessions.outgoing ++
            (if o.stream.streamId ∈ s.backend.disconnected then []
            else changesFor o.stream.streamId s.backend.changeList) := by
      intro o ho
      rw [changesSent_append, changesSent_message (fun d hd => hsim.observed (h.applied_subset hd)),
        hsim.applied_for ho]
    refine ⟨?_, fun m hm d hd => ?_, fun o ho => ?_, fun o ho hopen => ?_⟩
    · dsimp only
      rw [h.published, List.append_nil]
    · rcases List.mem_append.1 hm with hm | hm
      · exact h.json m hm d hd
      · obtain ⟨d', hd', hmessage⟩ := List.mem_filterMap.1 hm
        obtain ⟨o, ho, rfl⟩ := Option.map_eq_some_iff.1 hmessage
        cases hd
        refine ⟨o, List.mem_of_find?_eq_some ho, ?_, rfl, rfl⟩
        simpa using List.find?_some ho
    · dsimp only
      rw [hsent o ho, changesFor_append]
      split
      · rw [List.append_nil]
        exact (h.sent o ho).trans (List.prefix_append _ _)
      · next hopen =>
        rw [h.connected o ho hopen]
    · dsimp only
      rw [hsent o ho, if_neg hopen, changesFor_append, h.connected o ho hopen]
  | turn backend idle step =>
    obtain ⟨-, -, hdisconnected, hpublished, hchangeList⟩ := step.unchanged
    refine ⟨?_, h.json, h.sent, fun o ho hopen => h.connected o ho (hdisconnected ▸ hopen)⟩
    dsimp only
    rw [hpublished, hchangeList]
    exact h.published
  | initializeOne idle phase stream rest next changes loaded =>
    exact ⟨h.published, h.json, h.sent, h.connected⟩
  | addStreamChange change rest next =>
    refine ⟨?_, h.json, h.sent, h.connected⟩
    dsimp only
    rw [h.published, List.append_assoc]
  | signal rest next => exact ⟨h.published, h.json, h.sent, h.connected⟩
  | executeTask idle phase operations rest next out changes executed added =>
    refine ⟨?_, h.json, h.sent, h.connected⟩
    dsimp only
    rw [h.published, added, List.append_assoc]
  | resolve n results rest next b future batch set =>
    exact ⟨h.published, h.json, h.sent, h.connected⟩

/-! ## The order of changes and replies -/

/-- All that was announced until the batch was executed was taken out of the change queue. -/
def Settled (s : NetServer) (n : Nat) : Prop :=
  ∃ a, s.announced[n]? = some a ∧ (a.before ++ a.changes) <+: s.applied

/-- Each continuation in the queue of handlers has a call of `applyStreamChanges`
    before it, or needs none. -/
def Guarded (settled : Nat → Prop) : List Handler → Prop
  | [] => True
  | .applyStreamChanges :: _ => True
  | .continuation n _ :: rest => settled n ∧ Guarded settled rest

theorem Guarded.mono {settled settled' : Nat → Prop} (h : ∀ n, settled n → settled' n)
    {handlers : List Handler} (hguarded : Guarded settled handlers) : Guarded settled' handlers := by
  induction handlers with
  | nil => trivial
  | cons handler rest ih =>
    cases handler with
    | applyStreamChanges => trivial
    | continuation n results => exact ⟨h n hguarded.1, ih hguarded.2⟩

theorem Guarded.of_forall {settled : Nat → Prop} {handlers : List Handler}
    (h : ∀ n results, .continuation n results ∈ handlers → settled n) : Guarded settled handlers := by
  induction handlers with
  | nil => trivial
  | cons handler rest ih =>
    have hrest := ih fun n results hmem => h n results (List.mem_cons_of_mem _ hmem)
    cases handler with
    | applyStreamChanges => trivial
    | continuation n results => exact ⟨h n results List.mem_cons_self, hrest⟩

theorem Guarded.append {settled : Nat → Prop} {handlers : List Handler} (h : Guarded settled handlers)
    {last : Handler} (hlast : .applyStreamChanges ∈ handlers ∨ Guarded settled [last]) :
    Guarded settled (handlers ++ [last]) := by
  induction handlers with
  | nil =>
    rcases hlast with hmem | hlast
    · exact absurd hmem List.not_mem_nil
    · exact hlast
  | cons handler rest ih =>
    cases handler with
    | applyStreamChanges => trivial
    | continuation n results =>
      refine ⟨h.1, ih h.2 (hlast.imp_left fun hmem => ?_)⟩
      rcases List.mem_cons.1 hmem with he | hmem
      · cases he
      · exact hmem

structure Ordered (s : NetServer) : Prop where
  length : s.announced.length = s.backend.executed.length
  through : ∀ (n : Nat) (a : Announced), s.announced[n]? = some a →
    (a.before ++ a.changes) <+: s.backend.published
  /-- a signal follows whatever is put into the queue -/
  signaled : s.backend.changeList ≠ [] →
    .applyStreamChanges ∈ s.sessions.handlers ∨ ∃ rest, s.worker = .signal :: rest
  posted : ∀ n results, .continuation n results ∈ s.sessions.handlers → n < s.announced.length
  guarded : Guarded (Settled s) s.sessions.handlers
  settled : ∀ (n : Nat) (b : ScheduledBatch), s.sessions.batches[n]? = some b → b.future.isReady = true →
    Settled s n ∨ .applyStreamChanges ∈ s.sessions.handlers
  replied : ∀ (before : List Message) (m : Message) (after : List Message) (n : Nat),
    s.sessions.outgoing = before ++ m :: after → m.cause = .batch n →
    ∃ a, s.announced[n]? = some a ∧ ∀ o ∈ s.observers,
      o.stream.streamId ∉ s.backend.disconnected ∨ changesSent o.stream.streamId after ≠ [] →
        changesFor o.stream.streamId (a.before ++ a.changes) <+: changesSent o.stream.streamId before

theorem ordered_init {storage : Connection Database} : Ordered { backend := { storage } } where
  length := rfl
  through n a ha := by simp at ha
  signaled hne := absurd rfl hne
  posted n results hmem := absurd hmem List.not_mem_nil
  guarded := trivial
  settled n b hb := by simp at hb
  replied before m after n hout := by simp at hout

theorem append_eq_cases {α : Type} {l r before after : List α} {m : α}
    (h : l ++ r = before ++ m :: after) :
    (∃ rest, l = before ++ m :: rest ∧ after = rest ++ r) ∨
      ∃ rest, before = l ++ rest ∧ r = rest ++ m :: after := by
  rcases List.append_eq_append_iff.1 h with ⟨rest, hbefore, hr⟩ | ⟨rest, hl, hrest⟩
  · exact Or.inr ⟨rest, hbefore, hr⟩
  · cases rest with
    | nil => exact Or.inr ⟨[], by simpa using hl.symm, by simpa using hrest.symm⟩
    | cons x rest =>
      rw [List.cons_append, List.cons.injEq] at hrest
      obtain ⟨rfl, rfl⟩ := hrest
      exact Or.inl ⟨rest, hl, rfl⟩

/-- Other steps leave the order alone: nothing is sent, posted or resolved. -/
theorem Ordered.of_eq (h : Ordered s) (hlength : s'.backend.executed.length = s.backend.executed.length)
    (hannounced : s'.announced = s.announced) (happlied : s'.applied = s.applied)
    (hpublished : s.backend.published <+: s'.backend.published)
    (hsignaled : s'.backend.changeList ≠ [] →
      .applyStreamChanges ∈ s'.sessions.handlers ∨ ∃ rest, s'.worker = .signal :: rest)
    (hhandlers : s'.sessions.handlers = s.sessions.handlers)
    (hready : ∀ (n : Nat) (b' : ScheduledBatch), s'.sessions.batches[n]? = some b' → b'.future.isReady = true →
      ∃ b, s.sessions.batches[n]? = some b ∧ b.future.isReady = true)
    (houtgoing : s'.sessions.outgoing = s.sessions.outgoing)
    (hobservers : ∀ o ∈ s'.observers, o ∈ s.observers ∨
      ∀ ds, ds ⊆ s.backend.published → changesFor o.stream.streamId ds = [])
    (hdisconnected : s.backend.disconnected ⊆ s'.backend.disconnected) : Ordered s' := by
  have hsettled : ∀ n, Settled s n → Settled s' n := by
    rintro n ⟨a, ha, hprefix⟩
    exact ⟨a, hannounced ▸ ha, happlied ▸ hprefix⟩
  refine ⟨?_, fun n a ha => ?_, hsignaled, ?_, ?_, fun n b' hb' hr => ?_, ?_⟩
  · rw [hannounced, hlength]
    exact h.length
  · exact (h.through n a (hannounced ▸ ha)).trans hpublished
  · rw [hhandlers, hannounced]
    exact h.posted
  · rw [hhandlers]
    exact h.guarded.mono hsettled
  · obtain ⟨b, hb, hr⟩ := hready n b' hb' hr
    rw [hhandlers]
    exact (h.settled n b hb hr).imp_left (hsettled n)
  · intro before m after n hout hm
    rw [houtgoing] at hout
    obtain ⟨a, ha, hall⟩ := h.replied before m after n hout hm
    refine ⟨a, hannounced ▸ ha, fun o ho hcond => ?_⟩
    rcases hobservers o ho with ho | hnothing
    · exact hall o ho (hcond.imp_left fun hopen hmem => hopen (hdisconnected hmem))
    · rw [hnothing _ (h.through n a ha).subset]
      exact List.nil_prefix

/-- Unless the worker is about to signal, the changes in the queue have their call of
    `applyStreamChanges`. -/
theorem Ordered.apply_posted (h : Ordered s) (hne : s.backend.changeList ≠ [])
    (hworker : ∀ rest, s.worker ≠ .signal :: rest) : .applyStreamChanges ∈ s.sessions.handlers := by
  obtain happly | ⟨rest, hsignal⟩ := h.signaled hne
  · exact happly
  · exact absurd hsignal (hworker rest)

theorem WorkerIdle.no_signal (h : s.WorkerIdle) (rest : List WorkerAction) : s.worker ≠ .signal :: rest := by
  rw [h.1]
  exact (List.cons_ne_nil _ _).symm

theorem Ordered.announced_prefix (hrouted : Routed boost s) (h : Ordered s) {n : Nat}
    (hn : n < s.announced.length) :
    ∃ a, s.announced[n]? = some a ∧ (a.before ++ a.changes) <+: s.applied ++ s.backend.changeList := by
  refine ⟨s.announced[n], List.getElem?_eq_getElem hn, ?_⟩
  rw [← hrouted.published]
  exact h.through n _ (List.getElem?_eq_getElem hn)

/-- The promise was resolved, so that the batch is settled, or will be first. -/
theorem Ordered.posted_step (hresolved : Resolved s) (h : Ordered s) {sessions : Sessions} {n : Nat}
    {b : ScheduledBatch} {results : List TaskResult} (hb : s.sessions.batches[n]? = some b)
    (hvalue : b.future.value = .value results)
    (hhandlers : sessions.handlers = s.sessions.handlers ++ [.continuation n results])
    (houtgoing : sessions.outgoing = s.sessions.outgoing)
    (hready : ∀ (m : Nat) (c' : ScheduledBatch), sessions.batches[m]? = some c' → c'.future.isReady = true →
      ∃ c, s.sessions.batches[m]? = some c ∧ c.future.isReady = true) : Ordered { s with sessions } := by
  have hr := FutureState.isReady_of_value hvalue
  have hn : n < s.announced.length := by
    rw [h.length]
    exact hresolved.lt_executed hb hr
  have hkept : ∀ handler, handler ∈ s.sessions.handlers → handler ∈ sessions.handlers := by
    intro handler hmem
    rw [hhandlers]
    exact List.mem_append_left _ hmem
  refine ⟨h.length, h.through, fun hne => (h.signaled hne).imp_left (hkept _), ?_, ?_, ?_, ?_⟩
  · intro m rs hmem
    dsimp only at hmem
    rw [hhandlers] at hmem
    rcases List.mem_append.1 hmem with hmem | hmem
    · exact h.posted m rs hmem
    · cases List.mem_singleton.1 hmem
      exact hn
  · dsimp only
    rw [hhandlers]
    refine h.guarded.append ?_
    rcases h.settled n b hb hr with hsettled | happly
    · exact Or.inr ⟨hsettled, trivial⟩
    · exact Or.inl happly
  · intro m c hc hr'
    obtain ⟨c', hc', hr'⟩ := hready m c hc hr'
    exact (h.settled m c' hc' hr').imp_right (hkept _)
  · dsimp only
    rw [houtgoing]
    exact h.replied

theorem Ordered.replied_reply (hrouted : Routed boost s) (h : Ordered s) {reply : Message} {n : Nat}
    (hreply : reply.cause = .batch n) (hsettled : Settled s n) {before after : List Message} {m : Message}
    {k : Nat} (hout : s.sessions.outgoing ++ [reply] = before ++ m :: after) (hm : m.cause = .batch k) :
    ∃ a, s.announced[k]? = some a ∧ ∀ o ∈ s.observers,
      o.stream.streamId ∉ s.backend.disconnected ∨ changesSent o.stream.streamId after ≠ [] →
        changesFor o.stream.streamId (a.before ++ a.changes) <+: changesSent o.stream.streamId before := by
  rcases append_eq_cases hout with ⟨rest, hold, rfl⟩ | ⟨rest, rfl, hlast⟩
  · obtain ⟨a, ha, hall⟩ := h.replied before m rest k hold hm
    refine ⟨a, ha, fun o ho hcond => hall o ho ?_⟩
    rwa [changesSent_append, changesSent_reply _ hreply, List.append_nil] at hcond
  · cases rest with
    | cons x rest => simp at hlast
    | nil =>
      rw [List.nil_append, List.cons.injEq] at hlast
      obtain ⟨rfl, rfl⟩ := hlast
      obtain rfl : n = k := by
        rw [hreply] at hm
        cases hm
        rfl
      obtain ⟨a, ha, hprefix⟩ := hsettled
      refine ⟨a, ha, fun o ho hcond => ?_⟩
      -- it is the last message, so that the stream is open and is sent all that was applied
      have hopen := hcond.resolve_right fun hne => hne rfl
      rw [List.append_nil, hrouted.connected o ho hopen]
      exact changesFor_initial hprefix _

/-- The continuation in front of the queue is guarded by nothing, so that its batch is settled. -/
theorem Ordered.ran_step (hrouted : Routed boost s) (h : Ordered s) {sessions : Sessions} {n : Nat}
    {results : List TaskResult} {rest : List Handler}
    (hfirst : s.sessions.handlers = .continuation n results :: rest) (hhandlers : sessions.handlers = rest)
    (houtgoing : sessions.outgoing = s.sessions.outgoing ∨
      ∃ m, m.cause = .batch n ∧ sessions.outgoing = s.sessions.outgoing ++ [m])
    (hready : ∀ (m : Nat) (c' : ScheduledBatch), sessions.batches[m]? = some c' → c'.future.isReady = true →
      ∃ c, s.sessions.batches[m]? = some c ∧ c.future.isReady = true) : Ordered { s with sessions } := by
  have hguarded := h.guarded
  rw [hfirst] at hguarded
  have hkept : .applyStreamChanges ∈ s.sessions.handlers → .applyStreamChanges ∈ sessions.handlers := by
    rw [hfirst, hhandlers]
    intro hmem
    rcases List.mem_cons.1 hmem with he | hmem
    · cases he
    · exact hmem
  refine ⟨h.length, h.through, fun hne => (h.signaled hne).imp_left hkept, ?_, ?_, ?_, ?_⟩
  · intro m rs hmem
    apply h.posted m rs
    rw [hfirst]
    exact List.mem_cons_of_mem _ (hhandlers ▸ hmem)
  · dsimp only
    rw [hhandlers]
    exact hguarded.2
  · intro m c hc hr'
    obtain ⟨c', hc', hr'⟩ := hready m c hc hr'
    exact (h.settled m c' hc' hr').imp_right hkept
  · rcases houtgoing with hsame | ⟨reply, hreply, hsame⟩
    · dsimp only
      rw [hsame]
      exact h.replied
    · intro before m after k hout hm
      dsimp only at hout
      rw [hsame] at hout
      exact h.replied_reply hrouted hreply hguarded.1 hout hm

theorem ready_of_internal {sessions : Sessions} (step : Sessions.Internal build s.sessions sessions) {n : Nat}
    {b' : ScheduledBatch} (hb' : sessions.batches[n]? = some b') (hr : b'.future.isReady = true) :
    ∃ b, s.sessions.batches[n]? = some b ∧ b.future.isReady = true := by
  have hget := (Sessions.same_internal step).getElem n
  rw [hb', Option.map_some] at hget
  obtain ⟨b, hb, hcontent⟩ := Option.map_eq_some_iff.1 hget.symm
  have hvalue : b.future.value = b'.future.value := congrArg (·.2.2) hcontent
  exact ⟨b, hb, (FutureState.isReady_congr hvalue).trans hr⟩

/-- What `applyStreamChanges` sends goes to streams that are open, and comes after all
    replies. -/
theorem Ordered.replied_apply {a : Backend} (hsim : Simulates build boost db s a) (hrouted : Routed boost s)
    (h : Ordered s) {before after : List Message} {m : Message} {n : Nat}
    (hout : s.sessions.outgoing ++ s.backend.applyStreamChanges.2.filterMap (message boost s.observers) =
      before ++ m :: after) (hm : m.cause = .batch n) :
    ∃ a, s.announced[n]? = some a ∧ ∀ o ∈ s.observers,
      o.stream.streamId ∉ s.backend.disconnected ∨ changesSent o.stream.streamId after ≠ [] →
        changesFor o.stream.streamId (a.before ++ a.changes) <+: changesSent o.stream.streamId before := by
  rcases append_eq_cases hout with ⟨rest, hold, rfl⟩ | ⟨rest, -, hlast⟩
  · obtain ⟨a, ha, hall⟩ := h.replied before m rest n hold hm
    refine ⟨a, ha, fun o ho hcond => hall o ho ?_⟩
    rcases hcond with hopen | hsent
    · exact Or.inl hopen
    · -- what is sent now goes to streams that are open
      by_cases hopen : o.stream.streamId ∈ s.backend.disconnected
      · right
        intro hnone
        apply hsent
        rw [changesSent_append, hnone,
          changesSent_message (fun d hd => hsim.observed (hrouted.applied_subset hd)), hsim.applied_for ho,
          if_pos hopen]
        rfl
      · exact Or.inl hopen
  · have hmem : m ∈ s.backend.applyStreamChanges.2.filterMap (message boost s.observers) := by
      rw [hlast]
      exact List.mem_append_right _ List.mem_cons_self
    obtain ⟨d, -, hmessage⟩ := List.mem_filterMap.1 hmem
    obtain ⟨o, -, rfl⟩ := Option.map_eq_some_iff.1 hmessage
    cases hm

/-- `applyStreamChanges` empties the queue: all that was announced is settled. -/
theorem Ordered.apply_step {a : Backend} (hsim : Simulates build boost db s a) (hresolved : Resolved s)
    (hrouted : Routed boost s) (h : Ordered s) {backend : Backend} {sessions : Sessions}
    (hexecuted : backend.executed = s.backend.executed) (hpublished : backend.published = s.backend.published)
    (hdisconnected : backend.disconnected = s.backend.disconnected) (hempty : backend.changeList = [])
    (hfirst : s.sessions.handlers = .applyStreamChanges :: sessions.handlers)
    (hbatches : sessions.batches = s.sessions.batches)
    (houtgoing : sessions.outgoing = s.sessions.outgoing ++
      s.backend.applyStreamChanges.2.filterMap (message boost s.observers)) :
    Ordered { s with backend, sessions, applied := s.applied ++ s.backend.changeList } := by
  have hposted : ∀ n results, .continuation n results ∈ sessions.handlers → n < s.announced.length := by
    intro n results hmem
    apply h.posted n results
    rw [hfirst]
    exact List.mem_cons_of_mem _ hmem
  refine ⟨?_, fun n a ha => ?_, fun hne => absurd hempty hne, hposted,
    .of_forall fun n results hmem => h.announced_prefix hrouted (hposted n results hmem),
    fun n b hb hr => Or.inl (h.announced_prefix hrouted ?_), fun before m after n hout hm => ?_⟩
  · rw [hexecuted]
    exact h.length
  · rw [hpublished]
    exact h.through n a ha
  · rw [h.length]
    exact hresolved.lt_executed (hbatches ▸ hb) hr
  · dsimp only at hout ⊢
    rw [houtgoing] at hout
    rw [hdisconnected]
    exact h.replied_apply hsim hrouted hout hm

theorem Ordered.signal_step (h : Ordered s) {rest : List WorkerAction} :
    Ordered { s with sessions := s.sessions.post .applyStreamChanges, worker := rest } := by
  have hmem : Handler.applyStreamChanges ∈ (s.sessions.post .applyStreamChanges).handlers :=
    List.mem_append_right _ List.mem_cons_self
  refine ⟨h.length, h.through, fun _ => Or.inl hmem, fun n results hn => ?_, ?_,
    fun n b hb hr => Or.inr hmem, h.replied⟩
  · rcases List.mem_append.1 hn with hn | hn
    · exact h.posted n results hn
    · cases List.mem_singleton.1 hn
  · exact h.guarded.append (Or.inr trivial)

/-- The worker announces the changes of a batch; the batch is the last one that was announced. -/
theorem Ordered.announce (h : Ordered s) (hidle : s.WorkerIdle) {backend : Backend}
    {changes : List DataStreamDifferential} {worker : List WorkerAction}
    (hexecuted : backend.executed.length = s.backend.executed.length + 1)
    (hpublished : backend.published = s.backend.published ++ changes)
    (hchangeList : backend.changeList = s.backend.changeList ++ changes)
    (hdisconnected : backend.disconnected = s.backend.disconnected)
    (hsignals : changes ≠ [] → ∃ rest, worker = .signal :: rest) :
    Ordered { s with backend, worker, announced := s.announced ++ [⟨s.backend.published, changes⟩] } := by
  have hkept : ∀ (n : Nat) (a : Announced), s.announced[n]? = some a →
      (s.announced ++ [⟨s.backend.published, changes⟩])[n]? = some a :=
    fun n a ha => getElem?_append_of_eq_some ha _
  have hsettled : ∀ n, Settled s n → ∃ a,
      (s.announced ++ [⟨s.backend.published, changes⟩])[n]? = some a ∧
        (a.before ++ a.changes) <+: s.applied := by
    intro n hsettled
    obtain ⟨a, ha, hprefix⟩ := hsettled
    exact ⟨a, hkept n a ha, hprefix⟩
  refine ⟨?_, fun n a ha => ?_, fun hne => ?_, fun n results hn => ?_, h.guarded.mono hsettled,
    fun n b hb hr => (h.settled n b hb hr).imp_left (hsettled n), ?_⟩
  · dsimp only
    rw [List.length_append, h.length, hexecuted]
    rfl
  · dsimp only
    rw [hpublished]
    rcases eq_some_or_of_concat ha with ha | ⟨-, rfl⟩
    · exact (h.through n a ha).trans (List.prefix_append _ _)
    · exact List.prefix_rfl
  · -- a signal follows, unless nothing was added
    by_cases hchanges : changes = []
    · dsimp only at hne
      rw [hchangeList, hchanges, List.append_nil] at hne
      exact Or.inl (h.apply_posted hne hidle.no_signal)
    · exact Or.inr (hsignals hchanges)
  · dsimp only
    rw [List.length_append]
    exact Nat.lt_add_right _ (h.posted n results hn)
  · intro before m after n hout hm
    obtain ⟨a, ha, hall⟩ := h.replied before m after n hout hm
    exact ⟨a, hkept n a ha, hdisconnected ▸ hall⟩

/-- The worker resolves a promise; it gave the signal for the changes of the batch before. -/
theorem Ordered.resolve (hresolved : Resolved s) (hrouted : Routed boost s) (h : Ordered s) {n : Nat}
    {results : List TaskResult} {rest : List WorkerAction} (next : s.worker = .resolve n results :: rest)
    {sessions : Sessions} {b : ScheduledBatch} (hbatches : sessions.batches = s.sessions.batches.set n b)
    (hhandlers : sessions.handlers = s.sessions.handlers) (houtgoing : sessions.outgoing = s.sessions.outgoing) :
    Ordered { s with sessions, worker := rest } := by
  have hworker : ∀ rest, s.worker ≠ .signal :: rest := by
    intro rest'
    rw [next]
    exact fun he => WorkerAction.noConfusion (List.cons.inj he).1
  obtain ⟨-, hexecuted, -⟩ := Work.of_resolve (next ▸ hresolved.work)
  -- what the batch announced is applied, or its signal was given before
  have hnow : Settled s n ∨ .applyStreamChanges ∈ s.sessions.handlers := by
    by_cases hempty : s.backend.changeList = []
    · obtain ⟨a, ha, hprefix⟩ := h.announced_prefix hrouted (h.length ▸ hexecuted)
      rw [hempty, List.append_nil] at hprefix
      exact Or.inl ⟨a, ha, hprefix⟩
    · exact Or.inr (h.apply_posted hempty hworker)
  refine ⟨h.length, h.through, fun hne => Or.inl (hhandlers ▸ h.apply_posted hne hworker),
    hhandlers ▸ h.posted, hhandlers ▸ h.guarded, fun m c hc hr => ?_, houtgoing ▸ h.replied⟩
  have hc' := hbatches ▸ hc
  rw [List.getElem?_set] at hc'
  dsimp only
  rw [hhandlers]
  by_cases hm : n = m
  · subst hm
    exact hnow
  · rw [if_neg hm] at hc'
    exact h.settled m c hc' hr

theorem ordered_step {a : Backend} (hsim : Simulates build boost db s a) (hresolved : Resolved s)
    (hrouted : Routed boost s) (h : Ordered s) (hs : Step build boost s s') : Ordered s' := by
  have hready : ∀ (n : Nat) (b : ScheduledBatch), s.sessions.batches[n]? = some b →
      b.future.isReady = true → ∃ b, s.sessions.batches[n]? = some b ∧ b.future.isReady = true :=
    fun n b hb hr => ⟨b, hb, hr⟩
  have hobservers : ∀ o ∈ s.observers, o ∈ s.observers ∨
      ∀ ds, ds ⊆ s.backend.published → changesFor o.stream.streamId ds = [] :=
    fun o ho => Or.inl ho
  cases hs with
  | createStream session obj clientId streamType endpoint options stream idle connected command new =>
    refine h.of_eq rfl rfl rfl List.prefix_rfl h.signaled rfl hready rfl (fun o ho => ?_)
      (List.Subset.refl _)
    rcases List.mem_append.1 ho with ho | ho
    · exact Or.inl ho
    · have hid : o.stream.streamId = s.backend.nextStreamId := by rw [List.mem_singleton.1 ho, new]
      exact Or.inr fun ds hds => hid ▸ hsim.unpublished hds
  | removeStream observer idle held open_ reason =>
    exact h.of_eq rfl rfl rfl List.prefix_rfl h.signaled rfl hready rfl hobservers
      (List.subset_cons_self _ _)
  | schedule session obj operations id idle connected command =>
    refine h.of_eq rfl rfl rfl List.prefix_rfl h.signaled rfl (fun n b hb hr => ?_) rfl hobservers
      (List.Subset.refl _)
    rcases eq_some_or_of_concat hb with hb | ⟨-, rfl⟩
    · exact ⟨b, hb, hr⟩
    · cases hr
  | internal sessions step =>
    have hready : ∀ (n : Nat) (b' : ScheduledBatch), sessions.batches[n]? = some b' →
        b'.future.isReady = true → ∃ b, s.sessions.batches[n]? = some b ∧ b.future.isReady = true :=
      fun n b' hb' hr => ready_of_internal step hb' hr
    cases Sessions.internal_effect step with
    | none hhandlers houtgoing =>
      refine h.of_eq rfl rfl rfl List.prefix_rfl ?_ hhandlers hready houtgoing hobservers
        (List.Subset.refl _)
      dsimp only
      rw [hhandlers]
      exact h.signaled
    | posted n b results hb hvalue hhandlers houtgoing =>
      exact h.posted_step hresolved hb hvalue hhandlers houtgoing hready
    | ran n results rest hfirst hhandlers houtgoing =>
      exact h.ran_step hrouted hfirst hhandlers houtgoing hready
  | applyStreamChanges rest idle first =>
    exact h.apply_step hsim hresolved hrouted rfl rfl rfl rfl first rfl rfl
  | turn backend idle step =>
    obtain ⟨-, hexecuted, hdisconnected, hpublished, hchangeList⟩ := step.unchanged
    refine h.of_eq (congrArg _ hexecuted) rfl rfl (by rw [hpublished]) ?_ rfl hready rfl hobservers
      (by rw [hdisconnected]; exact List.Subset.refl _)
    dsimp only
    rw [hchangeList]
    exact h.signaled
  | initializeOne idle phase stream rest next changes loaded =>
    exact h.of_eq rfl rfl rfl List.prefix_rfl (fun hne => Or.inl (h.apply_posted hne idle.no_signal)) rfl
      hready rfl hobservers (List.Subset.refl _)
  | addStreamChange change rest next =>
    exact h.of_eq rfl rfl rfl (List.prefix_append _ _) (fun _ => Or.inr ⟨rest, rfl⟩) rfl hready rfl
      hobservers (List.Subset.refl _)
  | signal rest next => exact h.signal_step
  | executeTask idle phase operations rest next out changes executed added =>
    refine h.announce idle (List.length_append ..) rfl added rfl fun hne => ?_
    cases changes with
    | nil => exact absurd rfl hne
    | cons c cs => exact ⟨_, rfl⟩
  | resolve n results rest next b future batch set =>
    exact h.resolve hresolved hrouted next rfl rfl rfl

/-! ## The streams that a batch finds -/

structure Subscribed (build : Build) (boost : BoostDate) (s : NetServer) : Prop where
  length : s.scheduled.length = s.backend.queued.length
  bound : ∀ bound ∈ s.scheduled, bound ≤ s.backend.nextStreamId
  /-- a stream that is not active is newer than the batches that are executed now -/
  active : s.backend.phase = .initializing ∨ s.backend.phase = .processing →
    ∀ o ∈ s.observers, o.stream.streamId ∉ s.backend.disconnected →
      o.stream ∈ s.backend.activeStreams ∨
        ∀ n bound, n < s.backend.executed.length + s.backend.newTasks.length →
          s.scheduled[n]? = some bound → bound ≤ o.stream.streamId
  announces : ∀ (n : Nat) (r : BatchRecord) (a : Announced) (bound : Int),
    s.backend.executed[n]? = some r → s.announced[n]? = some a → s.scheduled[n]? = some bound →
      ∀ o ∈ s.observers, o.stream.streamId < bound → o.stream.streamId ∉ s.backend.disconnected →
        changesFor o.stream.streamId a.changes = receivedAll o.stream (r.notices build boost)

theorem subscribed_init {storage : Connection Database} :
    Subscribed build boost { backend := { storage } } where
  length := rfl
  bound _ h := absurd h List.not_mem_nil
  active _ _ ho := absurd ho List.not_mem_nil
  announces n r a bound hr := by simp at hr

theorem Simulates.queued {a : Backend} (h : Simulates build boost db s a) :
    s.backend.queued.length = s.backend.executed.length + s.backend.newTasks.length +
      s.backend.operationsQueue.length := by
  have hsound := Backend.reached_sound h.reached
  obtain ⟨_, _, _, hsame⟩ := h.backend
  rw [hsame]
  dsimp only
  rw [hsound.order, List.length_append, List.length_append, List.length_map]

theorem Simulates.all_active {a : Backend} (h : Simulates build boost db s a)
    {o : SessionStreamObserver} (ho : o ∈ s.observers)
    (hopen : o.stream.streamId ∉ s.backend.disconnected) :
    o.stream ∈ s.backend.activeStreams ++ s.backend.uninitializedStreams := by
  have hsound := Backend.reached_sound h.reached
  have hcreated : o.stream ∈ a.created := h.created ▸ List.mem_map_of_mem ho
  obtain ⟨_, _, _, hsame⟩ := h.backend
  rw [hsame] at hopen ⊢
  cases hsound.streams o.stream hcreated hopen with
  | waiting huninitialized => exact List.mem_append_right _ huninitialized
  | starting _ hactive => exact List.mem_append_left _ hactive
  | running hactive => exact List.mem_append_left _ hactive

/-- What the executed batch adds for a stream that was active. -/
theorem Simulates.announce_for {a : Backend} (h : Simulates build boost db s a)
    {operations : Operations} {out : TaskOutcome} {changes : List DataStreamDifferential}
    (hexecuted : processTask build boost s.backend.activeStreams s.backend.storage
      s.backend.changeList operations = .ok out)
    (hadded : out.changeList = s.backend.changeList ++ changes) {stream : DataStream}
    (hactive : stream ∈ s.backend.activeStreams) :
    changesFor stream.streamId changes = receivedAll stream (BatchRecord.notices build boost
      ⟨s.backend.storage.current, operations, out.results, out.committed, out.storage.current⟩) := by
  have hsound := Backend.reached_sound h.reached
  obtain ⟨_, _, _, hsame⟩ := h.backend
  rw [hsame] at hexecuted hadded hactive ⊢
  obtain ⟨-, -, hannounce⟩ :=
    Backend.history_executeTask hsound.idle hsound.history hexecuted hadded
  exact DataStreamManager.announce_for hannounce hsound.activeDistinct hactive

theorem Subscribed.newer (h : Subscribed build boost s) {stream : DataStream}
    (hid : stream.streamId = s.backend.nextStreamId) {n : Nat} {bound : Int}
    (hb : s.scheduled[n]? = some bound) : bound ≤ stream.streamId := by
  rw [hid]
  exact h.bound bound (List.mem_of_getElem? hb)

/-! What each step keeps. -/

theorem Subscribed.createStream (h : Subscribed build boost s) {stream : DataStream}
    (hid : stream.streamId = s.backend.nextStreamId) {session : Nat} {clientId : Int}
    {dataStreams uninitializedStreams created : List DataStream} : Subscribed build boost { s with
      backend := { s.backend with
        nextStreamId := s.backend.nextStreamId + 1, dataStreams, uninitializedStreams, created }
      observers := s.observers ++ [⟨stream, session, clientId⟩] } := by
  refine ⟨h.length, fun bound hb => ?_, fun hphase o ho hopen => ?_,
    fun n r a bound hr ha hb o ho hlt hopen => ?_⟩
  · have := h.bound bound hb
    dsimp only
    omega
  · rcases List.mem_append.1 ho with ho | ho
    · exact h.active hphase o ho hopen
    · refine Or.inr fun n bound _ hb => ?_
      rw [List.mem_singleton.1 ho]
      exact h.newer hid hb
  · rcases List.mem_append.1 ho with ho | ho
    · exact h.announces n r a bound hr ha hb o ho hlt hopen
    · rw [List.mem_singleton.1 ho] at hlt
      exact absurd hlt (h.newer hid hb).not_gt

theorem Subscribed.removeStream (h : Subscribed build boost s) (removed : Int)
    {uninitializedStreams : List DataStream} : Subscribed build boost { s with
      backend := { s.backend with
        disconnected := removed :: s.backend.disconnected
        uninitializedStreams
        activeStreams := s.backend.activeStreams.filter (·.streamId != removed) } } := by
  have hstill : ∀ streamId, streamId ∉ removed :: s.backend.disconnected →
      streamId ∉ s.backend.disconnected ∧ streamId ≠ removed := by
    intro streamId hmem
    rw [List.mem_cons, not_or] at hmem
    exact ⟨hmem.2, hmem.1⟩
  refine ⟨h.length, h.bound, fun hphase o ho hopen => ?_, fun n r a bound hr ha hb o ho hlt hopen => ?_⟩
  · obtain ⟨hopen, hne⟩ := hstill _ hopen
    refine (h.active hphase o ho hopen).imp_left fun hactive => ?_
    exact List.mem_filter.2 ⟨hactive, by simpa using hne⟩
  · exact h.announces n r a bound hr ha hb o ho hlt (hstill _ hopen).1

theorem Subscribed.schedule {a : Backend} (hsim : Simulates build boost db s a) (h : Subscribed build boost s)
    (operations : Operations) {operationsQueue : List Operations} {sessions : Sessions} :
    Subscribed build boost { s with
      backend := { s.backend with operationsQueue, queued := s.backend.queued ++ [operations] }
      sessions
      scheduled := s.scheduled ++ [s.backend.nextStreamId] } := by
  have hqueued := hsim.queued
  have hold : ∀ n bound, n < s.backend.executed.length + s.backend.newTasks.length →
      (s.scheduled ++ [s.backend.nextStreamId])[n]? = some bound → s.scheduled[n]? = some bound := by
    intro n bound hn hb
    have hlength := h.length
    have hn' : n < s.scheduled.length := by omega
    exact (List.getElem?_append_left hn').symm.trans hb
  refine ⟨?_, fun bound hb => ?_, fun hphase o ho hopen => ?_,
    fun n r a bound hr ha hb o ho hlt hopen => ?_⟩
  · simp [h.length]
  · rcases List.mem_append.1 hb with hb | hb
    · exact h.bound bound hb
    · exact le_of_eq (List.mem_singleton.1 hb)
  · refine (h.active hphase o ho hopen).imp_right fun hnewer n bound hn hb => ?_
    exact hnewer n bound hn (hold n bound hn hb)
  · have hn := (List.getElem?_eq_some_iff.1 hr).1
    exact h.announces n r a bound hr ha (hold n bound (Nat.lt_add_right _ hn) hb) o ho hlt hopen

/-- What the batch that is executed announces goes to the streams that it found. -/
theorem Subscribed.executeTask {a : Backend} (hsim : Simulates build boost db s a) (hordered : Ordered s)
    (h : Subscribed build boost s) (phase : s.backend.phase = .processing) {operations : Operations}
    {rest : List Operations} (next : s.backend.newTasks = operations :: rest) {out : TaskOutcome}
    {changes : List DataStreamDifferential}
    (executed : processTask build boost s.backend.activeStreams s.backend.storage
      s.backend.changeList operations = .ok out)
    (added : out.changeList = s.backend.changeList ++ changes) {published : List DataStreamDifferential}
    {worker : List WorkerAction} : Subscribed build boost { s with
      backend := { s.backend with
        newTasks := rest, storage := out.storage, changeList := out.changeList, published
        executed := s.backend.executed ++ [{ before := s.backend.storage.current, operations, results := out.results,
                                             committed := out.committed, after := out.storage.current }] }
      worker
      announced := s.announced ++ [⟨s.backend.published, changes⟩] } := by
  refine ⟨h.length, h.bound, fun _ o ho hopen => ?_, fun n r a bound hr ha hb o ho hlt hopen => ?_⟩
  · refine (h.active (Or.inr phase) o ho hopen).imp_right fun hnewer n bound hn hb => ?_
    apply hnewer n bound _ hb
    rw [next]
    simp only [List.length_append, List.length_cons, List.length_nil] at hn ⊢
    omega
  · have hlength := hordered.length
    rcases eq_some_or_of_concat hr with hr | ⟨hn, rfl⟩ <;>
      rcases eq_some_or_of_concat ha with ha | ⟨hn', rfl⟩
    · exact h.announces n r a bound hr ha hb o ho hlt hopen
    · have hn := (List.getElem?_eq_some_iff.1 hr).1
      omega
    · have hn' := (List.getElem?_eq_some_iff.1 ha).1
      omega
    · -- the batch that is executed now
      have hactive : o.stream ∈ s.backend.activeStreams := by
        refine (h.active (Or.inr phase) o ho hopen).resolve_right fun hnewer => ?_
        have := hnewer n bound (by rw [next, List.length_cons]; omega) hb
        omega
      exact hsim.announce_for executed added hactive

theorem subscribed_step {a : Backend} (hsim : Simulates build boost db s a) (hordered : Ordered s)
    (h : Subscribed build boost s) (hs : Step build boost s s') : Subscribed build boost s' := by
  cases hs with
  | createStream session obj clientId streamType endpoint options stream idle connected command new =>
    exact h.createStream (by rw [new])
  | removeStream observer idle held open_ reason => exact h.removeStream observer.stream.streamId
  | schedule session obj operations id idle connected command => exact h.schedule hsim operations
  | internal sessions step => exact ⟨h.length, h.bound, h.active, h.announces⟩
  | applyStreamChanges rest idle first => exact ⟨h.length, h.bound, h.active, h.announces⟩
  | turn backend idle step =>
    cases step with
    | swap phase =>
      refine ⟨h.length, h.bound, fun hphase => ?_, h.announces⟩
      rcases hphase with hphase | hphase
      · cases hphase
      · cases hphase
    | collect phase =>
      exact ⟨h.length, h.bound, fun _ o ho hopen => Or.inl (hsim.all_active ho hopen),
        h.announces⟩
    | process phase done =>
      exact ⟨h.length, h.bound, fun _ => h.active (Or.inl phase), h.announces⟩
    | loop phase done =>
      refine ⟨h.length, h.bound, fun hphase => ?_, h.announces⟩
      rcases hphase with hphase | hphase
      · cases hphase
      · cases hphase
  | initializeOne idle phase stream rest next changes loaded =>
    exact ⟨h.length, h.bound, h.active, h.announces⟩
  | addStreamChange change rest next => exact ⟨h.length, h.bound, h.active, h.announces⟩
  | signal rest next => exact ⟨h.length, h.bound, h.active, h.announces⟩
  | executeTask idle phase operations rest next out changes executed added =>
    exact h.executeTask hsim hordered phase next executed added
  | resolve n results rest next b future batch set => exact ⟨h.length, h.bound, h.active, h.announces⟩

/-! ## The theorem -/

structure Sound (build : Build) (boost : BoostDate) (db : Database) (s : NetServer) : Prop where
  simulates : ∃ a, Simulates build boost db s a
  resolved : Resolved s
  routed : Routed boost s
  ordered : Ordered s
  subscribed : Subscribed build boost s
  sessions : Sessions.Reached build boost s.sessions

theorem sound_init (build : Build) (boost : BoostDate) (db : Database) :
    Sound build boost db { backend := { storage := { current := db } } } where
  simulates := ⟨_, .init rfl, ⟨_, _, _, rfl⟩, rfl, rfl⟩
  resolved := resolved_init
  routed := routed_init
  ordered := ordered_init
  subscribed := subscribed_init
  sessions := .init rfl

/-- The sessions of the server do what `Sessions.Step` says. -/
theorem sessions_step (hresolved : Resolved s) (h : Sessions.Reached build boost s.sessions)
    (hs : Step build boost s s') : Sessions.Reached build boost s'.sessions := by
  cases hs with
  | createStream session obj clientId streamType endpoint options stream idle connected command new =>
    exact h
  | removeStream observer idle held open_ reason => exact h
  | schedule session obj operations id idle connected command =>
    exact h.step (.schedule _ session obj operations id idle connected command)
  | internal sessions step => exact h.step (.internal _ _ step)
  | applyStreamChanges rest idle first =>
    refine h.step (.applyStreamChanges _ rest _ idle first fun m hm => ?_)
    obtain ⟨d, -, hmessage⟩ := List.mem_filterMap.1 hm
    obtain ⟨o, -, rfl⟩ := Option.map_eq_some_iff.1 hmessage
    exact ⟨d, rfl⟩
  | turn backend idle step => exact h
  | initializeOne idle phase stream rest next changes loaded => exact h
  | addStreamChange change rest next => exact h
  | signal rest next => exact h.step (.signal _)
  | executeTask idle phase operations rest next out changes executed added => exact h
  | resolve n results rest next b future batch set =>
    have honce : b.future.isReady = false := by
      have hmem : .resolve n results ∈ s.worker := by
        rw [next]
        exact List.mem_cons_self
      cases hresolved.batch n b batch with
      | waiting _ hempty => exact FutureState.isReady_of_empty hempty
      | next _ _ hempty => exact FutureState.isReady_of_empty hempty
      | resolved r hrecord hvalue hdone => exact absurd hmem (hdone results)
    exact h.step (.resolve _ n b results future batch honce set)

theorem sound_step (h : Sound build boost db s) (hs : Step build boost s s') :
    Sound build boost db s' := by
  obtain ⟨a, ha⟩ := h.simulates
  obtain ⟨a', ha'⟩ := simulates_step ha hs
  exact ⟨⟨a', ha'⟩, resolved_step ha' h.resolved hs, routed_step ha h.routed hs,
    ordered_step ha h.resolved h.routed h.ordered hs, subscribed_step ha h.ordered h.subscribed hs,
    sessions_step h.resolved h.sessions hs⟩

theorem reached_sound (h : Reached build boost db s) : Sound build boost db s := by
  refine Reachable.invariant (I := Sound build boost db) ?_ (fun _ _ => sound_step) h
  rintro _ rfl
  exact sound_init build boost db

/-- The messages of one session, in the order in which it put them on its queue. -/
def outgoingOf (s : NetServer) (session : Nat) : List Message :=
  s.sessions.outgoing.filter fun m => m.session == session

/-- The messages for a stream are messages of its session. -/
theorem changesSent_session (h : Sound build boost db s) {o : SessionStreamObserver}
    (ho : o ∈ s.observers) {ms : List Message} (hms : ms ⊆ s.sessions.outgoing) :
    changesSent o.stream.streamId (ms.filter fun m => m.session == o.session) =
      changesSent o.stream.streamId ms := by
  obtain ⟨a, ha⟩ := h.simulates
  have hsound := Backend.reached_sound ha.reached
  have hdistinct : (s.observers.map fun o => o.stream.streamId).Nodup := by
    have := hsound.distinct
    rw [ha.created, List.map_map] at this
    exact this
  induction ms with
  | nil => rfl
  | cons m ms ih =>
    have ih := ih fun m' hm' => hms (List.mem_cons_of_mem _ hm')
    by_cases hsession : m.session = o.session
    · rw [List.filter_cons_of_pos (by simpa using hsession)]
      show changesSent _ ([m] ++ _) = changesSent _ ([m] ++ _)
      rw [changesSent_append, changesSent_append, ih]
    · rw [List.filter_cons_of_neg (by simpa using hsession), ih]
      show _ = changesSent _ ([m] ++ _)
      have hnone : changesSent o.stream.streamId [m] = [] := by
        cases hcause : m.cause with
        | batch n => exact changesSent_reply _ hcause
        | change d =>
          obtain ⟨o', ho', hid, hs, -⟩ := h.routed.json m (hms List.mem_cons_self) d hcause
          have hne : d.streamId ≠ o.stream.streamId := by
            intro hsame
            obtain rfl := List.inj_on_of_nodup_map hdistinct ho' ho (hid.trans hsame)
            exact hsession hs
          simp [changesSent, hcause, hne]
      rw [changesSent_append, hnone, List.nil_append]

/-- In every interleaving of the worker and the io thread: a session puts the reply to
    a batch on its queue after all messages for what was announced until the batch was
    executed, for any stream of it that is open, or that is sent anything after the
    reply. What is sent for a stream is what was announced, in order; and what a batch
    announces for a stream that was created before the batch was scheduled are the
    notices of the batch. -/
theorem read_your_writes (h : Reached build boost db s) (session : Nat) (before : List Message)
    (m : Message) (after : List Message) (n : Nat)
    (hqueue : s.outgoingOf session = before ++ m :: after) (hreply : m.cause = .batch n) :
    ∃ b r a bound, s.sessions.batches[n]? = some b ∧ Sessions.IsReply b m ∧
      s.backend.executed[n]? = some r ∧ b.future.value = .value r.results ∧
      s.announced[n]? = some a ∧ s.scheduled[n]? = some bound ∧
      (a.before ++ a.changes) <+: s.backend.published ∧
      ∀ o ∈ s.observers, o.session = session →
        changesSent o.stream.streamId (before ++ m :: after) <+:
          changesFor o.stream.streamId s.backend.published ∧
        (o.stream.streamId ∉ s.backend.disconnected ∨ changesSent o.stream.streamId after ≠ [] →
          changesFor o.stream.streamId a.before ++ changesFor o.stream.streamId a.changes <+:
            changesSent o.stream.streamId before) ∧
        (o.stream.streamId < bound → o.stream.streamId ∉ s.backend.disconnected →
          changesFor o.stream.streamId a.changes = receivedAll o.stream (r.notices build boost)) := by
  have hsound := reached_sound h
  -- the same message in the order of all sessions
  obtain ⟨before', rest, hall, hbefore, hrest⟩ := List.filter_eq_append_iff.1 hqueue
  obtain ⟨skipped, after', hrest', hskipped, hsession, hafter⟩ := List.filter_eq_cons_iff.1 hrest
  have hout : s.sessions.outgoing = (before' ++ skipped) ++ m :: after' := by
    rw [hall, hrest', List.append_assoc]
  have hmem : m ∈ s.sessions.outgoing := by
    rw [hout]
    exact List.mem_append_right _ List.mem_cons_self
  have hbefore' : (before' ++ skipped).filter (fun m => m.session == session) = before := by
    rw [List.filter_append, hbefore, List.filter_eq_nil_iff.2 hskipped, List.append_nil]
  obtain ⟨b, hb, hisReply⟩ := Sessions.isReply_of_mem (Sessions.reached_sound hsound.sessions) hmem hreply
  have hparts := hisReply
  obtain ⟨results, id, hvalue, -⟩ := hparts
  have hresolved := hsound.resolved.batch n b hb
  obtain ⟨r, hr, hresults⟩ : ∃ r, s.backend.executed[n]? = some r ∧ b.future.value = .value r.results := by
    cases hresolved with
    | waiting _ hempty => rw [hempty] at hvalue; cases hvalue
    | next _ _ hempty => rw [hempty] at hvalue; cases hvalue
    | resolved r hr hv => exact ⟨r, hr, hv⟩
  obtain ⟨a, ha, horder⟩ := hsound.ordered.replied _ m after' n hout hreply
  have hn : n < s.scheduled.length := by
    rw [hsound.subscribed.length, ← hsound.resolved.queued]
    exact (List.getElem?_eq_some_iff.1 hb).1
  refine ⟨b, r, a, s.scheduled[n], hb, hisReply, hr, hresults, ha, List.getElem?_eq_getElem hn,
    hsound.ordered.through n a ha, fun o ho hos => ?_⟩
  subst hos
  have hsub₁ : before' ++ skipped ⊆ s.sessions.outgoing := by
    rw [hout]
    exact List.subset_append_left _ _
  have hsub₂ : after' ⊆ s.sessions.outgoing := by
    rw [hout]
    exact fun m' hm' => List.mem_append_right _ (List.mem_cons_of_mem _ hm')
  have hsent₁ := changesSent_session hsound ho hsub₁
  have hsent₂ := changesSent_session hsound ho hsub₂
  rw [hbefore'] at hsent₁
  rw [hafter] at hsent₂
  refine ⟨?_, fun hcond => ?_, ?_⟩
  · rw [← hqueue, outgoingOf, changesSent_session hsound ho (List.Subset.refl _)]
    refine (hsound.routed.sent o ho).trans (changesFor_initial ?_ _)
    rw [hsound.routed.published]
    exact List.prefix_append _ _
  · rw [← changesFor_append, hsent₁]
    exact horder o ho (by rwa [hsent₂] at hcond)
  · exact hsound.subscribed.announces n r a _ hr ha (List.getElem?_eq_getElem hn) o ho

/-- The message that a client creates its first stream with. -/
def createReservations : Json :=
  .obj [("op", .str "create_stream"), ("id", .int 1), ("type", .int 2), ("service", .str ""),
        ("options", .null)]

/-- The message of a batch that erases everything. -/
def eraseMessage : Json :=
  .obj [("op", .str "schedule_operations"), ("id", .int 2),
        ("operations", .arr [.obj [("op", .str "erase_all_data")]])]

/-- A client creates a stream and erases everything: the change of the stream and then
    the reply are sent. -/
theorem reached_eraseMessage : ∃ s, Reached .debug .gregorian {} s ∧ ∃ before m,
    s.outgoingOf 0 = before ++ [m] ∧ m.cause = .batch 0 ∧
      ∃ o ∈ s.observers, o.session = 0 ∧ o.stream.streamId ∉ s.backend.disconnected := by
  have h₀ : Reached .debug .gregorian {} { backend := { storage := { current := {} } } } := .init rfl
  have h₁ := h₀.step (.createStream _ 0 createReservations 1 .reservation "" .null
    (reservationStream 1) rfl List.not_mem_nil rfl rfl)
  have h₂ := h₁.step (.schedule _ 0 eraseMessage [.eraseAllData] (.int 2) rfl List.not_mem_nil rfl)
  have h₃ := h₂.step (.internal _ _ (.io _ _ (.chain 0) _ _ rfl rfl))
  have h₄ := h₃.step (.internal _ _ (.io _ _ (.push 0) _ _ rfl rfl))
  have h₅ := h₄.step (.turn _ _ ⟨rfl, rfl⟩ (.swap _ rfl))
  have h₆ := h₅.step (.turn _ _ ⟨rfl, rfl⟩ (.collect _ rfl))
  have h₇ := h₆.step (.initializeOne _ ⟨rfl, rfl⟩ rfl _ _ rfl _ rfl)
  have h₈ := (h₇.step (.addStreamChange _ _ _ rfl)).step (.signal _ _ rfl)
  have h₉ := (h₈.step (.addStreamChange _ _ _ rfl)).step (.signal _ _ rfl)
  have h₁₀ := h₉.step (.turn _ _ ⟨rfl, rfl⟩ (.process _ rfl rfl))
  have h₁₁ := h₁₀.step (.executeTask _ ⟨rfl, rfl⟩ rfl _ _ rfl _ [⟨1, .cleared⟩] rfl rfl)
  have h₁₂ := h₁₁.step (.signal _ _ rfl)
  have h₁₃ := h₁₂.step (.resolve _ 0 _ _ rfl _ _ rfl rfl)
  have h₁₄ := h₁₃.step (.internal _ _ (.resolving _ _ (.next 0) [] [] _ rfl rfl))
  have h₁₅ := h₁₄.step (.internal _ _ (.resolving _ _ (.continueWith 0) [] [] _ rfl rfl))
  have h₁₆ := ((h₁₅.step (.applyStreamChanges _ _ rfl rfl)).step (.applyStreamChanges _ _ rfl rfl)).step
    (.applyStreamChanges _ _ rfl rfl)
  have h₁₇ := h₁₆.step (.internal _ _ (.runContinuation _ _ 0 _ _ _ _ rfl rfl rfl rfl))
  exact ⟨_, h₁₇, [_, _, _], _, rfl, rfl, _, List.mem_cons_self, rfl, List.not_mem_nil⟩

/-- Everything announced for the stream is ahead of the reply. -/
theorem read_your_writes_eraseMessage : ∃ (s : NetServer) (before : List Message) (m : Message),
    s.outgoingOf 0 = before ++ [m] ∧ ∃ o ∈ s.observers, ∃ a : Announced,
      changesFor o.stream.streamId a.before ++ changesFor o.stream.streamId a.changes <+:
        changesSent o.stream.streamId before := by
  obtain ⟨s, hs, before, m, hqueue, hm, o, ho, hsession, hopen⟩ := reached_eraseMessage
  obtain ⟨_, _, a, _, -, -, -, -, -, -, -, hall⟩ := read_your_writes hs 0 before m [] 0 hqueue hm
  exact ⟨s, before, m, hqueue, o, ho, a, (hall o ho hsession).2.1 (Or.inl hopen)⟩

end NetServer

end HotelPms

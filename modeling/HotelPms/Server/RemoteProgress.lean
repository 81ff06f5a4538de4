import HotelPms.Server.RemoteGuarantees
import HotelPms.Server.ServerProgress

/- A remote batch is answered.

   A batch that a client queued is read by its session, executed and resolved by the worker,
   and its continuation posted and run; the reply is then processed by the client. Each of
   these is the work of one thread, and other sessions, other batches and changes come
   between. `remote_progress` says that the client is answered nevertheless, whatever the
   interleaving, as long as each thread goes on (`Scheduled`) and nothing breaks the way
   (`Interrupted`): the io thread takes its handlers in order, so that none of them waits for ever
   behind those that are posted later, and the worker leaves no batch behind. -/
namespace HotelPms
open Lib SqliteStorage DataStreamManager SqliteBackend

/-- What a client has called, read of and processed only grows. -/
structure RemoteClient.Grows (c c' : RemoteClient) : Prop where
  calls : c.calls <+: c'.calls
  read : c.read ≤ c'.read
  processed : c.processed ≤ c'.processed

theorem RemoteClient.Grows.refl (c : RemoteClient) : c.Grows c := ⟨List.prefix_rfl, le_rfl, le_rfl⟩

namespace RemoteSystem

variable {build : Build} {boost : BoostDate} {db : Database} {s s' : RemoteSystem} {i n p : Nat} {id : Int}

/-! ## What one step changes -/

theorem Step.server_cases (hs : Step build boost s s') :
    s'.server = s.server ∨ s.server.Step build boost s'.server := by
  cases hs with
  | createStream | removeStream | queueOperations | applyStreamChanges | processMessage => exact Or.inl rfl
  | runCommand j obj server idle connected next done =>
    exact (NetServer.ran_of_runCommand done).step idle connected
  | server server step => exact Or.inr step.step

theorem Step.keeps_server {P : NetServer → Prop} (hs : Step build boost s s') (hP : P s.server)
    (hstep : s.server.Step build boost s'.server → P s'.server) : P s'.server := by
  rcases hs.server_cases with hsame | h
  · rw [hsame]
    exact hP
  · exact hstep h

theorem grows_setClient {j : Nat} {c : RemoteClient} (h : (s.clients j).Grows c) (i : Nat) :
    (s.clients i).Grows ((s.setClient j c).clients i) := by
  unfold setClient
  dsimp only
  rcases eq_or_ne i j with rfl | hne
  · rw [Function.update_self]
    exact h
  · rw [Function.update_of_ne hne]
    exact .refl _

theorem Step.grows (hs : Step build boost s s') (i : Nat) : (s.clients i).Grows (s'.clients i) := by
  cases hs with
  | createStream j type service options message submitted =>
    refine grows_setClient ?_ i
    exact ⟨List.prefix_append _ _, le_rfl, le_rfl⟩
  | removeStream j streamId message created open_ submitted =>
    refine grows_setClient ?_ i
    exact ⟨List.prefix_append _ _, le_rfl, le_rfl⟩
  | queueOperations j operations backend message queued =>
    refine grows_setClient ?_ i
    exact ⟨List.prefix_append _ _, le_rfl, le_rfl⟩
  | applyStreamChanges j =>
    refine grows_setClient ?_ i
    exact ⟨List.prefix_rfl, le_rfl, le_rfl⟩
  | processMessage j m backend next done =>
    refine grows_setClient ?_ i
    exact ⟨List.prefix_rfl, le_rfl, Nat.le_succ _⟩
  | runCommand j obj server idle connected next done =>
    refine grows_setClient (s := { s with server }) ?_ i
    exact ⟨List.prefix_rfl, Nat.le_succ _, le_rfl⟩
  | server server step => exact .refl _

theorem getElem?_of_initial {α : Type*} {xs ys : List α} {x : α} (h : xs <+: ys) (hx : xs[p]? = some x) :
    ys[p]? = some x := by
  obtain ⟨rest, rfl⟩ := h
  exact getElem?_append_of_eq_some hx rest

theorem outgoingOf_step (hs : Step build boost s s') (i : Nat) :
    s.server.outgoingOf i <+: s'.server.outgoingOf i := by
  refine hs.keeps_server (P := fun server => s.server.outgoingOf i <+: server.outgoingOf i)
    List.prefix_rfl fun hstep => ?_
  exact (NetServer.outgoing_step hstep).filter _

/-! ## Who goes on -/

/-- The worker of the server goes on with what there is to do. -/
def Works (build : Build) (boost : BoostDate) (s s' : RemoteSystem) : Prop :=
  Step build boost s s' ∧ ¬s.server.Waits ∧ ¬NetServer.SameWorker s.server s'.server

/-- The io thread of the server goes on with the handler that it runs. -/
def Serves (build : Build) (boost : BoostDate) (s s' : RemoteSystem) : Prop :=
  Step build boost s s' ∧ s.server.sessions.io ≠ [] ∧ s'.server.sessions.io ≠ s.server.sessions.io

/-- The io thread takes the first of the handlers that are posted. -/
def Handles (build : Build) (boost : BoostDate) (s s' : RemoteSystem) : Prop :=
  Step build boost s s' ∧ ∃ first, s.server.sessions.handlers = first :: s'.server.sessions.handlers

/-- The io thread reads a message of the client. -/
def Reads (build : Build) (boost : BoostDate) (i : Nat) (s s' : RemoteSystem) : Prop :=
  Step build boost s s' ∧ (s.clients i).read < (s.clients i).submitted.length ∧
    (s'.clients i).read = (s.clients i).read + 1

/-- The client processes a message. -/
def Processes (build : Build) (boost : BoostDate) (i : Nat) (s s' : RemoteSystem) : Prop :=
  Step build boost s s' ∧ (s.clients i).processed < (s.server.outgoingOf i).length ∧
    (s'.clients i).processed = (s.clients i).processed + 1

abbrev Run (build : Build) (boost : BoostDate) (db : Database) : Type :=
  InfiniteRun (fun s => s = { server := { backend := { storage := { current := db } } } }) (Step build boost)

/-- No thread stops for ever. The io thread comes back to its handlers, and to the connection of
    the client, between other things that it does. -/
structure Scheduled (run : Run build boost db) (i : Nat) : Prop where
  works : run.WeaklyFair (Works build boost)
  serves : run.WeaklyFair (Serves build boost)
  handles : run.StronglyFair (Handles build boost)
  reads : run.StronglyFair (Reads build boost i)
  processes : run.WeaklyFair (Processes build boost i)

/-- What ends the way of the messages between a client and the server: its session is gone, an
    exception ends the process of the server, or the next message at either end is one that
    is refused. -/
inductive Interrupted (build : Build) (boost : BoostDate) (i : Nat) (s : RemoteSystem) : Prop where
  | disconnected (gone : i ∈ s.server.sessions.disconnected)
  | stops (stops : s.server.Stops build boost)
  | unreadable (obj : Json) (fault : Fault) (next : (s.clients i).submitted[(s.clients i).read]? = some obj)
      (refused : NetClientSession.runCommand build boost obj = .error fault)
  | unprocessable (m : Message) (fault : Fault)
      (next : (s.server.outgoingOf i)[(s.clients i).processed]? = some m)
      (refused : (s.clients i).backend.processMessage build boost m.json = .error fault)

variable {run : Run build boost db}

theorem sound_state (h : Reached build boost db s) : s.server.Sound build boost db :=
  NetServer.reached_sound (reached_server h)

/-! ## The io thread -/

/-- The handler that is run comes to its end. -/
theorem idle_leadsTo (fair : Scheduled run i) (P : RemoteSystem → Prop) :
    run.LeadsTo P fun s => s.server.sessions.io = [] := by
  have hall : run.LeadsTo (fun _ => True) fun s => s.server.sessions.io = [] := by
    refine InfiniteRun.LeadsTo.of_weak fair.serves (fun s => Sessions.load s.server.sessions.io) ?_ ?_ ?_
    · rintro s s' hs - hbusy hstep
      refine Or.inr ⟨trivial, ?_⟩
      rcases hstep.server_cases with hsame | hserver
      · exact Or.inr (by rw [hsame])
      · exact (NetServer.io_step (sound_state hs) hbusy hserver).symm.imp_right fun hsame => by rw [hsame]
    · rintro s hs - hbusy
      obtain ⟨server, hserver, hne⟩ := NetServer.exists_io_step (sound_state hs) hbusy
      exact ⟨_, .server s server (hserver.goesOn (Or.inl hbusy)), hbusy, hne⟩
    · rintro s s' hs - hbusy ⟨hstep, -, hne⟩
      rcases hstep.server_cases with hsame | hserver
      · exact absurd (by rw [hsame]) hne
      · exact (NetServer.io_step (sound_state hs) hbusy hserver).imp (fun hsame => absurd hsame hne) (fun h => h)
  exact fun m _ => hall m trivial

/-- What each step keeps is still so when the io thread is ready for the next handler. -/
theorem stable_leadsTo_idle (fair : Scheduled run i) {P : RemoteSystem → Prop}
    (hkeep : ∀ s s', Reached build boost db s → P s → Step build boost s s' → P s') :
    run.LeadsTo P fun s => P s ∧ s.server.sessions.io = [] := by
  refine (InfiniteRun.LeadsTo.while_stable (Q := fun _ => False) (idle_leadsTo fair P)
    fun s s' hs hP hstep => Or.inr (hkeep s s' hs hP hstep)).trans (.of_imp fun s _ h => ?_)
  exact h.resolve_left fun hfalse => hfalse

/-! ## The batch comes to the server -/

theorem runCommand_ok {obj : Json} {command : NetClientSession.Command}
    (h : NetClientSession.runCommand build boost obj = .ok command) (server : NetServer) (i : Nat) :
    ∃ server', server.runCommand build boost i obj = .ok server' := by
  unfold NetServer.runCommand
  rw [Except.bind_ok h]
  cases command with
  | removeStream clientId =>
    dsimp only
    cases server.findStream i clientId with
    | some observer => exact ⟨_, rfl⟩
    | none => exact ⟨_, rfl⟩
  | createStream | queueOperations | unknown => exact ⟨_, rfl⟩

theorem read_leadsTo (fair : Scheduled run i) (p : Nat) (call : RemoteCall) :
    run.LeadsTo (fun s => (s.clients i).calls[p]? = some call) fun s =>
      Interrupted build boost i s ∨ (s.clients i).calls[p]? = some call ∧ p < (s.clients i).read := by
  have hkeep : ∀ s s', Reached build boost db s → (s.clients i).calls[p]? = some call →
      Step build boost s s' → (s'.clients i).calls[p]? = some call :=
    fun s s' _ h hstep => getElem?_of_initial (hstep.grows i).calls h
  refine InfiniteRun.LeadsTo.of_strong fair.reads (fun s => p + 1 - (s.clients i).read) ?_ ?_ ?_
  · intro s s' hs hcall hstep
    have hread := (hstep.grows i).read
    exact Or.inr ⟨hkeep s s' hs hcall hstep, by omega⟩
  · refine (stable_leadsTo_idle fair hkeep).trans (.of_imp fun s hs ⟨hcall, hidle⟩ => ?_)
    by_cases hread : p < (s.clients i).read
    · exact Or.inl (Or.inr ⟨hcall, hread⟩)
    by_cases hgone : i ∈ s.server.sessions.disconnected
    · exact Or.inl (Or.inl (.disconnected hgone))
    have hlength := (reached_linked hs i).client.messages.length_eq
    have hp := (List.getElem?_eq_some_iff.1 hcall).1
    have hnext : (s.clients i).read < (s.clients i).submitted.length := by omega
    have next := List.getElem?_eq_getElem hnext
    cases hcommand : NetClientSession.runCommand build boost (s.clients i).submitted[(s.clients i).read] with
    | error fault => exact Or.inl (Or.inl (.unreadable _ fault next hcommand))
    | ok command =>
      obtain ⟨server, done⟩ := runCommand_ok hcommand s.server i
      refine Or.inr ⟨_, .runCommand s i _ server hidle hgone next done, hnext, ?_⟩
      simp [setClient]
  · rintro s s' hs hcall ⟨hstep, -, hread⟩
    by_cases hp : p < (s'.clients i).read
    · exact Or.inl (Or.inr ⟨hkeep s s' hs hcall hstep, hp⟩)
    · right
      omega

/-- The batch has this number, and is the one of the client with this id. -/
def IsBatch (i : Nat) (id : Int) (n : Nat) (s : RemoteSystem) : Prop :=
  ∃ b, s.server.sessions.batches[n]? = some b ∧ b.session = i ∧ b.id = .int id

theorem isBatch_step (h : IsBatch i id n s) (hs : Reached build boost db s) (hstep : Step build boost s s') :
    IsBatch i id n s' := by
  refine hstep.keeps_server (P := fun server => ∃ b, server.sessions.batches[n]? = some b ∧
    b.session = i ∧ b.id = .int id) h fun hserver => ?_
  obtain ⟨b, hb, hsession, hid⟩ := h
  obtain ⟨b', hb', hsame⟩ := NetServer.keeps_step (sound_state hs).resolved hserver n b hb
  exact ⟨b', hb', hsame.session.trans hsession, hsame.id.trans hid⟩

theorem IsBatch.queued (h : IsBatch i id n s) (hs : Reached build boost db s) :
    n < s.server.backend.queued.length := by
  obtain ⟨b, hb, -⟩ := h
  rw [← (sound_state hs).resolved.queued]
  exact (List.getElem?_eq_some_iff.1 hb).1

theorem isBatch_of_read (hs : Reached build boost db s) {operations : Operations}
    (hcall : (s.clients i).calls[p]? = some (.queueOperations id operations)) (hread : p < (s.clients i).read) :
    ∃ n, IsBatch i id n s := by
  have hmem : .queueOperations id operations ∈ (s.clients i).readCalls := by
    apply List.mem_of_getElem? (i := p)
    rw [RemoteClient.readCalls, List.getElem?_take_of_lt hread, hcall]
  have hbatch : (Json.int id, arriving operations) ∈
      (s.server.batchesOf i).map fun b => (b.id, b.operations) := by
    rw [(reached_linked hs i).log.batches_eq]
    exact List.mem_filterMap.2 ⟨_, hmem, rfl⟩
  obtain ⟨sb, hsb, hsame⟩ := List.mem_map.1 hbatch
  obtain ⟨n, b, _, _, hb, -, -, hsession, rfl⟩ := NetServer.mem_batchesOf.1 hsb
  exact ⟨n, b, hb, hsession, (Prod.mk.inj hsame).1⟩

theorem integer_ids (hs : Reached build boost db s) : ∀ b ∈ s.server.sessions.batches, ∃ id, b.id = .int id := by
  intro b hb
  have hserver := sound_state hs
  obtain ⟨n, hn⟩ := List.mem_iff_getElem?.1 hb
  have hlt := (List.getElem?_eq_some_iff.1 hn).1
  have hqueued : n < s.server.backend.queued.length := hserver.resolved.queued ▸ hlt
  have hscheduled : n < s.server.scheduled.length := hserver.subscribed.length ▸ hqueued
  have hmem : ⟨b.id, s.server.backend.queued[n], s.server.scheduled[n]⟩ ∈ s.server.batchesOf b.session :=
    NetServer.mem_batchesOf.2 ⟨n, b, _, _, hn, List.getElem?_eq_getElem hqueued,
      List.getElem?_eq_getElem hscheduled, rfl, rfl⟩
  have hread := List.mem_map_of_mem (f := fun b : SessionBatch => (b.id, b.operations)) hmem
  rw [(reached_linked hs b.session).log.batches_eq] at hread
  obtain ⟨call, -, hcall⟩ := List.mem_filterMap.1 hread
  cases call with
  | queueOperations id operations =>
    exact ⟨id, (Prod.mk.inj (Option.some.inj hcall)).1.symm⟩
  | createStream => cases hcall
  | removeStream => cases hcall

/-! ## The batch is executed -/

theorem unresolved_of_not (hbatch : IsBatch i id n s) (hs : Reached build boost db s) (h : ¬s.server.Ready n) :
    s.server.Unresolved n :=
  (NetServer.ready_or_unresolved (sound_state hs) (hbatch.queued hs)).resolve_left h

/-- The worker resolves the promise. -/
theorem ready_leadsTo (fair : Scheduled run i) (id : Int) (n : Nat) :
    run.LeadsTo (IsBatch i id n) fun s => Interrupted build boost i s ∨ IsBatch i id n s ∧ s.server.Ready n := by
  have hunresolved : ∀ s, Reached build boost db s → IsBatch i id n s →
      ¬(Interrupted build boost i s ∨ IsBatch i id n s ∧ s.server.Ready n) → s.server.Unresolved n :=
    fun s hs hbatch hnot => unresolved_of_not hbatch hs fun hready => hnot (Or.inr ⟨hbatch, hready⟩)
  have hrank : ∀ s s', Reached build boost db s → s.server.Unresolved n → Step build boost s s' →
      NetServer.SameWorker s.server s'.server ∨
        NetServer.batchRank n s'.server < NetServer.batchRank n s.server := by
    intro s s' hs hp hstep
    rcases hstep.server_cases with hsame | hserver
    · rw [hsame]
      exact Or.inl ⟨rfl, rfl, rfl, rfl, rfl, rfl⟩
    · exact (NetServer.sameWorker_or_advances (sound_state hs) hserver).imp_right
        fun hadvances => hp.advances (sound_state hs) hadvances
  refine InfiniteRun.LeadsTo.of_weak fair.works (fun s => NetServer.batchRank n s.server) ?_ ?_ ?_
  · intro s s' hs hbatch hnot hstep
    refine Or.inr ⟨isBatch_step hbatch hs hstep, ?_⟩
    exact (hrank s s' hs (hunresolved s hs hbatch hnot) hstep).symm.imp_right fun hsame => hsame.batchRank_eq
  · intro s hs hbatch hnot
    obtain ⟨server, hserver, hne⟩ :=
      NetServer.exists_worker_step (sound_state hs) fun hstops => hnot (Or.inl (.stops hstops))
    exact ⟨_, .server s server (hserver.goesOn (Or.inr hne)),
      (hunresolved s hs hbatch hnot).not_waits (sound_state hs), hne⟩
  · rintro s s' hs hbatch hnot ⟨hstep, -, hne⟩
    exact Or.inr ((hrank s s' hs (hunresolved s hs hbatch hnot) hstep).resolve_left hne)

/-! ## The continuation runs -/

/-- The promise is resolved, and the io thread has nothing more to do with the batch. -/
structure Resolved (i : Nat) (id : Int) (n : Nat) (s : RemoteSystem) : Prop where
  batch : IsBatch i id n s
  ready : s.server.Ready n
  clean : s.server.Clean n

theorem resolved_step (h : Resolved i id n s) (hs : Reached build boost db s) (hstep : Step build boost s s') :
    Resolved i id n s' := by
  refine ⟨isBatch_step h.batch hs hstep,
    hstep.keeps_server h.ready fun hserver => h.ready.step (sound_state hs) hserver,
    hstep.keeps_server h.clean fun hserver => h.clean.step ?_ (sound_state hs) hserver⟩
  rw [(sound_state hs).resolved.queued]
  exact h.batch.queued hs

/-- The io thread comes to the end of `runScheduleOperations`. -/
theorem resolved_leadsTo (fair : Scheduled run i) (id : Int) (n : Nat) :
    run.LeadsTo (fun s => IsBatch i id n s ∧ s.server.Ready n) (Resolved i id n) := by
  refine (stable_leadsTo_idle fair fun s s' hs h hstep => ?_).trans (.of_imp fun s _ ⟨h, hidle⟩ => ?_)
  · exact ⟨isBatch_step h.1 hs hstep,
      hstep.keeps_server h.2 fun hserver => h.2.step (sound_state hs) hserver⟩
  · refine ⟨h.1, h.2, fun action hmem => ?_⟩
    rw [hidle] at hmem
    exact absurd hmem List.not_mem_nil

/-- The worker posts the continuation, if the io thread has not. -/
theorem posted_leadsTo (fair : Scheduled run i) (id : Int) (n : Nat) :
    run.LeadsTo (Resolved i id n) fun s => s.server.Posted n ∨ s.server.Continued n := by
  have hbusy : ∀ s, Reached build boost db s → Resolved i id n s →
      ¬(s.server.Posted n ∨ s.server.Continued n) → ¬s.server.WorkerIdle := fun s hs h hnot =>
    NetServer.not_idle_of_ready (sound_state hs) h.ready h.clean (fun hposted => hnot (Or.inl hposted))
      fun hran => hnot (Or.inr hran)
  have hload : ∀ s s', Reached build boost db s → ¬s.server.WorkerIdle → Step build boost s s' →
      NetServer.SameWorker s.server s'.server ∨ s'.server.workerLoad < s.server.workerLoad := by
    intro s s' hs hnot hstep
    rcases hstep.server_cases with hsame | hserver
    · rw [hsame]
      exact Or.inl ⟨rfl, rfl, rfl, rfl, rfl, rfl⟩
    · exact (NetServer.sameWorker_or_advances (sound_state hs) hserver).imp_right
        fun hadvances => hadvances.load_lt hnot
  refine InfiniteRun.LeadsTo.of_weak fair.works (fun s => s.server.workerLoad) ?_ ?_ ?_
  · intro s s' hs h hnot hstep
    refine Or.inr ⟨resolved_step h hs hstep, ?_⟩
    exact (hload s s' hs (hbusy s hs h hnot) hstep).symm.imp_right fun hsame => hsame.workerLoad_eq
  · intro s hs h hnot
    obtain ⟨server, hserver, hne⟩ := NetServer.exists_act (sound_state hs) (hbusy s hs h hnot)
    exact ⟨_, .server s server (hserver.goesOn (Or.inr hne)),
      fun hwaits => hbusy s hs h hnot hwaits.idle, hne⟩
  · rintro s s' hs h hnot ⟨hstep, -, hne⟩
    exact Or.inr ((hload s s' hs (hbusy s hs h hnot) hstep).resolve_left hne)

theorem handlers_cases (hs : Reached build boost db s) (hstep : Step build boost s s') :
    (∃ first, s.server.sessions.handlers = first :: s'.server.sessions.handlers) ∨
      ∃ more, s'.server.sessions.handlers = s.server.sessions.handlers ++ more := by
  rcases hstep.server_cases with hsame | hserver
  · exact Or.inr ⟨[], by rw [hsame, List.append_nil]⟩
  · cases NetServer.handlers_step (sound_state hs) hserver with
    | posted more handlers => exact Or.inr ⟨more, handlers⟩
    | ran n results first => exact Or.inl ⟨_, first⟩
    | applied first => exact Or.inl ⟨_, first⟩

/-- A handler is posted that is wanted. -/
def Awaited (wanted : Handler → Bool) (s : RemoteSystem) : Prop :=
  ∃ handler ∈ s.server.sessions.handlers, wanted handler = true

/-- A handler that is posted is run some time: those that are posted later come after it. -/
theorem handler_leadsTo (fair : Scheduled run i) (wanted : Handler → Bool) {P Q : RemoteSystem → Prop}
    (hkeep : ∀ s s', Reached build boost db s → P s → Step build boost s s' → P s')
    (hrun : ∀ s s' first, Reached build boost db s → P s → Step build boost s s' → wanted first = true →
      s.server.sessions.handlers = first :: s'.server.sessions.handlers → Q s') :
    run.LeadsTo (fun s => P s ∧ Awaited wanted s) Q := by
  have htaken : ∀ s s' first, Reached build boost db s → P s → Step build boost s s' → Awaited wanted s →
      s.server.sessions.handlers = first :: s'.server.sessions.handlers →
      Q s' ∨ Awaited wanted s' ∧
        s'.server.sessions.handlers.findIdx wanted < s.server.sessions.handlers.findIdx wanted := by
    intro s s' first hs hP hstep ⟨handler, hmem, hwanted⟩ hfirst
    cases hthis : wanted first with
    | true => exact Or.inl (hrun s s' first hs hP hstep hthis hfirst)
    | false =>
      rw [hfirst] at hmem ⊢
      rcases List.mem_cons.1 hmem with rfl | hmem
      · rw [hthis] at hwanted
        cases hwanted
      · rw [List.findIdx_cons, hthis]
        exact Or.inr ⟨⟨handler, hmem, hwanted⟩, Nat.lt_succ_self _⟩
  have hkeeps : ∀ s s', Reached build boost db s → P s ∧ Awaited wanted s → Step build boost s s' →
      Q s' ∨ (P s' ∧ Awaited wanted s') ∧
        (s'.server.sessions.handlers.findIdx wanted < s.server.sessions.handlers.findIdx wanted ∨
          s'.server.sessions.handlers.findIdx wanted = s.server.sessions.handlers.findIdx wanted) := by
    intro s s' hs ⟨hP, hposted⟩ hstep
    have hP' := hkeep s s' hs hP hstep
    rcases handlers_cases hs hstep with ⟨first, hfirst⟩ | ⟨more, hmore⟩
    · exact (htaken s s' first hs hP hstep hposted hfirst).imp_right
        fun ⟨hposted', hlt⟩ => ⟨⟨hP', hposted'⟩, Or.inl hlt⟩
    · have hlt := List.findIdx_lt_length.2 hposted
      obtain ⟨handler, hmem, hwanted⟩ := hposted
      refine Or.inr ⟨⟨hP', handler, ?_, hwanted⟩, Or.inr ?_⟩
      · rw [hmore]
        exact List.mem_append_left _ hmem
      · rw [hmore, List.findIdx_append, if_pos hlt]
  refine InfiniteRun.LeadsTo.of_strong fair.handles (fun s => s.server.sessions.handlers.findIdx wanted) hkeeps ?_ ?_
  · refine ((idle_leadsTo fair _).while_stable fun s s' hs h hstep =>
      (hkeeps s s' hs h hstep).imp_right And.left).trans (.of_imp fun s hs h => h.imp_right fun ⟨⟨_, hposted⟩, hidle⟩ => ?_)
    obtain ⟨handler, hmem, -⟩ := hposted
    obtain ⟨server, hserver, first, hfirst⟩ := NetServer.exists_handler_step (sound_state hs) hidle
      (integer_ids hs) (List.ne_nil_of_mem hmem)
    exact ⟨_, .server s server hserver, first, hfirst⟩
  · rintro s s' hs ⟨hP, hposted⟩ ⟨hstep, first, hfirst⟩
    exact (htaken s s' first hs hP hstep hposted hfirst).imp_right And.right

theorem handled_of_taken (hs : Reached build boost db s) (hstep : Step build boost s s') {first : Handler}
    (hfirst : s.server.sessions.handlers = first :: s'.server.sessions.handlers) :
    (∃ n results, first = .continuation n results ∧ s'.server.Continued n) ∨
      first = .applyStreamChanges ∧ s'.server.backend.changeList = [] ∧
        s'.server.applied = s.server.applied ++ s.server.backend.changeList := by
  have hshorter : ∀ more, s'.server.sessions.handlers ≠ s.server.sessions.handlers ++ more := by
    intro more hmore
    have hlength := congrArg List.length hmore
    rw [hfirst, List.length_append, List.length_cons] at hlength
    omega
  rcases hstep.server_cases with hsame | hserver
  · exact absurd (by rw [hsame, List.append_nil]) (hshorter [])
  · cases NetServer.handlers_step (sound_state hs) hserver with
    | posted more handlers => exact absurd handlers (hshorter more)
    | ran n results hfirst' done =>
      exact Or.inl ⟨n, results, (List.cons.inj (hfirst.symm.trans hfirst')).1, done⟩
    | applied hfirst' done => exact Or.inr ⟨(List.cons.inj (hfirst.symm.trans hfirst')).1, done⟩

theorem continued_leadsTo (fair : Scheduled run i) (n : Nat) :
    run.LeadsTo (fun s => s.server.Posted n) fun s => s.server.Continued n := by
  have hposted : ∀ s : RemoteSystem, s.server.Posted n →
      True ∧ Awaited (fun handler => (handler.results n).isSome) s := by
    rintro s ⟨results, hmem⟩
    exact ⟨trivial, _, hmem, by simp [Handler.results]⟩
  refine InfiniteRun.LeadsTo.trans (.of_imp fun s _ => hposted s)
    (handler_leadsTo fair _ (fun _ _ _ _ _ => trivial) ?_)
  intro s s' first hs _ hstep hwanted hfirst
  rcases handled_of_taken hs hstep hfirst with ⟨m, results, rfl, hdone⟩ | ⟨rfl, -⟩
  · have hsame : m = n := by simpa [Handler.results] using hwanted
    exact hsame ▸ hdone
  · cases hwanted

/-! ## The reply arrives -/

/-- The message is the reply to the batch. -/
def IsReplyTo (id : Int) (n : Nat) (m : Message) : Prop :=
  m.cause = .batch n ∧ ∃ results, m.json = Net.serializeTaskResultsMessage id results

theorem replied_of_continued (hs : Reached build boost db s) (hbatch : IsBatch i id n s)
    (hran : s.server.Continued n) (hconnected : i ∉ s.server.sessions.disconnected) :
    ∃ m ∈ s.server.outgoingOf i, IsReplyTo id n m := by
  obtain ⟨b, hb, rfl, hid⟩ := hbatch
  obtain ⟨b', hb', hready⟩ := hran
  obtain rfl := Option.some.inj (hb.symm.trans hb')
  rcases Sessions.replies_cases (Sessions.reached_sound (sound_state hs).sessions) hb hconnected with
    ⟨-, m, hm, results, id', -, hid', hsession, hjson⟩ | ⟨hnot, -⟩
  · obtain ⟨hout, hcause⟩ := List.mem_filter.1 (hm ▸ List.mem_singleton_self m : m ∈ _)
    rw [hid] at hid'
    cases hid'
    refine ⟨m, List.mem_filter.2 ⟨hout, by simpa using hsession⟩, ?_, results, hjson⟩
    unfold Message.isReply at hcause
    split at hcause
    · next batch hbatch => rw [hbatch, beq_iff_eq.1 hcause]
    · cases hcause
  · rw [hready] at hnot
    cases hnot

/-- The client processes the messages of its session, unless one is refused. -/
theorem processed_leadsTo (fair : Scheduled run i) (ms : List Message) :
    run.LeadsTo (fun s => ms <+: s.server.outgoingOf i) fun s =>
      Interrupted build boost i s ∨ ms <+: s.server.processedBy i (s.clients i) := by
  have hdone : ∀ s : RemoteSystem, ms <+: s.server.outgoingOf i → ms.length ≤ (s.clients i).processed →
      ms <+: s.server.processedBy i (s.clients i) := by
    intro s hsent hprocessed
    rw [List.prefix_iff_eq_take.1 hsent]
    exact List.take_prefix_take_left hprocessed
  refine InfiniteRun.LeadsTo.of_weak fair.processes (fun s => ms.length - (s.clients i).processed) ?_ ?_ ?_
  · intro s s' _ hsent _ hstep
    have hprocessed := (hstep.grows i).processed
    exact Or.inr ⟨hsent.trans (outgoingOf_step hstep i), by omega⟩
  · intro s hs hsent hnot
    have hwaits : ¬ms.length ≤ (s.clients i).processed := fun hle => hnot (Or.inr (hdone s hsent hle))
    have hlength := hsent.length_le
    have hnext : (s.clients i).processed < (s.server.outgoingOf i).length := by omega
    have next := List.getElem?_eq_getElem hnext
    cases hprocess : (s.clients i).backend.processMessage build boost
        (s.server.outgoingOf i)[(s.clients i).processed].json with
    | error fault => exact absurd (Or.inl (.unprocessable _ fault next hprocess)) hnot
    | ok backend =>
      refine ⟨_, .processMessage s i _ backend next hprocess, hnext, ?_⟩
      simp [setClient]
  · rintro s s' _ hsent hnot ⟨hstep, -, hprocessed⟩
    have hwaits : ¬ms.length ≤ (s.clients i).processed := fun hle => hnot (Or.inr (hdone s hsent hle))
    right
    omega

theorem resolved_of_processed (hs : Reached build boost db s) {m : Message} (hreply : IsReplyTo id n m)
    (hprocessed : m ∈ s.server.processedBy i (s.clients i)) : id ∈ (s.clients i).backend.resolved.map (·.1) := by
  obtain ⟨hcause, results, hjson⟩ := hreply
  obtain ⟨id', results', hmessage, hresolved⟩ := (reached_linked hs i).answered m hprocessed n hcause
  rw [hjson, NetClientBackend.deserializeTaskResultsMessage_serialize] at hmessage
  cases hmessage
  exact hresolved

/-- In every run in which no thread stops for ever: of each batch that a client has queued the
    promise is resolved some time, unless the way between the client and the server is
    interrupted: whatever other clients do, and however the calls, the handlers and the steps
    of the worker come between. -/
theorem remote_progress (run : Run build boost db) (fair : Scheduled run i) (id : Int) :
    run.LeadsTo (fun s => id ∈ queuedIds (s.clients i).calls) fun s =>
      id ∈ (s.clients i).backend.resolved.map (·.1) ∨ Interrupted build boost i s := by
  intro t₀ hqueued
  obtain ⟨call, hmem, hcall⟩ := List.mem_filterMap.1 hqueued
  obtain ⟨p, hp⟩ := List.mem_iff_getElem?.1 hmem
  cases call with
  | createStream => cases hcall
  | removeStream => cases hcall
  | queueOperations id' operations =>
    obtain rfl := Option.some.inj hcall
    -- the message is read
    obtain ⟨t₁, h₀₁, hinterrupted | ⟨hp₁, hread⟩⟩ := read_leadsTo fair p _ t₀ hp
    · exact ⟨t₁, h₀₁, Or.inr hinterrupted⟩
    obtain ⟨n, hbatch⟩ := isBatch_of_read (run.reachable t₁) hp₁ hread
    -- the batch is executed
    obtain ⟨t₂, h₁₂, hinterrupted | hready⟩ := ready_leadsTo fair id' n t₁ hbatch
    · exact ⟨t₂, h₀₁.trans h₁₂, Or.inr hinterrupted⟩
    -- the continuation runs
    obtain ⟨t₃, h₂₃, hresolved⟩ := resolved_leadsTo fair id' n t₂ hready
    obtain ⟨t₄, h₃₄, hcontinued⟩ : ∃ t ≥ t₃, (run.state t).server.Continued n := by
      obtain ⟨t, hle, hposted | hran⟩ := posted_leadsTo fair id' n t₃ hresolved
      · obtain ⟨t', hle', hran⟩ := continued_leadsTo fair n t hposted
        exact ⟨t', hle.trans hle', hran⟩
      · exact ⟨t, hle, hran⟩
    have hle := ((h₀₁.trans h₁₂).trans h₂₃).trans h₃₄
    by_cases hgone : i ∈ (run.state t₄).server.sessions.disconnected
    · exact ⟨t₄, hle, Or.inr (.disconnected hgone)⟩
    have hbatch₄ : IsBatch i id' n (run.state t₄) :=
      run.stable (fun s s' hs h hstep => isBatch_step h hs hstep) ((h₁₂.trans h₂₃).trans h₃₄) hbatch
    -- the reply is processed
    obtain ⟨m, hm, hreply⟩ := replied_of_continued (run.reachable t₄) hbatch₄ hcontinued hgone
    obtain ⟨t₅, h₄₅, hinterrupted | hprocessed⟩ := processed_leadsTo fair _ t₄ List.prefix_rfl
    · exact ⟨t₅, hle.trans h₄₅, Or.inr hinterrupted⟩
    exact ⟨t₅, hle.trans h₄₅, Or.inl (resolved_of_processed (run.reachable t₅) hreply (hprocessed.subset hm))⟩

/-! ## A run that comes to rest -/

theorem scheduled_of_rests {m : Nat} (h : run.Rests m s) (waits : s.server.Waits)
    (idle : s.server.sessions.io = []) (handlers : s.server.sessions.handlers = [])
    (read : (s.clients i).read = (s.clients i).submitted.length)
    (processed : (s.clients i).processed = (s.server.outgoingOf i).length) : Scheduled run i where
  works := h.weaklyFair fun s' hworks => hworks.2.1 waits
  serves := h.weaklyFair fun s' hserves => hserves.2.1 idle
  handles := h.stronglyFair fun s' hhandles => by
    obtain ⟨first, hfirst⟩ := hhandles.2
    rw [handlers] at hfirst
    cases hfirst
  reads := h.stronglyFair fun s' hreads => hreads.2.1.ne read
  processes := h.weaklyFair fun s' hprocesses => hprocesses.2.1.ne processed

/-- A client queues a batch of no operations, which is answered. -/
theorem remote_progress_empty : ∃ (run : Run .debug .gregorian {}) (n : Nat),
    queuedIds ((run.state n).clients 0).calls = [2] ∧ ((run.state n).clients 0).backend.resolved = [] ∧
    ∃ m ≥ n, 2 ∈ ((run.state m).clients 0).backend.resolved.map (·.1) ∨
      Interrupted .debug .gregorian 0 (run.state m) := by
  have h₀ : Reached .debug .gregorian {} { server := { backend := { storage := { current := {} } } } } :=
    .init rfl
  have h₁ := h₀.step (.queueOperations _ 0 [] _ emptyBatch rfl)
  obtain ⟨run₁, n, hn⟩ := InfiniteRun.exists_rests h₁
  have start : ∀ {s}, run₁.Rests n s → Relation.ReflTransGen (Step .debug .gregorian) s s := fun _ => .refl
  have g₁ := (start hn).tail (.runCommand _ 0 _ _ rfl List.not_mem_nil rfl rfl)
  have g₂ := g₁.tail (.background (.internal _ _ (.io _ _ (.chain 0) _ _ rfl rfl)) rfl rfl rfl)
  have g₃ := g₂.tail (.background (.internal _ _ (.io _ _ (.push 0) _ _ rfl rfl)) rfl rfl rfl)
  have g₄ := g₃.tail (.background (.turn _ _ ⟨rfl, rfl⟩ (.swap _ rfl)) rfl rfl rfl)
  have g₅ := g₄.tail (.background (.turn _ _ ⟨rfl, rfl⟩ (.collect _ rfl)) rfl rfl rfl)
  have g₆ := g₅.tail (.background (.turn _ _ ⟨rfl, rfl⟩ (.process _ rfl rfl)) rfl rfl rfl)
  have g₇ := g₆.tail (.background (.executeTask _ ⟨rfl, rfl⟩ rfl _ _ rfl _ [] rfl rfl) rfl rfl rfl)
  have g₈ := g₇.tail (.background (.resolve _ 0 _ _ rfl _ _ rfl rfl) rfl rfl rfl)
  have g₉ := g₈.tail (.background (.internal _ _ (.resolving _ _ (.next 0) [] [] _ rfl rfl)) rfl rfl rfl)
  have g₁₀ := g₉.tail (.background (.internal _ _ (.resolving _ _ (.continueWith 0) [] [] _ rfl rfl)) rfl rfl rfl)
  have g₁₁ := g₁₀.tail (.background (.turn _ _ ⟨rfl, rfl⟩ (.loop _ rfl rfl)) rfl rfl rfl)
  have g₁₂ := g₁₁.tail (.background (.internal _ _ (.runContinuation _ _ 0 _ _ _ _ rfl rfl rfl rfl)) rfl rfl rfl)
  obtain ⟨run, m, hsame, hnm, hm⟩ := hn.goOn (g₁₂.tail (.processMessage _ 0 _ _ rfl rfl))
  have hstate := (hsame n le_rfl).trans (hn n le_rfl)
  refine ⟨run, n, by rw [hstate]; rfl, by rw [hstate]; rfl, ?_⟩
  exact remote_progress run (scheduled_of_rests hm ⟨⟨rfl, rfl⟩, rfl, rfl, rfl⟩ rfl rfl rfl rfl) 2 n
    (by rw [hstate]; exact List.mem_singleton_self _)

end RemoteSystem

end HotelPms

import HotelPms.Server.RemoteSystem

/- What a session has made of the messages of its client.

   `SessionLog` follows the calls that were read: the n-th stream that the client created is
   the n-th observer of the session, and its n-th batch the n-th batch that the session
   queued. A stream is older or newer than a batch as it was on the client; the ids of the
   backend say so (`SessionBatch.bound`). `RemoteClient.Sound` is what a client keeps by
   itself, whatever messages arrive, and `Background.effect` what a step of the server
   leaves alone that reads no message. -/
namespace HotelPms
open Lib JsonSerializer SqliteStorage DataStreamManager SqliteBackend

/-! ## What arrives of a batch -/

/-- The operation stores or updates a person. -/
def Operation.carriesPerson : Operation → Bool
  | .storeNew (.person _) => true
  | .update (.person _) => true
  | _ => false

/-- What a session reads of a batch: persons are left out. -/
def arriving (ops : Operations) : Operations :=
  (ops.filter fun op => !op.carriesPerson).map sentOperation

section
variable {build : Build} {boost : BoostDate}

theorem deserializeStreamableType_none {op : String} {item : StreamableTypePtr} {o : Json}
    (ho : serializeItem boost item = some o) (h : deserializeStreamableType build boost
      (.obj [("op", .str op), ("t", serializeStreamableType item.type), ("o", o)]) = .ok none) :
    item.type = .person := by
  cases item with
  | hotel item =>
    have h : (deserializeHotel o >>= fun h =>
      Except.ok (some (StreamableTypePtr.hotel (some h)))) = .ok none := h
    obtain ⟨_, -, h⟩ := Except.bind_eq_ok.1 h
    cases h
  | reservation item =>
    have h : (deserializeReservation build boost o >>= fun r =>
      Except.ok (some (StreamableTypePtr.reservation (some r)))) = .ok none := h
    obtain ⟨_, -, h⟩ := Except.bind_eq_ok.1 h
    cases h
  | person item => rfl

theorem carriesPerson_of_none {op : Operation} {o : Json} (ho : serializeOperation boost op = some o)
    (h : deserializeOperation build boost o = .ok none) : op.carriesPerson = true := by
  cases op with
  | eraseAllData =>
    cases ho
    cases h
  | storeNew item =>
    obtain ⟨encoded, hencoded, rfl⟩ := serializeOperation_item ho
    have h : (deserializeStreamableType build boost _ >>= fun item =>
      build.assert item.isSome "item" >>= fun _ => Except.ok (item.map Operation.storeNew)) = _ := h
    obtain ⟨decoded, hdecoded, h⟩ := Except.bind_eq_ok.1 h
    obtain ⟨_, -, h⟩ := Except.bind_eq_ok.1 h
    cases decoded with
    | some decoded => cases h
    | none =>
      have hperson := deserializeStreamableType_none hencoded hdecoded
      cases item with
      | person item => rfl
      | hotel item => cases hperson
      | reservation item => cases hperson
  | update item =>
    obtain ⟨encoded, hencoded, rfl⟩ := serializeOperation_item ho
    have h : (deserializeStreamableType build boost _ >>= fun item =>
      build.assert item.isSome "item" >>= fun _ => Except.ok (item.map Operation.update)) = _ := h
    obtain ⟨decoded, hdecoded, h⟩ := Except.bind_eq_ok.1 h
    obtain ⟨_, -, h⟩ := Except.bind_eq_ok.1 h
    cases decoded with
    | some decoded => cases h
    | none =>
      have hperson := deserializeStreamableType_none hencoded hdecoded
      cases item with
      | person item => rfl
      | hotel item => cases hperson
      | reservation item => cases hperson
  | delete type id =>
    cases ho
    have h : (deserializeOpType (serializeStreamableType type) >>= fun type =>
      Except.ok (some (Operation.delete type id))) = .ok none := h
    obtain ⟨_, -, h⟩ := Except.bind_eq_ok.1 h
    cases h

theorem carriesPerson_of_readable {op : Operation} (h : Readable op) : op.carriesPerson = false := by
  cases op with
  | eraseAllData => rfl
  | delete type id => rfl
  | storeNew item =>
    cases item with
    | person item => cases h
    | hotel item => rfl
    | reservation item => rfl
  | update item =>
    cases item with
    | person item => cases h
    | hotel item => rfl
    | reservation item => rfl

theorem readOperations_eq {ops ops' : Operations} {os : List Json}
    (hos : List.Forall₂ (fun op o => serializeOperation boost op = some o) ops os)
    (hok : NetClientSession.readOperations build boost os = .ok ops') : ops' = arriving ops := by
  induction hos generalizing ops' with
  | nil =>
    cases hok
    rfl
  | @cons op o ops os ho _ ih =>
    rw [NetClientSession.readOperations] at hok
    obtain ⟨decoded, hdecoded, hok⟩ := Except.bind_eq_ok.1 hok
    cases decoded with
    | none =>
      rw [ih hok, arriving, arriving, List.filter_cons_of_neg]
      rw [carriesPerson_of_none ho hdecoded]
      decide
    | some decoded =>
      obtain ⟨rest, hrest, hok⟩ := Except.bind_eq_ok.1 hok
      cases hok
      have hreadable := deserializeOperation_ok ho hdecoded
      rw [deserializeOperation_serialize build ho hreadable] at hdecoded
      cases hdecoded
      rw [ih hrest, arriving, arriving, List.filter_cons_of_pos, List.map_cons]
      rw [carriesPerson_of_readable hreadable]
      decide

theorem forall₂_of_mapM {ops : Operations} {os : List Json}
    (h : ops.mapM (serializeOperation boost) = some os) :
    List.Forall₂ (fun op o => serializeOperation boost op = some o) ops os := by
  induction ops generalizing os with
  | nil =>
    cases h
    exact .nil
  | cons op ops ih =>
    rw [List.mapM_cons] at h
    obtain ⟨o, ho, h⟩ := Option.bind_eq_some_iff.1 h
    obtain ⟨rest, hrest, h⟩ := Option.bind_eq_some_iff.1 h
    cases h
    exact .cons ho (ih hrest)

/-! ## What a message has a session do -/

theorem command_of_createStream {streamId : Int} {type : StreamableType} {service : String}
    {options obj : Json}
    (h : (RemoteCall.createStream streamId type service options).message boost = some obj) :
    NetClientSession.runCommand build boost obj = .ok (.createStream streamId
      (NetClientSession.streamableTypeOfInt type.toInt) service options) := by
  cases h
  rfl

theorem command_of_removeStream {streamId : Int} {obj : Json}
    (h : (RemoteCall.removeStream streamId).message boost = some obj) :
    NetClientSession.runCommand build boost obj = .ok (.removeStream streamId) := by
  cases h
  rfl

theorem command_of_queueOperations {id : Int} {operations : Operations} {obj : Json}
    {command : NetClientSession.Command}
    (h : (RemoteCall.queueOperations id operations).message boost = some obj)
    (hcommand : NetClientSession.runCommand build boost obj = .ok command) :
    command = .queueOperations (arriving operations) (.int id) := by
  obtain ⟨os, hos, h⟩ := Option.bind_eq_some_iff.1 h
  cases h
  have hcommand : (NetClientSession.readOperations build boost os >>= fun operations =>
    Except.ok (NetClientSession.Command.queueOperations operations (.int id))) = .ok command := hcommand
  obtain ⟨operations', hread, hcommand⟩ := Except.bind_eq_ok.1 hcommand
  cases hcommand
  rw [readOperations_eq (forall₂_of_mapM hos) hread]

end

/-! ## The log of a session -/

theorem createdIds_append (calls calls' : List RemoteCall) :
    createdIds (calls ++ calls') = createdIds calls ++ createdIds calls' :=
  List.filterMap_append

theorem queuedIds_append (calls calls' : List RemoteCall) :
    queuedIds (calls ++ calls') = queuedIds calls ++ queuedIds calls' :=
  List.filterMap_append

theorem createdIds_concat {calls : List RemoteCall} {call : RemoteCall} (h : call.createdId = none) :
    createdIds (calls ++ [call]) = createdIds calls := by
  rw [createdIds_append, createdIds, createdIds, List.filterMap_cons_none h, List.filterMap_nil,
    List.append_nil]

theorem queuedIds_concat {calls : List RemoteCall} {call : RemoteCall} (h : call.queuedId = none) :
    queuedIds (calls ++ [call]) = queuedIds calls := by
  rw [queuedIds_append, queuedIds, queuedIds, List.filterMap_cons_none h, List.filterMap_nil,
    List.append_nil]

/-- A batch that a session queued, and the id that the next stream of the backend had then. -/
structure SessionBatch where
  id : Json
  operations : Operations
  bound : Int

namespace NetServer

/-- The observers that a session created. -/
def observersOf (s : NetServer) (session : Nat) : List SessionStreamObserver :=
  s.observers.filter fun observer => observer.session == session

/-- The batches that a session queued. -/
def batchesOf (s : NetServer) (session : Nat) : List SessionBatch :=
  (((s.sessions.batches.map fun b => (b.session, b.id)).zip (s.backend.queued.zip s.scheduled)).filter
    fun p => p.1.1 == session).map fun p => ⟨p.1.2, p.2.1, p.2.2⟩

end NetServer

/-- What the calls of a client have become on the server. -/
inductive SessionLog : List RemoteCall → List SessionStreamObserver → List SessionBatch → Prop where
  | nil : SessionLog [] [] []
  | createStream {calls : List RemoteCall} {observers : List SessionStreamObserver}
      {batches : List SessionBatch} (log : SessionLog calls observers batches) (streamId : Int)
      (type : StreamableType) (service : String) (options : Json) (o : SessionStreamObserver)
      (stream : o.stream = ⟨o.stream.streamId, NetClientSession.streamableTypeOfInt type.toInt,
        service, options⟩)
      (clientId : o.clientStreamId = streamId) (newer : ∀ b ∈ batches, b.bound ≤ o.stream.streamId)
      (fresh : ∀ o' ∈ observers, o'.stream.streamId < o.stream.streamId) :
    SessionLog (calls ++ [.createStream streamId type service options]) (observers ++ [o]) batches
  | removeStream {calls : List RemoteCall} {observers : List SessionStreamObserver}
      {batches : List SessionBatch} (log : SessionLog calls observers batches) (streamId : Int) :
    SessionLog (calls ++ [.removeStream streamId]) observers batches
  | queueOperations {calls : List RemoteCall} {observers : List SessionStreamObserver}
      {batches : List SessionBatch} (log : SessionLog calls observers batches) (id : Int)
      (operations : Operations) (bound : Int) (newer : ∀ o ∈ observers, o.stream.streamId < bound) :
    SessionLog (calls ++ [.queueOperations id operations]) observers
      (batches ++ [⟨.int id, arriving operations, bound⟩])

namespace SessionLog

variable {calls : List RemoteCall} {observers : List SessionStreamObserver} {batches : List SessionBatch}

theorem createdIds_eq (h : SessionLog calls observers batches) :
    observers.map (·.clientStreamId) = createdIds calls := by
  induction h with
  | nil => rfl
  | createStream log streamId type service options o stream clientId newer fresh ih =>
    rw [List.map_append, ih, createdIds_append, List.map_singleton, clientId]
    rfl
  | removeStream log streamId ih =>
    rw [ih, createdIds_append]
    exact (List.append_nil _).symm
  | queueOperations log id operations bound newer ih =>
    rw [ih, createdIds_append]
    exact (List.append_nil _).symm

/-- The operations of a batch that was queued, as the session reads them. -/
def queuedBatch : RemoteCall → Option (Json × Operations)
  | .queueOperations id operations => some (.int id, arriving operations)
  | _ => none

theorem batches_eq (h : SessionLog calls observers batches) :
    batches.map (fun b => (b.id, b.operations)) = calls.filterMap queuedBatch := by
  induction h with
  | nil => rfl
  | createStream log streamId type service options o stream clientId newer fresh ih =>
    rw [ih, List.filterMap_append]
    exact (List.append_nil _).symm
  | removeStream log streamId ih =>
    rw [ih, List.filterMap_append]
    exact (List.append_nil _).symm
  | queueOperations log id operations bound newer ih =>
    rw [List.map_append, ih, List.filterMap_append]
    rfl

theorem stream_of_mem (h : SessionLog calls observers batches) {o : SessionStreamObserver}
    (ho : o ∈ observers) : ∃ type service options,
      .createStream o.clientStreamId type service options ∈ calls ∧
        o.stream = ⟨o.stream.streamId, NetClientSession.streamableTypeOfInt type.toInt, service, options⟩ := by
  induction h with
  | nil => exact absurd ho List.not_mem_nil
  | createStream log streamId type service options o' stream clientId newer fresh ih =>
    rcases List.mem_append.1 ho with ho | ho
    · obtain ⟨type, service, options, hmem, hstream⟩ := ih ho
      exact ⟨type, service, options, List.mem_append_left _ hmem, hstream⟩
    · obtain rfl := List.mem_singleton.1 ho
      refine ⟨type, service, options, List.mem_append_right _ ?_, stream⟩
      rw [clientId]
      exact List.mem_singleton_self _
  | removeStream log streamId ih =>
    obtain ⟨type, service, options, hmem, hstream⟩ := ih ho
    exact ⟨type, service, options, List.mem_append_left _ hmem, hstream⟩
  | queueOperations log id operations bound newer ih =>
    obtain ⟨type, service, options, hmem, hstream⟩ := ih ho
    exact ⟨type, service, options, List.mem_append_left _ hmem, hstream⟩

/-- A batch of the session was queued by a call, and of the streams those are older than the
    batch that the client created before. -/
theorem call_of_mem (h : SessionLog calls observers batches) (hdistinct : (createdIds calls).Nodup)
    {b : SessionBatch} (hb : b ∈ batches) :
    ∃ before id operations after, calls = before ++ .queueOperations id operations :: after ∧
      b.id = .int id ∧ b.operations = arriving operations ∧
      ∀ o ∈ observers, o.stream.streamId < b.bound ↔ o.clientStreamId ∈ createdIds before := by
  induction h with
  | nil => exact absurd hb List.not_mem_nil
  | createStream log streamId type service options o stream clientId newer fresh ih =>
    rw [createdIds_append] at hdistinct
    obtain ⟨hbefore, -, hdisjoint⟩ := List.nodup_append.1 hdistinct
    obtain ⟨before, id, operations, after, rfl, hid, hoperations, hall⟩ := ih hbefore hb
    refine ⟨before, id, operations, after ++ [.createStream streamId type service options], by simp, hid,
      hoperations, fun o' ho' => ?_⟩
    rcases List.mem_append.1 ho' with ho' | ho'
    · exact hall o' ho'
    · -- the stream is new, and no earlier one has its id
      obtain rfl := List.mem_singleton.1 ho'
      constructor
      · exact fun hlt => absurd (newer b hb) hlt.not_ge
      · intro hmem
        refine absurd rfl (hdisjoint o'.clientStreamId ?_ streamId (List.mem_singleton_self _) ∘ clientId.trans)
        rw [createdIds_append]
        exact List.mem_append_left _ hmem
  | removeStream log streamId ih =>
    rw [createdIds_append] at hdistinct
    obtain ⟨before, id, operations, after, rfl, hrest⟩ := ih (List.nodup_append.1 hdistinct).1 hb
    exact ⟨before, id, operations, after ++ [.removeStream streamId], by simp, hrest⟩
  | @queueOperations calls observers batches log id operations bound newer ih =>
    rw [createdIds_append] at hdistinct
    rcases List.mem_append.1 hb with hb | hb
    · obtain ⟨before, id', operations', after, rfl, hrest⟩ := ih (List.nodup_append.1 hdistinct).1 hb
      exact ⟨before, id', operations', after ++ [.queueOperations id operations], by simp, hrest⟩
    · obtain rfl := List.mem_singleton.1 hb
      refine ⟨calls, id, operations, [], rfl, rfl, rfl, fun o ho => ?_⟩
      have hmem : o.clientStreamId ∈ observers.map (·.clientStreamId) := List.mem_map_of_mem ho
      rw [log.createdIds_eq] at hmem
      exact ⟨fun _ => hmem, fun _ => newer o ho⟩

end SessionLog

/-! ## A client by itself -/

namespace RemoteClient

structure Sound (boost : BoostDate) (c : RemoteClient) : Prop where
  messages : List.Forall₂ (fun call obj => call.message boost = some obj) c.calls c.submitted
  read : c.read ≤ c.calls.length
  tasks : NetClientBackend.Tasks.Sound c.backend
  created : ∀ k ∈ createdIds c.calls, k < c.nextStreamId
  createdOrder : (createdIds c.calls).Pairwise (· < ·)
  queued : ∀ id, id ∈ queuedIds c.calls ↔ 1 < id ∧ id ≤ c.backend.nextOperationId
  queuedOrder : (queuedIds c.calls).Pairwise (· < ·)
  removed : ∀ k, k ∈ c.disconnected ↔ .removeStream k ∈ c.calls
  valid : ∀ k ∈ createdIds c.calls, k ∉ c.disconnected → ∃ stream ∈ c.dataStreams, stream.streamId = k

variable {boost : BoostDate} {c : RemoteClient}

theorem sound_init : Sound boost {} where
  messages := .nil
  read := le_rfl
  tasks := NetClientBackend.Tasks.sound_init
  created _ h := absurd h List.not_mem_nil
  createdOrder := .nil
  queued id := by
    constructor
    · exact fun h => absurd h List.not_mem_nil
    · intro h
      dsimp only at h
      omega
  queuedOrder := .nil
  removed _ := ⟨fun h => absurd h List.not_mem_nil, fun h => absurd h List.not_mem_nil⟩
  valid _ h := absurd h List.not_mem_nil

theorem forall₂_concat {α β : Type} {R : α → β → Prop} {xs : List α} {ys : List β} {x : α} {y : β}
    (h : List.Forall₂ R xs ys) (hxy : R x y) : List.Forall₂ R (xs ++ [x]) (ys ++ [y]) :=
  List.rel_append h (.cons hxy .nil)

theorem pairwise_concat {xs : List Int} {x : Int} (h : xs.Pairwise (· < ·)) (hx : ∀ y ∈ xs, y < x) :
    (xs ++ [x]).Pairwise (· < ·) := by
  refine List.pairwise_append.2 ⟨h, List.pairwise_singleton _ _, fun y hy z hz => ?_⟩
  rw [List.mem_singleton.1 hz]
  exact hx y hy

theorem mem_concat_of_ne {α : Type} {xs : List α} {x y : α} (h : x ≠ y) : x ∈ xs ++ [y] ↔ x ∈ xs := by
  rw [List.mem_append, List.mem_singleton, or_iff_left h]

theorem Sound.createStream (h : Sound boost c) {type : StreamableType} {service : String}
    {options message : Json}
    (submitted : (RemoteCall.createStream c.nextStreamId type service options).message boost = some message) :
    Sound boost (c.createStream type service options message) := by
  have hcreated : createdIds (c.calls ++ [.createStream c.nextStreamId type service options]) =
      createdIds c.calls ++ [c.nextStreamId] := createdIds_append _ _
  have hqueued : queuedIds (c.calls ++ [.createStream c.nextStreamId type service options]) =
      queuedIds c.calls := queuedIds_concat rfl
  refine ⟨forall₂_concat h.messages submitted, ?_, h.tasks, fun k hk => ?_, ?_, fun id => ?_, ?_,
    fun k => (h.removed k).trans (mem_concat_of_ne fun he => by cases he).symm, fun k hk hopen => ?_⟩
  · exact h.read.trans (by simp [RemoteClient.createStream])
  · have hk : k ∈ createdIds (c.calls ++ _) := hk
    rw [hcreated, List.mem_append, List.mem_singleton] at hk
    rcases hk with hk | rfl
    · exact lt_trans (h.created k hk) (Int.lt_succ _)
    · exact Int.lt_succ _
  · exact hcreated ▸ pairwise_concat h.createdOrder h.created
  · exact hqueued ▸ h.queued id
  · exact hqueued ▸ h.queuedOrder
  · have hk : k ∈ createdIds (c.calls ++ _) := hk
    rw [hcreated, List.mem_append, List.mem_singleton] at hk
    rcases hk with hk | rfl
    · obtain ⟨stream, hstream, hid⟩ := h.valid k hk hopen
      exact ⟨stream, List.mem_append_left _ hstream, hid⟩
    · exact ⟨_, List.mem_append_right _ (List.mem_singleton_self _), rfl⟩

theorem Sound.removeStream (h : Sound boost c) {streamId : Int} {message : Json}
    (submitted : (RemoteCall.removeStream streamId).message boost = some message) :
    Sound boost (c.removeStream streamId message) := by
  have hcreated : createdIds (c.calls ++ [.removeStream streamId]) = createdIds c.calls :=
    createdIds_concat rfl
  have hqueued : queuedIds (c.calls ++ [.removeStream streamId]) = queuedIds c.calls :=
    queuedIds_concat rfl
  refine ⟨forall₂_concat h.messages submitted, ?_, h.tasks, fun k hk => ?_, ?_, fun id => ?_, ?_,
    fun k => ?_, fun k hk hopen => ?_⟩
  · exact h.read.trans (by simp [RemoteClient.removeStream])
  · exact h.created k (hcreated ▸ hk)
  · exact hcreated ▸ h.createdOrder
  · exact hqueued ▸ h.queued id
  · exact hqueued ▸ h.queuedOrder
  · simp [RemoteClient.removeStream, h.removed k, or_comm]
  · exact h.valid k (hcreated ▸ hk) fun hmem => hopen (List.mem_cons_of_mem _ hmem)

theorem Sound.queueOperations (h : Sound boost c) {operations : Operations} {backend : NetClientBackend}
    {message : Json} (queued : c.backend.queueOperations boost operations = some (backend, message)) :
    Sound boost (c.queueOperations operations backend message) := by
  have hsubmitted : (RemoteCall.queueOperations backend.nextOperationId operations).message boost =
      some message := by
    obtain ⟨message', hmessage, hq⟩ := Option.bind_eq_some_iff.1 queued
    cases hq
    exact hmessage
  have hstep : NetClientBackend.Tasks.Step .debug boost c.backend backend :=
    .queueOperations _ _ operations message queued
  have htasks := NetClientBackend.Tasks.sound_step h.tasks hstep
  have hnext : backend.nextOperationId = c.backend.nextOperationId + 1 := by
    rw [NetClientBackend.Tasks.queueOperations_eq queued]
  have hcreated : createdIds (c.calls ++ [.queueOperations backend.nextOperationId operations]) =
      createdIds c.calls := createdIds_concat rfl
  have hqueued : queuedIds (c.calls ++ [.queueOperations backend.nextOperationId operations]) =
      queuedIds c.calls ++ [backend.nextOperationId] := queuedIds_append _ _
  refine ⟨forall₂_concat h.messages hsubmitted, ?_, htasks, fun k hk => ?_, ?_, fun id => ?_, ?_,
    fun k => (h.removed k).trans (mem_concat_of_ne fun he => by cases he).symm, fun k hk hopen => ?_⟩
  · exact h.read.trans (by simp [RemoteClient.queueOperations])
  · exact h.created k (hcreated ▸ hk)
  · exact hcreated ▸ h.createdOrder
  · have hstarted := h.tasks.started
    have hstep : id ∈ queuedIds c.calls ++ [backend.nextOperationId] ↔
        1 < id ∧ id ≤ backend.nextOperationId := by
      rw [List.mem_append, List.mem_singleton, h.queued id]
      omega
    exact hqueued ▸ hstep
  · refine hqueued ▸ pairwise_concat h.queuedOrder fun id hid => ?_
    have := ((h.queued id).1 hid).2
    omega
  · exact h.valid k (hcreated ▸ hk) hopen

theorem Sound.applyStreamChanges (h : Sound boost c) : Sound boost c.applyStreamChanges where
  messages := h.messages
  read := h.read
  tasks := ⟨h.tasks.started, h.tasks.once, h.tasks.issued⟩
  created := h.created
  createdOrder := h.createdOrder
  queued := h.queued
  queuedOrder := h.queuedOrder
  removed := h.removed
  valid k hk hopen := by
    obtain ⟨stream, hstream, rfl⟩ := h.valid k hk hopen
    have hopen : stream.streamId ∉ c.disconnected := hopen
    refine ⟨stream, List.mem_filter.2 ⟨hstream, ?_⟩, rfl⟩
    simpa using hopen

theorem Sound.processMessage {build : Build} (h : Sound boost c) {obj : Json} {backend : NetClientBackend}
    (done : c.backend.processMessage build boost obj = .ok backend) (processed : Nat) :
    Sound boost { c with backend, processed } := by
  have hnext : backend.nextOperationId = c.backend.nextOperationId := by
    rcases NetClientBackend.processMessage_cases done with ⟨-, -, hnext⟩ | ⟨id, results, -, -, rfl⟩
    · exact hnext
    · rfl
  refine ⟨h.messages, h.read, NetClientBackend.Tasks.sound_step h.tasks (.processMessage _ _ obj done),
    h.created, h.createdOrder, fun id => ?_, h.queuedOrder, h.removed, h.valid⟩
  rw [hnext]
  exact h.queued id

theorem Sound.next (h : Sound boost c) {obj : Json} (next : c.submitted[c.read]? = some obj) :
    ∃ call, c.calls[c.read]? = some call ∧ call.message boost = some obj := by
  obtain ⟨hread, rfl⟩ := List.getElem?_eq_some_iff.1 next
  have hread' : c.read < c.calls.length := by rw [h.messages.length_eq]; exact hread
  exact ⟨c.calls[c.read], List.getElem?_eq_getElem hread',
    (List.forall₂_iff_get.1 h.messages).2 _ hread' hread⟩

theorem Sound.readNext (h : Sound boost c) {obj : Json} (next : c.submitted[c.read]? = some obj) :
    Sound boost { c with read := c.read + 1 } := by
  have hread := (List.getElem?_eq_some_iff.1 next).1
  rw [← h.messages.length_eq] at hread
  exact ⟨h.messages, hread, h.tasks, h.created, h.createdOrder, h.queued, h.queuedOrder, h.removed, h.valid⟩

theorem readCalls_sublist (c : RemoteClient) : c.readCalls.Sublist c.calls := List.take_sublist _ _

theorem readCalls_next {call : RemoteCall} (h : c.calls[c.read]? = some call) :
    RemoteClient.readCalls { c with read := c.read + 1 } = c.readCalls ++ [call] := by
  rw [readCalls, List.take_add_one, h]
  rfl

end RemoteClient

/-! ## A step of the server that reads no message -/

namespace Sessions

variable {build : Build} {s s' : Sessions}

/-- A session that is gone stays gone, and a reply is sent only by one that is not. -/
structure Sends (s s' : Sessions) : Prop where
  disconnected : s.disconnected ⊆ s'.disconnected
  outgoing : s'.outgoing = s.outgoing ∨
    ∃ m, s'.outgoing = s.outgoing ++ [m] ∧ m.session ∉ s'.disconnected

theorem sends_finish {t : Sessions} {n : Nat} {b : ScheduledBatch} {next : FutureState Int Nat}
    {more : List Action} (h : finish build t n b next = .ok (more, s')) (hsends : Sends s t) : Sends s s' := by
  obtain ⟨-, rfl⟩ := of_finish h
  exact ⟨hsends.disconnected, hsends.outgoing⟩

theorem sends_perform {action : Action} {more : List Action}
    (h : s.perform build action = .ok (more, s')) : Sends s s' := by
  have hsame : Sends s s := ⟨List.Subset.refl _, Or.inl rfl⟩
  unfold perform at h
  cases hb : s.batches[action.batch]? with
  | none =>
    rw [hb] at h
    cases h
    exact hsame
  | some b =>
    rw [hb] at h
    cases action with
    | chain n =>
      obtain ⟨_, -, h⟩ := Except.bind_eq_ok.1 h
      cases h
      exact ⟨List.Subset.refl _, Or.inl rfl⟩
    | next n =>
      obtain ⟨_, -, h⟩ := Except.bind_eq_ok.1 h
      cases h
      exact ⟨List.Subset.refl _, Or.inl rfl⟩
    | continueWith n =>
      dsimp only at h
      unfold continueWith at h
      split at h
      · obtain ⟨_, -, h⟩ := Except.bind_eq_ok.1 h
        exact sends_finish h hsame
      · obtain ⟨_, -, h⟩ := Except.bind_eq_ok.1 h
        cases h
        exact ⟨List.Subset.refl _, Or.inl rfl⟩
    | push n =>
      cases h
      exact ⟨List.Subset.refl _, Or.inl rfl⟩

theorem sends_runContinuation {n : Nat} {b : ScheduledBatch} {results : List TaskResult}
    {more : List Action} (h : runContinuation build s n b results = .ok (more, s')) : Sends s s' := by
  unfold runContinuation at h
  split at h
  · obtain ⟨_, -, h⟩ := Except.bind_eq_ok.1 h
    exact sends_finish h ⟨List.Subset.refl _, Or.inl rfl⟩
  · obtain ⟨t, hreply, h⟩ := Except.bind_eq_ok.1 h
    obtain ⟨_, -, h⟩ := Except.bind_eq_ok.1 h
    refine sends_finish h ?_
    unfold reply at hreply
    split at hreply
    · cases hreply
      exact ⟨List.Subset.refl _, Or.inl rfl⟩
    · next hconnected =>
      obtain ⟨id, -, hreply⟩ := Except.bind_eq_ok.1 hreply
      cases hreply
      exact ⟨List.Subset.refl _, Or.inr ⟨_, rfl, hconnected⟩⟩

theorem sends_internal (h : Internal build s s') : Sends s s' := by
  cases h with
  | io t action rest more first performed =>
    obtain ⟨hdisconnected, houtgoing⟩ := sends_perform performed
    exact ⟨hdisconnected, houtgoing⟩
  | resolving t action before after more thread performed =>
    obtain ⟨hdisconnected, houtgoing⟩ := sends_perform performed
    exact ⟨hdisconnected, houtgoing⟩
  | runContinuation t n b results rest more idle first batch ran =>
    obtain ⟨hdisconnected, houtgoing⟩ := sends_runContinuation ran
    exact ⟨hdisconnected, houtgoing⟩
  | disconnect session idle => exact ⟨List.subset_cons_self _ _, Or.inl rfl⟩
  | destroy session slot gone held => exact ⟨List.Subset.refl _, Or.inl rfl⟩

end Sessions

namespace NetServer

variable {build : Build} {boost : BoostDate} {s s' : NetServer}

/-- What is left alone, and what only grows. -/
structure Extends (s s' : NetServer) : Prop where
  batches : s'.sessions.batches.map (fun b => (b.session, b.id)) =
    s.sessions.batches.map fun b => (b.session, b.id)
  queued : s'.backend.queued = s.backend.queued
  disconnected : s.sessions.disconnected ⊆ s'.sessions.disconnected
  announced : s.announced <+: s'.announced
  /-- a reply that is new is of a session that is there, and no stream was closed with it -/
  outgoing : ∃ new, s'.sessions.outgoing = s.sessions.outgoing ++ new ∧ ∀ m ∈ new, ∀ n, m.cause = .batch n →
    m.session ∉ s.sessions.disconnected ∧ s'.backend.disconnected = s.backend.disconnected

theorem Background.effect (h : Background build boost s s') : Extends s s' := by
  obtain ⟨step, hobservers, hscheduled, -⟩ := h
  have hnone : ∃ new, s.sessions.outgoing = s.sessions.outgoing ++ new ∧ ∀ m ∈ new, ∀ n,
      m.cause = .batch n → m.session ∉ s.sessions.disconnected ∧
        s'.backend.disconnected = s.backend.disconnected :=
    ⟨[], (List.append_nil _).symm, fun m hm => absurd hm List.not_mem_nil⟩
  cases step with
  | createStream session obj clientId streamType endpoint options stream idle connected command new =>
    have hlength := congrArg List.length hobservers
    simp at hlength
  | schedule session obj operations id idle connected command =>
    have hlength := congrArg List.length hscheduled
    simp at hlength
  | removeStream observer idle held open_ reason =>
    exact ⟨rfl, rfl, List.Subset.refl _, List.prefix_rfl, hnone⟩
  | internal sessions step =>
    have hsame := Sessions.same_internal step
    obtain ⟨hdisconnected, houtgoing⟩ := Sessions.sends_internal step
    refine ⟨?_, rfl, hdisconnected, List.prefix_rfl, ?_⟩
    · have hcontent := congrArg (List.map fun c : Nat × Json × FutureValue (List TaskResult) => (c.1, c.2.1)) hsame
      rw [List.map_map, List.map_map] at hcontent
      exact hcontent
    · rcases houtgoing with hout | ⟨m, hout, hm⟩
      · exact ⟨[], by rw [List.append_nil]; exact hout, fun m hm => absurd hm List.not_mem_nil⟩
      · refine ⟨[m], hout, fun m' hm' n _ => ⟨fun hgone => ?_, rfl⟩⟩
        rw [List.mem_singleton.1 hm'] at hgone
        exact hm (hdisconnected hgone)
  | applyStreamChanges rest idle first =>
    refine ⟨rfl, rfl, List.Subset.refl _, List.prefix_rfl, _, rfl, fun m hm n hn => ?_⟩
    obtain ⟨d, -, hmessage⟩ := List.mem_filterMap.1 hm
    obtain ⟨o, -, rfl⟩ := Option.map_eq_some_iff.1 hmessage
    cases hn
  | turn backend idle step =>
    obtain ⟨hqueued, -, -, -, -⟩ := step.unchanged
    exact ⟨rfl, hqueued, List.Subset.refl _, List.prefix_rfl, hnone⟩
  | initializeOne idle phase stream rest next changes loaded =>
    exact ⟨rfl, rfl, List.Subset.refl _, List.prefix_rfl, hnone⟩
  | addStreamChange change rest next => exact ⟨rfl, rfl, List.Subset.refl _, List.prefix_rfl, hnone⟩
  | signal rest next => exact ⟨rfl, rfl, List.Subset.refl _, List.prefix_rfl, hnone⟩
  | executeTask idle phase operations rest next out changes executed added =>
    exact ⟨rfl, rfl, List.Subset.refl _, List.prefix_append _ _, hnone⟩
  | resolve n results rest next b future batch set =>
    refine ⟨?_, rfl, List.Subset.refl _, List.prefix_rfl, hnone⟩
    have hsame : (s.sessions.update n { b with future }).batches.map (fun b => (b.session, b.id)) =
        (s.sessions.batches.map fun b => (b.session, b.id)).set n (b.session, b.id) := List.map_set
    obtain ⟨hn, rfl⟩ := List.getElem?_eq_some_iff.1 batch
    refine hsame.trans ?_
    rw [← List.map_set, List.set_getElem_self]

theorem mem_batchesOf {session : Nat} {sb : SessionBatch} : sb ∈ s.batchesOf session ↔
    ∃ (n : Nat) (b : ScheduledBatch) (operations : Operations) (bound : Int),
      s.sessions.batches[n]? = some b ∧ s.backend.queued[n]? = some operations ∧
      s.scheduled[n]? = some bound ∧ b.session = session ∧ sb = ⟨b.id, operations, bound⟩ := by
  unfold batchesOf
  rw [List.mem_map]
  constructor
  · rintro ⟨p, hp, rfl⟩
    obtain ⟨hmem, hsession⟩ := List.mem_filter.1 hp
    obtain ⟨n, hn⟩ := List.mem_iff_getElem?.1 hmem
    rw [List.getElem?_zip_eq_some, List.getElem?_map, List.getElem?_zip_eq_some] at hn
    obtain ⟨hbatch, hqueued, hscheduled⟩ := hn
    obtain ⟨b, hb, hcontent⟩ := Option.map_eq_some_iff.1 hbatch
    rw [← hcontent] at hsession ⊢
    exact ⟨n, b, _, _, hb, hqueued, hscheduled, by simpa using hsession, rfl⟩
  · rintro ⟨n, b, operations, bound, hb, hqueued, hscheduled, hsession, rfl⟩
    refine ⟨((b.session, b.id), operations, bound), List.mem_filter.2 ⟨?_, by simpa using hsession⟩, rfl⟩
    apply List.mem_iff_getElem?.2
    refine ⟨n, ?_⟩
    rw [List.getElem?_zip_eq_some, List.getElem?_map, List.getElem?_zip_eq_some, hb]
    exact ⟨rfl, hqueued, hscheduled⟩

theorem Background.batchesOf (h : Background build boost s s') (session : Nat) :
    s'.batchesOf session = s.batchesOf session := by
  unfold NetServer.batchesOf
  rw [h.effect.batches, h.effect.queued, h.scheduled]

theorem batchesOf_schedule (hlength : s.sessions.batches.length = s.backend.queued.length)
    (hlength' : s.scheduled.length = s.backend.queued.length) (session other : Nat)
    (operations : Operations) (id : Json) : (s.schedule session operations id).batchesOf other =
      s.batchesOf other ++ if session = other then [⟨id, operations, s.backend.nextStreamId⟩] else [] := by
  unfold batchesOf schedule Sessions.schedule
  dsimp only
  rw [List.map_append, List.zip_append hlength'.symm, List.zip_append (by simp [hlength, hlength']),
    List.filter_append, List.map_append]
  congr 1
  by_cases hsession : session = other
  · simp [hsession]
  · simp [hsession]

end NetServer

end HotelPms

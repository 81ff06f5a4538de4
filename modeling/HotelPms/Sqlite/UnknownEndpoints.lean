import HotelPms.Lib.Rename
import HotelPms.Sqlite.Worker

/- Streams that no handler is registered for.

   A client can ask for a stream of any type and service name. Initializing a stream
   without a handler sends it `initialized` only, but every later change that is
   announced looks its handler up again, and asserts that there is one. So in a build
   with assertions the next change stops the process, whatever streams it is for
   (`announce_missing`).

   Where assertions are compiled out such a stream is passed over. The run is then,
   up to the ids of the streams, one in which it was never created: `Without` relates
   the two, and every step of the one is a step of the other or none
   (`without_step`). -/
namespace HotelPms
open Lib SqliteStorage DataStreamManager SqliteBackend

/-- Whether a handler is registered for the type and the endpoint. -/
def DataStream.known (stream : DataStream) : Bool := (findHandler stream).isSome

/-- The failed assertion of `foreachStream`. -/
def missingHandler : Fault := .assertion "handler != nullptr"

section
variable {build : Build} {boost : BoostDate} {db : Database}

/-! ## When the assertion fails -/

theorem bind_ne_error {ε α β : Type} {x : Except ε α} {f : α → Except ε β} {e : ε} (hx : x ≠ .error e)
    (hf : ∀ a, f a ≠ .error e) : (x >>= f) ≠ .error e := by
  cases x with
  | error e' =>
    intro h
    cases h
    exact hx rfl
  | ok a => exact hf a

theorem assert_ne_missing (build : Build) (condition : Bool) {what : String}
    (hwhat : what ≠ "handler != nullptr") : build.assert condition what ≠ .error missingHandler := by
  intro h
  rw [Build.assert] at h
  split at h
  · cases h
  · cases h
    exact hwhat rfl

theorem serializeReservationStatus_ne (build : Build) (status : ReservationStatus) :
    serializeReservationStatus build status ≠ .error missingHandler := by
  cases status with
  | temporary =>
    apply bind_ne_error (assert_ne_missing build false (by decide))
    intro _ h
    cases h
  | _ => intro h; cases h

theorem copy_ne (hotel : Hotel) {fault : Fault} : hotel.copy ≠ .error fault := by
  rw [Hotel.copy_eq]
  intro h
  cases h

/-- Executing an operation never fails this assertion: it looks at no stream. -/
theorem executeOperation_ne (build : Build) (boost : BoostDate) (db : Database) (op : Operation) :
    executeOperation build boost db op ≠ .error missingHandler := by
  cases op with
  | eraseAllData => intro h; cases h
  | storeNew item =>
    apply bind_ne_error (assert_ne_missing build _ (by decide))
    intro _
    cases item with
    | hotel item =>
      cases item with
      | none => intro h; cases h
      | some hotel => exact bind_ne_error (copy_ne _) fun _ h => by cases h
    | reservation item =>
      cases item with
      | none => intro h; cases h
      | some r =>
        apply bind_ne_error
        · exact bind_ne_error (serializeReservationStatus_ne build _) fun _ h => by cases h
        · intro _ h
          cases h
    | person item =>
      cases item with
      | none => intro h; cases h
      | some person => intro h; cases h
  | update item =>
    cases item with
    | hotel item =>
      cases item with
      | none => intro h; cases h
      | some hotel =>
        simp only [executeOperation, executeUpdate]
        split
        · intro h; cases h
        · split
          · intro h; cases h
          · exact bind_ne_error (copy_ne _) fun _ h => by cases h
    | reservation item =>
      cases item with
      | none => intro h; cases h
      | some r =>
        simp only [executeOperation, executeUpdate]
        split
        · intro h; cases h
        · apply bind_ne_error
          · apply bind_ne_error (serializeReservationStatus_ne build _)
            intro _
            dsimp only
            split <;> exact fun h => by cases h
          · intro updated
            split <;> exact fun h => by cases h
    | person item =>
      cases item with
      | none => intro h; cases h
      | some person =>
        simp only [executeOperation, executeUpdate]
        split <;> exact fun h => by cases h
  | delete type id =>
    cases type with
    | reservation => intro h; cases h
    | hotel => exact bind_ne_error (assert_ne_missing build _ (by decide)) fun _ h => by cases h
    | person => exact bind_ne_error (assert_ne_missing build _ (by decide)) fun _ h => by cases h

/-- A handler throws at most while it reads the options. -/
theorem react_ne (handler : DataStreamHandler) (stream : DataStream) (change : DataStreamChange) :
    handler.react stream change ≠ .error missingHandler := by
  have hfield : ∀ json : Json, json.field "id" ≠ .error missingHandler := by
    intro json
    cases json with
    | obj fields =>
      rw [Json.field]
      cases fields.lookup "id" with
      | some value => intro h; cases h
      | none =>
        intro h
        rw [missingHandler, Except.error.injEq, Fault.assertion.injEq] at h
        exact absurd h (by decide)
    | _ => intro h; cases h
  have hoption : stream.optionId ≠ .error missingHandler := by
    apply bind_ne_error (hfield _)
    intro json
    cases json <;> exact fun h => by cases h
  cases handler with
  | default => intro h; cases h
  | singleId =>
    cases change with
    | itemsAdded items => exact bind_ne_error hoption fun _ h => by cases h
    | itemsUpdated items => exact bind_ne_error hoption fun _ h => by cases h
    | itemsRemoved ids => exact bind_ne_error hoption fun _ h => by cases h
    | initialized => intro h; cases h
    | cleared => intro h; cases h

theorem visit_ne {stream : DataStream} (h : build.ndebug = true ∨ stream.known = true) (type : StreamableType)
    (change : DataStreamChange) : visit build type change stream ≠ .error missingHandler := by
  have hassert : build.assert (findHandler stream).isSome "handler != nullptr" = .ok () := by
    rw [Build.assert]
    apply if_pos
    rw [Bool.or_eq_true]
    exact h
  rw [visit, Except.bind_ok hassert]
  cases findHandler stream with
  | none => intro h; cases h
  | some handler =>
    dsimp only
    split
    · exact react_ne handler stream change
    · intro h; cases h

variable {streams : List DataStream}

theorem announce_ne (h : build.ndebug = true ∨ ∀ stream ∈ streams, stream.known = true)
    (notices : List Notice) : announce build streams notices ≠ .error missingHandler := by
  have hforeach : ∀ type change, foreachStream build streams type change ≠ .error missingHandler := by
    intro type change
    induction streams with
    | nil => intro h; cases h
    | cons stream streams ih =>
      have hstream := h.imp_right fun hall => hall stream List.mem_cons_self
      have hrest := ih (h.imp_right fun hall other hmem => hall other (List.mem_cons_of_mem _ hmem))
      exact bind_ne_error (visit_ne hstream type change) fun _ => bind_ne_error hrest fun _ h => by cases h
  induction notices with
  | nil => intro h; cases h
  | cons notice notices ih =>
    exact bind_ne_error (hforeach _ _) fun _ => bind_ne_error ih fun _ h => by cases h

theorem runOperations_ne (h : build.ndebug = true ∨ ∀ stream ∈ streams, stream.known = true)
    (db : Database) (operations : Operations) :
    runOperations build boost streams db operations ≠ .error missingHandler := by
  induction operations generalizing db with
  | nil => intro h; cases h
  | cons operation operations ih =>
    apply bind_ne_error (executeOperation_ne build boost db operation)
    intro executed
    apply bind_ne_error (announce_ne h _)
    intro changes
    split
    · exact bind_ne_error (ih _) fun _ h => by cases h
    · intro h; cases h

/-- A change that is announced to a stream without a handler stops a build with assertions:
    the streams before it let a change through that every handler passes on. -/
theorem foreachStream_missing (hndebug : build.ndebug = false) {stream : DataStream} (hmem : stream ∈ streams)
    (hunknown : stream.known = false) (type : StreamableType) :
    foreachStream build streams type .cleared = .error missingHandler := by
  induction streams with
  | nil => cases hmem
  | cons first streams ih =>
    rw [foreachStream]
    cases hfind : findHandler first with
    | none =>
      -- the assertion fails before the loop goes on
      have hfirst : visit build type .cleared first = .error missingHandler := by
        rw [visit, hfind, Build.assert, hndebug]
        rfl
      rw [hfirst]
      rfl
    | some handler =>
      have hknown : first.known = true := by rw [DataStream.known, hfind]; rfl
      have hrest : stream ∈ streams := by
        rcases List.mem_cons.1 hmem with rfl | hrest
        · rw [hknown] at hunknown
          cases hunknown
        · exact hrest
      -- every handler passes this change on, so that the loop reaches the rest
      obtain ⟨changes, hfirst⟩ : ∃ changes, visit build type .cleared first = .ok changes := by
        rw [visit, hfind, Option.isSome_some, Build.assert_true]
        by_cases htype : first.streamType = type
        · cases handler <;> exact ⟨_, if_pos htype⟩
        · exact ⟨_, if_neg htype⟩
      rw [Except.bind_ok hfirst, ih hrest]
      rfl

theorem announce_missing (hndebug : build.ndebug = false) {stream : DataStream} (hmem : stream ∈ streams)
    (hunknown : stream.known = false) (db : Database) :
    runOperations build boost streams db [.eraseAllData] = .error missingHandler := by
  have hfirst := foreachStream_missing hndebug hmem hunknown .reservation
  rw [runOperations, executeOperation]
  refine (Except.bind_ok rfl _).trans ?_
  dsimp only
  rw [announce]
  dsimp only
  rw [hfirst]
  rfl

/-- Batches are executed without this assertion failing exactly if there are no
    assertions, or all active streams have handlers. -/
theorem processTask_iff (storage : Connection Database) (changeList : List DataStreamDifferential) :
    (∀ operations, processTask build boost streams storage changeList operations ≠ .error missingHandler) ↔
      build.ndebug = true ∨ ∀ stream ∈ streams, stream.known = true := by
  constructor
  · intro hnever
    by_contra hnot
    rw [not_or, Bool.not_eq_true] at hnot
    obtain ⟨hndebug, hunknown⟩ := hnot
    obtain ⟨stream, hstream⟩ := not_forall.1 hunknown
    obtain ⟨hmem, hunknown⟩ := Classical.not_imp.1 hstream
    have hmissing : runOperations build boost streams storage.begin_.current [.eraseAllData] =
        .error missingHandler := announce_missing hndebug hmem (Bool.eq_false_iff.2 hunknown) _
    apply hnever [.eraseAllData]
    rw [processTask, hmissing]
    rfl
  · intro h operations
    apply bind_ne_error (runOperations_ne h _ operations)
    intro out
    obtain ⟨db, changes, results, rollback⟩ := out
    cases rollback <;> exact fun h => by cases h

end

/-! ## Announcing to the streams that are known, under other ids -/

/-- The streams that `f` gives an id, with this id. -/
abbrev rename (f : Int → Option Int) : List DataStream → List DataStream :=
  renameKeys (·.streamId) (fun stream streamId => { stream with streamId }) f

/-- The changes for these streams. -/
abbrev renameChanges (f : Int → Option Int) : List DataStreamDifferential → List DataStreamDifferential :=
  renameKeys (·.streamId) (fun c streamId => { c with streamId }) f

section
variable {build : Build} {boost : BoostDate} {f : Int → Option Int} {streams : List DataStream}

theorem renameChanges_filter {p q : Int → Bool} (hpq : ∀ a x, f a = some x → p a = q x)
    (changes : List DataStreamDifferential) :
    renameChanges f (changes.filter fun c => p c.streamId) =
      (renameChanges f changes).filter fun c => q c.streamId :=
  renameKeys_filter (fun _ _ => rfl) hpq changes

@[simp] theorem rename_append (as bs : List DataStream) : rename f (as ++ bs) = rename f as ++ rename f bs :=
  renameKeys_append as bs

@[simp] theorem renameChanges_append (cs ds : List DataStreamDifferential) :
    renameChanges f (cs ++ ds) = renameChanges f cs ++ renameChanges f ds :=
  renameKeys_append cs ds

theorem rename_singleton {stream : DataStream} {x : Int} (hx : f stream.streamId = some x) :
    rename f [stream] = [{ stream with streamId := x }] :=
  renameKeys_cons_some hx []

theorem rename_filter {p q : Int → Bool} (hpq : ∀ a x, f a = some x → p a = q x) (streams : List DataStream) :
    rename f (streams.filter fun stream => p stream.streamId) =
      (rename f streams).filter fun stream => q stream.streamId :=
  renameKeys_filter (fun _ _ => rfl) hpq streams

theorem any_rename (hf : Unambiguous f) {streamId x : Int} (hx : f streamId = some x) (streams : List DataStream) :
    ((rename f streams).any fun stream => stream.streamId == x) =
      streams.any fun stream => stream.streamId == streamId :=
  any_renameKeys hf (fun _ _ => rfl) hx streams

theorem changesFor_renameChanges (hf : Unambiguous f) {streamId x : Int} (hx : f streamId = some x)
    (changes : List DataStreamDifferential) :
    changesFor x (renameChanges f changes) = changesFor streamId changes := by
  rw [changesFor, renameChanges, filter_renameKeys hf (fun _ _ => rfl) hx, List.map_map]
  rfl

/-- A handler looks at the id of a stream only to say whom a change is for. -/
theorem react_withId (handler : DataStreamHandler) (stream : DataStream) (x : Int) (change : DataStreamChange) :
    handler.react { stream with streamId := x } change =
      (handler.react stream change).map (List.map fun c => { c with streamId := x }) := by
  -- the id is read from the options, and what is pushed for it depends on it alone
  have hoption : ∀ {q : Int → Int → List DataStreamDifferential},
      (∀ id, q x id = (q stream.streamId id).map fun c => { c with streamId := x }) →
      (do return q x (← stream.optionId)) =
        (do return q stream.streamId (← stream.optionId) : Except Fault _).map
          (List.map fun c => { c with streamId := x }) := by
    intro q hq
    cases stream.optionId with
    | error fault => rfl
    | ok id => exact congrArg Except.ok (hq id)
  cases handler with
  | default => rfl
  | singleId =>
    cases change with
    | itemsAdded items =>
      apply hoption (q := fun streamId id =>
        if (items.filter id).isEmpty then [] else [⟨streamId, .itemsAdded (items.filter id)⟩])
      intro id
      split <;> rfl
    | itemsUpdated items =>
      apply hoption (q := fun streamId id =>
        if (items.filter id).isEmpty then [] else [⟨streamId, .itemsUpdated (items.filter id)⟩])
      intro id
      split <;> rfl
    | itemsRemoved ids =>
      apply hoption (q := fun streamId id =>
        if ids.contains id then [⟨streamId, .itemsRemoved [id]⟩] else [])
      intro id
      split <;> rfl
    | initialized => rfl
    | cleared => rfl

theorem streamId_visit {stream : DataStream} {type : StreamableType} {change : DataStreamChange}
    {changes : List DataStreamDifferential} (h : visit build type change stream = .ok changes) :
    ∀ c ∈ changes, c.streamId = stream.streamId := by
  intro c hc
  rw [visit_eq h] at hc
  obtain ⟨d, -, rfl⟩ := List.mem_map.1 hc
  rfl

theorem visit_known {stream : DataStream} {x : Int} (hx : f stream.streamId = some x) {type : StreamableType}
    {change : DataStreamChange} {changes : List DataStreamDifferential}
    (h : visit build type change stream = .ok changes) :
    visit build type change { stream with streamId := x } = .ok (renameChanges f changes) := by
  have hchanges : renameChanges f changes = changes.map fun c => { c with streamId := x } :=
    renameKeys_of_some hx (streamId_visit h)
  have hfind : findHandler { stream with streamId := x } = findHandler stream := rfl
  rw [hchanges]
  rw [visit] at h ⊢
  rw [hfind]
  obtain ⟨_, hassert, h⟩ := Except.bind_eq_ok.1 h
  rw [Except.bind_ok hassert]
  cases hhandler : findHandler stream with
  | none =>
    rw [hhandler] at h
    cases h
    rfl
  | some handler =>
    rw [hhandler] at h
    dsimp only at h ⊢
    split at h
    · next htype =>
      rw [if_pos htype, react_withId, h]
      rfl
    · next htype =>
      cases h
      rw [if_neg htype]
      rfl

theorem visit_unknown {stream : DataStream} (hunknown : stream.known = false) {type : StreamableType}
    {change : DataStreamChange} {changes : List DataStreamDifferential}
    (h : visit build type change stream = .ok changes) : changes = [] := by
  have hnone : findHandler stream = none := by
    rw [DataStream.known] at hunknown
    exact Option.not_isSome_iff_eq_none.1 (Bool.eq_false_iff.1 hunknown)
  rw [visit_eq h, received, hnone]
  split <;> rfl

theorem foreachStream_rename (hknown : ∀ stream ∈ streams, (f stream.streamId).isSome = stream.known)
    {type : StreamableType} {change : DataStreamChange} {changes : List DataStreamDifferential}
    (h : foreachStream build streams type change = .ok changes) :
    foreachStream build (rename f streams) type change = .ok (renameChanges f changes) := by
  induction streams generalizing changes with
  | nil =>
    cases h
    rfl
  | cons stream streams ih =>
    obtain ⟨hstream, hstreams⟩ := List.forall_mem_cons.1 hknown
    obtain ⟨here, hhere, h⟩ := Except.bind_eq_ok.1 h
    obtain ⟨rest, hrest, h⟩ := Except.bind_eq_ok.1 h
    cases h
    rw [renameChanges_append]
    cases hx : f stream.streamId with
    | none =>
      have hunknown : stream.known = false := by rw [← hstream, hx]; rfl
      rw [visit_unknown hunknown hhere, rename, renameKeys_cons_none hx]
      exact ih hstreams hrest
    | some x =>
      rw [rename, renameKeys_cons_some hx, foreachStream, Except.bind_ok (visit_known hx hhere),
        Except.bind_ok (ih hstreams hrest)]
      rfl

theorem announce_rename (hknown : ∀ stream ∈ streams, (f stream.streamId).isSome = stream.known)
    {notices : List Notice} {changes : List DataStreamDifferential}
    (h : announce build streams notices = .ok changes) :
    announce build (rename f streams) notices = .ok (renameChanges f changes) := by
  induction notices generalizing changes with
  | nil =>
    cases h
    rfl
  | cons notice notices ih =>
    obtain ⟨here, hhere, h⟩ := Except.bind_eq_ok.1 h
    obtain ⟨rest, hrest, h⟩ := Except.bind_eq_ok.1 h
    cases h
    rw [announce, Except.bind_ok (foreachStream_rename hknown hhere), Except.bind_ok (ih hrest),
      renameChanges_append]
    rfl

theorem runOperations_rename (hknown : ∀ stream ∈ streams, (f stream.streamId).isSome = stream.known)
    {db db' : Database} {operations : Operations} {changes : List DataStreamDifferential}
    {results : List TaskResult} {rollback : Bool}
    (h : runOperations build boost streams db operations = .ok (db', changes, results, rollback)) :
    runOperations build boost (rename f streams) db operations =
      .ok (db', renameChanges f changes, results, rollback) := by
  induction operations generalizing db db' changes results rollback with
  | nil =>
    cases h
    rfl
  | cons operation operations ih =>
    obtain ⟨executed, hexecuted, h⟩ := Except.bind_eq_ok.1 h
    obtain ⟨here, hhere, h⟩ := Except.bind_eq_ok.1 h
    rw [runOperations, Except.bind_ok hexecuted, Except.bind_ok (announce_rename hknown hhere)]
    split at h
    · next hsucceeded =>
      rw [if_pos hsucceeded]
      obtain ⟨⟨db₁, changes₁, results₁, rollback₁⟩, hrest, h⟩ := Except.bind_eq_ok.1 h
      cases h
      rw [Except.bind_ok (ih hrest), renameChanges_append]
      rfl
    · next hfailed =>
      rw [if_neg hfailed]
      cases h
      rfl

theorem processTask_rename (hknown : ∀ stream ∈ streams, (f stream.streamId).isSome = stream.known)
    {storage : Connection Database} {changeList : List DataStreamDifferential} {operations : Operations}
    {out : TaskOutcome} (h : processTask build boost streams storage changeList operations = .ok out) :
    processTask build boost (rename f streams) storage (renameChanges f changeList) operations =
      .ok { out with changeList := renameChanges f out.changeList } := by
  obtain ⟨⟨db, changes, results, rollback⟩, hran, h⟩ := Except.bind_eq_ok.1 h
  rw [processTask, Except.bind_ok (runOperations_rename hknown hran)]
  cases rollback with
  | true =>
    cases h
    rfl
  | false =>
    cases h
    simp
    rfl

end

/-! ## Runs without the streams that are not known -/

namespace Backend

/-- The second backend is the first one without the streams that are not known, and with
    other ids for those that are. -/
structure Without (f : Int → Option Int) (s t : Backend) : Prop where
  storage : t.storage = s.storage
  operationsQueue : t.operationsQueue = s.operationsQueue
  phase : t.phase = s.phase
  newTasks : t.newTasks = s.newTasks
  queued : t.queued = s.queued
  executed : t.executed = s.executed
  uninitializedStreams : t.uninitializedStreams = rename f s.uninitializedStreams
  activeStreams : t.activeStreams = rename f s.activeStreams
  dataStreams : t.dataStreams = rename f s.dataStreams
  newStreams : t.newStreams = rename f s.newStreams
  created : t.created = rename f s.created
  changeList : t.changeList = renameChanges f s.changeList
  published : t.published = renameChanges f s.published
  delivered : t.delivered = renameChanges f s.delivered
  disconnected : t.disconnected = s.disconnected.filterMap f
  known : ∀ stream ∈ s.created, (f stream.streamId).isSome = stream.known
  new : ∀ streamId, s.nextStreamId ≤ streamId → f streamId = none
  bound : ∀ streamId x, f streamId = some x → x < t.nextStreamId
  unambiguous : Unambiguous f
  data : ∀ stream ∈ s.dataStreams, stream ∈ s.created
  gone : ∀ streamId ∈ s.disconnected, streamId < s.nextStreamId

section
variable {build : Build} {boost : BoostDate} {db₀ : Database} {f : Int → Option Int} {s s' t : Backend}

theorem without_init (db : Database) :
    Without (fun _ => none) { storage := { current := db } } { storage := { current := db } } where
  storage := rfl
  operationsQueue := rfl
  phase := rfl
  newTasks := rfl
  queued := rfl
  executed := rfl
  uninitializedStreams := rfl
  activeStreams := rfl
  dataStreams := rfl
  newStreams := rfl
  created := rfl
  changeList := rfl
  published := rfl
  delivered := rfl
  disconnected := rfl
  known := by simp
  new := by simp
  bound := by simp
  unambiguous := by
    intro a b k hk
    cases hk
  data := by simp
  gone := by simp

/-! What was there is renamed as before when a new id is given out. -/

theorem Sound.rename_update (hsound : Sound build boost db₀ s) (x : Option Int) {streams : List DataStream}
    (hsub : streams ⊆ s.created) : rename (Function.update f s.nextStreamId x) streams = rename f streams :=
  renameKeys_update _ fun stream hmem => ne_of_lt (hsound.fresh stream (hsub hmem))

theorem Sound.rename_update_concat (hsound : Sound build boost db₀ s) (x : Int) {stream : DataStream}
    (hid : stream.streamId = s.nextStreamId) {streams : List DataStream} (hsub : streams ⊆ s.created) :
    rename (Function.update f s.nextStreamId (some x)) (streams ++ [stream]) =
      rename f streams ++ [{ stream with streamId := x }] := by
  have hnew : Function.update f s.nextStreamId (some x) stream.streamId = some x := by
    rw [hid, Function.update_self]
  rw [rename_append, hsound.rename_update _ hsub, rename_singleton hnew]

theorem Sound.renameChanges_update (hsound : Sound build boost db₀ s) (x : Option Int)
    {changes : List DataStreamDifferential} (hsub : changes ⊆ s.published) :
    renameChanges (Function.update f s.nextStreamId x) changes = renameChanges f changes := by
  apply renameKeys_update
  intro c hc
  obtain ⟨old, hmem, hsame⟩ := hsound.known c (hsub hc)
  rw [← hsame]
  exact ne_of_lt (hsound.fresh old hmem)

theorem Without.known_update (hsound : Sound build boost db₀ s) (h : Without f s t) (x : Int)
    {stream : DataStream} (hid : stream.streamId = s.nextStreamId) (hknown : stream.known = true) :
    ∀ other ∈ s.created ++ [stream],
      (Function.update f s.nextStreamId (some x) other.streamId).isSome = other.known := by
  intro other hother
  rcases List.mem_append.1 hother with hother | hother
  · rw [Function.update_of_ne (ne_of_lt (hsound.fresh other hother))]
    exact h.known other hother
  · rw [List.mem_singleton.1 hother, hid, Function.update_self, hknown]
    rfl

theorem Without.bound_update (h : Without f s t) (streamId x : Int)
    (hx : Function.update f s.nextStreamId (some t.nextStreamId) streamId = some x) :
    x < t.nextStreamId + 1 := by
  by_cases hsame : streamId = s.nextStreamId
  · rw [hsame, Function.update_self] at hx
    have := Option.some.inj hx
    omega
  · rw [Function.update_of_ne hsame] at hx
    have := h.bound streamId x hx
    omega

theorem Without.data_concat (h : Without f s t) (stream : DataStream) :
    ∀ other ∈ s.dataStreams ++ [stream], other ∈ s.created ++ [stream] := by
  intro other hother
  rcases List.mem_append.1 hother with hother | hother
  · exact List.mem_append_left _ (h.data other hother)
  · exact List.mem_append_right _ hother

theorem Without.gone_succ (h : Without f s t) : ∀ streamId ∈ s.disconnected, streamId < s.nextStreamId + 1 :=
  fun streamId hgone => Int.lt_add_one_of_le (h.gone streamId hgone).le

/-- A stream that is created unknown is not there on the other side. -/
theorem without_createUnknown (h : Without f s t) {stream : DataStream} (hid : stream.streamId = s.nextStreamId)
    (hunknown : stream.known = false) :
    Without f { s with
      nextStreamId := s.nextStreamId + 1
      dataStreams := s.dataStreams ++ [stream]
      uninitializedStreams := s.uninitializedStreams ++ [stream]
      created := s.created ++ [stream] } t := by
  have hnone : f stream.streamId = none := h.new _ (le_of_eq hid.symm)
  have hadd : ∀ streams, rename f (streams ++ [stream]) = rename f streams := by
    intro streams
    have hleft : rename f [stream] = [] := renameKeys_cons_none hnone []
    rw [rename_append, hleft, List.append_nil]
  refine { h with
    uninitializedStreams := ?_, dataStreams := ?_, created := ?_, known := ?_, new := ?_
    data := h.data_concat stream, gone := h.gone_succ }
  · rw [hadd]
    exact h.uninitializedStreams
  · rw [hadd]
    exact h.dataStreams
  · rw [hadd]
    exact h.created
  · intro other hother
    rcases List.mem_append.1 hother with hother | hother
    · exact h.known other hother
    · rw [List.mem_singleton.1 hother, hnone, hunknown]
      rfl
  · intro streamId hle
    dsimp only at hle
    exact h.new streamId (by omega)

/-- A stream that is created known gets the next id of the other side. -/
theorem without_createKnown (hsound : Sound build boost db₀ s) (h : Without f s t) {stream : DataStream}
    (hid : stream.streamId = s.nextStreamId) (hknown : stream.known = true) :
    Without (Function.update f s.nextStreamId (some t.nextStreamId)) { s with
      nextStreamId := s.nextStreamId + 1
      dataStreams := s.dataStreams ++ [stream]
      uninitializedStreams := s.uninitializedStreams ++ [stream]
      created := s.created ++ [stream] } { t with
      nextStreamId := t.nextStreamId + 1
      dataStreams := t.dataStreams ++ [{ stream with streamId := t.nextStreamId }]
      uninitializedStreams := t.uninitializedStreams ++ [{ stream with streamId := t.nextStreamId }]
      created := t.created ++ [{ stream with streamId := t.nextStreamId }] } := by
  refine { h with
    uninitializedStreams := ?_, activeStreams := ?_, dataStreams := ?_, newStreams := ?_, created := ?_
    changeList := ?_, published := ?_, delivered := ?_, disconnected := ?_
    known := h.known_update hsound _ hid hknown, new := ?_, bound := h.bound_update, unambiguous := ?_
    data := h.data_concat stream, gone := h.gone_succ }
  · rw [hsound.rename_update_concat _ hid hsound.uninitialized.subset, ← h.uninitializedStreams]
  · rw [hsound.rename_update _ hsound.active]
    exact h.activeStreams
  · rw [hsound.rename_update_concat _ hid h.data, ← h.dataStreams]
  · rw [hsound.rename_update _ hsound.new.subset]
    exact h.newStreams
  · rw [hsound.rename_update_concat _ hid (List.Subset.refl _), ← h.created]
  · rw [hsound.renameChanges_update _ hsound.pending]
    exact h.changeList
  · rw [hsound.renameChanges_update _ (List.Subset.refl _)]
    exact h.published
  · rw [hsound.renameChanges_update _ hsound.past]
    exact h.delivered
  · dsimp only
    rw [h.disconnected]
    apply List.filterMap_congr
    intro streamId hgone
    rw [Function.update_of_ne (ne_of_lt (h.gone streamId hgone))]
  · intro streamId hle
    dsimp only at hle
    rw [Function.update_of_ne (by omega)]
    exact h.new streamId (by omega)
  · -- the new id is above all that were given out on the other side
    refine h.unambiguous.update fun b hb => ?_
    have := h.bound b _ hb
    omega

/-- Removing a stream removes it on the other side, if it is there. -/
theorem without_removeStream (hsound : Sound build boost db₀ s) (h : Without f s t) {stream : DataStream}
    (hcreated : stream ∈ s.created) : ∃ t', (t' = t ∨ Step build boost t t') ∧ Without f { s with
      disconnected := stream.streamId :: s.disconnected
      uninitializedStreams := s.uninitializedStreams.filter (·.streamId != stream.streamId)
      activeStreams := s.activeStreams.filter (·.streamId != stream.streamId) } t' := by
  have hgone : ∀ streamId ∈ stream.streamId :: s.disconnected, streamId < s.nextStreamId :=
    List.forall_mem_cons.2 ⟨hsound.fresh stream hcreated, h.gone⟩
  cases hx : f stream.streamId with
  | none =>
    -- the streams that are filtered out are left out anyway
    have hsame : ∀ streams, rename f (streams.filter (·.streamId != stream.streamId)) = rename f streams := by
      intro streams
      have hall := rename_filter (f := f) (p := fun a => a != stream.streamId) (q := fun _ => true) ?_ streams
      · rw [hall, List.filter_true]
      · intro a x ha
        rw [bne_iff_ne]
        rintro rfl
        rw [hx] at ha
        cases ha
    refine ⟨t, .inl rfl, { h with
      uninitializedStreams := ?_, activeStreams := ?_, disconnected := ?_, gone := hgone }⟩
    · rw [hsame]
      exact h.uninitializedStreams
    · rw [hsame]
      exact h.activeStreams
    · dsimp only
      rw [List.filterMap_cons_none hx]
      exact h.disconnected
  | some x =>
    have hsame : ∀ streams, rename f (streams.filter (·.streamId != stream.streamId)) =
        (rename f streams).filter (·.streamId != x) := by
      refine rename_filter (p := fun a => a != stream.streamId) (q := fun b => b != x) ?_
      intro a y ha
      rw [Bool.eq_iff_iff, bne_iff_ne, bne_iff_ne]
      exact not_congr (h.unambiguous.eq_iff ha hx)
    have hthere : { stream with streamId := x } ∈ t.created := by
      rw [h.created]
      exact mem_renameKeys.2 ⟨stream, hcreated, x, hx, rfl⟩
    refine ⟨_, .inr (.removeStream t _ hthere), { h with
      uninitializedStreams := ?_, activeStreams := ?_, disconnected := ?_, gone := hgone }⟩
    · rw [hsame, ← h.uninitializedStreams]
    · rw [hsame, ← h.activeStreams]
    · dsimp only
      rw [List.filterMap_cons_some hx, h.disconnected]

/-- The streams and the changes that are left when the changes are applied are the same on
    both sides. -/
theorem without_applyStreamChanges (h : Without f s t) :
    Without f { s with
      dataStreams := s.applyStreamChanges.1
      changeList := []
      delivered := s.delivered ++ s.applyStreamChanges.2 } { t with
      dataStreams := t.applyStreamChanges.1
      changeList := []
      delivered := t.delivered ++ t.applyStreamChanges.2 } := by
  have hleft : t.applyStreamChanges.1 = rename f s.applyStreamChanges.1 := by
    have hcontains : ∀ a x, f a = some x →
        (!s.disconnected.contains a) = !t.disconnected.contains x := by
      intro a x hx
      rw [h.disconnected, Bool.not_inj_iff, Bool.eq_iff_iff, List.contains_iff_mem, List.contains_iff_mem]
      exact (h.unambiguous.mem_filterMap hx s.disconnected).symm
    have hfilter := rename_filter (p := fun a => !s.disconnected.contains a)
      (q := fun x => !t.disconnected.contains x) hcontains s.dataStreams
    rw [← h.dataStreams] at hfilter
    exact hfilter.symm
  have hdelivered : t.applyStreamChanges.2 = renameChanges f s.applyStreamChanges.2 := by
    have hany : ∀ a x, f a = some x →
        (s.applyStreamChanges.1.any fun stream => stream.streamId == a) =
          t.applyStreamChanges.1.any fun stream => stream.streamId == x := by
      intro a x hx
      rw [hleft]
      exact (any_rename h.unambiguous hx _).symm
    have hfilter := renameChanges_filter hany s.changeList
    rw [← h.changeList] at hfilter
    exact hfilter.symm
  refine { h with dataStreams := hleft, changeList := rfl, delivered := ?_, data := ?_ }
  · rw [renameChanges_append, ← h.delivered, hdelivered]
  · intro stream hmem
    exact h.data stream (List.mem_of_mem_filter hmem)

/-- Initializing a stream that is known initializes it on the other side; of another one
    nothing is published there. -/
theorem without_initializeOne (h : Without f s t) (hphase : s.phase = .initializing)
    {stream : DataStream} {rest : List DataStream} (hnext : s.newStreams = stream :: rest)
    {changes : List DataStreamDifferential}
    (hloaded : initialChanges build boost stream s.storage.current = .ok changes) :
    ∃ t', (t' = t ∨ Step build boost t t') ∧ Without f { s with
      newStreams := rest
      changeList := s.changeList ++ changes
      published := s.published ++ changes } t' := by
  have hids := initialChanges_streamId hloaded
  have hnew := h.newStreams
  rw [hnext] at hnew
  cases hx : f stream.streamId with
  | none =>
    -- the changes that are published for it are left out with it
    have hleft : renameChanges f changes = [] :=
      renameKeys_of_none fun c hc => by rw [hids c hc]; exact hx
    rw [rename, renameKeys_cons_none hx] at hnew
    refine ⟨t, .inl rfl, { h with newStreams := hnew, changeList := ?_, published := ?_ }⟩
    · rw [renameChanges_append, hleft, List.append_nil]
      exact h.changeList
    · rw [renameChanges_append, hleft, List.append_nil]
      exact h.published
  | some x =>
    rw [rename, renameKeys_cons_some hx] at hnew
    have hrenamed : renameChanges f changes = changes.map fun c => { c with streamId := x } :=
      renameKeys_of_some hx hids
    -- what is loaded does not depend on the id of the stream
    have hthere : initialChanges build boost { stream with streamId := x } t.storage.current =
        .ok (renameChanges f changes) := by
      obtain ⟨own, hown, hchanges⟩ := Except.bind_eq_ok.1 hloaded
      cases hchanges
      rw [hrenamed, h.storage]
      refine (Except.bind_ok hown _).trans ?_
      rw [List.map_map]
      rfl
    refine ⟨_, .inr (.initializeOne t (h.phase.trans hphase) _ _ hnew _ hthere), { h with
      newStreams := rfl, changeList := ?_, published := ?_ }⟩
    · rw [renameChanges_append, ← h.changeList]
    · rw [renameChanges_append, ← h.published]

theorem without_executeTask (hsound : Sound build boost db₀ s) (h : Without f s t) (hphase : s.phase = .processing)
    {operations : Operations} {rest : List Operations} (hnext : s.newTasks = operations :: rest)
    {out : TaskOutcome} {changes : List DataStreamDifferential}
    (hexecuted : processTask build boost s.activeStreams s.storage s.changeList operations = .ok out)
    (hadded : out.changeList = s.changeList ++ changes) :
    ∃ t', Step build boost t t' ∧ Without f { s with
      newTasks := rest
      storage := out.storage
      changeList := out.changeList
      published := s.published ++ changes
      executed := s.executed ++ [{ before := s.storage.current, operations, results := out.results,
                                   committed := out.committed, after := out.storage.current }] } t' := by
  have hthere := processTask_rename (fun stream hmem => h.known stream (hsound.active stream hmem)) hexecuted
  rw [← h.activeStreams, ← h.storage, ← h.changeList] at hthere
  have haddedThere : renameChanges f out.changeList = t.changeList ++ renameChanges f changes := by
    rw [hadded, renameChanges_append, h.changeList]
  refine ⟨_, .executeTask t (h.phase.trans hphase) operations rest (h.newTasks.trans hnext) _ _ hthere haddedThere,
    { h with newTasks := rfl, storage := rfl, changeList := rfl, executed := ?_, published := ?_ }⟩
  · rw [h.executed, h.storage]
  · rw [renameChanges_append, ← h.published]

/-- Every step is one on the other side, or none. -/
theorem without_step (hsound : Sound build boost db₀ s) (h : Without f s t) (hs : Step build boost s s') :
    ∃ f' t', (t' = t ∨ Step build boost t t') ∧ Without f' s' t' := by
  cases hs with
  | queueOperations operations =>
    refine ⟨f, _, .inr (.queueOperations t operations), { h with operationsQueue := ?_, queued := ?_ }⟩
    · rw [h.operationsQueue]
    · rw [h.queued]
  | createStream streamType endpoint options stream new =>
    have hid : stream.streamId = s.nextStreamId := by rw [new]
    -- the only step after which ids are renamed in another way
    cases hknown : stream.known with
    | false => exact ⟨f, t, .inl rfl, without_createUnknown h hid hknown⟩
    | true =>
      refine ⟨_, _, .inr (.createStream t streamType endpoint options _ ?_), without_createKnown hsound h hid hknown⟩
      rw [new]
  | removeStream stream created =>
    obtain ⟨t', hstep, hwithout⟩ := without_removeStream hsound h created
    exact ⟨f, t', hstep, hwithout⟩
  | applyStreamChanges =>
    exact ⟨f, _, .inr (.applyStreamChanges t), without_applyStreamChanges h⟩
  | swap phase =>
    exact ⟨f, _, .inr (.swap t (h.phase.trans phase)),
      { h with phase := rfl, newTasks := h.operationsQueue, operationsQueue := rfl }⟩
  | collect phase =>
    refine ⟨f, _, .inr (.collect t (h.phase.trans phase)), { h with
      phase := rfl, newStreams := h.uninitializedStreams, activeStreams := ?_, uninitializedStreams := rfl }⟩
    rw [rename_append, h.activeStreams, h.uninitializedStreams]
  | initializeOne phase stream rest next changes loaded =>
    obtain ⟨t', hstep, hwithout⟩ := without_initializeOne h phase next loaded
    exact ⟨f, t', hstep, hwithout⟩
  | process phase done =>
    refine ⟨f, _, .inr (.process t (h.phase.trans phase) ?_), { h with phase := rfl }⟩
    rw [h.newStreams, done]
    rfl
  | executeTask phase operations rest next out changes executed added =>
    obtain ⟨t', hstep, hwithout⟩ := without_executeTask hsound h phase next executed added
    exact ⟨f, t', .inr hstep, hwithout⟩
  | loop phase done =>
    exact ⟨f, _, .inr (.loop t (h.phase.trans phase) (h.newTasks.trans done)), { h with phase := rfl }⟩

/-- Every reachable state is one without the streams that are not known, up to these. -/
theorem reached_without (h : Reached build boost db₀ s) :
    ∃ t, Reached build boost db₀ t ∧ ∃ f, Without f s t := by
  refine Reachable.simulate (R := fun s t => ∃ f, Without f s t) ?_ ?_ h
  · intro s hinit
    rw [hinit]
    exact ⟨_, rfl, _, without_init db₀⟩
  · intro s s' t hs hwithout step
    obtain ⟨f, hwithout⟩ := hwithout
    obtain ⟨f', t', hmatched, hwithout'⟩ := without_step (reached_sound hs) hwithout step
    exact ⟨t', hmatched, f', hwithout'⟩

/-- In every reachable state, batches are executed without the assertion about handlers
    failing exactly if there are no assertions or every active stream has a handler. The
    state is one that can be reached without creating the streams that have no handler,
    up to these and to the ids of the others: with the same batches executed on the same
    storage, and with the same changes published, queued and delivered for the others. -/
theorem unknown_endpoints (h : Reached build boost db₀ s) :
    ((∀ operations, processTask build boost s.activeStreams s.storage s.changeList operations ≠
        .error (.assertion "handler != nullptr")) ↔
      build.ndebug = true ∨ ∀ stream ∈ s.activeStreams, ∃ handler, findHandler stream = some handler) ∧
    ∃ (f : Int → Option Int) (t : Backend), Reached build boost db₀ t ∧ t.storage = s.storage ∧
      t.queued = s.queued ∧ t.executed = s.executed ∧ t.created = rename f s.created ∧
      (∀ stream ∈ t.created, ∃ handler, findHandler stream = some handler) ∧
      ∀ stream ∈ s.created, ∀ handler, findHandler stream = some handler →
        ∃ streamId, f stream.streamId = some streamId ∧
          changesFor streamId t.published = changesFor stream.streamId s.published ∧
          changesFor streamId t.changeList = changesFor stream.streamId s.changeList ∧
          changesFor streamId t.delivered = changesFor stream.streamId s.delivered := by
  have hknown : ∀ stream : DataStream, stream.known = true ↔ ∃ handler, findHandler stream = some handler := by
    intro stream
    exact Option.isSome_iff_exists
  constructor
  · simp only [← hknown]
    exact processTask_iff s.storage s.changeList
  · obtain ⟨t, ht, f, hwithout⟩ := reached_without h
    refine ⟨f, t, ht, hwithout.storage, hwithout.queued, hwithout.executed, hwithout.created, ?_, ?_⟩
    · intro renamed hmem
      rw [hwithout.created] at hmem
      obtain ⟨stream, hold, x, hx, rfl⟩ := mem_renameKeys.1 hmem
      have hsame := hwithout.known stream hold
      rw [hx] at hsame
      exact (hknown stream).1 hsame.symm
    · intro stream hmem handler hhandler
      have hsome := hwithout.known stream hmem
      rw [(hknown stream).2 ⟨handler, hhandler⟩, Option.isSome_iff_exists] at hsome
      obtain ⟨x, hx⟩ := hsome
      refine ⟨x, hx, ?_, ?_, ?_⟩
      · rw [hwithout.published, changesFor_renameChanges hwithout.unambiguous hx]
      · rw [hwithout.changeList, changesFor_renameChanges hwithout.unambiguous hx]
      · rw [hwithout.delivered, changesFor_renameChanges hwithout.unambiguous hx]

end

/-- A stream that nobody knows and a stream of reservations are created, a batch that
    erases everything is queued, and the worker goes around up to the batches. -/
theorem two_streams (build : Build) : ∃ s : Backend, Reached build .gregorian {} s ∧
    s.created = [⟨1, .other 7, "nonsense", .null⟩, reservationStream 2] ∧
    s.activeStreams = s.created ∧ s.phase = .processing ∧ s.newTasks = [[.eraseAllData]] ∧
    s.published = [⟨1, .initialized⟩, ⟨2, .itemsAdded (.reservations [])⟩, ⟨2, .initialized⟩] := by
  have h₀ : Reached build .gregorian {} { storage := { current := {} } } := .init rfl
  have h₁ := h₀.step (.createStream _ (.other 7) "nonsense" .null _ rfl)
  have h₂ := h₁.step (.createStream _ .reservation "" .null (reservationStream 2) rfl)
  have h₃ := h₂.step (.queueOperations _ [.eraseAllData])
  have h₄ := h₃.step (.swap _ rfl)
  have h₅ := h₄.step (.collect _ rfl)
  have h₆ := h₅.step (.initializeOne _ rfl _ _ rfl _ rfl)
  have h₇ := h₆.step (.initializeOne _ rfl _ _ rfl _ rfl)
  have h₈ := h₇.step (.process _ rfl rfl)
  exact ⟨_, h₈, rfl, rfl, rfl, rfl, rfl⟩

/-- The stream of reservations gets the same without the other one. -/
theorem unknown_endpoints_twoStreams : ∃ (t : Backend) (streamId : Int), Reached .release .gregorian {} t ∧
    (∀ stream ∈ t.created, ∃ handler, findHandler stream = some handler) ∧
    changesFor streamId t.published = [.itemsAdded (.reservations []), .initialized] := by
  obtain ⟨s, hs, hcreated, -, -, -, hpublished⟩ := two_streams .release
  obtain ⟨-, f, t, ht, -, -, -, -, hknown, hsame⟩ := unknown_endpoints hs
  obtain ⟨streamId, -, hchanges, -, -⟩ := hsame (reservationStream 2) (by rw [hcreated]; simp) .default rfl
  refine ⟨t, streamId, ht, hknown, ?_⟩
  rw [hchanges, hpublished]
  rfl

/-- In a build with assertions the next batch stops the process. -/
theorem unknown_endpoint_stops_process : ∃ s : Backend, Reached .debug .gregorian {} s ∧
    s.phase = .processing ∧ s.newTasks = [[.eraseAllData]] ∧
    processTask .debug .gregorian s.activeStreams s.storage s.changeList [.eraseAllData] =
      .error (.assertion "handler != nullptr") := by
  obtain ⟨s, hs, hcreated, hactive, hphase, htasks, -⟩ := two_streams .debug
  refine ⟨s, hs, hphase, htasks, ?_⟩
  rw [hactive, hcreated]
  rfl

end Backend

end HotelPms

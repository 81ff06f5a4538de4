import HotelPms.Persistence.DataStreamObserver
import HotelPms.Sqlite.ById
import HotelPms.Sqlite.Worker

/- A stream of one id is the filtered stream of all items.

   The two handlers share no code. What they push is related by `restrict`: the
   items and ids of a change that have the id, and nothing if none is left. A
   notice carries items of its own type and removes one id (`Notice.Plain`), so
   what a single id stream receives of it is what the default stream receives,
   restricted (`received_restrict`); the same holds of what both are initialized
   with, by the lemmas on loading by id (`initial_restrict`).

   Both streams are initialized at some step of the worker, which need not be the
   same turn of its loop. As long as no batch is committed between the two steps
   they start from the same items, and from then on get the same batches
   (`running_run`). `single_id_stream` is the result, for all interleavings. -/
namespace HotelPms
open Lib SqliteStorage DataStreamManager SqliteBackend

/-- The change as far as it concerns one id. -/
def DataStreamChange.restrict (id : Int) : DataStreamChange → Option DataStreamChange
  | .itemsAdded newItems =>
    let items := newItems.filter id
    if items.isEmpty then none else some (.itemsAdded items)
  | .itemsUpdated updatedItems =>
    let items := updatedItems.filter id
    if items.isEmpty then none else some (.itemsUpdated items)
  | .itemsRemoved removedItems =>
    let ids := removedItems.filter (· == id)
    if ids.isEmpty then none else some (.itemsRemoved ids)
  | change => some change

def StreamableItems.type : StreamableItems → StreamableType
  | .hotels _ => .hotel
  | .reservations _ => .reservation

/-! ## Observers of one type -/

namespace VectorDataStreamObserver
variable {α : Type}

theorem filter_removeItems (id : α → Int) (k : Int) (items : List α) (ids : List Int) :
    (removeItems id items ids).filter (fun x => id x == k) =
      removeItems id (items.filter fun x => id x == k) (ids.filter (· == k)) := by
  rw [removeItems, removeItems, List.filter_filter, List.filter_filter]
  apply List.filter_congr
  intro x _
  by_cases hk : id x = k
  · simp [hk]
  · simp [hk]

/-! What the two item types have in common: how items are wrapped and filtered. -/
section
variable {t : ItemType α} {wrap : List α → StreamableItems}
  (hget : ∀ xs, t.get (wrap xs) = .ok xs)
  (hfilter : ∀ k xs, (wrap xs).filter k = wrap (xs.filter fun x => t.id x == k))
  (hempty : ∀ xs, (wrap xs).isEmpty = xs.isEmpty)

include hget in
theorem applyChange_added (items xs : List α) :
    applyChange t items (.itemsAdded (wrap xs)) = copyItems t items xs :=
  Except.bind_ok (hget xs) _

include hget in
theorem applyChange_updated (items xs : List α) :
    applyChange t items (.itemsUpdated (wrap xs)) = assignItems t items xs :=
  Except.bind_ok (hget xs) _

include hget hfilter hempty

/-- A restricted change does to the items of the id what the change does to all. -/
theorem applyChange_restrict (k : Int) (items : List α) (change : DataStreamChange)
    (htyped : ∀ i ∈ change.items, ∃ xs, i = wrap xs) :
    ∃ after, applyChange t items change = .ok after ∧
      (change.restrict k).toList.foldlM (applyChange t) (items.filter fun x => t.id x == k) =
        .ok (after.filter fun x => t.id x == k) := by
  cases change with
  | itemsAdded newItems =>
    obtain ⟨xs, rfl⟩ := htyped newItems rfl
    obtain ⟨copies, hcopies, hrestricted⟩ := mapM_copy (t := t) k xs
    refine ⟨items ++ copies, (applyChange_added hget items xs).trans (Except.bind_ok hcopies _), ?_⟩
    simp only [DataStreamChange.restrict, hfilter, hempty, List.filter_append]
    cases hxs : xs.filter fun x => t.id x == k with
    | nil =>
      rw [hxs] at hrestricted
      have hnone : (copies.filter fun x => t.id x == k) = [] := (Except.ok.inj hrestricted).symm
      rw [hnone, List.append_nil]
      rfl
    | cons y ys =>
      rw [hxs] at hrestricted
      exact Except.bind_ok ((applyChange_added hget _ (y :: ys)).trans (Except.bind_ok hrestricted _)) _
  | itemsUpdated updatedItems =>
    obtain ⟨xs, rfl⟩ := htyped updatedItems rfl
    obtain ⟨after, hafter, hrestricted⟩ := assignItems_ok (t := t) k xs items
    refine ⟨after, (applyChange_updated hget items xs).trans hafter, ?_⟩
    simp only [DataStreamChange.restrict, hfilter, hempty]
    cases hxs : xs.filter fun x => t.id x == k with
    | nil =>
      rw [hxs] at hrestricted
      exact hrestricted
    | cons y ys =>
      rw [hxs] at hrestricted
      exact Except.bind_ok ((applyChange_updated hget _ (y :: ys)).trans hrestricted) _
  | itemsRemoved ids =>
    refine ⟨removeItems t.id items ids, rfl, ?_⟩
    simp only [DataStreamChange.restrict, filter_removeItems]
    cases hids : ids.filter (· == k) with
    | nil =>
      have hsame : ∀ l : List α, removeItems t.id l [] = l := by simp [removeItems]
      rw [hsame]
      rfl
    | cons i rest => rfl
  | initialized => exact ⟨items, rfl, rfl⟩
  | cleared => exact ⟨[], rfl, rfl⟩

/-- The observer of the restricted changes holds the items with the id. -/
theorem held_restrict (k : Int) {changes : List DataStreamChange}
    (htyped : ∀ c ∈ changes, ∀ i ∈ c.items, ∃ xs, i = wrap xs) :
    ∃ items, held t changes = .ok items ∧
      held t (changes.filterMap (·.restrict k)) = .ok (items.filter fun x => t.id x == k) := by
  have hall : ∀ start : List α, ∃ items, changes.foldlM (applyChange t) start = .ok items ∧
      (changes.filterMap (·.restrict k)).foldlM (applyChange t)
        (start.filter fun x => t.id x == k) = .ok (items.filter fun x => t.id x == k) := by
    induction changes with
    | nil => exact fun start => ⟨start, rfl, rfl⟩
    | cons c changes ih =>
      intro start
      obtain ⟨after, hafter, hrestricted⟩ := applyChange_restrict hget hfilter hempty k start c
        (htyped c List.mem_cons_self)
      obtain ⟨items, hitems, hrest⟩ := ih (fun d hd => htyped d (List.mem_cons_of_mem _ hd)) after
      refine ⟨items, ?_, ?_⟩
      · rw [List.foldlM_cons, Except.bind_ok hafter]
        exact hitems
      · have hcons : (c :: changes).filterMap (·.restrict k) =
            (c.restrict k).toList ++ changes.filterMap (·.restrict k) := by
          rw [List.filterMap_cons]
          cases c.restrict k with
          | none => rfl
          | some d => rfl
        rw [hcons, List.foldlM_append, Except.bind_ok hrestricted]
        exact hrest
  exact hall []

end

end VectorDataStreamObserver

/-- The observer of some changes and the observer of the changes restricted to an
    id hold the same items with this id. -/
def HoldSame {α : Type} (t : ItemType α) (id : Int) (changes : List DataStreamChange) : Prop :=
  ∃ items, VectorDataStreamObserver.held t changes = .ok items ∧
    VectorDataStreamObserver.held t (changes.filterMap (·.restrict id)) =
      .ok (items.filter fun item => t.id item == id)

theorem holdSame_hotels (id : Int) {changes : List DataStreamChange}
    (htype : ∀ c ∈ changes, ∀ items ∈ c.items, items.type = .hotel) :
    HoldSame .hotel id changes := by
  apply @VectorDataStreamObserver.held_restrict _ .hotel .hotels (fun _ => rfl) (fun _ _ => rfl)
    (fun _ => rfl)
  intro c hc items hitems
  cases items with
  | hotels xs => exact ⟨xs, rfl⟩
  | reservations xs => cases htype c hc _ hitems

theorem holdSame_reservations (id : Int) {changes : List DataStreamChange}
    (htype : ∀ c ∈ changes, ∀ items ∈ c.items, items.type = .reservation) :
    HoldSame .reservation id changes := by
  apply @VectorDataStreamObserver.held_restrict _ .reservation .reservations (fun _ => rfl)
    (fun _ _ => rfl) (fun _ => rfl)
  intro c hc items hitems
  cases items with
  | hotels xs => cases htype c hc _ hitems
  | reservations xs => exact ⟨xs, rfl⟩

/-! ## What both streams receive -/

/-- The items are of the type of the notice, and one id is removed at a time. -/
def Notice.Plain (n : Notice) : Prop :=
  (∀ items ∈ n.change.items, items.type = n.type) ∧
    ∀ ids, n.change = .itemsRemoved ids → ids.length = 1

section
variable {build : Build} {boost : BoostDate} {db db' : Database}

theorem plain_effect {op : Operation} {notices : List Notice}
    (h : Effect build boost db op db' notices) : ∀ n ∈ notices, n.Plain := by
  cases h with
  | eraseAllData => simp [Notice.Plain, DataStreamChange.items]
  | storeNull item null => simp
  | storeHotel hotel => simp [Notice.Plain, DataStreamChange.items, StreamableItems.type]
  | storeReservation r r' _ stored => simp [Notice.Plain, DataStreamChange.items, StreamableItems.type]
  | updateHotel hotel hotel' _ hasId updated =>
    simp [Notice.Plain, DataStreamChange.items, StreamableItems.type]
  | updateReservation r r' _ hasId updated =>
    simp [Notice.Plain, DataStreamChange.items, StreamableItems.type]
  | deleteReservation id => simp [Notice.Plain, DataStreamChange.items]

theorem plain_noticesOf (build : Build) (boost : BoostDate) (ops : Operations) (db : Database) :
    ∀ n ∈ noticesOf build boost db ops, n.Plain := by
  induction ops generalizing db with
  | nil => simp [noticesOf]
  | cons op ops ih =>
    rw [noticesOf]
    cases he : executeOperation build boost db op with
    | error fault => simp
    | ok e =>
      intro n hn
      rcases List.mem_append.1 hn with hn | hn
      · cases hs : e.result.succeeded with
        | true => exact plain_effect (effect_of_succeeded he hs) n hn
        | false =>
          rw [notices_of_failed he hs] at hn
          exact absurd hn List.not_mem_nil
      · exact ih e.db n hn

theorem plain_notices (build : Build) (boost : BoostDate) (r : BatchRecord) :
    ∀ n ∈ r.notices build boost, n.Plain := by
  rw [BatchRecord.notices]
  split
  · exact plain_noticesOf build boost r.operations r.before
  · simp

end

/-- A default stream and a stream of one id, of the same type. -/
structure Pair (type : StreamableType) (k : Int) (all one : DataStream) : Prop where
  endpoint : type = .hotel ∧ one.endpoint = "hotel.by_id" ∨
    type = .reservation ∧ one.endpoint = "reservation.by_id"
  default : all.endpoint = ""
  allType : all.streamType = type
  oneType : one.streamType = type
  id : one.optionId = .ok k

section
variable {build : Build} {boost : BoostDate} {type : StreamableType} {k : Int} {all one : DataStream}

theorem Pair.handlers (h : Pair type k all one) :
    findHandler all = some .default ∧ findHandler one = some .singleId := by
  rw [findHandler, findHandler, h.default, h.allType, h.oneType]
  rcases h.endpoint with ⟨rfl, he⟩ | ⟨rfl, he⟩
  · rw [he]
    exact ⟨rfl, rfl⟩
  · rw [he]
    exact ⟨rfl, rfl⟩

/-- Of a change to the items of the type the single id stream receives what concerns its id. -/
theorem received_restrict (h : Pair type k all one) {n : Notice} (hplain : n.Plain) :
    received one n.type n.change = (received all n.type n.change).filterMap (·.restrict k) := by
  obtain ⟨hall, hone⟩ := h.handlers
  simp only [received, h.allType, h.oneType, hall, hone]
  split
  · cases hchange : n.change with
    | itemsAdded items =>
      have hreact : DataStreamHandler.react .singleId one (.itemsAdded items) = .ok
          (if (items.filter k).isEmpty then [] else [⟨one.streamId, .itemsAdded (items.filter k)⟩]) :=
        Except.bind_ok h.id _
      rw [hreact]
      cases hempty : (items.filter k).isEmpty with
      | true => simp [DataStreamHandler.react, DataStreamChange.restrict, hempty]
      | false => simp [DataStreamHandler.react, DataStreamChange.restrict, hempty]
    | itemsUpdated items =>
      have hreact : DataStreamHandler.react .singleId one (.itemsUpdated items) = .ok
          (if (items.filter k).isEmpty then [] else [⟨one.streamId, .itemsUpdated (items.filter k)⟩]) :=
        Except.bind_ok h.id _
      rw [hreact]
      cases hempty : (items.filter k).isEmpty with
      | true => simp [DataStreamHandler.react, DataStreamChange.restrict, hempty]
      | false => simp [DataStreamHandler.react, DataStreamChange.restrict, hempty]
    | itemsRemoved ids =>
      have hreact : DataStreamHandler.react .singleId one (.itemsRemoved ids) = .ok
          (if ids.contains k then [⟨one.streamId, .itemsRemoved [k]⟩] else []) :=
        Except.bind_ok h.id _
      obtain ⟨id, rfl⟩ := List.length_eq_one_iff.1 (hplain.2 ids hchange)
      rw [hreact]
      by_cases hid : id = k
      · simp [DataStreamHandler.react, DataStreamChange.restrict, hid]
      · simp [DataStreamHandler.react, DataStreamChange.restrict, hid, Ne.symm hid]
    | initialized => rfl
    | cleared => rfl
  · rfl

theorem receivedAll_restrict (h : Pair type k all one) {notices : List Notice}
    (hplain : ∀ n ∈ notices, n.Plain) :
    receivedAll one notices = (receivedAll all notices).filterMap (·.restrict k) := by
  induction notices with
  | nil => rfl
  | cons n notices ih =>
    have hrest := ih fun m hm => hplain m (List.mem_cons_of_mem _ hm)
    rw [receivedAll, receivedAll] at hrest
    rw [receivedAll, receivedAll, List.flatMap_cons, List.flatMap_cons, List.filterMap_append, hrest,
      received_restrict h (hplain n List.mem_cons_self)]

theorem batchChanges_restrict (h : Pair type k all one) (rs : List BatchRecord) :
    batchChanges build boost one rs = (batchChanges build boost all rs).filterMap (·.restrict k) := by
  induction rs with
  | nil => rfl
  | cons r rs ih =>
    rw [batchChanges, batchChanges] at ih
    rw [batchChanges, batchChanges, List.flatMap_cons, List.flatMap_cons, List.filterMap_append, ih,
      receivedAll_restrict h (plain_notices build boost r)]

theorem type_received (h : Pair type k all one) {n : Notice} (hplain : n.Plain) :
    ∀ c ∈ received all n.type n.change, ∀ items ∈ c.items, items.type = type := by
  simp only [received, h.allType, h.handlers.1]
  split
  · next htype =>
    intro c hc items hitems
    obtain rfl : c = n.change := by simpa [DataStreamHandler.react] using hc
    rw [htype]
    exact hplain.1 items hitems
  · simp

theorem type_batchChanges (h : Pair type k all one) (rs : List BatchRecord) :
    ∀ c ∈ batchChanges build boost all rs, ∀ items ∈ c.items, items.type = type := by
  intro c hc
  obtain ⟨r, -, hc⟩ := List.mem_flatMap.1 hc
  obtain ⟨n, hn, hc⟩ := List.mem_flatMap.1 hc
  exact type_received h (plain_notices build boost r n hn) c hc

/-! ## What both streams are initialized with -/

theorem restrict_added {α : Type} {idOf : α → Int} {wrap : List α → StreamableItems}
    (hfilter : ∀ k xs, (wrap xs).filter k = wrap (xs.filter fun x => idOf x == k))
    (hempty : ∀ xs, (wrap xs).isEmpty = xs.isEmpty) {items : List α}
    (hascending : items.Pairwise fun a b => idOf a < idOf b) (k : Int) :
    [DataStreamChange.itemsAdded (wrap items)].filterMap (·.restrict k) =
      ((items.find? fun item => idOf item == k).toList.map fun item =>
        DataStreamChange.itemsAdded (wrap [item])) := by
  rw [List.filterMap_cons, List.filterMap_nil]
  simp only [DataStreamChange.restrict, hfilter, hempty, filter_id idOf hascending]
  cases items.find? fun item => idOf item == k with
  | none => rfl
  | some item => rfl

theorem initializeStream_restrict (h : Pair type k all one) {db : Database}
    {as bs : List DataStreamChange}
    (hall : DataStreamHandler.initializeStream .default build boost all db = .ok as)
    (hone : DataStreamHandler.initializeStream .singleId build boost one db = .ok bs) :
    bs = as.filterMap (·.restrict k) ∧ ∀ c ∈ as, ∀ items ∈ c.items, items.type = type := by
  rcases h.endpoint with ⟨rfl, -⟩ | ⟨rfl, -⟩
  · unfold DataStreamHandler.initializeStream at hall
    rw [h.allType] at hall
    obtain ⟨hotels, hloaded, hall⟩ := Except.bind_eq_ok.1 hall
    unfold DataStreamHandler.initializeStream at hone
    rw [h.oneType] at hone
    obtain ⟨id, hid, hone⟩ := Except.bind_eq_ok.1 hone
    cases h.id.symm.trans hid
    obtain ⟨item, hitem, hone⟩ := Except.bind_eq_ok.1 hone
    cases (loadHotelById_eq hloaded k).symm.trans hitem
    obtain ⟨copies, hcopies, hone⟩ := Except.bind_eq_ok.1 hone
    cases (loadHotelById_copy hloaded k).symm.trans hcopies
    cases hall
    cases hone
    constructor
    · exact (restrict_added (fun _ _ => rfl) (fun _ => rfl)
        (ascending_mapM db.hotel.ascending hloaded).1 k).symm
    · simp [DataStreamChange.items, StreamableItems.type]
  · unfold DataStreamHandler.initializeStream at hall
    rw [h.allType] at hall
    obtain ⟨reservations, hloaded, hall⟩ := Except.bind_eq_ok.1 hall
    unfold DataStreamHandler.initializeStream at hone
    rw [h.oneType] at hone
    obtain ⟨id, hid, hone⟩ := Except.bind_eq_ok.1 hone
    cases h.id.symm.trans hid
    obtain ⟨item, hitem, hone⟩ := Except.bind_eq_ok.1 hone
    cases (loadReservationById_eq hloaded k).symm.trans hitem
    cases hall
    cases hone
    constructor
    · exact (restrict_added (fun _ _ => rfl) (fun _ => rfl)
        (ascending_loadAllReservations hloaded) k).symm
    · simp [DataStreamChange.items, StreamableItems.type]

/-- On one database both streams are initialized with the same items, as far as they have the id. -/
theorem initial_restrict (h : Pair type k all one) {db : Database}
    {as bs : List DataStreamDifferential} (hall : Backend.initialChanges build boost all db = .ok as)
    (hone : Backend.initialChanges build boost one db = .ok bs) :
    changesFor one.streamId bs = (changesFor all.streamId as).filterMap (·.restrict k) ∧
      ∀ c ∈ changesFor all.streamId as, ∀ items ∈ c.items, items.type = type := by
  obtain ⟨as', has, hall⟩ := Except.bind_eq_ok.1 hall
  obtain ⟨bs', hbs, hone⟩ := Except.bind_eq_ok.1 hone
  rw [h.handlers.1] at has
  rw [h.handlers.2] at hbs
  cases hall
  cases hone
  obtain ⟨hrestrict, htype⟩ := initializeStream_restrict h has hbs
  rw [changesFor_map, changesFor_map, hrestrict, List.filterMap_append]
  refine ⟨rfl, fun c hc => ?_⟩
  rcases List.mem_append.1 hc with hc | hc
  · exact htype c hc
  · rw [List.mem_singleton.1 hc]
    simp [DataStreamChange.items]

end

namespace Backend

/-! ## Runs after a stream is initialized -/

/-- A backend goes on. -/
abbrev Run (build : Build) (boost : BoostDate) : Backend → Backend → Prop :=
  Relation.ReflTransGen (Step build boost)

/-- The worker initializes a stream. -/
structure Initializes (build : Build) (boost : BoostDate) (stream : DataStream)
    (s s' : Backend) : Prop where
  step : Step build boost s s'
  popped : s.newStreams = stream :: s'.newStreams

/-- The stream was initialized. -/
structure Running (s : Backend) (stream : DataStream) : Prop where
  active : stream ∈ s.activeStreams
  notNew : stream.streamId ∉ s.newStreams.map (·.streamId)

/-- What a step, or a run, adds for a stream that was initialized. -/
structure Extends (build : Build) (boost : BoostDate) (stream : DataStream) (s s' : Backend) : Prop where
  run : ∃ new, s'.executed = s.executed ++ new ∧
    changesFor stream.streamId s'.published =
      changesFor stream.streamId s.published ++ batchChanges build boost stream new ∧
    ((∀ r ∈ new, r.committed = false) → s'.storage.current = s.storage.current)

variable {build : Build} {boost : BoostDate} {db₀ : Database} {s s' : Backend} {stream : DataStream}

theorem batchChanges_append (rs rs' : List BatchRecord) : batchChanges build boost stream (rs ++ rs') =
    batchChanges build boost stream rs ++ batchChanges build boost stream rs' :=
  List.flatMap_append

theorem Extends.refl (s : Backend) : Extends build boost stream s s :=
  ⟨[], (List.append_nil _).symm, (List.append_nil _).symm, fun _ => rfl⟩

theorem Extends.trans {s'' : Backend} (h : Extends build boost stream s s')
    (h' : Extends build boost stream s' s'') : Extends build boost stream s s'' := by
  obtain ⟨new, hexecuted, hpublished, hstorage⟩ := h.run
  obtain ⟨new', hexecuted', hpublished', hstorage'⟩ := h'.run
  refine ⟨new ++ new', ?_, ?_, fun hnone => ?_⟩
  · rw [hexecuted', hexecuted, List.append_assoc]
  · rw [hpublished', hpublished, batchChanges_append, List.append_assoc]
  · rw [hstorage' fun r hr => hnone r (List.mem_append_right _ hr),
      hstorage fun r hr => hnone r (List.mem_append_left _ hr)]

theorem Extends.quiet (hexecuted : s'.executed = s.executed)
    (hpublished : changesFor stream.streamId s'.published = changesFor stream.streamId s.published)
    (hstorage : s'.storage = s.storage) : Extends build boost stream s s' :=
  ⟨[], hexecuted.trans (List.append_nil _).symm, hpublished.trans (List.append_nil _).symm,
    fun _ => congrArg _ hstorage⟩

theorem disconnected_step (hs : Step build boost s s') : s.disconnected ⊆ s'.disconnected := by
  cases hs with
  | removeStream => exact List.subset_cons_self _ _
  | _ => exact List.Subset.refl _

theorem disconnected_run (h : Run build boost s s') : s.disconnected ⊆ s'.disconnected := by
  induction h with
  | refl => exact List.Subset.refl _
  | tail _ hs ih => exact List.Subset.trans ih (disconnected_step hs)

/-- A stream that was initialized and is not removed gets the batches and nothing else. -/
theorem running_step (hsound : Sound build boost db₀ s) (hs : Step build boost s s')
    (hrunning : Running s stream) (hconnected : stream.streamId ∉ s'.disconnected) :
    Running s' stream ∧ Extends build boost stream s s' := by
  cases hs with
  | queueOperations operations => exact ⟨⟨hrunning.active, hrunning.notNew⟩, .quiet rfl rfl rfl⟩
  | createStream streamType endpoint options new hnew =>
    exact ⟨⟨hrunning.active, hrunning.notNew⟩, .quiet rfl rfl rfl⟩
  | removeStream removed created =>
    have hne : (stream.streamId != removed.streamId) = true := by
      rw [bne_iff_ne]
      exact fun he => hconnected (he ▸ List.mem_cons_self)
    exact ⟨⟨List.mem_filter.2 ⟨hrunning.active, hne⟩, hrunning.notNew⟩, .quiet rfl rfl rfl⟩
  | applyStreamChanges => exact ⟨⟨hrunning.active, hrunning.notNew⟩, .quiet rfl rfl rfl⟩
  | swap phase => exact ⟨⟨hrunning.active, hrunning.notNew⟩, .quiet rfl rfl rfl⟩
  | collect phase =>
    refine ⟨⟨List.mem_append_left _ hrunning.active, fun hmem => ?_⟩, .quiet rfl rfl rfl⟩
    obtain ⟨other, hother, he⟩ := List.mem_map.1 hmem
    exact hsound.waitingInactive other hother (he ▸ List.mem_map_of_mem hrunning.active)
  | initializeOne phase other rest next changes loaded =>
    have hnotNew := hrunning.notNew
    rw [next, List.map_cons, List.mem_cons, not_or] at hnotNew
    refine ⟨⟨hrunning.active, hnotNew.2⟩, .quiet rfl ?_ rfl⟩
    rw [changesFor_append, changesFor_of_ne (initialChanges_streamId loaded) (Ne.symm hnotNew.1),
      List.append_nil]
  | process phase done => exact ⟨⟨hrunning.active, hrunning.notNew⟩, .quiet rfl rfl rfl⟩
  | executeTask phase operations rest next out changes executed added =>
    obtain ⟨-, -, hannounce⟩ := history_executeTask hsound.idle hsound.history executed added
    refine ⟨⟨hrunning.active, hrunning.notNew⟩, ⟨[_], rfl, ?_, fun hnone => ?_⟩⟩
    · rw [changesFor_append, announce_for hannounce hsound.activeDistinct hrunning.active]
      simp [batchChanges]
    · -- a batch that is not committed leaves the storage as it was
      have hfailed : out.committed = false := hnone _ List.mem_cons_self
      rcases processTask_cases hsound.idle executed with ⟨_, _, _, _, _, hcommitted⟩ | ⟨_, hsame, _, _⟩
      · rw [hfailed] at hcommitted
        cases hcommitted
      · exact congrArg _ hsame
  | loop phase done => exact ⟨⟨hrunning.active, hrunning.notNew⟩, .quiet rfl rfl rfl⟩

theorem sound_run (hsound : Sound build boost db₀ s) (h : Run build boost s s') :
    Sound build boost db₀ s' := by
  induction h with
  | refl => exact hsound
  | tail _ hs ih => exact sound_step ih hs

theorem running_run (hsound : Sound build boost db₀ s) (h : Run build boost s s')
    (hrunning : Running s stream) (hconnected : stream.streamId ∉ s'.disconnected) :
    Running s' stream ∧ Extends build boost stream s s' := by
  induction h with
  | refl => exact ⟨hrunning, .refl s⟩
  | tail hrun hs ih =>
    obtain ⟨hmid, hextends⟩ := ih fun hmem => hconnected (disconnected_step hs hmem)
    obtain ⟨hrunning', hstep⟩ := running_step (sound_run hsound hrun) hs hmid hconnected
    exact ⟨hrunning', hextends.trans hstep⟩

/-- The step that initializes a stream publishes its initial changes, the first it is sent. -/
theorem initializes_spec (hsound : Sound build boost db₀ s)
    (h : Initializes build boost stream s s') (hconnected : stream.streamId ∉ s'.disconnected) :
    ∃ changes, initialChanges build boost stream s.storage.current = .ok changes ∧
      changesFor stream.streamId s.published = [] ∧ s'.published = s.published ++ changes ∧
      s'.delivered = s.delivered ∧ s'.executed = s.executed ∧ s'.storage = s.storage ∧
      Running s' stream := by
  obtain ⟨hs, hpopped⟩ := h
  cases hs with
  | initializeOne phase other rest next changes loaded =>
    obtain ⟨rfl, -⟩ := List.cons.inj (hpopped.symm.trans next)
    have hmem : stream ∈ s.newStreams := by
      rw [hpopped]
      exact List.mem_cons_self
    have hcreated := hsound.new.subset hmem
    have hdistinct : stream.streamId ∉ rest.map (·.streamId) := by
      have hsub : (stream :: rest).Sublist s.created := next ▸ hsound.new
      exact (List.nodup_cons.1 ((hsub.map (·.streamId)).nodup hsound.distinct)).1
    have hids : stream.streamId ∈ s.newStreams.map (·.streamId) := List.mem_map_of_mem hmem
    cases hsound.streams stream hcreated hconnected with
    | waiting _ _ hnotNew _ => exact absurd hids hnotNew
    | running _ hnotNew => exact absurd hids hnotNew
    | starting new active nothing =>
      exact ⟨changes, loaded, nothing, rfl, rfl, rfl, rfl, ⟨active, hdistinct⟩⟩
  | collect phase =>
    have hnone : s.newStreams = [] := hsound.initializing (by rw [phase]; decide)
    rw [hnone] at hpopped
    cases hpopped
  | queueOperations => exact absurd hpopped.symm (List.cons_ne_self _ _)
  | createStream => exact absurd hpopped.symm (List.cons_ne_self _ _)
  | removeStream => exact absurd hpopped.symm (List.cons_ne_self _ _)
  | applyStreamChanges => exact absurd hpopped.symm (List.cons_ne_self _ _)
  | swap => exact absurd hpopped.symm (List.cons_ne_self _ _)
  | process => exact absurd hpopped.symm (List.cons_ne_self _ _)
  | executeTask => exact absurd hpopped.symm (List.cons_ne_self _ _)
  | loop => exact absurd hpopped.symm (List.cons_ne_self _ _)

/-! ## Two streams initialized from the same items -/

/-- Two streams are initialized, one after the other, and no batch is committed in between. -/
inductive Together (build : Build) (boost : BoostDate) (db₀ : Database) (first second : DataStream) :
    Backend → Prop where
  | intro {s₁ s₂ s₃ s₄ s : Backend} (reached : Reached build boost db₀ s₁)
      (initializes : Initializes build boost first s₁ s₂) (between : Run build boost s₂ s₃)
      (noCommit : ∀ r ∈ s₃.executed.drop s₂.executed.length, r.committed = false)
      (initializes' : Initializes build boost second s₃ s₄) (after : Run build boost s₄ s) :
    Together build boost db₀ first second s

theorem batchChanges_of_rolledBack {rs : List BatchRecord} (h : ∀ r ∈ rs, r.committed = false) :
    batchChanges build boost stream rs = [] := by
  rw [batchChanges, List.flatMap_eq_nil_iff]
  intro r hr
  rw [BatchRecord.notices, h r hr]
  rfl

/-- Both streams were sent what one database gave them, and then the same batches. -/
theorem published_together {first second : DataStream} (h : Together build boost db₀ first second s)
    (hfirst : first.streamId ∉ s.disconnected) (hsecond : second.streamId ∉ s.disconnected) :
    ∃ db as bs rs, initialChanges build boost first db = .ok as ∧
      initialChanges build boost second db = .ok bs ∧
      changesFor first.streamId s.published =
        changesFor first.streamId as ++ batchChanges build boost first rs ∧
      changesFor second.streamId s.published =
        changesFor second.streamId bs ++ batchChanges build boost second rs := by
  obtain ⟨hreached, hinit, hbetween, hnoCommit, hinit', hafter⟩ := h
  rename_i s₁ s₂ s₃ s₄
  have hbefore : ∀ streamId, streamId ∉ s.disconnected →
      streamId ∉ s₂.disconnected ∧ streamId ∉ s₃.disconnected ∧ streamId ∉ s₄.disconnected := by
    intro streamId hconnected
    have h₄ : streamId ∉ s₄.disconnected := fun hmem => hconnected (disconnected_run hafter hmem)
    have h₃ : streamId ∉ s₃.disconnected := fun hmem => h₄ (disconnected_step hinit'.step hmem)
    exact ⟨fun hmem => h₃ (disconnected_run hbetween hmem), h₃, h₄⟩
  obtain ⟨hfirst₂, -, hfirst₄⟩ := hbefore _ hfirst
  obtain ⟨-, -, hsecond₄⟩ := hbefore _ hsecond
  have hsound₁ := reached_sound hreached
  have hsound₂ := sound_step hsound₁ hinit.step
  have hsound₃ := sound_run hsound₂ hbetween
  have hsound₄ := sound_step hsound₃ hinit'.step
  -- the first stream is initialized, and gets nothing until the second one is
  obtain ⟨as, has, hnone, hpublished, -, hexecuted, hstorage, hrunning⟩ :=
    initializes_spec hsound₁ hinit hfirst₂
  obtain ⟨bs, hbs, hnone', hpublished', -, hexecuted', -, hrunning'⟩ :=
    initializes_spec hsound₃ hinit' hsecond₄
  obtain ⟨hrunning₃, hbetween'⟩ := running_run hsound₂ hbetween hrunning
    fun hmem => hfirst₄ (disconnected_step hinit'.step hmem)
  obtain ⟨new, hnew, hsent, hsame⟩ := hbetween'.run
  rw [hnew, List.drop_left] at hnoCommit
  obtain ⟨hrunning₄, hstep⟩ := running_step hsound₃ hinit'.step hrunning₃ hfirst₄
  obtain ⟨none, hnoBatch, hsent₄, -⟩ := hstep.run
  obtain rfl : none = [] :=
    List.append_cancel_left (hnoBatch.symm.trans (hexecuted'.trans (List.append_nil _).symm))
  -- from there on both get the batches
  obtain ⟨-, hextends⟩ := running_run hsound₄ hafter hrunning₄ hfirst
  obtain ⟨-, hextends'⟩ := running_run hsound₄ hafter hrunning' hsecond
  obtain ⟨rs, hrs, hall, -⟩ := hextends.run
  obtain ⟨rs', hrs', hall', -⟩ := hextends'.run
  obtain rfl : rs = rs' := List.append_cancel_left (hrs.symm.trans hrs')
  refine ⟨s₁.storage.current, as, bs, rs, has, ?_, ?_, ?_⟩
  · rw [← hstorage, ← hsame hnoCommit]
    exact hbs
  · rw [hall, hsent₄, hsent, batchChanges_of_rolledBack hnoCommit, hpublished, changesFor_append, hnone]
    simp [batchChanges]
  · rw [hall', hpublished', changesFor_append, hnone', List.nil_append]

theorem changesFor_subset {streamId : Int} {changes published : List DataStreamDifferential}
    (h : changes ⊆ published) (hnone : changesFor streamId published = []) :
    changesFor streamId changes = [] := by
  rw [changesFor, List.map_eq_nil_iff, List.filter_eq_nil_iff] at hnone ⊢
  exact fun c hc => hnone c (h hc)

/-- A step delivers nothing, or all there is. -/
theorem delivered_step (hs : Step build boost s s') :
    s'.delivered = s.delivered ∨ s'.changeList = [] := by
  cases hs with
  | applyStreamChanges => exact Or.inr rfl
  | _ => exact Or.inl rfl

/-- What holds of what both streams were sent, holds of what they were delivered,
    as soon as the second one was delivered something. -/
theorem delivered_together {first second : DataStream} {R : List DataStreamChange → List DataStreamChange → Prop}
    (hpublished : ∀ s, Together build boost db₀ first second s → first.streamId ∉ s.disconnected →
      second.streamId ∉ s.disconnected →
      R (changesFor first.streamId s.published) (changesFor second.streamId s.published))
    (h : Together build boost db₀ first second s) (hfirst : first.streamId ∉ s.disconnected)
    (hsecond : second.streamId ∉ s.disconnected) :
    changesFor second.streamId s.delivered = [] ∨
      R (changesFor first.streamId s.delivered) (changesFor second.streamId s.delivered) := by
  obtain ⟨hreached, hinit, hbetween, hnoCommit, hinit', hafter⟩ := h
  rename_i s₁ s₂ s₃ s₄
  have hsound₂ := sound_step (reached_sound hreached) hinit.step
  have hsound₃ := sound_run hsound₂ hbetween
  have hsound₄ := sound_step hsound₃ hinit'.step
  induction hafter with
  | refl =>
    obtain ⟨-, -, hnone, -, hdelivered, -⟩ := initializes_spec hsound₃ hinit' hsecond
    left
    rw [hdelivered]
    exact changesFor_subset hsound₃.past hnone
  | @tail mid last hrun hs ih =>
    have hmid : ∀ streamId, streamId ∉ last.disconnected → streamId ∉ mid.disconnected :=
      fun _ hconnected hmem => hconnected (disconnected_step hs hmem)
    rcases delivered_step hs with hsame | hempty
    · rw [hsame]
      exact ih (hmid _ hfirst) (hmid _ hsecond)
    · right
      have hafter := hrun.tail hs
      have hsound := sound_run hsound₄ hafter
      have htogether : Together build boost db₀ first second last :=
        ⟨hreached, hinit, hbetween, hnoCommit, hinit', hafter⟩
      have hconnected₄ : ∀ streamId, streamId ∉ last.disconnected → streamId ∉ s₄.disconnected :=
        fun _ hconnected hmem => hconnected (disconnected_run hafter hmem)
      have hconnected₃ : ∀ streamId, streamId ∉ last.disconnected → streamId ∉ s₃.disconnected :=
        fun _ hconnected hmem => hconnected₄ _ hconnected (disconnected_step hinit'.step hmem)
      have hconnected₂ : ∀ streamId, streamId ∉ last.disconnected → streamId ∉ s₂.disconnected :=
        fun _ hconnected hmem => hconnected₃ _ hconnected (disconnected_run hbetween hmem)
      obtain ⟨-, -, -, -, -, -, -, hrunning₂⟩ :=
        initializes_spec (reached_sound hreached) hinit (hconnected₂ _ hfirst)
      obtain ⟨-, -, -, -, -, -, -, hrunning₄⟩ :=
        initializes_spec hsound₃ hinit' (hconnected₄ _ hsecond)
      have hrun₂ : Run build boost s₂ last := (hbetween.tail hinit'.step).trans hafter
      have hactive := (running_run hsound₂ hrun₂ hrunning₂ hfirst).1.active
      have hactive' := (running_run hsound₄ hafter hrunning₄ hsecond).1.active
      have hall := hsound.delivered first (hsound.active _ hactive) hfirst
      have hall' := hsound.delivered second (hsound.active _ hactive') hsecond
      rw [hempty, changesFor_nil, List.append_nil] at hall hall'
      rw [hall, hall']
      exact hpublished last htogether hfirst hsecond

/-- Both streams were sent what the restriction relates, and the default stream
    only items of its type. -/
theorem restrict_together {type : StreamableType} {k : Int} {all one : DataStream}
    (hpair : Pair type k all one)
    (h : Together build boost db₀ all one s ∨ Together build boost db₀ one all s)
    (hall : all.streamId ∉ s.disconnected) (hone : one.streamId ∉ s.disconnected) :
    changesFor one.streamId s.published =
        (changesFor all.streamId s.published).filterMap (·.restrict k) ∧
      ∀ c ∈ changesFor all.streamId s.published, ∀ items ∈ c.items, items.type = type := by
  obtain ⟨db, as, bs, rs, has, hbs, hsent, hsent'⟩ : ∃ db as bs rs,
      initialChanges build boost all db = .ok as ∧ initialChanges build boost one db = .ok bs ∧
      changesFor all.streamId s.published =
        changesFor all.streamId as ++ batchChanges build boost all rs ∧
      changesFor one.streamId s.published =
        changesFor one.streamId bs ++ batchChanges build boost one rs := by
    rcases h with h | h
    · exact published_together h hall hone
    · obtain ⟨db, bs, as, rs, hbs, has, hsent', hsent⟩ := published_together h hone hall
      exact ⟨db, as, bs, rs, has, hbs, hsent, hsent'⟩
  obtain ⟨hrestrict, htype⟩ := initial_restrict hpair has hbs
  rw [hsent, hsent', hrestrict, batchChanges_restrict hpair, List.filterMap_append]
  refine ⟨rfl, fun c hc => ?_⟩
  rcases List.mem_append.1 hc with hc | hc
  · exact htype c hc
  · exact type_batchChanges hpair rs c hc

/-- In every interleaving a stream of one id that is initialized from the same
    storage as a default stream is sent what the default stream is, restricted to
    the id. Once both were delivered something the same holds of what they were
    delivered, and after every change of the default stream their observers hold
    the same item. Loading by id finds the element of all that is loaded. -/
theorem single_id_stream {type : StreamableType} {k : Int} {all one : DataStream}
    (hpair : Pair type k all one)
    (h : Together build boost db₀ all one s ∨ Together build boost db₀ one all s)
    (hall : all.streamId ∉ s.disconnected) (hone : one.streamId ∉ s.disconnected) :
    changesFor one.streamId s.published =
        (changesFor all.streamId s.published).filterMap (·.restrict k) ∧
      (changesFor all.streamId s.delivered ≠ [] → changesFor one.streamId s.delivered ≠ [] →
        changesFor one.streamId s.delivered =
          (changesFor all.streamId s.delivered).filterMap (·.restrict k)) ∧
      (∀ past, past <+: changesFor all.streamId s.published →
        (type = .hotel → HoldSame .hotel k past) ∧
        (type = .reservation → HoldSame .reservation k past)) ∧
      ∀ db, (∀ items, loadAllReservations build boost db = .ok items →
          loadReservationById build boost db k = .ok (items.find? fun r => r.id == k)) ∧
        ∀ items, loadAllHotels db = .ok items →
          loadHotelById db k = .ok (items.find? fun hotel => hotel.id == k) := by
  obtain ⟨hrestrict, htype⟩ := restrict_together hpair h hall hone
  refine ⟨hrestrict, fun hnonempty hnonempty' => ?_, fun past hpast => ?_, fun db => ?_⟩
  · rcases h with h | h
    · have hdelivered := delivered_together (R := fun as bs => bs = as.filterMap (·.restrict k))
        (fun s h hall hone => (restrict_together hpair (.inl h) hall hone).1) h hall hone
      exact hdelivered.resolve_left hnonempty'
    · have hdelivered := delivered_together (R := fun bs as => bs = as.filterMap (·.restrict k))
        (fun s h hone hall => (restrict_together hpair (.inr h) hall hone).1) h hone hall
      exact hdelivered.resolve_left hnonempty
  · have hpastType := fun c hc => htype c (hpast.subset hc)
    constructor
    · rintro rfl
      exact holdSame_hotels k hpastType
    · rintro rfl
      exact holdSame_reservations k hpastType
  · exact ⟨fun items hitems => loadReservationById_eq hitems k,
      fun items hitems => loadHotelById_eq hitems k⟩

/-- The stream of the reservation with an id. -/
def byIdStream (streamId id : Int) : DataStream :=
  { streamId, streamType := .reservation, endpoint := "reservation.by_id", options := .obj [("id", .int id)] }

theorem pair_byIdStream (streamId streamId' id : Int) :
    Pair .reservation id (reservationStream streamId) (byIdStream streamId' id) where
  endpoint := Or.inr ⟨rfl, rfl⟩
  default := rfl
  allType := rfl
  oneType := rfl
  id := rfl

/-- Both streams are created, and a reservation is stored that has the id. -/
theorem single_id_stream_oneNight : ∃ s : Backend,
    changesFor 2 s.published = (changesFor 1 s.published).filterMap (·.restrict 1) ∧
      (changesFor 2 s.published).length = 2 := by
  have h₀ : Reached .debug .gregorian {} { storage := { current := {} } } := .init rfl
  have h₁ := h₀.step (.createStream _ .reservation "" .null (reservationStream 1) rfl)
  have h₂ := h₁.step (.createStream _ .reservation "reservation.by_id" (.obj [("id", .int 1)])
    (byIdStream 2 1) rfl)
  have h₃ := h₂.step (.queueOperations _ [.storeNew (.reservation (some Reservation.oneNight))])
  have h₄ := h₃.step (.swap _ rfl)
  have h₅ := h₄.step (.collect _ rfl)
  have hnone : ∀ r ∈ ([] : List BatchRecord), r.committed = false := by simp
  have htogether := Together.intro h₅ ⟨.initializeOne _ rfl (reservationStream 1) _ rfl _ rfl, rfl⟩
    .refl hnone ⟨.initializeOne _ rfl (byIdStream 2 1) _ rfl _ rfl, rfl⟩
    ((Relation.ReflTransGen.refl.tail (.process _ rfl rfl)).tail (.executeTask _ rfl _ _ rfl _ _ rfl rfl))
  have hall := single_id_stream (pair_byIdStream 1 2 1) (.inl htogether) (by simp) (by simp)
  exact ⟨_, hall.1, rfl⟩

end Backend

end HotelPms

import HotelPms.Sqlite.Booking

/- What the observers of all reservations hold.

   An observer gets the loaded reservations once, and from then on the changes of
   the batches. Both are written apart: a change is made of the item of the
   operation, the loaded reservations of the rows. They agree as long as no
   update brings back a deleted reservation, whose row a delete leaves behind
   (`Deletion.lean`), and no description holds a NUL, at which reading stops. The
   observers that do not hold the item ignore such an update; those that come
   later load it (`late_observer`).

   `Agrees` is kept by every operation (`agrees_effect`), so by every batch and by
   every run, and `observers_agree` says it of every observer whenever it came. -/
namespace HotelPms
open Lib SqliteStorage DataStreamManager SqliteBackend Reservation

/-- The same reservation, and its atoms have the same ids. -/
structure Agree (a b : Reservation) : Prop extends Same a b where
  atomIds : a.atoms.map (·.id) = b.atoms.map (·.id)

/-- A reservation of an operation is valid, without owner and not temporary. -/
def Ordinary (op : Operation) : Prop :=
  ∀ r ∈ op.reservation, r.isValid = true ∧ r.reservationOwnerPersonId = none ∧ r.status ≠ .temporary

instance : DecidablePred Ordinary := fun op => inferInstanceAs (Decidable (∀ r ∈ op.reservation,
  r.isValid = true ∧ r.reservationOwnerPersonId = none ∧ r.status ≠ .temporary))

/-- No description holds a NUL, and no update is of a reservation whose atoms were deleted. -/
def InSight (db : Database) : Operation → Prop
  | .storeNew (.reservation (some r)) => '\x00' ∉ r.description.toList
  | .update (.reservation (some r)) => '\x00' ∉ r.description.toList ∧ atomsOf db r.id ≠ []
  | _ => True

/-- An observer holds what loading returns. -/
def Agrees (build : Build) (boost : BoostDate) (db : Database) (items : List Reservation) : Prop :=
  ∃ loaded, Loads build boost db loaded ∧ List.Forall₂ Agree items loaded

theorem Agree.refl (r : Reservation) : Agree r r := ⟨Same.refl r, rfl⟩

theorem agrees_asLoaded {r : Reservation} (howner : r.reservationOwnerPersonId = none)
    (hstatus : r.status ≠ .temporary) (htext : '\x00' ∉ r.description.toList) :
    Agree r (asLoaded r) := by
  refine ⟨⟨rfl, rfl, equals_iff.2 ⟨?_, ?_, howner, rfl, rfl, (places_asLoaded r).symm⟩⟩, ?_⟩
  · exact (if_neg hstatus).symm
  · exact (readText_of_noNul htext).symm
  · rw [asLoaded, List.map_map]
    rfl

/-! ## The vector of an observer -/

namespace VectorDataStreamObserver

theorem updateItem_eq_map {α : Type} (id : α → Int) {items : List α} (h : (items.map id).Nodup)
    (item : α) : updateItem id items item = items.map fun x => if id x = id item then item else x := by
  induction items with
  | nil => rfl
  | cons x items ih =>
    rw [List.map_cons, List.nodup_cons] at h
    obtain ⟨hx, hitems⟩ := h
    by_cases hid : id x = id item
    · have hothers : ∀ y ∈ items, (if id y = id item then item else y) = y := by
        intro y hy
        apply if_neg
        intro he
        exact hx (hid.trans he.symm ▸ List.mem_map_of_mem hy)
      rw [List.map_cons, if_pos hid, List.map_congr_left hothers, List.map_id']
      simp only [updateItem, List.findIdx?_cons, beq_iff_eq.2 hid]
      rfl
    · rw [List.map_cons, if_neg hid, ← ih hitems]
      simp only [updateItem, List.findIdx?_cons, beq_eq_false_iff_ne.2 hid]
      cases items.findIdx? fun y => id y == id item with
      | none => rfl
      | some i => rfl

end VectorDataStreamObserver

section
variable {build : Build} {boost : BoostDate} {db db' : Database} {items loaded : List Reservation}

theorem ids_of_agrees (h : List.Forall₂ Agree items loaded) :
    items.map (·.id) = loaded.map (·.id) := by
  induction h with
  | nil => rfl
  | cons hab _ ih => rw [List.map_cons, List.map_cons, ih, hab.id]

/-- A stream of all reservations. -/
def AllReservations (stream : DataStream) : Prop :=
  stream.streamType = .reservation ∧ stream.endpoint = ""

theorem AllReservations.handler {stream : DataStream} (h : AllReservations stream) :
    findHandler stream = some .default := by
  rw [findHandler, h.1, h.2]
  rfl

theorem AllReservations.received {stream : DataStream} (h : AllReservations stream)
    (type : StreamableType) (change : DataStreamChange) :
    DataStreamManager.received stream type change =
      if type = .reservation then [change] else [] := by
  rw [DataStreamManager.received, h.1, h.handler]
  simp only [DataStreamHandler.react, List.map_cons, List.map_nil, eq_comm]

theorem agrees_store {r r' : Reservation} {op : Operation} (hcarried : op.reservation = some r)
    (hordinary : Ordinary op) (htext : '\x00' ∉ r.description.toList)
    (hstored : storeNewReservationAndAtoms build boost db r = .ok (db', r')) :
    Agree r' (asLoaded r') := by
  obtain ⟨-, howner, hstatus⟩ := hordinary r hcarried
  obtain ⟨status, -, -, rfl⟩ := of_storeNewReservationAndAtoms hstored
  exact agrees_asLoaded howner hstatus htext

theorem agrees_update {r r' : Reservation} {op : Operation} (hcarried : op.reservation = some r)
    (hordinary : Ordinary op) (htext : '\x00' ∉ r.description.toList)
    (hupdated : updateReservation build boost db r = .ok (true, db', r')) :
    Agree r' (asLoaded r') := by
  obtain ⟨-, howner, hstatus⟩ := hordinary r hcarried
  obtain ⟨status, -, -, -, rfl⟩ := of_updateReservation hupdated
  exact agrees_asLoaded howner hstatus htext

/-- What an operation announces does to an observer what it does to the loaded reservations. -/
theorem agrees_effect {stream : DataStream} (hall : AllReservations stream) {op : Operation}
    {notices : List Notice} (hop : Ordinary op ∧ InSight db op) (h : Agrees build boost db items)
    (he : Effect build boost db op db' notices) :
    ∃ items', applyChanges items (receivedAll stream notices) = .ok items' ∧
      Agrees build boost db' items' := by
  obtain ⟨hordinary, hsight⟩ := hop
  obtain ⟨loaded, hloads, hsame⟩ := h
  simp only [receivedAll, hall.received]
  cases he with
  | eraseAllData => exact ⟨[], rfl, [], loads_empty, .nil⟩
  | storeNull item null => exact ⟨items, rfl, loaded, hloads, hsame⟩
  | storeHotel hotel => exact ⟨items, rfl, loaded, hloads.of_eq rfl rfl, hsame⟩
  | updateHotel hotel hotel' db' hasId updated =>
    obtain ⟨-, rfl, -⟩ := of_updateHotel updated
    exact ⟨items, rfl, loaded, hloads.of_eq rfl rfl, hsame⟩
  | storeReservation r r' db' stored =>
    have hnew := agrees_store rfl hordinary hsight stored
    exact ⟨items ++ [r'], rfl, _, loads_store hloads (hordinary r rfl).1 stored,
      List.rel_append hsame (.cons hnew .nil)⟩
  | updateReservation r r' db' hasId updated =>
    have hnew := agrees_update rfl hordinary hsight.1 updated
    have hids : (items.map fun r : Reservation => r.id).Nodup := by
      rw [ids_of_agrees hsame]
      exact hloads.distinct
    refine ⟨items.map fun item => if item.id = r'.id then r' else item, ?_, _,
      loads_update hloads (hordinary r rfl).1 updated hsight.2, ?_⟩
    · rw [← VectorDataStreamObserver.updateItem_eq_map (fun r : Reservation => r.id) hids]
      rfl
    · rw [List.forall₂_map_left_iff, List.forall₂_map_right_iff]
      apply hsame.imp
      intro item item' hitem
      rw [hitem.id]
      split
      · exact hnew
      · exact hitem
  | deleteReservation id =>
    refine ⟨_, rfl, _, loads_delete hloads id, ?_⟩
    apply List.rel_filter _ hsame
    intro item item' hitem
    dsimp only
    rw [hitem.id]

theorem agrees_succeed {stream : DataStream} (hall : AllReservations stream)
    {streams : List DataStream} {ops : Operations} {rs : List TaskResult}
    {cs : List DataStreamDifferential} (hsucceed : Succeed build boost streams db ops db' rs cs)
    (hops : Along build boost (fun db op => Ordinary op ∧ InSight db op) db ops)
    (h : Agrees build boost db items) :
    ∃ items', applyChanges items (receivedAll stream (noticesOf build boost db ops)) = .ok items' ∧
      Agrees build boost db' items' := by
  induction hsucceed generalizing items with
  | nil db => exact ⟨items, rfl, h⟩
  | cons executed succeeded _ _ ih =>
    obtain ⟨items₁, happly₁, hagrees₁⟩ :=
      agrees_effect hall hops.1 h (effect_of_succeeded executed succeeded)
    obtain ⟨items₂, happly₂, hagrees₂⟩ := ih (hops.2 _ executed) hagrees₁
    refine ⟨items₂, ?_, hagrees₂⟩
    rw [noticesOf, executed]
    dsimp only
    rw [receivedAll, List.flatMap_append, applyChanges_append]
    exact (Except.bind_ok happly₁ _).trans happly₂

/-- Batches do to an observer what they do to the storage. -/
theorem agrees_history {stream : DataStream} (hall : AllReservations stream) {db₀ : Database}
    {rs : List BatchRecord} (hhistory : History build boost db₀ rs db)
    (hops : AlongHistory build boost (fun db op => Ordinary op ∧ InSight db op) rs)
    (h : Agrees build boost db₀ items) :
    ∃ items', applyChanges items (batchChanges build boost stream rs) = .ok items' ∧
      Agrees build boost db items' := by
  induction hhistory with
  | nil => exact ⟨items, rfl, h⟩
  | commit past succeed ih =>
    obtain ⟨items₁, happly₁, hagrees₁⟩ := ih fun r hr => hops r (List.mem_append_left _ hr)
    have hlast := hops _ (List.mem_append_right _ List.mem_cons_self) rfl
    obtain ⟨items₂, happly₂, hagrees₂⟩ := agrees_succeed hall succeed hlast hagrees₁
    refine ⟨items₂, ?_, hagrees₂⟩
    rw [batchChanges, List.flatMap_append, applyChanges_append]
    refine (Except.bind_ok happly₁ _).trans ?_
    rw [List.flatMap_singleton]
    exact happly₂
  | rollback past fails ih =>
    obtain ⟨items₁, happly₁, hagrees₁⟩ := ih fun r hr => hops r (List.mem_append_left _ hr)
    refine ⟨items₁, ?_, hagrees₁⟩
    rw [batchChanges, List.flatMap_append, applyChanges_append]
    exact (Except.bind_ok happly₁ _).trans rfl

end

namespace Backend

variable {build : Build} {boost : BoostDate}

/-- In every interleaving, on a new database or on what earlier batches made of one,
    in which the committed batches store and update ordinary reservations in sight:
    whenever an observer of all reservations was created, once it has started and
    applied all that is queued for it, it holds the reservations that loading
    returns, in the same order and revision. -/
theorem observers_agree {db₀ : Database} {earlier : List BatchRecord}
    (hearlier : History build boost {} earlier db₀) {s : Backend} (h : Reached build boost db₀ s)
    (hops : AlongHistory build boost (fun db op => Ordinary op ∧ InSight db op)
      (earlier ++ s.executed))
    (stream : DataStream) (hcreated : stream ∈ s.created)
    (hconnected : stream.streamId ∉ s.disconnected) (hall : AllReservations stream)
    (hstarted : stream ∉ s.uninitializedStreams ∧ stream ∉ s.newStreams) :
    ∃ items loaded, applyChanges [] (changesFor stream.streamId s.delivered ++
        changesFor stream.streamId s.changeList) = .ok items ∧
      loadAllReservations build boost s.storage.current = .ok loaded ∧
      List.Forall₂ Agree items loaded := by
  have hsound := reached_sound h
  rw [hsound.delivered stream hcreated hconnected]
  cases hsound.streams stream hcreated hconnected with
  | waiting uninitialized _ _ _ => exact absurd uninitialized hstarted.1
  | starting new _ _ => exact absurd new hstarted.2
  | running _ _ k bound snapshot loaded sent =>
    obtain ⟨hbefore, hafter⟩ := hsound.history.split bound
    -- what the stream was started with
    have hfirst : AlongHistory build boost (fun db op => Ordinary op ∧ InSight db op)
        (earlier ++ s.executed.take k) := by
      intro r hr
      rcases List.mem_append.1 hr with hr | hr
      · exact hops r (List.mem_append_left _ hr)
      · exact hops r (List.mem_append_right _ (List.mem_of_mem_take hr))
    obtain ⟨-, -, held, hheld, -⟩ := agrees_history hall (hearlier.append hbefore) hfirst
      ⟨[], loads_empty, .nil⟩
    have hload := loadAllReservations_of_loads hheld
    have hsnapshot : changesFor stream.streamId snapshot =
        [.itemsAdded (.reservations held), .initialized] := by
      obtain ⟨changes, hchanges, hrest⟩ := Except.bind_eq_ok.1 loaded
      rw [hall.handler] at hchanges
      simp only [DataStreamHandler.initializeStream, hall.1] at hchanges
      cases (Except.bind_ok hload _).symm.trans hchanges
      cases hrest
      exact changesFor_map _ _
    -- what it was sent since
    have hlater : AlongHistory build boost (fun db op => Ordinary op ∧ InSight db op)
        (s.executed.drop k) :=
      fun r hr => hops r (List.mem_append_right _ (List.mem_of_mem_drop hr))
    obtain ⟨items, happly, loaded, hloads, hagrees⟩ := agrees_history hall hafter hlater
      ⟨held, hheld, List.forall₂_same.2 fun r _ => Agree.refl r⟩
    refine ⟨items, loaded, ?_, loadAllReservations_of_loads hloads, hagrees⟩
    rw [sent, hsnapshot]
    exact happly

/-- An observer that was there when one reservation was stored. -/
theorem observers_agree_oneNight : ∃ (s : Backend) (items loaded : List Reservation),
    s.executed.length = 1 ∧
    applyChanges [] (changesFor 1 s.delivered ++ changesFor 1 s.changeList) = .ok items ∧
    loadAllReservations .debug .gregorian s.storage.current = .ok loaded ∧
    List.Forall₂ Agree items loaded := by
  have h₀ : Reached .debug .gregorian {} { storage := { current := {} } } := .init rfl
  have h₁ := h₀.step (.createStream _ .reservation "" .null (reservationStream 1) rfl)
  have h₂ := h₁.step (.queueOperations _ [.storeNew (.reservation (some oneNight))])
  have h₃ := h₂.step (.swap _ rfl)
  have h₄ := h₃.step (.collect _ rfl)
  have h₅ := h₄.step (.initializeOne _ rfl _ _ rfl _ rfl)
  have h₆ := h₅.step (.process _ rfl rfl)
  have h₇ := h₆.step (.executeTask _ rfl _ _ rfl _ [_] rfl rfl)
  have hordinary : Ordinary (.storeNew (.reservation (some oneNight))) := by
    intro r hr
    cases hr
    exact ⟨rfl, rfl, nofun⟩
  have hsight : ∀ db, InSight db (.storeNew (.reservation (some oneNight))) := by
    intro db
    show '\x00' ∉ oneNight.description.toList
    decide
  obtain ⟨items, loaded, happly, hload, hagrees⟩ := observers_agree .nil h₇ (by
    intro r hr _
    cases List.mem_singleton.1 hr
    exact ⟨⟨hordinary, hsight _⟩, fun _ _ => trivial⟩) (reservationStream 1)
    List.mem_cons_self List.not_mem_nil ⟨rfl, rfl⟩ ⟨List.not_mem_nil, List.not_mem_nil⟩
  exact ⟨_, items, loaded, rfl, happly, hload, hagrees⟩

/-- A reservation is stored, deleted, and updated with its old revision. The observer
    that was there from the start holds nothing in the end, but loading, and so any
    later observer, finds the reservation. -/
theorem late_observer : ∃ s : Backend, Reached .debug .gregorian {} s ∧
    s.created = [reservationStream 1] ∧ s.activeStreams = [reservationStream 1] ∧
    s.newStreams = [] ∧ s.disconnected = [] ∧ (∀ r ∈ s.executed, r.committed = true) ∧
    s.executed.map (·.operations) = [[.storeNew (.reservation (some oneNight))],
      [.delete .reservation 1],
      [.update (.reservation (some { oneNight with id := 1, revision := 1 }))]] ∧
    (∀ r ∈ s.executed, ∀ op ∈ r.operations, Ordinary op) ∧
    applyChanges [] (changesFor 1 s.delivered ++ changesFor 1 s.changeList) = .ok [] ∧
    ∃ r rs, loadAllReservations .debug .gregorian s.storage.current = .ok (r :: rs) := by
  have h₀ : Reached .debug .gregorian {} { storage := { current := {} } } := .init rfl
  have h₁ := h₀.step (.createStream _ .reservation "" .null (reservationStream 1) rfl)
  have h₂ := h₁.step (.queueOperations _ [.storeNew (.reservation (some oneNight))])
  have h₃ := h₂.step (.queueOperations _ [.delete .reservation 1])
  have h₄ := h₃.step (.queueOperations _
    [.update (.reservation (some { oneNight with id := 1, revision := 1 }))])
  have h₅ := h₄.step (.swap _ rfl)
  have h₆ := h₅.step (.collect _ rfl)
  have h₇ := h₆.step (.initializeOne _ rfl _ _ rfl _ rfl)
  have h₈ := h₇.step (.process _ rfl rfl)
  have h₉ := h₈.step (.executeTask _ rfl _ _ rfl _ [_] rfl rfl)
  have h₁₀ := h₉.step (.executeTask _ rfl _ _ rfl _ [_] rfl rfl)
  have h₁₁ := h₁₀.step (.executeTask _ rfl _ _ rfl _ [_] rfl rfl)
  refine ⟨_, h₁₁, rfl, rfl, rfl, rfl, by simp, rfl, ?_, rfl, ?_⟩
  · decide
  · exact ⟨_, _, rfl⟩

end Backend

end HotelPms

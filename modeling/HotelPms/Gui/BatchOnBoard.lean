import HotelPms.Gui.PlanningWidget
import HotelPms.Sqlite.Observers

/- A committed batch on a client's planning board.

   The storage takes a batch as a whole. The board gets one change for each of its
   operations, and asks after each of them whether the room is free. So a batch
   after which no two reservations meet may still not go through: of two
   reservations that exchange their rooms the first is refused while the second is
   still in its place (`exchange_refused`).

   The board takes the batch exactly if each operation fits among the reservations
   that are stored when it is its turn (`batch_on_board_iff`). It then shows what is
   stored after the batch, also where an update brings a deleted reservation back,
   since updating on the board is removing and adding. -/
namespace HotelPms
open Lib SqliteStorage DataStreamManager SqliteBackend Reservation

namespace PlanningWidget

/-- A change of the stream of reservations, as the observer of the widget takes it. -/
def takeChange (build : Build) (c : Context) : DataStreamChange → Except Fault Context
  | .itemsAdded newItems => do reservationsAdded build c (← newItems.getReservations)
  | .itemsUpdated updatedItems => do reservationsUpdated build c (← updatedItems.getReservations)
  | .itemsRemoved removedItems => .ok (reservationsRemoved c removedItems)
  | .initialized => .ok c
  | .cleared => .ok (allReservationsRemoved c)

/-- Changes one after another. -/
def takeChanges (build : Build) (c : Context) (changes : List DataStreamChange) :
    Except Fault Context :=
  changes.foldlM (takeChange build) c

/-- The board shows what is stored: loading makes the same of both. -/
structure Shown (build : Build) (boost : BoostDate) (db : Database) (c : Context) : Prop where
  sound : c.Sound
  stored : ∃ loaded, Loads build boost db loaded ∧ (c.items.map asLoaded).Perm loaded

section
variable {build : Build} {boost : BoostDate} {db db' : Database} {c c' : Context} {r r' : Reservation}

theorem takeChanges_added (c : Context) (r : Reservation) :
    takeChanges build c [.itemsAdded (.reservations [r])] = c.addReservation build r := by
  have hone : reservationsAdded build c [r] = c.addReservation build r := bind_pure _
  rw [← hone]
  exact bind_pure (reservationsAdded build c [r])

theorem takeChanges_updated (c : Context) (r : Reservation) :
    takeChanges build c [.itemsUpdated (.reservations [r])] =
      (c.removeReservation r.id).addReservation build r := by
  have hone : reservationsUpdated build c [r] = (c.removeReservation r.id).addReservation build r :=
    bind_pure _
  rw [← hone]
  exact bind_pure (reservationsUpdated build c [r])

theorem takeChanges_append (c : Context) (cs ds : List DataStreamChange) :
    takeChanges build c (cs ++ ds) = (takeChanges build c cs).bind fun c => takeChanges build c ds := by
  rw [takeChanges, List.foldlM_append]
  rfl

/-! ## What the board and the storage have in common -/

theorem ids_map_asLoaded (items : List Reservation) :
    (items.map asLoaded).map (·.id) = items.map (·.id) := by
  rw [List.map_map]
  rfl

theorem Shown.distinct (h : Shown build boost db c) : (c.items.map (·.id)).Nodup := by
  obtain ⟨loaded, hloads, hperm⟩ := h.stored
  rw [← ids_map_asLoaded]
  exact (hperm.map (·.id)).nodup_iff.2 hloads.distinct

/-- A reservation meets the same on the board as in the storage. -/
theorem free_iff {items loaded : List Reservation} (hperm : (items.map asLoaded).Perm loaded)
    (r : Reservation) (among : Int → Prop) :
    (∀ item ∈ items, among item.id → r.intersectsWith item = false) ↔
      ∀ item ∈ loaded, among item.id → r.intersectsWith item = false := by
  have hmeets : ∀ item, r.intersectsWith (asLoaded item) = r.intersectsWith item := by
    intro item
    rw [PlanningBoard.intersectsWith_comm, intersectsWith_of_places (places_asLoaded item),
      PlanningBoard.intersectsWith_comm]
  calc (∀ item ∈ items, among item.id → r.intersectsWith item = false)
      ↔ ∀ item ∈ items, among (asLoaded item).id → r.intersectsWith (asLoaded item) = false := by
        simp only [hmeets, asLoaded_id]
    _ ↔ ∀ item ∈ items.map asLoaded, among item.id → r.intersectsWith item = false :=
        (List.forall_mem_map (P := fun item => among item.id → r.intersectsWith item = false)).symm
    _ ↔ _ := forall_congr' fun item => by rw [hperm.mem_iff]

theorem readText_readText (text : String) : readText (readText text) = readText text := by
  apply readText_of_noNul
  rw [readText, String.toList_ofList]
  intro hmem
  have hne := List.mem_takeWhile_imp hmem
  simp at hne

theorem status_ne_temporary {text : String} {status : ReservationStatus}
    (h : parseReservationStatus build text = .ok status) : status ≠ .temporary := by
  rintro rfl
  rw [parseReservationStatus] at h
  split_ifs at h
  any_goals cases h
  obtain ⟨_, -, hunknown⟩ := Except.bind_eq_ok.1 h
  cases hunknown

theorem Holds.asLoaded_eq {row : Int × ReservationRow} (h : Holds build boost db row r) :
    asLoaded r = r := by
  have hdescription : readText r.description = r.description := by
    rw [h.description, readText_readText]
  have hatoms : (r.atoms.map fun a => { a with revision := 0 }) = r.atoms := by
    conv_rhs => rw [← List.map_id r.atoms]
    apply List.map_congr_left
    intro a ha
    rw [← h.unrevised a ha]
    rfl
  rw [asLoaded, if_neg (status_ne_temporary h.status), hdescription, hatoms, ← h.owner]

theorem Loads.asLoaded_eq {loaded : List Reservation} (h : Loads build boost db loaded) :
    ∀ item ∈ loaded, asLoaded item = item := by
  intro item hitem
  obtain ⟨row, -, hholds⟩ := exists_of_forall₂ h.rows.flip hitem
  exact Holds.asLoaded_eq hholds

theorem shown_loaded {loaded : List Reservation} (hloads : Loads build boost db loaded)
    (hadded : reservationsAdded build {} loaded = .ok c) : Shown build boost db c := by
  obtain ⟨hs, hitems, -⟩ := (reservationStore build).addAll_spec Context.sound_empty hadded
  refine ⟨hs, loaded, hloads, ?_⟩
  have hall : c.items = loaded := hitems
  rw [hall, List.map_congr_left (Loads.asLoaded_eq hloads), List.map_id']

/-! ## Updates -/

/-- What is loaded after an update with a valid reservation: that one, and all others
    that were loaded before. -/
theorem loads_update_perm {loaded : List Reservation} (h : Loads build boost db loaded)
    (hvalid : r.isValid = true) (hupdated : updateReservation build boost db r = .ok (true, db', r')) :
    ∃ loaded', Loads build boost db' loaded' ∧
      ((loaded.filter fun item => item.id ≠ r.id) ++ [asLoaded r']).Perm loaded' := by
  obtain ⟨change, hu⟩ := updated_of_updateReservation hvalid hupdated
  obtain ⟨loaded', hloads', hmem⟩ := loads_update_any h hvalid hupdated
  refine ⟨loaded', hloads', ?_⟩
  have hdistinct : ((loaded.filter fun item => item.id ≠ r.id) ++ [asLoaded r']).Nodup := by
    rw [List.nodup_append]
    refine ⟨h.distinct.of_map.filter _, List.nodup_singleton _, ?_⟩
    intro item hitem new hnew heq
    have hne : item.id ≠ r.id := by simpa using (List.mem_filter.1 hitem).2
    rw [heq, List.mem_singleton.1 hnew, asLoaded_id, hu.id] at hne
    exact hne rfl
  rw [List.perm_ext_iff_of_nodup hdistinct hloads'.distinct.of_map]
  intro item
  rw [List.mem_append, List.mem_filter, List.mem_singleton, decide_eq_true_eq]
  constructor
  · rintro (⟨hitem, hne⟩ | rfl)
    · -- the row of another reservation is still there
      obtain ⟨row, hrow, hholds⟩ := exists_of_forall₂ h.rows.flip hitem
      obtain ⟨hrowmem, hatoms⟩ := List.mem_filter.1 hrow
      have hother : row.1 ≠ r.id := by
        rw [← hholds.id]
        exact hne
      have hvisible : row ∈ visibleRows db' := by
        refine List.mem_filter.2 ⟨?_, by rw [hu.atoms row.1 hother]; exact hatoms⟩
        rw [hu.rows, ← hu.unchanged row hother]
        exact List.mem_map_of_mem hrowmem
      obtain ⟨item', hitem', hholds'⟩ := exists_of_forall₂ hloads'.rows hvisible
      have hid : item'.id = item.id := hholds'.id.trans hholds.id.symm
      rcases hmem item' hitem' with heq | ⟨hold, -⟩
      · rw [heq, asLoaded_id, hu.id] at hid
        exact absurd hid.symm hne
      · rwa [List.inj_on_of_nodup_map h.distinct hold hitem hid] at hitem'
    · -- so is the updated row, and its atoms make it visible
      obtain ⟨-, -, ⟨found, hget, -⟩, -, -⟩ := of_updateReservation hupdated
      have hrow := Table.mem_rows_iff.2 hget
      have hnew := hu.changed _ hrow rfl
      have hvisible : change (r.id, found) ∈ visibleRows db' := by
        refine List.mem_filter.2 ⟨?_, hnew.visible⟩
        rw [hu.rows]
        exact List.mem_map_of_mem hrow
      obtain ⟨item', hitem', hholds'⟩ := exists_of_forall₂ hloads'.rows hvisible
      rcases hmem item' hitem' with heq | ⟨-, hne⟩
      · rwa [heq] at hitem'
      · rw [hholds'.id, hu.ids, hu.id] at hne
        exact absurd rfl hne
  · intro hitem
    rcases hmem item hitem with heq | ⟨hold, hne⟩
    · exact Or.inr heq
    · exact Or.inl ⟨hold, hu.id ▸ hne⟩

/-! ## One operation -/

theorem id_stored (h : storeNewReservationAndAtoms build boost db r = .ok (db', r')) : r'.id ≠ 0 := by
  obtain ⟨status, -, -, rfl⟩ := of_storeNewReservationAndAtoms h
  have hseq := db.reservation.nonneg
  show db.reservation.seq + 1 ≠ 0
  omega

theorem accepts_stored {loaded : List Reservation} (hs : c.Sound) (hloads : Loads build boost db loaded)
    (hperm : (c.items.map asLoaded).Perm loaded)
    (hstored : storeNewReservationAndAtoms build boost db r = .ok (db', r')) :
    (∃ c', c.addReservation build r' = .ok c') ↔
      FitsIn build boost db (.storeNew (.reservation (some r))) := by
  have hload := loadAllReservations_of_loads hloads
  have hplaces : r'.places = r.places := (places_asLoaded r').symm.trans (places_stored hstored)
  rw [Context.accepts_iff_items hs]
  have hfree := free_iff hperm r' fun _ => True
  constructor
  · rintro ⟨-, hvalid, hmeets⟩
    refine ⟨(isValid_of_places hplaces).symm.trans hvalid, fun items hitems item hitem => ?_⟩
    cases hload.symm.trans hitems
    rw [← intersectsWith_of_places hplaces]
    exact hfree.1 (fun item hitem _ => hmeets item hitem) item hitem trivial
  · rintro ⟨hvalid, hmeets⟩
    refine ⟨Or.inr (id_stored hstored), (isValid_of_places hplaces).trans hvalid, ?_⟩
    refine fun item hitem => hfree.2 (fun item hitem _ => ?_) item hitem trivial
    rw [intersectsWith_of_places hplaces]
    exact hmeets _ hload item hitem

theorem accepts_updated {loaded : List Reservation} (hshown : Shown build boost db c)
    (hloads : Loads build boost db loaded) (hperm : (c.items.map asLoaded).Perm loaded)
    (hid : r.id ≠ 0) (hupdated : updateReservation build boost db r = .ok (true, db', r')) :
    (∃ c', (c.removeReservation r'.id).addReservation build r' = .ok c') ↔
      FitsIn build boost db (.update (.reservation (some r))) := by
  have hload := loadAllReservations_of_loads hloads
  obtain ⟨hplaces, hsame⟩ := places_updated hupdated
  rw [places_asLoaded] at hplaces
  obtain ⟨hs, hitems⟩ := Context.removeReservation_items hshown.sound hshown.distinct r'.id
  rw [Context.accepts_iff_items hs, hitems]
  have hfree := free_iff hperm r' (· ≠ r.id)
  constructor
  · rintro ⟨-, hvalid, hmeets⟩
    refine ⟨(isValid_of_places hplaces).symm.trans hvalid, fun items hitems item hitem hne => ?_⟩
    cases hload.symm.trans hitems
    rw [← intersectsWith_of_places hplaces]
    refine hfree.1 (fun item hitem hne => hmeets item ?_) item hitem hne
    rw [List.mem_filter, decide_eq_true_eq, hsame]
    exact ⟨hitem, hne⟩
  · rintro ⟨hvalid, hmeets⟩
    refine ⟨Or.inr (hsame ▸ hid), (isValid_of_places hplaces).trans hvalid, fun item hitem => ?_⟩
    rw [List.mem_filter, decide_eq_true_eq, hsame] at hitem
    refine hfree.2 (fun item hitem hne => ?_) item hitem.1 hitem.2
    rw [intersectsWith_of_places hplaces]
    exact hmeets _ hload item hitem hne

theorem receivedAll_reservation {stream : DataStream} (h : AllReservations stream)
    (change : DataStreamChange) : receivedAll stream [⟨.reservation, change⟩] = [change] := by
  rw [receivedAll, List.flatMap_singleton, h.received, if_pos rfl]

theorem receivedAll_hotel {stream : DataStream} (h : AllReservations stream)
    (change : DataStreamChange) : receivedAll stream [⟨.hotel, change⟩] = [] := by
  rw [receivedAll, List.flatMap_singleton, h.received, if_neg StreamableType.noConfusion]

theorem filter_map_asLoaded (items : List Reservation) (p : Int → Bool) :
    (items.filter fun item => p item.id).map asLoaded =
      (items.map asLoaded).filter fun item => p item.id := by
  rw [List.filter_map]
  rfl

/-- What a board that shows the storage does with what an operation announces: it
    takes it exactly if the operation fits in, and then shows the storage again. -/
theorem takeChanges_effect {stream : DataStream} (hall : AllReservations stream) {op : Operation}
    {notices : List Notice} (hop : op ≠ .eraseAllData) (hshown : Shown build boost db c)
    (he : Effect build boost db op db' notices) :
    ((∃ c', takeChanges build c (receivedAll stream notices) = .ok c') ↔ FitsIn build boost db op) ∧
      ∀ c', takeChanges build c (receivedAll stream notices) = .ok c' → Shown build boost db' c' := by
  obtain ⟨loaded, hloads, hperm⟩ := hshown.stored
  cases he with
  | eraseAllData => exact absurd rfl hop
  | storeNull item null =>
    refine ⟨iff_of_true ⟨c, rfl⟩ ?_, fun c' hok => ?_⟩
    · cases item with
      | hotel item => trivial
      | reservation item =>
        cases item with
        | none => trivial
        | some r => cases null
      | person item => trivial
    · cases hok
      exact hshown
  | storeHotel hotel =>
    rw [receivedAll_hotel hall]
    refine ⟨iff_of_true ⟨c, rfl⟩ trivial, fun c' hok => ?_⟩
    cases hok
    exact ⟨hshown.sound, loaded, hloads.of_eq rfl rfl, hperm⟩
  | updateHotel hotel hotel' db' hasId updated =>
    obtain ⟨-, rfl, -⟩ := of_updateHotel updated
    rw [receivedAll_hotel hall]
    refine ⟨iff_of_true ⟨c, rfl⟩ trivial, fun c' hok => ?_⟩
    cases hok
    exact ⟨hshown.sound, loaded, hloads.of_eq rfl rfl, hperm⟩
  | storeReservation r r' db' stored =>
    rw [receivedAll_reservation hall, takeChanges_added]
    have haccepts := accepts_stored hshown.sound hloads hperm stored
    refine ⟨haccepts, fun c' hok => ?_⟩
    obtain ⟨-, hs', hitems, -⟩ := Context.of_addReservation_ok hshown.sound hok
    refine ⟨hs', _, loads_store hloads (haccepts.1 ⟨c', hok⟩).1 stored, ?_⟩
    rw [hitems, List.map_append]
    exact hperm.append_right _
  | updateReservation r r' db' hasId updated =>
    rw [receivedAll_reservation hall, takeChanges_updated]
    have haccepts := accepts_updated hshown hloads hperm hasId updated
    refine ⟨haccepts, fun c' hok => ?_⟩
    -- the board removes the old version and adds the new one
    obtain ⟨hs, hremoved⟩ := Context.removeReservation_items hshown.sound hshown.distinct r'.id
    obtain ⟨-, hs', hitems, -⟩ := Context.of_addReservation_ok hs hok
    obtain ⟨loaded', hloads', hperm'⟩ := loads_update_perm hloads (haccepts.1 ⟨c', hok⟩).1 updated
    refine ⟨hs', loaded', hloads', List.Perm.trans ?_ hperm'⟩
    rw [hitems, hremoved, List.map_append, (places_updated updated).2,
      filter_map_asLoaded _ fun id => decide (id ≠ r.id)]
    exact (hperm.filter _).append_right _
  | deleteReservation id =>
    rw [receivedAll_reservation hall]
    refine ⟨iff_of_true ⟨_, rfl⟩ trivial, fun c' hok => ?_⟩
    cases hok
    obtain ⟨hs, hremoved⟩ := Context.removeReservation_items hshown.sound hshown.distinct id
    refine ⟨hs, _, loads_delete hloads id, ?_⟩
    show ((c.removeReservation id).items.map asLoaded).Perm _
    rw [hremoved, filter_map_asLoaded _ fun other => decide (other ≠ id)]
    have hsame : (fun item : Reservation => decide (item.id ≠ id)) =
        fun item => !([id].contains item.id) := by
      funext item
      simp
    rw [hsame]
    exact hperm.filter _

/-! ## A batch -/

theorem takeChanges_succeed {stream : DataStream} (hall : AllReservations stream)
    {streams : List DataStream} {ops : Operations} {rs : List TaskResult}
    {cs : List DataStreamDifferential} (hsucceed : Succeed build boost streams db ops db' rs cs)
    (hops : ∀ op ∈ ops, op ≠ .eraseAllData) (hshown : Shown build boost db c) :
    ((∃ c', takeChanges build c (receivedAll stream (noticesOf build boost db ops)) = .ok c' ∧
        Shown build boost db' c') ↔ Along build boost (FitsIn build boost) db ops) := by
  induction hsucceed generalizing c with
  | nil db => exact iff_of_true ⟨c, rfl, hshown⟩ trivial
  | @cons db db' op ops e cs cs' rs executed succeeded announced rest ih =>
    have heffect := effect_of_succeeded executed succeeded
    obtain ⟨hfits, hafter⟩ := takeChanges_effect hall (hops op List.mem_cons_self) hshown heffect
    have hrest := fun c (hc : Shown build boost e.db c) =>
      ih (c := c) (fun op hop => hops op (List.mem_cons_of_mem _ hop)) hc
    have hnotices : receivedAll stream (noticesOf build boost db (op :: ops)) =
        receivedAll stream e.notices ++ receivedAll stream (noticesOf build boost e.db ops) := by
      rw [noticesOf, executed]
      exact List.flatMap_append
    rw [hnotices, takeChanges_append]
    constructor
    · rintro ⟨c', hok, hshown'⟩
      obtain ⟨c₁, hfirst, hok⟩ := Except.bind_eq_ok.1 hok
      refine ⟨hfits.1 ⟨c₁, hfirst⟩, fun e' he' => ?_⟩
      cases executed.symm.trans he'
      exact (hrest c₁ (hafter c₁ hfirst)).1 ⟨c', hok, hshown'⟩
    · rintro ⟨hfit, halong⟩
      obtain ⟨c₁, hfirst⟩ := hfits.2 hfit
      obtain ⟨c', hok, hshown'⟩ := (hrest c₁ (hafter c₁ hfirst)).2 (halong e executed)
      exact ⟨c', (Except.bind_ok hfirst _).trans hok, hshown'⟩

end

/-- A batch that was committed goes through the board that showed the storage before
    it, and leaves the board showing the storage after it, exactly if each operation
    fits among what is stored when it is its turn. -/
theorem batch_on_board_iff {build : Build} {boost : BoostDate} {streams : List DataStream}
    (hids : (streams.map (·.streamId)).Nodup) {stream : DataStream} (hstream : stream ∈ streams)
    (hall : AllReservations stream) {db db' : Database} {ops : Operations} {results : List TaskResult}
    {changes : List DataStreamDifferential}
    (hcommitted : Succeed build boost streams db ops db' results changes)
    (hops : ∀ op ∈ ops, op ≠ .eraseAllData) {c : Context} (hshown : Shown build boost db c) :
    (∃ c', takeChanges build c (changesFor stream.streamId changes) = .ok c' ∧
      Shown build boost db' c') ↔ Along build boost (FitsIn build boost) db ops := by
  rw [← takeChanges_succeed hall hcommitted hops hshown,
    announce_for (announce_noticesOf hcommitted) hids hstream]

/-- Of two shown reservations the second is moved to a free room, a new one takes its place,
    and the first is deleted. -/
def moveAndStore : Operations :=
  [.update (.reservation (some { oneNightIn 3 with id := 2, revision := 1 })),
    .storeNew (.reservation (some (oneNightIn 2))), .delete .reservation 1]

theorem batch_on_board_moveAndStore : ∃ (db' : Database) (before : List Reservation)
    (results : List TaskResult) (changes : List DataStreamDifferential) (c c' : Context),
    Loads .debug .gregorian twoStored before ∧ before.length = 2 ∧ Shown .debug .gregorian twoStored c ∧
    Succeed .debug .gregorian [reservationStream 1] twoStored moveAndStore db' results changes ∧
    takeChanges .debug c (changesFor 1 changes) = .ok c' ∧ Shown .debug .gregorian db' c' := by
  have hfirst : Loads .debug .gregorian _ _ := loads_store loads_empty (r := oneNightIn 1) rfl rfl
  have hbefore : Loads .debug .gregorian twoStored _ := loads_store hfirst (r := oneNightIn 2) rfl rfl
  have hmoved := loads_update hbefore
    (r := { oneNightIn 3 with id := 2, revision := 1 }) rfl rfl (by decide)
  have hcommitted : Succeed .debug .gregorian [reservationStream 1] twoStored moveAndStore _ _ _ :=
    .cons rfl rfl rfl (.cons rfl rfl rfl (.cons rfl rfl rfl (.nil _)))
  have hshown : Shown .debug .gregorian twoStored _ := shown_loaded hbefore rfl
  obtain ⟨c', hok, hshown'⟩ := (batch_on_board_iff (by simp) (List.mem_singleton_self (reservationStream 1))
    ⟨rfl, rfl⟩ hcommitted (by decide) hshown).2 (by
      refine ⟨⟨rfl, fun items hitems => ?_⟩, fun e he => ?_⟩
      · obtain rfl := Except.ok.inj ((loadAllReservations_of_loads hbefore).symm.trans hitems)
        decide
      · cases he
        refine ⟨⟨rfl, fun items hitems => ?_⟩, fun e he => ?_⟩
        · obtain rfl := Except.ok.inj ((loadAllReservations_of_loads hmoved).symm.trans hitems)
          decide
        · cases he
          exact ⟨trivial, fun _ _ => trivial⟩)
  exact ⟨_, _, _, _, _, c', hbefore, rfl, hshown, hcommitted, hok, hshown'⟩

/-- Two reservations of one night exchange their rooms. -/
def exchange : Operations :=
  [.update (.reservation (some { oneNightIn 2 with id := 1, revision := 1 })),
    .update (.reservation (some { oneNightIn 1 with id := 2, revision := 1 }))]

/-- Before and after the exchange no two stored reservations meet, but the board
    that showed them throws. -/
theorem exchange_refused : ∃ (db db' : Database) (results : List TaskResult)
    (changes : List DataStreamDifferential) (c : Context) (before after : List Reservation),
    Loads .debug .gregorian db before ∧ Apart before ∧ Shown .debug .gregorian db c ∧
    Succeed .debug .gregorian [reservationStream 1] db exchange db' results changes ∧
    Loads .debug .gregorian db' after ∧ Apart after ∧
    ¬ ∃ c', takeChanges .debug c (changesFor 1 changes) = .ok c' := by
  have hfirst : Loads .debug .gregorian _ _ := loads_store loads_empty (r := oneNightIn 1) rfl rfl
  have hbefore := loads_store hfirst (r := oneNightIn 2) rfl rfl
  have hmoved := loads_update hbefore
    (r := { oneNightIn 2 with id := 1, revision := 1 }) rfl rfl (by decide)
  have hafter := loads_update hmoved
    (r := { oneNightIn 1 with id := 2, revision := 1 }) rfl rfl (by decide)
  refine ⟨_, _, _, _, _, _, _, hbefore, by decide, shown_loaded hbefore rfl,
    .cons rfl rfl rfl (.cons rfl rfl rfl (.nil _)), hafter, by decide, ?_⟩
  rintro ⟨c', hok⟩
  cases hok

end PlanningWidget

end HotelPms

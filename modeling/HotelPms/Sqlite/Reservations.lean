import HotelPms.Sqlite.ById
import HotelPms.Sqlite.Freshness

/- Reservations in the database.

   Loading all reservations is loading every row of the table by its id, and throws
   exactly if one of them does (`loadAllReservations_iff`). Storing a new reservation
   and updating one both write one row and its atoms, and leave the rows and atoms of
   all other ids (`Written`). A valid reservation reads back as it was written, with
   its new atom ids; every other id reads back as before (`Written.loadById`,
   `Written.loadById_other`).

   Storing does not check that a reservation is valid. The atoms of an invalid one may
   stand in another order when they are sorted by their dates, and then loading throws
   for it, and so for all reservations (`reversed_stops_loading`). -/
namespace HotelPms
open Lib SqliteStorage SqliteBackend

section
variable {build : Build} {boost : BoostDate} {db db' : Database} {row : Int × ReservationRow}
  {r r' : Reservation}

/-! ## All reservations and one -/

theorem loadAllReservations_iff (build : Build) (boost : BoostDate) (db : Database) :
    (∃ items, loadAllReservations build boost db = .ok items) ↔
      ∀ id, ∃ loaded, loadReservationById build boost db id = .ok loaded := by
  constructor
  · intro hall id
    obtain ⟨items, hitems⟩ := hall
    exact ⟨_, loadReservationById_eq hitems id⟩
  · intro hids
    have hrows : ∀ row ∈ db.reservation.rows, ∃ loaded, loadRow build boost db row = .ok loaded := by
      intro row hrow
      obtain ⟨loaded, hloaded⟩ := hids row.1
      rw [loadReservationById_row, Table.mem_rows_iff.1 hrow] at hloaded
      exact ⟨loaded, hloaded⟩
    obtain ⟨loaded, hloaded⟩ := Except.exists_mapM hrows
    refine ⟨loaded.reduceOption, ?_⟩
    rw [loadAllReservations_eq, Except.bind_ok hloaded]
    rfl

theorem loadRow_of_atoms (hatoms : atomsOf db' row.1 = atomsOf db row.1) :
    loadRow build boost db' row = loadRow build boost db row := by
  rw [loadRow, resultRows, hatoms, loadRow, resultRows]

/-! ## Writing a reservation -/

/-- What storing a reservation and updating one do: the row of the id holds it, and the
    rows and atoms of the other ids are what they were. -/
structure Written (build : Build) (boost : BoostDate) (db db' : Database) (r' : Reservation) : Prop where
  holds : ∃ row, db'.reservation.get? r'.id = some row ∧
    Holds build boost db' (r'.id, row) (asLoaded r')
  others : ∀ id, id ≠ r'.id → db'.reservation.get? id = db.reservation.get? id
  atoms : ∀ id, id ≠ r'.id → atomsOf db' id = atomsOf db id

theorem written_of_store (hfresh : Fresh db) (hvalid : r.isValid = true)
    (hstored : storeNewReservationAndAtoms build boost db r = .ok (db', r')) :
    Written build boost db db' r' := by
  obtain ⟨status, hstatus, rfl, rfl⟩ := of_storeNewReservationAndAtoms hstored
  refine ⟨⟨newRow r status, ?_, ?_⟩, fun id hne => ?_, fun id hne => ?_⟩
  · show (db.reservation.insert (newRow r status)).get? db.reservation.nextId = _
    rw [Table.get?_insert, if_pos rfl]
  · exact holds_inserted (withRow db r status) (numbered db r) hvalid hstatus hfresh.atoms_next rfl
  · show (db.reservation.insert (newRow r status)).get? id = _
    rw [Table.get?_insert]
    exact if_neg hne
  · have hother : (numbered db r).id ≠ id := Ne.symm hne
    rw [atomsOf_insertAtoms, if_neg hother, List.append_nil]
    rfl

theorem written_of_update (hvalid : r.isValid = true)
    (hupdated : updateReservation build boost db r = .ok (true, db', r')) :
    Written build boost db db' r' := by
  obtain ⟨status, hstatus, ⟨found, hget, hrevision⟩, rfl, rfl⟩ := of_updateReservation hupdated
  have hnone : atomsOf (withoutAtoms db r status) r.id = [] :=
    (atomsOf_otherAtoms db r.id r.id).trans (if_pos rfl)
  refine ⟨⟨updatedRow r status found, ?_, ?_⟩, fun id hne => ?_, fun id hne => ?_⟩
  · show (updatedReservations db r status).get? r.id = _
    rw [updatedReservations, Table.get?_update, hget]
    simp [hrevision]
  · apply holds_inserted (withoutAtoms db r status) r hvalid hstatus hnone
    rw [updatedRow, hrevision]
  · have hother : (id == r.id) = false := beq_eq_false_iff_ne.2 hne
    show (updatedReservations db r status).get? id = _
    rw [updatedReservations, Table.get?_update]
    cases db.reservation.get? id with
    | none => rfl
    | some row => simp [hother]
  · have hother : r.id ≠ id := Ne.symm hne
    rw [atomsOf_insertAtoms, if_neg hother, List.append_nil]
    exact (atomsOf_otherAtoms db r.id id).trans (if_neg hne)

theorem Written.loadById (hw : Written build boost db db' r') :
    loadReservationById build boost db' r'.id = .ok (some (asLoaded r')) := by
  obtain ⟨row, hget, hholds⟩ := hw.holds
  rw [loadReservationById_row, hget]
  exact loadRow_of_holds hholds

theorem Written.loadById_other (hw : Written build boost db db' r') {id : Int} (hne : id ≠ r'.id) :
    loadReservationById build boost db' id = loadReservationById build boost db id := by
  rw [loadReservationById_row, loadReservationById_row, hw.others id hne]
  cases db.reservation.get? id with
  | none => rfl
  | some row =>
    have hatoms : atomsOf db' (id, row).1 = atomsOf db (id, row).1 := hw.atoms id hne
    exact loadRow_of_atoms hatoms

theorem Written.loadAll_iff (hw : Written build boost db db' r') :
    (∃ items, loadAllReservations build boost db' = .ok items) ↔
      ∀ id, id ≠ r'.id → ∃ loaded, loadReservationById build boost db id = .ok loaded := by
  rw [loadAllReservations_iff]
  constructor
  · intro hall id hne
    rw [← hw.loadById_other hne]
    exact hall id
  · intro hothers id
    by_cases hid : id = r'.id
    · rw [hid]
      exact ⟨_, hw.loadById⟩
    · rw [hw.loadById_other hid]
      exact hothers id hid

theorem mem_loadAllReservations {items : List Reservation}
    (hitems : loadAllReservations build boost db = .ok items) {item : Reservation} :
    item ∈ items ↔ loadReservationById build boost db item.id = .ok (some item) := by
  have hone := filter_id (fun item : Reservation => item.id) (ascending_loadAllReservations hitems) item.id
  have hmem : item ∈ (items.filter fun other => other.id == item.id) ↔ item ∈ items := by
    simp
  rw [← hmem, hone, Option.mem_toList, loadReservationById_eq hitems, Except.ok.injEq]

/-- The reservation that is written is loaded once, and the others as before. -/
theorem Written.loadAll (hw : Written build boost db db' r') {items : List Reservation}
    (hitems : loadAllReservations build boost db' = .ok items) :
    (items.filter fun item => item.id == r'.id) = [asLoaded r'] ∧
      ∀ before, loadAllReservations build boost db = .ok before →
        (items.filter fun item => item.id != r'.id) = before.filter fun item => item.id != r'.id := by
  constructor
  · have hfound := (loadReservationById_eq hitems r'.id).symm.trans hw.loadById
    rw [filter_id (fun item : Reservation => item.id) (ascending_loadAllReservations hitems),
      Except.ok.inj hfound]
    rfl
  · intro before hbefore
    -- both lists are in the order of the ids, and have the same elements
    apply ((ascending_loadAllReservations hitems).filter _).eq_of_mem_iff
      ((ascending_loadAllReservations hbefore).filter _)
    intro item
    rw [List.mem_filter, List.mem_filter, mem_loadAllReservations hitems, mem_loadAllReservations hbefore,
      bne_iff_ne]
    apply and_congr_left
    intro hne
    rw [hw.loadById_other hne]

theorem equals_written (howner : r.reservationOwnerPersonId = none) (hstatus : r.status ≠ .temporary)
    (htext : '\x00' ∉ r.description.toList)
    (hwritten : storeNewReservationAndAtoms build boost db r = .ok (db', r') ∨
      updateReservation build boost db r = .ok (true, db', r')) : (asLoaded r').equals r = true := by
  apply Reservation.equals_iff.2
  rcases hwritten with hstored | hupdated
  · obtain ⟨status, -, -, rfl⟩ := of_storeNewReservationAndAtoms hstored
    exact ⟨if_neg hstatus, readText_of_noNul htext, howner.symm, rfl, rfl,
      (places_asLoaded _).trans (places_insertAtoms boost _ _)⟩
  · obtain ⟨status, -, -, -, rfl⟩ := of_updateReservation hupdated
    exact ⟨if_neg hstatus, readText_of_noNul htext, howner.symm, rfl, rfl,
      (places_asLoaded _).trans (places_insertAtoms boost _ _)⟩

/-- A valid reservation without an owner and not temporary, whose text has no NUL, is
    loaded by its id as it was stored or updated, and every other id loads what it did
    before. All reservations can be loaded exactly if every other id could be loaded;
    then the reservation is among them once, and the others are those from before. -/
theorem reservation_storage_round_trip (hdb : ReachableDatabase build boost db) (hvalid : r.isValid = true)
    (howner : r.reservationOwnerPersonId = none) (hstatus : r.status ≠ .temporary)
    (htext : '\x00' ∉ r.description.toList)
    (hwritten : storeNewReservationAndAtoms build boost db r = .ok (db', r') ∨
      updateReservation build boost db r = .ok (true, db', r')) :
    ∃ loaded, (loaded.equals r = true ∧ loaded.id = r'.id ∧ loaded.revision = r'.revision ∧
        loaded.atoms.map (·.id) = r'.atoms.map (·.id)) ∧
      loadReservationById build boost db' r'.id = .ok (some loaded) ∧
      (∀ id, id ≠ r'.id → loadReservationById build boost db' id = loadReservationById build boost db id) ∧
      ((∃ items, loadAllReservations build boost db' = .ok items) ↔
        ∀ id, id ≠ r'.id → ∃ other, loadReservationById build boost db id = .ok other) ∧
      ∀ items, loadAllReservations build boost db' = .ok items →
        (items.filter fun item => item.id == r'.id) = [loaded] ∧
          ∀ before, loadAllReservations build boost db = .ok before →
            (items.filter fun item => item.id != r'.id) = before.filter fun item => item.id != r'.id := by
  have hw : Written build boost db db' r' := by
    rcases hwritten with hstored | hupdated
    · exact written_of_store hdb.fresh hvalid hstored
    · exact written_of_update hvalid hupdated
  refine ⟨asLoaded r', ⟨equals_written howner hstatus htext hwritten, rfl, rfl, ?_⟩, hw.loadById,
    fun id hne => hw.loadById_other hne, hw.loadAll_iff, fun items hitems => hw.loadAll hitems⟩
  show (r'.atoms.map _).map _ = _
  rw [List.map_map]
  rfl

theorem reservation_storage_round_trip_oneNight : ∃ (db' : Database) (r' loaded : Reservation),
    storeNewReservationAndAtoms .debug .gregorian {} Reservation.oneNight = .ok (db', r') ∧
      loaded.equals Reservation.oneNight = true ∧
      loadAllReservations .debug .gregorian db' = .ok [loaded] := by
  have hstored : storeNewReservationAndAtoms .debug .gregorian {} Reservation.oneNight = .ok (_, _) := rfl
  have hempty : ReachableDatabase .debug .gregorian {} := .init rfl
  obtain ⟨loaded, ⟨hequals, -, -, -⟩, -, -, hiff, hall⟩ := reservation_storage_round_trip hempty
    rfl rfl (by decide) (by decide) (.inl hstored)
  obtain ⟨items, hitems⟩ := hiff.2 fun id _ => ⟨none, rfl⟩
  obtain ⟨hone, hothers⟩ := hall items hitems
  refine ⟨_, _, loaded, hstored, hequals, ?_⟩
  have hnone : (items.filter fun item => item.id != 1) = [] := hothers [] rfl
  have hsame : (items.filter fun item => item.id == 1) = items := by
    apply List.filter_eq_self.2
    intro item hitem
    simpa using List.filter_eq_nil_iff.1 hnone item hitem
  rw [hitems, ← hone]
  exact congrArg Except.ok hsame.symm

/-! ## An invalid reservation -/

/-- A first atom of a reversed period, and one that begins where it ends: sorted by date
    the second comes first, and the first one does not continue it. -/
theorem loadRow_reversed {room : Int} {a b c : Date} (hab : a < b) (hac : a ≤ c)
    (hatoms : atomsOf db row.1 = [(1, atomRow boost row.1 { roomId := room, dateRange := ⟨b, a⟩ }),
      (2, atomRow boost row.1 { roomId := room, dateRange := ⟨a, c⟩ })]) (loaded : Option Reservation) :
    loadRow build boost db row ≠ .ok loaded := by
  intro hload
  have hnot : ¬ boost.toIsoString b ≤ boost.toIsoString a :=
    not_le.2 ((boost.chronological a b).2 hab)
  have hrows : resultRows db row =
      [(row, (2, atomRow boost row.1 { roomId := room, dateRange := ⟨a, c⟩ })),
        (row, (1, atomRow boost row.1 { roomId := room, dateRange := ⟨b, a⟩ }))] := by
    rw [resultRows, hatoms]
    simp [List.orderedInsert, atomRow, hnot]
  rw [loadRow, hrows, List.foldlM_cons] at hload
  -- the row that is read first begins the reservation, the other one is to continue it
  obtain ⟨current, hcurrent, hload⟩ := Except.bind_eq_ok.1 hload
  rw [List.foldlM_cons] at hload
  obtain ⟨first, hfirst, hcurrent⟩ := Except.bind_eq_ok.1 hcurrent
  cases hcurrent
  obtain ⟨next, hnext, -⟩ := Except.bind_eq_ok.1 hload
  obtain ⟨longer, hlonger, -⟩ := Except.bind_eq_ok.1 hnext
  have hlast : first.lastAtom.map (·.dateRange.end_) = some c := by
    rw [beginReservation] at hfirst
    dsimp only at hfirst
    rw [Except.bind_ok (readDate_dateFrom boost row.1 _), Except.bind_ok (readDate_dateTo boost row.1 _)] at hfirst
    obtain ⟨status, -, hfirst⟩ := Except.bind_eq_ok.1 hfirst
    cases hfirst
    rfl
  rw [continueReservation] at hlonger
  dsimp only at hlonger
  rw [Except.bind_ok (readDate_dateFrom boost row.1 _), Except.bind_ok (readDate_dateTo boost row.1 _)] at hlonger
  obtain ⟨extended, hextended, -⟩ := Except.bind_eq_ok.1 hlonger
  rw [Reservation.addContinuation] at hextended
  cases hatom : first.lastAtom with
  | none =>
    rw [hatom] at hlast
    cases hlast
  | some last =>
    have hend : last.dateRange.end_ = c := by simpa [hatom] using hlast
    rw [hatom] at hextended
    dsimp only at hextended
    -- it ends no later than what it is to continue
    rw [hend, if_pos hac] at hextended
    cases hextended

theorem ReachableDatabase.store (h : ReachableDatabase build boost db)
    (hstored : storeNewReservationAndAtoms build boost db r = .ok (db', r')) :
    ReachableDatabase build boost db' := by
  have hexecuted : executeOperation build boost db (.storeNew (.reservation (some r))) =
      .ok ⟨db', .successful (.obj [("id", .int r'.id)]), [⟨.reservation, .itemsAdded (.reservations [r'])⟩]⟩ := by
    simp only [executeOperation, executeStoreNew, StreamableTypePtr.isNull, Option.isNone_some,
      Bool.not_false, Build.assert_true, executeStoreNewReservation, hstored]
    rfl
  exact h.step ⟨_, _, hexecuted, rfl, rfl⟩

theorem broken_stops_loading (hdb : ReachableDatabase build boost db) {id : Int}
    (hknown : id ≤ db.reservation.seq)
    (hbroken : ∀ loaded, loadReservationById build boost db id ≠ .ok loaded) (hvalid : r.isValid = true)
    (hstored : storeNewReservationAndAtoms build boost db r = .ok (db', r')) (items : List Reservation) :
    loadAllReservations build boost db' ≠ .ok items := by
  intro hitems
  have hnew : r'.id = db.reservation.seq + 1 := by
    obtain ⟨status, -, -, rfl⟩ := of_storeNewReservationAndAtoms hstored
    rfl
  obtain ⟨loaded, hloaded⟩ := (written_of_store hdb.fresh hvalid hstored).loadAll_iff.1 ⟨items, hitems⟩ id
    (by omega)
  exact hbroken loaded hloaded

end

/-- A reservation with a reversed period is stored; then no reservations can be loaded any more. -/
theorem reversed_stops_loading : ∃ (reversed stored r r' : Reservation) (db db' : Database),
    (Reservation.ofRoom "reversed" 1
      ⟨⟨2458851, by decide, by decide⟩, ⟨2458850, by decide, by decide⟩⟩).addAtom 1
        ⟨⟨2458850, by decide, by decide⟩, ⟨2458852, by decide, by decide⟩⟩ = .ok reversed ∧
    storeNewReservationAndAtoms .debug .gregorian {} reversed = .ok (db, stored) ∧
    ReachableDatabase .debug .gregorian db ∧
    r.isValid = true ∧ r.reservationOwnerPersonId = none ∧ r.status ≠ .temporary ∧
    '\x00' ∉ r.description.toList ∧
    storeNewReservationAndAtoms .debug .gregorian db r = .ok (db', r') ∧
    ∀ items, loadAllReservations .debug .gregorian db' ≠ .ok items := by
  obtain ⟨reversed, hreversed, stored, db, hstored, ⟨row, hrow⟩, hatoms, hseq⟩ : ∃ reversed,
      (Reservation.ofRoom "reversed" 1
        ⟨⟨2458851, by decide, by decide⟩, ⟨2458850, by decide, by decide⟩⟩).addAtom 1
          ⟨⟨2458850, by decide, by decide⟩, ⟨2458852, by decide, by decide⟩⟩ = .ok reversed ∧
      ∃ stored db, storeNewReservationAndAtoms .debug .gregorian {} reversed = .ok (db, stored) ∧
        (∃ row, db.reservation.get? 1 = some row) ∧
        atomsOf db 1 =
          [(1, atomRow .gregorian 1
            { roomId := 1, dateRange := ⟨⟨2458851, by decide, by decide⟩, ⟨2458850, by decide, by decide⟩⟩ }),
           (2, atomRow .gregorian 1
            { roomId := 1, dateRange := ⟨⟨2458850, by decide, by decide⟩, ⟨2458852, by decide, by decide⟩⟩ })] ∧
        db.reservation.seq = 1 :=
    ⟨_, rfl, _, _, rfl, ⟨_, rfl⟩, rfl, rfl⟩
  have hreachable : ReachableDatabase .debug .gregorian db := ReachableDatabase.store (.init rfl) hstored
  have hbroken : ∀ loaded, loadReservationById .debug .gregorian db 1 ≠ .ok loaded := by
    intro loaded
    rw [loadReservationById_row, hrow]
    exact loadRow_reversed (by decide) (by decide) hatoms loaded
  obtain ⟨r', db', hnext⟩ : ∃ r' db',
      storeNewReservationAndAtoms .debug .gregorian db Reservation.oneNight = .ok (db', r') := ⟨_, _, rfl⟩
  exact ⟨reversed, stored, .oneNight, r', db, db', hreversed, hstored, hreachable, rfl, rfl, by decide,
    by decide, hnext, broken_stops_loading hreachable (by omega) hbroken rfl hnext⟩

end HotelPms

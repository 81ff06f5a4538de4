import HotelPms.Sqlite.Hotels
import HotelPms.Sqlite.Loading

/- Loading one item by its id.

   `loadById` has its own query and its own loop for each type. Of every database
   that `loadAll` reads it returns the element of `loadAll` with the id, or nothing
   if there is none (`loadReservationById_eq`, `loadHotelById_eq`): the rows of a
   reservation stand together in the join, and both loops make the same of them
   (`loadRow`). No two loaded items have one id, so the items of an id are one at
   most (`filter_id`).

   A loaded hotel has distinct short codes, since adding its categories would have
   thrown otherwise; copying it changes nothing (`loadHotelById_copy`). -/
namespace HotelPms
open Lib SqliteStorage

section
variable {build : Build} {boost : BoostDate} {db : Database}

/-! ## Reservations by id -/

/-- A row of the table and what its result rows are loaded as. -/
def LoadsRow (build : Build) (boost : BoostDate) (db : Database) (row : Int × ReservationRow)
    (loaded : Option Reservation) : Prop :=
  loadRow build boost db row = .ok loaded ∧ ∀ r ∈ loaded, r.id = row.1

theorem filter_resultRows (db : Database) (row : Int × ReservationRow) (id : Int) :
    ((resultRows db row).filter fun r => r.1.1 == id) =
      if row.1 = id then resultRows db row else [] := by
  split
  · next h =>
    apply List.filter_eq_self.2
    intro r hr
    obtain ⟨a, -, rfl⟩ := List.mem_map.1 hr
    exact beq_iff_eq.2 h
  · next h =>
    apply List.filter_eq_nil_iff.2
    intro r hr
    obtain ⟨a, -, rfl⟩ := List.mem_map.1 hr
    rw [beq_iff_eq]
    exact h

theorem flatMap_other {rows : List (Int × ReservationRow)} {id : Int}
    (h : ∀ row ∈ rows, row.1 ≠ id) :
    (rows.flatMap fun row => (resultRows db row).filter fun r => r.1.1 == id) = [] := by
  rw [List.flatMap_eq_nil_iff]
  intro row hrow
  rw [filter_resultRows, if_neg (h row hrow)]

theorem flatMap_resultRows_id {rows : List (Int × ReservationRow)}
    (hdistinct : rows.Pairwise fun a b => a.1 < b.1) (id : Int) :
    (rows.flatMap fun row => (resultRows db row).filter fun r => r.1.1 == id) =
      (rows.lookup id).elim [] fun row => resultRows db (id, row) := by
  induction rows with
  | nil => rfl
  | cons row rows ih =>
    obtain ⟨hlater, hdistinct⟩ := List.pairwise_cons.1 hdistinct
    rw [List.flatMap_cons, filter_resultRows, List.lookup_cons]
    by_cases hid : row.1 = id
    · have hothers : ∀ other ∈ rows, other.1 ≠ id := by
        intro other hother
        have := hlater other hother
        omega
      subst hid
      rw [if_pos rfl, flatMap_other hothers, List.append_nil, beq_self_eq_true]
      rfl
    · have hne : (id == row.1) = false := beq_eq_false_iff_ne.2 (Ne.symm hid)
      rw [if_neg hid, List.nil_append, ih hdistinct, hne]

theorem loadReservationById_row (build : Build) (boost : BoostDate) (db : Database) (id : Int) :
    loadReservationById build boost db id =
      (db.reservation.get? id).elim (.ok none) fun row => loadRow build boost db (id, row) := by
  rw [loadReservationById, reservationAndAtoms_eq, List.filter_flatMap,
    flatMap_resultRows_id db.reservation.ascending, Table.get?]
  cases db.reservation.rows.lookup id with
  | none => rfl
  | some row => rfl

theorem mem_reduceOption {rows : List (Int × ReservationRow)} {loaded : List (Option Reservation)}
    (h : List.Forall₂ (LoadsRow build boost db) rows loaded) :
    ∀ r ∈ loaded.reduceOption, ∃ row ∈ rows, row.1 = r.id := by
  induction h with
  | nil => intro r hr; cases hr
  | @cons row item rows loaded hrow _ ih =>
    intro r hr
    rw [List.reduceOption_mem_iff, List.mem_cons] at hr
    rcases hr with hr | hr
    · exact ⟨row, List.mem_cons_self, (hrow.2 r hr.symm).symm⟩
    · obtain ⟨other, hother, hid⟩ := ih r (List.reduceOption_mem_iff.2 hr)
      exact ⟨other, List.mem_cons_of_mem _ hother, hid⟩

/-- Among what the rows of the table load, the row of an id loads the item with the id. -/
theorem lookup_loadRow {rows : List (Int × ReservationRow)}
    (hdistinct : rows.Pairwise fun a b => a.1 < b.1) {loaded : List (Option Reservation)}
    (h : List.Forall₂ (LoadsRow build boost db) rows loaded) (id : Int) :
    ((rows.lookup id).elim (.ok none) fun row => loadRow build boost db (id, row)) =
      .ok (loaded.reduceOption.find? fun r => r.id == id) := by
  induction h with
  | nil => rfl
  | @cons row item rows loaded hrow hrest ih =>
    obtain ⟨hlater, hdistinct⟩ := List.pairwise_cons.1 hdistinct
    rw [List.lookup_cons]
    by_cases hid : row.1 = id
    · -- this is the row of the id, and no later one is
      have hnone : (loaded.reduceOption.find? fun r => r.id == id) = none := by
        apply List.find?_eq_none.2
        intro r hr
        obtain ⟨other, hother, he⟩ := mem_reduceOption hrest r hr
        have := hlater other hother
        rw [beq_iff_eq, ← he]
        omega
      subst hid
      rw [beq_self_eq_true]
      refine hrow.1.trans ?_
      cases item with
      | none => rw [List.reduceOption_cons_of_none, hnone]
      | some r => rw [List.reduceOption_cons_of_some, List.find?_cons, hrow.2 r rfl, beq_self_eq_true]
    · rw [beq_eq_false_iff_ne.2 (Ne.symm hid), ih hdistinct]
      cases item with
      | none => rw [List.reduceOption_cons_of_none]
      | some r =>
        have hne : (r.id == id) = false := by
          rw [beq_eq_false_iff_ne, hrow.2 r rfl]
          exact hid
        rw [List.reduceOption_cons_of_some, List.find?_cons, hne]

theorem ascending_reduceOption {rows : List (Int × ReservationRow)}
    (hdistinct : rows.Pairwise fun a b => a.1 < b.1) {loaded : List (Option Reservation)}
    (h : List.Forall₂ (LoadsRow build boost db) rows loaded) :
    loaded.reduceOption.Pairwise fun a b => a.id < b.id := by
  induction h with
  | nil => exact List.Pairwise.nil
  | @cons row item rows loaded hrow hrest ih =>
    obtain ⟨hlater, hdistinct⟩ := List.pairwise_cons.1 hdistinct
    cases item with
    | none =>
      rw [List.reduceOption_cons_of_none]
      exact ih hdistinct
    | some r =>
      rw [List.reduceOption_cons_of_some, List.pairwise_cons]
      refine ⟨fun other hother => ?_, ih hdistinct⟩
      obtain ⟨row', hrow', he⟩ := mem_reduceOption hrest other hother
      rw [hrow.2 r rfl, ← he]
      exact hlater row' hrow'

theorem loadAllReservations_rows {items : List Reservation}
    (h : loadAllReservations build boost db = .ok items) :
    ∃ loaded, List.Forall₂ (LoadsRow build boost db) db.reservation.rows loaded ∧
      items = loaded.reduceOption := by
  rw [loadAllReservations_eq] at h
  obtain ⟨loaded, hloaded, hitems⟩ := Except.bind_eq_ok.1 h
  cases hitems
  exact ⟨loaded, (Except.forall₂_of_mapM hloaded).imp fun _ _ hrow => ⟨hrow, loadRow_id hrow⟩, rfl⟩

theorem loadReservationById_eq {items : List Reservation}
    (h : loadAllReservations build boost db = .ok items) (id : Int) :
    loadReservationById build boost db id = .ok (items.find? fun r => r.id == id) := by
  obtain ⟨loaded, hloaded, rfl⟩ := loadAllReservations_rows h
  rw [loadReservationById_row]
  exact lookup_loadRow db.reservation.ascending hloaded id

theorem ascending_loadAllReservations {items : List Reservation}
    (h : loadAllReservations build boost db = .ok items) :
    items.Pairwise fun a b => a.id < b.id := by
  obtain ⟨loaded, hloaded, rfl⟩ := loadAllReservations_rows h
  exact ascending_reduceOption db.reservation.ascending hloaded

/-! ## Hotels by id -/

theorem readHotel_ok {row : Int × HotelRow} {hotel : Hotel} (h : readHotel db row = .ok hotel) :
    hotel.id = row.1 ∧ hotel.CodesDistinct := by
  have hcodes := (readHotel_spec db row).2 hotel h
  obtain ⟨read, hread, hspec⟩ := (readHotel_spec db row).1 hcodes
  cases h.symm.trans hread
  refine ⟨hspec.id, ?_⟩
  rw [Hotel.CodesDistinct, hspec.categories]
  exact hcodes

theorem loadHotels_eq {rows : List (Int × HotelRow)} {hotels : List Hotel}
    (h : rows.mapM (readHotel db) = .ok hotels) (id : Int) :
    (match rows.lookup id with
      | none => Except.ok none
      | some row => do return some (← readHotel db (id, row))) =
      .ok (hotels.find? fun hotel => hotel.id == id) := by
  induction rows generalizing hotels with
  | nil =>
    cases h
    rfl
  | cons row rows ih =>
    rw [List.mapM_cons] at h
    obtain ⟨hotel, hhotel, h⟩ := Except.bind_eq_ok.1 h
    obtain ⟨rest, hrest, h⟩ := Except.bind_eq_ok.1 h
    cases h
    have hid := (readHotel_ok hhotel).1
    rw [List.lookup_cons, List.find?_cons, hid]
    by_cases he : row.1 = id
    · subst he
      rw [beq_self_eq_true]
      exact Except.bind_ok hhotel _
    · rw [beq_eq_false_iff_ne.2 he, beq_eq_false_iff_ne.2 (Ne.symm he)]
      exact ih hrest

theorem loadHotelById_eq {hotels : List Hotel} (h : loadAllHotels db = .ok hotels) (id : Int) :
    loadHotelById db id = .ok (hotels.find? fun hotel => hotel.id == id) :=
  loadHotels_eq h id

theorem ascending_mapM {rows : List (Int × HotelRow)} (hdistinct : rows.Pairwise fun a b => a.1 < b.1)
    {hotels : List Hotel} (h : rows.mapM (readHotel db) = .ok hotels) :
    hotels.Pairwise (fun a b => a.id < b.id) ∧
      ∀ hotel ∈ hotels, hotel.CodesDistinct ∧ ∃ row ∈ rows, row.1 = hotel.id := by
  induction rows generalizing hotels with
  | nil =>
    cases h
    exact ⟨List.Pairwise.nil, fun _ hmem => absurd hmem List.not_mem_nil⟩
  | cons row rows ih =>
    obtain ⟨hlater, hdistinct⟩ := List.pairwise_cons.1 hdistinct
    rw [List.mapM_cons] at h
    obtain ⟨hotel, hhotel, h⟩ := Except.bind_eq_ok.1 h
    obtain ⟨rest, hrest, h⟩ := Except.bind_eq_ok.1 h
    cases h
    obtain ⟨hid, hcodes⟩ := readHotel_ok hhotel
    obtain ⟨hascending, hall⟩ := ih hdistinct hrest
    constructor
    · refine List.pairwise_cons.2 ⟨fun other hother => ?_, hascending⟩
      obtain ⟨-, row', hrow', he⟩ := hall other hother
      rw [hid, ← he]
      exact hlater row' hrow'
    · intro other hother
      rcases List.mem_cons.1 hother with rfl | hother
      · exact ⟨hcodes, row, List.mem_cons_self, hid.symm⟩
      · obtain ⟨hdist, row', hrow', he⟩ := hall other hother
        exact ⟨hdist, row', List.mem_cons_of_mem _ hrow', he⟩

/-- Copying a loaded hotel changes nothing. -/
theorem loadHotelById_copy {hotels : List Hotel} (h : loadAllHotels db = .ok hotels) (id : Int) :
    (hotels.find? fun hotel => hotel.id == id).toList.mapM Hotel.copy =
      Except.ok (hotels.find? fun hotel => hotel.id == id).toList := by
  cases hfind : hotels.find? fun hotel => hotel.id == id with
  | none => rfl
  | some hotel =>
    have hdistinct := ((ascending_mapM db.hotel.ascending h).2 hotel (List.mem_of_find?_eq_some hfind)).1
    have hcopy : hotel.copy = .ok hotel := by rw [Hotel.copy_eq, Hotel.reattach_eq hdistinct]
    rw [Option.toList_some, List.mapM_cons, Except.bind_ok hcopy]
    rfl

end

/-- Of items with distinct ids there is at most one with an id. -/
theorem filter_id {α : Type} (idOf : α → Int) {items : List α}
    (h : items.Pairwise fun a b => idOf a < idOf b) (id : Int) :
    (items.filter fun item => idOf item == id) = (items.find? fun item => idOf item == id).toList := by
  induction items with
  | nil => rfl
  | cons item items ih =>
    obtain ⟨hlater, hitems⟩ := List.pairwise_cons.1 h
    rw [List.filter_cons, List.find?_cons]
    by_cases hid : idOf item = id
    · have hnone : (items.filter fun other => idOf other == id) = [] := by
        apply List.filter_eq_nil_iff.2
        intro other hother
        have := hlater other hother
        rw [beq_iff_eq]
        omega
      rw [if_pos (beq_iff_eq.2 hid), beq_iff_eq.2 hid, hnone]
      rfl
    · rw [if_neg (mt beq_iff_eq.1 hid), beq_eq_false_iff_ne.2 hid]
      exact ih hitems

end HotelPms

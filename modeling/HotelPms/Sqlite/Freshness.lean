import HotelPms.Lib.Run
import HotelPms.Sqlite.History

/- Databases that operations make of an empty one.

   These are the databases that an operation or a load can find, in the middle of a
   batch or between batches, whatever items were stored before (`reachable_history`).
   Their rows name only hotels and reservations that were given an id (`Fresh`), so
   no row has the id that the next item gets. -/
namespace HotelPms
open Lib SqliteStorage SqliteBackend

/-- What successful operations make of the tables as they are created. -/
def ReachableDatabase (build : Build) (boost : BoostDate) (db : Database) : Prop :=
  Reachable (fun db => db = deleteAll db) (fun db db' => ∃ op e,
    executeOperation build boost db op = .ok e ∧ e.result.succeeded = true ∧ e.db = db') db

/-- No row names a hotel or a reservation that is still to come. -/
structure Fresh (db : Database) : Prop where
  categories : ∀ row ∈ db.roomCategory.rows, row.2.hotelId ≤ db.hotel.seq
  rooms : ∀ row ∈ db.room.rows, row.2.hotelId ≤ db.hotel.seq
  atoms : ∀ row ∈ db.reservationAtom.rows, row.2.reservationId ≤ db.reservation.seq

theorem fresh_empty : Fresh {} := ⟨by simp, by simp, by simp⟩

section
variable {build : Build} {boost : BoostDate} {db db' : Database}

theorem Fresh.mono (h : Fresh db) (hcategories : db'.roomCategory.rows ⊆ db.roomCategory.rows)
    (hrooms : db'.room.rows ⊆ db.room.rows)
    (hatoms : db'.reservationAtom.rows ⊆ db.reservationAtom.rows)
    (hhotel : db.hotel.seq ≤ db'.hotel.seq) (hreservation : db.reservation.seq ≤ db'.reservation.seq) :
    Fresh db' :=
  ⟨fun row hrow => (h.categories row (hcategories hrow)).trans hhotel,
    fun row hrow => (h.rooms row (hrooms hrow)).trans hhotel,
    fun row hrow => (h.atoms row (hatoms hrow)).trans hreservation⟩

theorem mem_insertAll {ρ : Type} {t : Table ρ} {rows : List ρ} {row : Int × ρ}
    (h : row ∈ (t.insertAll rows).1.rows) : row ∈ t.rows ∨ row.2 ∈ rows := by
  rw [Table.insertAll_rows] at h
  exact (List.mem_append.1 h).imp_right fun hzip => (List.of_mem_zip hzip).2

theorem Fresh.storeHotel (h : Fresh db) (hotel : Hotel) : Fresh (storeNewHotel db hotel).1 where
  categories row hrow := by
    show row.2.hotelId ≤ db.hotel.seq + 1
    rcases mem_insertAll hrow with hold | hnew
    · have := h.categories row hold
      omega
    · obtain ⟨category, -, hcategory⟩ := List.mem_map.1 hnew
      rw [← hcategory]
      exact le_refl (db.hotel.seq + 1)
  rooms row hrow := by
    show row.2.hotelId ≤ db.hotel.seq + 1
    rcases mem_insertAll hrow with hold | hnew
    · have := h.rooms row hold
      omega
    · obtain ⟨room, -, hroom⟩ := List.mem_map.1 hnew
      rw [← hroom]
      exact le_refl (db.hotel.seq + 1)
  atoms := h.atoms

theorem Fresh.insertAtoms (h : Fresh db) {r : Reservation} (hid : r.id ≤ db.reservation.seq) :
    Fresh (insertAtoms boost db r).1 where
  categories := h.categories
  rooms := h.rooms
  atoms row hrow := by
    show row.2.reservationId ≤ db.reservation.seq
    rcases mem_insertAll hrow with hold | hnew
    · exact h.atoms row hold
    · obtain ⟨atom, -, hatom⟩ := List.mem_map.1 hnew
      rw [← hatom]
      exact hid

theorem Fresh.storeReservation (h : Fresh db) {r r' : Reservation}
    (hstored : storeNewReservationAndAtoms build boost db r = .ok (db', r')) : Fresh db' := by
  obtain ⟨status, -, rfl, -⟩ := of_storeNewReservationAndAtoms hstored
  have hgrows : db.reservation.seq ≤ db.reservation.seq + 1 := by omega
  have hrow : Fresh (withRow db r status) :=
    h.mono (List.Subset.refl _) (List.Subset.refl _) (List.Subset.refl _) le_rfl hgrows
  exact hrow.insertAtoms (r := numbered db r) (le_refl (db.reservation.seq + 1))

theorem Fresh.updateReservation (h : Fresh db) {r r' : Reservation}
    (hupdated : updateReservation build boost db r = .ok (true, db', r')) : Fresh db' := by
  obtain ⟨status, -, ⟨row, hrow, -⟩, rfl, -⟩ := of_updateReservation hupdated
  have hremoved : Fresh (withoutAtoms db r status) :=
    h.mono (List.Subset.refl _) (List.Subset.refl _) (List.filter_subset_self _) le_rfl le_rfl
  exact hremoved.insertAtoms (Table.get?_isSome_le hrow).2

theorem fresh_effect {op : Operation} {notices : List Notice} (h : Fresh db)
    (heffect : Effect build boost db op db' notices) : Fresh db' := by
  cases heffect with
  | eraseAllData => exact fresh_empty
  | storeNull item null => exact h
  | storeHotel hotel => exact h.storeHotel hotel
  | storeReservation r r' _ stored => exact h.storeReservation stored
  | updateHotel hotel hotel' _ hasId updated =>
    obtain ⟨-, rfl, -⟩ := of_updateHotel updated
    exact h.mono (List.Subset.refl _) (List.Subset.refl _) (List.Subset.refl _) le_rfl le_rfl
  | updateReservation r r' _ hasId updated => exact h.updateReservation updated
  | deleteReservation id =>
    exact h.mono (List.Subset.refl _) (List.Subset.refl _) (List.filter_subset_self _) le_rfl le_rfl

theorem ReachableDatabase.fresh (h : ReachableDatabase build boost db) : Fresh db := by
  refine Reachable.invariant (I := Fresh) ?_ ?_ h
  · intro db hdb
    have hempty : db = {} := hdb
    rw [hempty]
    exact fresh_empty
  · intro db db' hfresh hstep
    obtain ⟨op, e, hexecuted, hsucceeded, rfl⟩ := hstep
    exact fresh_effect hfresh (effect_of_succeeded hexecuted hsucceeded)

theorem reachable_succeed {streams : List DataStream} {ops : Operations} {rs : List TaskResult}
    {cs : List DataStreamDifferential} (h : ReachableDatabase build boost db)
    (hsucceed : Succeed build boost streams db ops db' rs cs) : ReachableDatabase build boost db' := by
  induction hsucceed with
  | nil => exact h
  | cons executed succeeded _ _ ih => exact ih (h.step ⟨_, _, executed, succeeded, rfl⟩)

/-- Batches lead from one of these databases to another. -/
theorem reachable_history {db₀ : Database} {rs : List BatchRecord} (h : ReachableDatabase build boost db₀)
    (hhistory : History build boost db₀ rs db) : ReachableDatabase build boost db := by
  induction hhistory with
  | nil => exact h
  | commit _ succeed ih => exact reachable_succeed ih succeed
  | rollback _ _ ih => exact ih

theorem Fresh.categories_next (h : Fresh db) :
    (db.roomCategory.select fun _ row => row.hotelId == db.hotel.nextId) = [] := by
  apply List.filter_eq_nil_iff.2
  intro row hrow hid
  have hknown := h.categories row hrow
  rw [beq_iff_eq.1 hid, Table.nextId] at hknown
  omega

theorem Fresh.rooms_next (h : Fresh db) :
    (db.room.select fun _ row => row.hotelId == db.hotel.nextId) = [] := by
  apply List.filter_eq_nil_iff.2
  intro row hrow hid
  have hknown := h.rooms row hrow
  rw [beq_iff_eq.1 hid, Table.nextId] at hknown
  omega

theorem Fresh.atoms_next (h : Fresh db) : atomsOf db db.reservation.nextId = [] := by
  apply List.filter_eq_nil_iff.2
  intro row hrow hid
  have hknown := h.atoms row hrow
  rw [beq_iff_eq.1 hid, Table.nextId] at hknown
  omega

end

end HotelPms

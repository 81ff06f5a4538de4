import HotelPms.Hotel.Planning
import HotelPms.Sqlite.Loading
import HotelPms.Sqlite.Worker

/- Double bookings in the storage.

   Nothing on the way of a batch into the storage asks whether a room is free: that
   is left to the planning board of the client that made the reservation. So two
   clients can store reservations of one room and one night (`double_booking`), and
   every board that loads them then throws.

   What does hold: as long as each reservation that is stored or updated meets none
   of those in the storage at the moment it is executed (`FitsIn`), the loaded
   reservations meet nowhere, and a board takes all of them (`no_double_booking`). -/
namespace HotelPms
open Lib SqliteStorage DataStreamManager SqliteBackend Reservation

/-- A reservation that an operation stores or updates is valid, and meets no
    reservation in the storage but the one that it replaces. -/
def FitsIn (build : Build) (boost : BoostDate) (db : Database) : Operation → Prop
  | .storeNew (.reservation (some r)) => r.isValid = true ∧
    ∀ items, loadAllReservations build boost db = .ok items →
      ∀ item ∈ items, r.intersectsWith item = false
  | .update (.reservation (some r)) => r.isValid = true ∧
    ∀ items, loadAllReservations build boost db = .ok items →
      ∀ item ∈ items, item.id ≠ r.id → r.intersectsWith item = false
  | _ => True

/-- Reservations of which no two meet. -/
def Apart (items : List Reservation) : Prop :=
  items.Pairwise fun a b => a.intersectsWith b = false

instance : DecidablePred Apart := fun items =>
  inferInstanceAs (Decidable (items.Pairwise fun a b => a.intersectsWith b = false))

section
variable {build : Build} {boost : BoostDate} {db db' : Database}

theorem places_stored {r r' : Reservation}
    (h : storeNewReservationAndAtoms build boost db r = .ok (db', r')) :
    (asLoaded r').places = r.places := by
  obtain ⟨status, -, -, rfl⟩ := of_storeNewReservationAndAtoms h
  rw [places_asLoaded, places_insertAtoms]
  rfl

theorem places_updated {r r' : Reservation}
    (h : updateReservation build boost db r = .ok (true, db', r')) :
    (asLoaded r').places = r.places ∧ r'.id = r.id := by
  obtain ⟨status, -, -, -, rfl⟩ := of_updateReservation h
  refine ⟨?_, rfl⟩
  rw [places_asLoaded]
  exact places_insertAtoms boost _ r

theorem apart_of_mem {items items' : List Reservation} {new : Reservation}
    (hdistinct : (items'.map (·.id)).Nodup) (hpairs : ∀ a ∈ items, ∀ b ∈ items,
      a.id ≠ b.id → a.intersectsWith b = false)
    (hmem : ∀ item ∈ items', item = new ∨ item ∈ items ∧ item.id ≠ new.id)
    (hfree : ∀ item ∈ items, item.id ≠ new.id → new.intersectsWith item = false) : Apart items' := by
  apply (List.pairwise_map.1 hdistinct).imp_of_mem
  intro a b ha hb hab
  rcases hmem a ha with rfl | ⟨ha, hane⟩
  · rcases hmem b hb with rfl | ⟨hb, hbne⟩
    · exact absurd rfl hab
    · exact hfree b hb hbne
  · rcases hmem b hb with rfl | ⟨hb, -⟩
    · rw [PlanningBoard.intersectsWith_comm]
      exact hfree a ha hane
    · exact hpairs a ha b hb hab

theorem Apart.of_ne {items : List Reservation} (h : Apart items) {a b : Reservation} (ha : a ∈ items)
    (hb : b ∈ items) (hne : a.id ≠ b.id) : a.intersectsWith b = false := by
  have hsymm : Std.Symm fun x y : Reservation => x.intersectsWith y = false := by
    constructor
    intro x y hxy
    rw [PlanningBoard.intersectsWith_comm]
    exact hxy
  exact List.Pairwise.forall h ha hb fun heq => hne (congrArg (·.id) heq)

/-- Every operation that fits in keeps the loaded reservations apart. -/
theorem apart_effect {op : Operation} {notices : List Notice} (hfits : FitsIn build boost db op)
    (h : ∃ items, Loads build boost db items ∧ Apart items)
    (he : Effect build boost db op db' notices) :
    ∃ items, Loads build boost db' items ∧ Apart items := by
  obtain ⟨items, hloads, hapart⟩ := h
  cases he with
  | eraseAllData => exact ⟨[], loads_empty, List.Pairwise.nil⟩
  | storeNull item null => exact ⟨items, hloads, hapart⟩
  | storeHotel hotel => exact ⟨items, hloads.of_eq rfl rfl, hapart⟩
  | updateHotel hotel hotel' db' hasId updated =>
    obtain ⟨-, rfl, -⟩ := of_updateHotel updated
    exact ⟨items, hloads.of_eq rfl rfl, hapart⟩
  | storeReservation r r' db' stored =>
    obtain ⟨hvalid, hfree⟩ := hfits
    have hnone := hfree items (loadAllReservations_of_loads hloads)
    refine ⟨_, loads_store hloads hvalid stored, ?_⟩
    rw [Apart, List.pairwise_append]
    refine ⟨hapart, List.pairwise_singleton _ _, ?_⟩
    intro item hitem new hnew
    rw [List.mem_singleton.1 hnew, PlanningBoard.intersectsWith_comm,
      Reservation.intersectsWith_of_places (places_stored stored)]
    exact hnone item hitem
  | updateReservation r r' db' hasId updated =>
    obtain ⟨hvalid, hfree⟩ := hfits
    have hnone := hfree items (loadAllReservations_of_loads hloads)
    obtain ⟨hplaces, hid⟩ := places_updated updated
    obtain ⟨items', hloads', hitems'⟩ := loads_update_any hloads hvalid updated
    refine ⟨items', hloads', ?_⟩
    apply apart_of_mem hloads'.distinct (fun a ha b hb => hapart.of_ne ha hb) hitems'
    intro item hitem hne
    rw [Reservation.intersectsWith_of_places hplaces]
    exact hnone item hitem (by rw [← hid]; exact hne)
  | deleteReservation id =>
    exact ⟨_, loads_delete hloads id, hapart.sublist List.filter_sublist⟩

theorem addReservations_of_apart {items : List Reservation} (hvalid : ∀ item ∈ items, item.isValid = true)
    (hapart : Apart items) {os : List ReservationObj} (hvalues : os.map (·.value) = items)
    (haddrs : (os.map (·.addr)).Nodup) :
    (({} : PlanningBoard).addReservations os).1 = .ok () := by
  have hos : ∀ o ∈ os, o.value.isValid = true := by
    intro o ho
    apply hvalid
    rw [← hvalues]
    exact List.mem_map_of_mem ho
  have hpairs : os.Pairwise fun o o' => o.value.intersectsWith o'.value = false := by
    rw [← hvalues] at hapart
    exact List.pairwise_map.1 hapart
  have hfree : ∀ o ∈ os, ∀ o' ∈ ({} : PlanningBoard).reservations,
      o.value.intersectsWith o'.value = false := fun _ _ _ ho' => absurd ho' List.not_mem_nil
  have haddrs' : (({} : PlanningBoard).reservations.map (·.addr) ++ os.map (·.addr)).Nodup := by
    rw [List.map_nil, List.nil_append]
    exact haddrs
  have hall := PlanningBoard.addReservations_ok os {} PlanningBoard.consistent_empty hos hpairs hfree
    haddrs'
  exact hall.1

theorem Loads.valid {items : List Reservation} (h : Loads build boost db items) :
    ∀ item ∈ items, item.isValid = true := by
  have hrows := h.rows
  clear h
  generalize visibleRows db = rows at hrows
  induction hrows with
  | nil => exact nofun
  | cons hrow _ ih => exact List.forall_mem_cons.2 ⟨hrow.valid, ih⟩

end

namespace Backend

/-- In every interleaving, on a new database or on what earlier batches made of one,
    in which each reservation that a committed batch stores or updates fits in when
    it is executed: after every batch the reservations that loading returns meet
    nowhere, and they can be added one after another to an empty board. -/
theorem no_double_booking {build : Build} {boost : BoostDate} {db₀ : Database}
    {earlier : List BatchRecord} (hearlier : History build boost {} earlier db₀) {s : Backend}
    (h : Reached build boost db₀ s)
    (hfits : AlongHistory build boost (FitsIn build boost) (earlier ++ s.executed)) :
    ∃ items, loadAllReservations build boost s.storage.current = .ok items ∧
      (items.Pairwise fun a b => a.intersectsWith b = false) ∧
      ∀ os : List ReservationObj, os.map (·.value) = items → (os.map (·.addr)).Nodup →
        (({} : PlanningBoard).addReservations os).1 = .ok () := by
  have hhistory := hearlier.append (reached_sound h).history
  obtain ⟨items, hloads, hapart⟩ := hhistory.induction
    (P := fun _ db => ∃ items, Loads build boost db items ∧ Apart items)
    ⟨[], loads_empty, List.Pairwise.nil⟩
    (fun _ _ _ _ _ hop hpast heffect => apart_effect hop hpast heffect) hfits
  exact ⟨items, loadAllReservations_of_loads hloads, hapart, fun os hvalues haddrs =>
    addReservations_of_apart hloads.valid hapart hvalues haddrs⟩

/-- Two clients store the same night in the same room: both batches are committed,
    and no board takes what is loaded then. -/
theorem double_booking : ∃ s : Backend, Reached .debug .gregorian {} s ∧
    s.executed.map (·.operations) = [[.storeNew (.reservation (some oneNight))],
      [.storeNew (.reservation (some oneNight))]] ∧
    oneNight.isValid = true ∧ (∀ r ∈ s.executed, r.committed = true) ∧
    ∃ items, loadAllReservations .debug .gregorian s.storage.current = .ok items ∧
      ∀ os : List ReservationObj, os.map (·.value) = items → (os.map (·.addr)).Nodup →
        (({} : PlanningBoard).addReservations os).1 ≠ .ok () := by
  have h₀ : Reached .debug .gregorian {} { storage := { current := {} } } := .init rfl
  have h₁ := h₀.step (.queueOperations _ [.storeNew (.reservation (some oneNight))])
  have h₂ := h₁.step (.queueOperations _ [.storeNew (.reservation (some oneNight))])
  have h₃ := h₂.step (.swap _ rfl)
  have h₄ := h₃.step (.collect _ rfl)
  have h₅ := h₄.step (.process _ rfl rfl)
  have h₆ := h₅.step (.executeTask _ rfl _ _ rfl _ [] rfl rfl)
  have h₇ := h₆.step (.executeTask _ rfl _ _ rfl _ [] rfl rfl)
  have hfirst : Loads .debug .gregorian _ _ := loads_store loads_empty (r := oneNight) rfl rfl
  have hboth := loads_store hfirst (r := oneNight) rfl rfl
  refine ⟨_, h₇, rfl, rfl, by simp, _, loadAllReservations_of_loads hboth, ?_⟩
  intro os hvalues haddrs hok
  obtain ⟨hconsistent, hreservations⟩ := PlanningBoard.of_addReservations_ok os {}
    PlanningBoard.consistent_empty hok (by simpa using haddrs)
  have hapart := hconsistent.conflictFree
  rw [hreservations, List.nil_append, ← List.pairwise_map (f := ReservationObj.value)
    (R := fun a b => a.intersectsWith b = false), hvalues] at hapart
  have hmeet := (List.pairwise_cons.1 hapart).1 _ List.mem_cons_self
  exact absurd hmeet (by decide)

/-- One client stores a reservation. Another one stores one in the room beside it, and moves
    the first to a third room. -/
theorem no_double_booking_threeRooms : ∃ (s : Backend) (first second : Reservation),
    s.executed.map (·.operations) = [[.storeNew (.reservation (some (oneNightIn 1)))],
      [.storeNew (.reservation (some (oneNightIn 2))),
        .update (.reservation (some { oneNightIn 3 with id := 1, revision := 1 }))]] ∧
    (∀ r ∈ s.executed, r.committed = true) ∧
    loadAllReservations .debug .gregorian s.storage.current = .ok [first, second] ∧
    [first, second].map (fun r => (r.id, r.atoms.map (·.roomId))) = [(1, [3]), (2, [2])] ∧
    first.intersectsWith second = false ∧
    (({} : PlanningBoard).addReservations [⟨1, first⟩, ⟨2, second⟩]).1 = .ok () := by
  have h₀ : Reached .debug .gregorian {} { storage := { current := {} } } := .init rfl
  have h₁ := h₀.step (.queueOperations _ [.storeNew (.reservation (some (oneNightIn 1)))])
  have h₂ := h₁.step (.queueOperations _ [.storeNew (.reservation (some (oneNightIn 2))),
    .update (.reservation (some { oneNightIn 3 with id := 1, revision := 1 }))])
  have h₃ := h₂.step (.swap _ rfl)
  have h₄ := h₃.step (.collect _ rfl)
  have h₅ := h₄.step (.process _ rfl rfl)
  have h₆ := h₅.step (.executeTask _ rfl _ _ rfl _ [] rfl rfl)
  have h₇ := h₆.step (.executeTask _ rfl _ _ rfl _ [] rfl rfl)
  -- what is stored before each of the operations
  have hfirst : Loads .debug .gregorian _ _ := loads_store loads_empty (r := oneNightIn 1) rfl rfl
  have hboth := loads_store hfirst (r := oneNightIn 2) rfl rfl
  have hmoved := loads_update hboth (r := { oneNightIn 3 with id := 1, revision := 1 }) rfl rfl (by decide)
  obtain ⟨items, hload, hapart, hboard⟩ := no_double_booking .nil h₇ (by
    intro r hr _
    rcases List.mem_cons.1 hr with rfl | hr
    · refine ⟨⟨rfl, fun items hitems => ?_⟩, fun _ _ => trivial⟩
      obtain rfl := Except.ok.inj ((loadAllReservations_of_loads loads_empty).symm.trans hitems)
      exact fun item hitem => absurd hitem List.not_mem_nil
    · obtain rfl := List.mem_singleton.1 hr
      refine ⟨⟨rfl, fun items hitems => ?_⟩, fun e he => ?_⟩
      · obtain rfl := Except.ok.inj ((loadAllReservations_of_loads hfirst).symm.trans hitems)
        decide
      · cases he
        refine ⟨⟨rfl, fun items hitems => ?_⟩, fun _ _ => trivial⟩
        obtain rfl := Except.ok.inj ((loadAllReservations_of_loads hboth).symm.trans hitems)
        decide)
  obtain rfl := Except.ok.inj ((loadAllReservations_of_loads hmoved).symm.trans hload)
  exact ⟨_, _, _, rfl, by simp, hload, by decide, (List.pairwise_cons.1 hapart).1 _ List.mem_cons_self, hboard _ rfl (by decide)⟩

end Backend

end HotelPms

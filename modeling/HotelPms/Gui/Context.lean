import HotelPms.Hotel.Hotel
import HotelPms.Hotel.PlanningRuns

/- `gui::planningwidget::Context`: the board and the hotels that a planning widget shows.

   Every reservation that is added is copied to a new place in memory. The active
   tool hears of it first; what the tools make of it is in their own modules, since
   no tool touches the board or the hotels.

   `items` are the reservations on the board. Adding one appends it, if it is valid
   and meets no other (`addReservation_ok`, `of_addReservation_ok`), and removing an
   id takes out the reservation that has it (`removeReservation_items`). -/
namespace HotelPms

/-- A hotel as the program can build one: the copy constructor keeps it as it is. -/
abbrev DistinctHotel := { hotel : Hotel // hotel.CodesDistinct }

namespace DistinctHotel

theorem copy_distinct {hotel : DistinctHotel} {added : Hotel} (h : hotel.val.copy = .ok added) :
    added.CodesDistinct := by
  rw [Hotel.copy_eq, Hotel.reattach_eq hotel.property] at h
  cases h
  exact hotel.property

/-- `std::make_unique<hotel::Hotel>(hotel)` -/
def copy (hotel : DistinctHotel) : Except Fault DistinctHotel :=
  match h : hotel.val.copy with
  | .ok added => .ok ⟨added, copy_distinct h⟩
  | .error fault => .error fault

theorem copy_eq (hotel : DistinctHotel) : hotel.copy = .ok hotel := by
  have hcopy : hotel.val.copy = .ok hotel.val := by
    rw [Hotel.copy_eq, Hotel.reattach_eq hotel.property]
  rw [copy]
  split
  · next added h =>
    rw [hcopy] at h
    cases h
    rfl
  · next fault h =>
    rw [hcopy] at h
    cases h

end DistinctHotel

structure Context where
  /-- `_reservations` -/
  planning : PlanningBoard := {}
  hotels : List DistinctHotel := []
  /-- where `std::make_unique` puts the next reservation -/
  nextAddr : Addr := 0

namespace Context

def addHotel (build : Build) (c : Context) (hotel : DistinctHotel) : Except Fault Context := do
  build.assert (hotel.val.id != 0) "hotel.id() != 0"
  let added ← hotel.copy
  return { c with hotels := c.hotels ++ [added] }

def addReservation (build : Build) (c : Context) (reservation : Reservation) :
    Except Fault Context := do
  build.assert (reservation.id != 0) "reservation.id() != 0"
  match c.planning.addReservation (some ⟨c.nextAddr, reservation⟩) with
  | (.ok _, planning) => return { c with planning, nextAddr := c.nextAddr + 1 }
  | (.error fault, _) => .error fault

def removeHotel (c : Context) (hotelId : Int) : Context :=
  { c with hotels := c.hotels.filter fun hotel => hotel.val.id ≠ hotelId }

def removeReservation (c : Context) (reservationId : Int) : Context :=
  { c with planning := c.planning.removeReservationById reservationId }

/-- The reservations on the board. -/
def items (c : Context) : List Reservation := c.planning.reservations.map (·.value)

/-- The board is consistent, and the next place in memory is free. -/
structure Sound (c : Context) : Prop where
  consistent : c.planning.Consistent
  fresh : ∀ o ∈ c.planning.reservations, o.addr < c.nextAddr

/-- A reservation that can be added to these. -/
structure Fits (build : Build) (items : List Reservation) (r : Reservation) : Prop where
  hasId : build.ndebug = true ∨ r.id ≠ 0
  valid : r.isValid = true
  free : ∀ item ∈ items, r.intersectsWith item = false

theorem sound_empty : Sound {} := ⟨PlanningBoard.consistent_empty, by simp⟩

section
variable {build : Build} {c c' : Context} {r : Reservation}

theorem assert_id {id : Int} (h : build.ndebug = true ∨ id ≠ 0) (what : String) :
    build.assert (id != 0) what = .ok () := by
  apply if_pos
  rw [Bool.or_eq_true, bne_iff_ne]
  exact h

theorem of_assert_id {id : Int} {what : String} {u : Unit}
    (h : build.assert (id != 0) what = .ok u) : build.ndebug = true ∨ id ≠ 0 := by
  rw [Build.assert] at h
  split at h
  · next hc => rwa [Bool.or_eq_true, bne_iff_ne] at hc
  · cases h

/-- The board accepts what fits. -/
theorem canAdd_iff (h : Sound c) : c.planning.canAddReservation r = true ↔
    r.isValid = true ∧ ∀ item ∈ c.items, r.intersectsWith item = false := by
  rw [h.consistent.canAddReservation_eq, items, List.forall_mem_map]

theorem items_add (c : Context) (r : Reservation) (planning : PlanningBoard) (nextAddr : Addr)
    (h : planning.reservations = c.planning.reservations ++ [⟨c.nextAddr, r⟩]) :
    items { c with planning, nextAddr } = c.items ++ [r] := by
  rw [items, h, List.map_append]
  rfl

theorem sound_add (h : Sound c) (hcan : c.planning.canAddReservation r = true) :
    Sound { c with
      planning := (c.planning.addReservation (some ⟨c.nextAddr, r⟩)).2, nextAddr := c.nextAddr + 1 } := by
  have hfresh : (⟨c.nextAddr, r⟩ : ReservationObj).addr ∉ c.planning.reservations.map (·.addr) := by
    intro hmem
    obtain ⟨o, ho, he⟩ := List.mem_map.1 hmem
    exact absurd he (Nat.ne_of_lt (h.fresh o ho))
  refine ⟨h.consistent.add hfresh, fun o ho => ?_⟩
  rw [PlanningBoard.addReservation_accepted hcan] at ho
  rcases List.mem_append.1 ho with ho | ho
  · exact Nat.lt_succ_of_lt (h.fresh o ho)
  · rw [List.mem_singleton.1 ho]
    exact Nat.lt_succ_self _

/-- What fits is added. -/
theorem addReservation_ok (h : Sound c) (hfits : Fits build c.items r) :
    ∃ c', c.addReservation build r = .ok c' ∧ Sound c' ∧ c'.items = c.items ++ [r] ∧
      c'.hotels = c.hotels := by
  have hcan := (canAdd_iff h).2 ⟨hfits.valid, hfits.free⟩
  have hadded := PlanningBoard.addReservation_accepted (o := ⟨c.nextAddr, r⟩) hcan
  refine ⟨_, ?_, sound_add h hcan, ?_, rfl⟩
  · rw [addReservation, Except.bind_ok (assert_id hfits.hasId _), hadded]
    rfl
  · rw [hadded]
    exact items_add c r _ _ rfl

theorem addHotel_ok {hotel : DistinctHotel} (hid : build.ndebug = true ∨ hotel.val.id ≠ 0) :
    c.addHotel build hotel = .ok { c with hotels := c.hotels ++ [hotel] } := by
  rw [addHotel, Except.bind_ok (assert_id hid _), DistinctHotel.copy_eq]
  rfl

theorem of_addHotel_ok {hotel : DistinctHotel} (hok : c.addHotel build hotel = .ok c') :
    (build.ndebug = true ∨ hotel.val.id ≠ 0) ∧ c' = { c with hotels := c.hotels ++ [hotel] } := by
  obtain ⟨_, hassert, -⟩ := Except.bind_eq_ok.1 hok
  have hid := of_assert_id hassert
  rw [addHotel_ok hid] at hok
  exact ⟨hid, (Except.ok.inj hok).symm⟩

/-- What is added fits. -/
theorem of_addReservation_ok (h : Sound c) (hok : c.addReservation build r = .ok c') :
    Fits build c.items r ∧ Sound c' ∧ c'.items = c.items ++ [r] ∧ c'.hotels = c.hotels := by
  obtain ⟨_, hassert, hadd⟩ := Except.bind_eq_ok.1 hok
  cases hcan : c.planning.canAddReservation r with
  | false =>
    rw [PlanningBoard.addReservation_refused (o := ⟨c.nextAddr, r⟩) hcan] at hadd
    cases hadd
  | true =>
    obtain ⟨hvalid, hfree⟩ := (canAdd_iff h).1 hcan
    have hfits : Fits build c.items r := ⟨of_assert_id hassert, hvalid, hfree⟩
    obtain ⟨c₁, hok₁, hrest⟩ := addReservation_ok h hfits
    cases hok.symm.trans hok₁
    exact ⟨hfits, hrest⟩

theorem accepts_iff_items (h : Sound c) :
    (∃ c', c.addReservation build r = .ok c') ↔ Fits build c.items r := by
  constructor
  · rintro ⟨c', hok⟩
    exact (of_addReservation_ok h hok).1
  · intro hfits
    obtain ⟨c', hok, -⟩ := addReservation_ok h hfits
    exact ⟨c', hok⟩

/-- Removing an id leaves the board as it is, or takes one reservation that has it out. -/
theorem removeReservation_cases (h : Sound c) (id : Int) :
    ((∀ o ∈ c.planning.reservations, o.value.id ≠ id) ∧ c.removeReservation id = c) ∨
    ∃ o ∈ c.planning.reservations, o.value.id = id ∧ Sound (c.removeReservation id) ∧
      (c.removeReservation id).planning.reservations =
        c.planning.reservations.filter fun x => !(x.addr == o.addr) := by
  cases hfind : c.planning.reservations.find? fun x => x.value.id == id with
  | none =>
    left
    constructor
    · intro o ho
      simpa using List.find?_eq_none.1 hfind o ho
    · show { c with planning := c.planning.removeReservationById id } = c
      rw [PlanningBoard.removeReservationById, hfind]
  | some o =>
    right
    have ho := List.mem_of_find?_eq_some hfind
    have hremoved := (PlanningBoard.removeReservationById_eq h.consistent hfind).trans
      (congrArg Prod.snd (PlanningBoard.removeReservation_eq h.consistent o))
    have hlive : ∀ o' ∈ c.planning.reservations, o'.addr = o.addr → o' = o :=
      fun o' ho' => h.consistent.eq_of_addr ho ho'
    have hreservations : (c.removeReservation id).planning.reservations =
        c.planning.reservations.filter fun x => !(x.addr == o.addr) :=
      congrArg PlanningBoard.reservations hremoved
    refine ⟨o, ho, by simpa using List.find?_some hfind, ⟨?_, fun o' ho' => ?_⟩, hreservations⟩
    · show (c.planning.removeReservationById id).Consistent
      rw [hremoved]
      exact h.consistent.remove hlive
    · rw [hreservations] at ho'
      exact h.fresh o' (List.mem_of_mem_filter ho')

theorem removeReservation_sublist (h : Sound c) (id : Int) :
    Sound (c.removeReservation id) ∧ (c.removeReservation id).items.Sublist c.items := by
  rcases removeReservation_cases h id with ⟨-, hsame⟩ | ⟨o, -, -, hsound, hreservations⟩
  · rw [hsame]
    exact ⟨h, List.Sublist.refl _⟩
  · refine ⟨hsound, ?_⟩
    rw [items, hreservations]
    exact List.filter_sublist.map _

/-- Removing an id takes out the reservation that has it. -/
theorem removeReservation_items (h : Sound c) (hdistinct : (c.items.map (·.id)).Nodup) (id : Int) :
    Sound (c.removeReservation id) ∧
      (c.removeReservation id).items = c.items.filter fun item => item.id ≠ id := by
  have hids : (c.planning.reservations.map fun o => o.value.id).Nodup := by
    rw [items, List.map_map] at hdistinct
    exact hdistinct
  rcases removeReservation_cases h id with ⟨hnone, hsame⟩ | ⟨o, ho, hid, hsound, hreservations⟩
  · rw [hsame]
    refine ⟨h, (List.filter_eq_self.2 fun item hitem => ?_).symm⟩
    obtain ⟨o, ho, rfl⟩ := List.mem_map.1 hitem
    simpa using hnone o ho
  · refine ⟨hsound, ?_⟩
    rw [items, hreservations, items, List.filter_map]
    congr 1
    apply List.filter_congr
    intro o' ho'
    rw [Function.comp_apply, ← hid]
    by_cases he : o'.addr = o.addr
    · rw [h.consistent.eq_of_addr ho ho' he]
      simp
    · have hne : o'.value.id ≠ o.value.id := by
        intro hsame
        exact he (congrArg (·.addr) (List.inj_on_of_nodup_map hids ho' ho hsame))
      simp [he, hne]

end

end Context

end HotelPms

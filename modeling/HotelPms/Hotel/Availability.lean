import HotelPms.Hotel.Nights

/- What a board answers about a room, and what it accepts.

   `isFree` scans the row of the room from end to end, `getAvailableDaysFrom` searches it
   by bisection. On the boards of any history the two agree about every number of days
   (`isFree_iff_available`), also where the days reach beyond the last date Boost knows.
   A board accepts a reservation exactly if that is valid and meets none of its own
   (`accepts_iff`), although it asks its rows and not its reservations. -/
namespace HotelPms
open Lib

/-- The bounds of a period as day numbers. -/
def Lib.Period.dayNumbers (p : DatePeriod) : Period Int := ⟨p.begin_.dayNumber, p.end_.dayNumber⟩

/-- The period of `n` days from a date on. `date + days(n)` is not checked, so that the
    period may end at a day that no calendar date has. -/
def daysFrom (date : Date) (n : Int) : Period Int := ⟨date.dayNumber, date.dayNumber + n⟩

namespace PlanningBoard

/-- `isFree` for periods of day numbers. -/
def isFreeDays (b : PlanningBoard) (roomId : Int) (period : Period Int) : Bool :=
  match b.rooms[roomId]? with
  | none => true
  | some roomAtoms => !roomAtoms.any fun x => x.period.dayNumbers.intersects period

theorem isFreeDays_dayNumbers (b : PlanningBoard) (roomId : Int) (period : DatePeriod) :
    b.isFreeDays roomId period.dayNumbers = b.isFree roomId period := rfl

theorem isFreeDays_iff (b : PlanningBoard) (roomId : Int) (period : Period Int) :
    b.isFreeDays roomId period = true ↔
      ∀ x ∈ b.row roomId, x.period.dayNumbers.intersects period = false := by
  simp only [isFreeDays, row, Std.TreeMap.getD_eq_getD_getElem?]
  cases b.rooms[roomId]? <;> simp

section
variable {b : PlanningBoard} {roomId : Int}

/-- On a consistent board a number of days is free exactly if every atom that ends after
    the date begins after these days. -/
theorem isFreeDays_daysFrom (h : b.Consistent) (date : Date) {n : Int} (hn : 1 ≤ n) :
    b.isFreeDays roomId (daysFrom date n) = true ↔
      ∀ x ∈ b.row roomId, date < x.period.end_ → date.dayNumber + n ≤ x.period.begin_.dayNumber := by
  rw [isFreeDays_iff]
  refine forall₂_congr fun x hx => ?_
  have hx' : x.period.dayNumbers.isNull = false := by
    have := Period.isNull_eq_false.1 ((h.kept roomId).nonempty x hx)
    exact Period.isNull_eq_false.2 this
  have hdays : (daysFrom date n).isNull = false := by
    rw [Period.isNull_eq_false]
    unfold daysFrom
    dsimp only
    omega
  rw [← Bool.not_eq_true, Period.intersects_iff hx' hdays]
  simp only [Period.dayNumbers, daysFrom, Date.lt_def]
  omega

theorem isFreeDays_iff_available (h : b.Consistent) (roomId : Int) (date : Date) {n : Int} (hn : 1 ≤ n)
    (hmax : n ≤ 2147483647) :
    b.isFreeDays roomId (daysFrom date n) = true ↔ n ≤ b.getAvailableDaysFrom roomId date := by
  rw [isFreeDays_daysFrom h date hn, getAvailableDaysFrom_eq h]
  cases hfound : (b.row roomId).dropWhile fun x => !decide (date < x.period.end_) with
  | nil =>
    refine iff_of_true (fun x hx hafter => ?_) hmax
    simpa [hafter] using List.dropWhile_eq_nil_iff.1 hfound x hx
  | cons first rest =>
    obtain ⟨hmem, hafter, hfirst⟩ := first_later h hfound
    dsimp only
    rw [le_max_iff]
    constructor
    · intro hfree
      have := hfree first hmem hafter
      omega
    · intro hle x hx hx'
      have hle' := hfirst x hx hx'
      rw [Date.le_def] at hle'
      omega

end

end PlanningBoard

namespace Boards

/-- The two availability queries agree on every board of any history: for each room,
    date and number of days up to the most an `int` holds, which stands for no limit. -/
theorem isFree_iff_available {w : Boards} (h : w.Reached) (i : Nat) (roomId : Int) (date : Date)
    (n : Int) (hn : 1 ≤ n) (hmax : n ≤ 2147483647) :
    ((w i).isFreeDays roomId (daysFrom date n) = true ↔
      n ≤ (w i).getAvailableDaysFrom roomId date) ∧
    ∀ end_ : Date, end_.dayNumber = date.dayNumber + n →
      ((w i).isFree roomId ⟨date, end_⟩ = true ↔ n ≤ (w i).getAvailableDaysFrom roomId date) := by
  have hagree := PlanningBoard.isFreeDays_iff_available ((world_sound h).consistent i) roomId date hn hmax
  refine ⟨hagree, fun end_ hend => ?_⟩
  have hperiod : (Period.mk date end_).dayNumbers = daysFrom date n := by
    simp [Period.dayNumbers, daysFrom, hend]
  rw [← hagree, ← hperiod, PlanningBoard.isFreeDays_dayNumbers]

/-- Three days before the stay in room 2, that room has three days. -/
theorem isFree_iff_available_oneReservation :
    3 ≤ (oneReservation 0).getAvailableDaysFrom 2 ⟨2457754, by decide, by decide⟩ ∧
    ¬4 ≤ (oneReservation 0).getAvailableDaysFrom 2 ⟨2457754, by decide, by decide⟩ := by
  have hreached : oneReservation.Reached :=
    .step (.init rfl) (.addReservation _ 0 ⟨7, .twoRooms⟩ fun _ => by simp [PlanningBoard.addrs])
  have hdays : ∀ n, 1 ≤ n → n ≤ 2147483647 → ((oneReservation 0).isFreeDays 2
      (daysFrom ⟨2457754, by decide, by decide⟩ n) = true ↔
        n ≤ (oneReservation 0).getAvailableDaysFrom 2 ⟨2457754, by decide, by decide⟩) :=
    fun n hn hmax => (isFree_iff_available hreached 0 2 _ n hn hmax).1
  exact ⟨(hdays 3 (by decide) (by decide)).1 (by decide),
    fun hfour => absurd ((hdays 4 (by decide) (by decide)).2 hfour) (by decide)⟩

/-- A board of any history accepts exactly what is valid and meets no reservation on it;
    what it accepts is added, for anything else `addReservation` throws. -/
theorem accepts_iff {w : Boards} (h : w.Reached) (i : Nat) (r : Reservation) :
    ((w i).canAddReservation r = true ↔
      r.isValid = true ∧ ∀ o ∈ (w i).reservations, r.intersectsWith o.value = false) ∧
    ∀ addr, ((w i).canAddReservation r = true →
        ((w i).addReservation (some ⟨addr, r⟩)).1 = .ok addr ∧
        ((w i).addReservation (some ⟨addr, r⟩)).2.reservations = (w i).reservations ++ [⟨addr, r⟩]) ∧
      ((w i).canAddReservation r = false →
        ((w i).addReservation (some ⟨addr, r⟩)).1 =
          .error (.logicError ("cannot add reservation " ++ r.description))) := by
  refine ⟨((world_sound h).consistent i).canAddReservation_eq r, fun addr => ⟨fun hcan => ?_, fun hcan => ?_⟩⟩
  · rw [PlanningBoard.addReservation_accepted (o := ⟨addr, r⟩) hcan]
    exact ⟨rfl, rfl⟩
  · rw [PlanningBoard.addReservation_refused (o := ⟨addr, r⟩) hcan]

/-- The stay that is on the board already is refused there. -/
theorem accepts_iff_oneReservation :
    ((oneReservation 0).addReservation (some ⟨8, .twoRooms⟩)).1 =
      .error (.logicError "cannot add reservation two rooms") := by
  have hreached : oneReservation.Reached :=
    .step (.init rfl) (.addReservation _ 0 ⟨7, .twoRooms⟩ fun _ => by simp [PlanningBoard.addrs])
  exact ((accepts_iff hreached 0 .twoRooms).2 8).2 (by decide)

end Boards

end HotelPms

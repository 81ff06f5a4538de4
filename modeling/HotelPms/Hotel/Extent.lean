import HotelPms.Hotel.Nights

/- `PlanningBoard::getPlanningExtent` and `getReservationsInPeriod`.

   The extent looks at the first and the last atom of each row only, and the query at
   the bounds of each reservation. As rows are sorted and apart, and as reservations are
   contiguous, that is enough: on the boards of any history the extent is the smallest
   period around all atoms, its assertion holds, and the query finds exactly the
   reservations that have an atom in the period (`extent_and_period`). -/
namespace HotelPms
open Lib

/-- A date that may also be `neg_infin` or `pos_infin`. -/
abbrev SpecialDate := WithBot (WithTop Date)

namespace SpecialDate

def negInfin : SpecialDate := ⊥
def posInfin : SpecialDate := ((⊤ : WithTop Date) : SpecialDate)
def ofDate (d : Date) : SpecialDate := ((d : WithTop Date) : SpecialDate)

def isSpecial (d : SpecialDate) : Bool := d == negInfin || d == posInfin

@[simp] theorem ofDate_le {d e : Date} : ofDate d ≤ ofDate e ↔ d ≤ e := by simp [ofDate]

@[simp] theorem ofDate_lt {d e : Date} : ofDate d < ofDate e ↔ d < e := by simp [ofDate]

theorem negInfin_le (d : SpecialDate) : negInfin ≤ d := bot_le

theorem le_posInfin (d : SpecialDate) : d ≤ posInfin := by
  cases d using WithBot.recBotCoe with
  | bot => exact bot_le
  | coe d => exact WithBot.coe_le_coe.2 le_top

theorem eq_ofDate {d : SpecialDate} {lower upper : Date} (hlower : ofDate lower ≤ d)
    (hupper : d ≤ ofDate upper) : ∃ e, d = ofDate e := by
  cases d using WithBot.recBotCoe with
  | bot => simp [ofDate] at hlower
  | coe d =>
    cases d using WithTop.recTopCoe with
    | top => simp [ofDate] at hupper
    | coe e => exact ⟨e, rfl⟩

theorem isSpecial_ofDate (d : Date) : isSpecial (ofDate d) = false := by
  simp [isSpecial, ofDate, negInfin, posInfin]

end SpecialDate

namespace PlanningBoard
open SpecialDate

/-- One turn of the loop of `getPlanningExtent`, for the row of one room. -/
def extend (bounds : SpecialDate × SpecialDate) (roomRow : Int × List AtomPtr) :
    SpecialDate × SpecialDate :=
  match roomRow.2.head?, roomRow.2.getLast? with
  | some front, some back =>
    (min bounds.1 (ofDate front.period.begin_), max bounds.2 (ofDate back.period.end_))
  | _, _ => bounds

/-- What the loop of `getPlanningExtent` computes. -/
def extentBounds (b : PlanningBoard) : SpecialDate × SpecialDate :=
  b.rooms.toList.foldl extend (posInfin, negInfin)

/-- `today` is what the clock says. -/
def getPlanningExtent (build : Build) (today : Date) (b : PlanningBoard) :
    Except Fault (Period SpecialDate) :=
  if b.reservations.isEmpty then .ok ⟨ofDate today, ofDate today⟩
  else do
    let bounds := b.extentBounds
    build.assert (!isSpecial bounds.1 && !isSpecial bounds.2 && decide (bounds.1 < bounds.2))
      "!from.is_special() && !to.is_special() && from < to"
    return ⟨bounds.1, bounds.2⟩

/-- A reservation that is not valid has no date range that a period could meet. -/
def getReservationsInPeriod (b : PlanningBoard) (period : DatePeriod) : List ReservationObj :=
  b.reservations.filter fun o =>
    match o.value.dateRange with
    | some range => range.intersects period
    | none => false

theorem foldl_extend (rows : List (Int × List AtomPtr)) : ∀ bounds : SpecialDate × SpecialDate,
    (∀ d, d ≤ (rows.foldl extend bounds).1 ↔ d ≤ bounds.1 ∧ ∀ row ∈ rows,
      ∀ front ∈ row.2.head?, d ≤ ofDate front.period.begin_) ∧
    ∀ d, (rows.foldl extend bounds).2 ≤ d ↔ bounds.2 ≤ d ∧ ∀ row ∈ rows,
      ∀ back ∈ row.2.getLast?, ofDate back.period.end_ ≤ d := by
  induction rows with
  | nil => simp
  | cons row rows ih =>
    intro bounds
    obtain ⟨hfrom, hto⟩ := ih (extend bounds row)
    rw [List.foldl_cons]
    simp only [hfrom, hto, List.forall_mem_cons, ← and_assoc]
    unfold extend
    cases hrow : row.2 with
    | nil => simp
    | cons front rest =>
      cases hback : (front :: rest).getLast? with
      | none => simp at hback
      | some back => simp

end PlanningBoard

/-! The ends of a kept row. -/

theorem Lib.Kept.head_le {row : List AtomPtr} (h : Kept AtomPtr.period row) {front x : AtomPtr}
    (hfront : front ∈ row.head?) (hx : x ∈ row) : front.period.begin_ ≤ x.period.begin_ := by
  cases row with
  | nil => cases hfront
  | cons a rest =>
    cases hfront
    rcases List.mem_cons.1 hx with rfl | hx
    · exact le_refl _
    · exact le_of_lt ((List.pairwise_cons.1 h.sorted).1 x hx)

theorem Lib.Kept.le_getLast {row : List AtomPtr} (h : Kept AtomPtr.period row) {back x : AtomPtr}
    (hback : back ∈ row.getLast?) (hx : x ∈ row) : x.period.end_ ≤ back.period.end_ := by
  obtain ⟨before, rfl⟩ := List.getLast?_eq_some_iff.1 hback
  rcases List.mem_append.1 hx with hx | hx
  · have hnull := Period.isNull_eq_false.1 (h.nonempty back (by simp))
    have hxy := (List.pairwise_append.1 (h.ordered AtomPtr.period)).2.2 x hx back (by simp)
    exact le_trans hxy (le_of_lt hnull)
  · rw [List.mem_singleton.1 hx]

namespace PlanningBoard
open SpecialDate

section
variable {b : PlanningBoard}

theorem mem_rooms {roomRow : Int × List AtomPtr} (h : roomRow ∈ b.rooms.toList) :
    b.row roomRow.1 = roomRow.2 := by
  have hget := Std.TreeMap.mem_toList_iff_getElem?_eq_some.1 (show (roomRow.1, roomRow.2) ∈ _ from h)
  rw [row, Std.TreeMap.getD_eq_getD_getElem?, hget, Option.getD_some]

theorem exists_mem_rooms {roomId : Int} {p : AtomPtr} (h : p ∈ b.row roomId) :
    (roomId, b.row roomId) ∈ b.rooms.toList := by
  rw [Std.TreeMap.mem_toList_iff_getElem?_eq_some]
  rw [row, Std.TreeMap.getD_eq_getD_getElem?] at h ⊢
  cases hget : b.rooms[roomId]? with
  | none =>
    rw [hget] at h
    exact absurd h List.not_mem_nil
  | some atoms => rfl

/-- An atom of the board is in one of the rows. -/
theorem Consistent.mem_atomPtrs_iff (h : b.Consistent) {p : AtomPtr} :
    p ∈ b.atomPtrs ↔ p ∈ b.row p.atom.roomId := by
  rw [h.mem_row]
  simp

/-- The bounds are the earliest begin and the latest end of all atoms. -/
theorem Consistent.extentBounds_spec (h : b.Consistent) (d : SpecialDate) :
    (d ≤ b.extentBounds.1 ↔ ∀ p ∈ b.atomPtrs, d ≤ ofDate p.period.begin_) ∧
    (b.extentBounds.2 ≤ d ↔ ∀ p ∈ b.atomPtrs, ofDate p.period.end_ ≤ d) := by
  obtain ⟨hfrom, hto⟩ := foldl_extend b.rooms.toList (posInfin, negInfin)
  have hkept : ∀ roomRow ∈ b.rooms.toList, Kept AtomPtr.period roomRow.2 := by
    intro roomRow hrow
    rw [← mem_rooms hrow]
    exact h.kept roomRow.1
  have hall : ∀ roomRow ∈ b.rooms.toList, ∀ p ∈ roomRow.2, p ∈ b.atomPtrs := by
    intro roomRow hrow p hp
    rw [← mem_rooms hrow] at hp
    exact (h.mem_row.1 hp).1
  unfold extentBounds
  rw [hfrom, hto, and_iff_right (le_posInfin d), and_iff_right (negInfin_le d)]
  refine ⟨⟨fun hd p hp => ?_, fun hd roomRow hrow front hfront => ?_⟩,
    ⟨fun hd p hp => ?_, fun hd roomRow hrow back hback => ?_⟩⟩
  · -- the row of the atom has a first one
    have hmem := h.mem_atomPtrs_iff.1 hp
    cases hfront : (b.row p.atom.roomId).head? with
    | none => simp [List.head?_eq_none_iff.1 hfront] at hmem
    | some front =>
      have hle := hd _ (exists_mem_rooms hmem) front hfront
      exact le_trans hle (ofDate_le.2 ((h.kept _).head_le hfront hmem))
  · exact hd front (hall roomRow hrow front (List.mem_of_mem_head? hfront))
  · have hmem := h.mem_atomPtrs_iff.1 hp
    cases hback : (b.row p.atom.roomId).getLast? with
    | none => simp [List.getLast?_eq_none_iff.1 hback] at hmem
    | some back =>
      have hle := hd _ (exists_mem_rooms hmem) back hback
      exact le_trans (ofDate_le.2 ((h.kept _).le_getLast hback hmem)) hle
  · exact hd back (hall roomRow hrow back (List.mem_of_mem_getLast? hback))

/-- The first and the last day of the calendar bound the extent, so that it is a period
    of dates as soon as there is an atom. -/
theorem Consistent.extentBounds_eq (h : b.Consistent) (hne : b.reservations ≠ []) :
    ∃ p : DatePeriod, b.extentBounds = (ofDate p.begin_, ofDate p.end_) ∧ p.isNull = false := by
  obtain ⟨o, ho⟩ := List.exists_mem_of_ne_nil _ hne
  obtain ⟨hatoms, hcontiguous⟩ := Reservation.isValid_iff.1 (h.valid o ho)
  obtain ⟨a, ha⟩ := List.exists_mem_of_ne_nil _ hatoms
  obtain ⟨i, hi, rfl⟩ := List.getElem_of_mem ha
  have hptr : (⟨o.addr, i, o.value.atoms[i]⟩ : AtomPtr) ∈ b.atomPtrs :=
    mem_atomPtrs.2 ⟨o, ho, ReservationObj.mem_atomPtrs.2 ⟨rfl, List.getElem?_eq_getElem hi⟩⟩
  have hfirst : ofDate ⟨2232400, by decide, by decide⟩ ≤ b.extentBounds.1 :=
    ((h.extentBounds_spec _).1).2 fun p _ => ofDate_le.2 p.period.begin_.lower
  have hlast : b.extentBounds.2 ≤ ofDate ⟨5373484, by decide, by decide⟩ :=
    ((h.extentBounds_spec _).2).2 fun p _ => ofDate_le.2 p.period.end_.upper
  have hbegin := ((h.extentBounds_spec _).1).1 le_rfl _ hptr
  have hend := ((h.extentBounds_spec _).2).1 le_rfl _ hptr
  obtain ⟨from_, hfrom⟩ := eq_ofDate hfirst hbegin
  obtain ⟨to_, hto⟩ := eq_ofDate hend hlast
  refine ⟨⟨from_, to_⟩, Prod.ext hfrom hto, Period.isNull_eq_false.2 ?_⟩
  rw [hfrom, ofDate_le] at hbegin
  rw [hto, ofDate_le] at hend
  exact lt_of_le_of_lt hbegin (lt_of_lt_of_le (Period.isNull_eq_false.1 (hcontiguous.nonempty _ ha)) hend)

theorem getPlanningExtent_eq (build : Build) (today : Date) (hne : b.reservations ≠ [])
    {p : DatePeriod} (hbounds : b.extentBounds = (ofDate p.begin_, ofDate p.end_))
    (hnull : p.isNull = false) :
    b.getPlanningExtent build today = .ok ⟨ofDate p.begin_, ofDate p.end_⟩ := by
  have hlt : ofDate p.begin_ < ofDate p.end_ := ofDate_lt.2 (Period.isNull_eq_false.1 hnull)
  have hempty : b.reservations.isEmpty = false := by simpa using hne
  unfold getPlanningExtent
  simp only [hbounds, isSpecial_ofDate, decide_eq_true hlt, hempty]
  exact Except.bind_ok (build.assert_true _) _

/-- Exactly the periods around the extent hold all atoms. -/
theorem Consistent.around_iff (h : b.Consistent) {p : DatePeriod}
    (hbounds : b.extentBounds = (ofDate p.begin_, ofDate p.end_)) (q : DatePeriod) :
    (∀ o ∈ b.reservations, ∀ a ∈ o.value.atoms,
      q.begin_ ≤ a.dateRange.begin_ ∧ a.dateRange.end_ ≤ q.end_) ↔
      q.begin_ ≤ p.begin_ ∧ p.end_ ≤ q.end_ := by
  have hfrom := (h.extentBounds_spec (ofDate q.begin_)).1
  have hto := (h.extentBounds_spec (ofDate q.end_)).2
  simp only [hbounds, ofDate_le] at hfrom hto
  rw [hfrom, hto, ← forall₂_and]
  constructor
  · intro hall x hx
    obtain ⟨o, ho, hp⟩ := mem_atomPtrs.1 hx
    exact hall o ho x.atom (ReservationObj.atom_mem hp)
  · intro hall o ho a ha
    obtain ⟨i, hi, rfl⟩ := List.getElem_of_mem ha
    exact hall ⟨o.addr, i, o.value.atoms[i]⟩
      (mem_atomPtrs.2 ⟨o, ho, ReservationObj.mem_atomPtrs.2 ⟨rfl, List.getElem?_eq_getElem hi⟩⟩)

/-- The date range of a valid reservation is what its atoms cover. -/
theorem intersects_dateRange {r : Reservation} (hvalid : r.isValid = true) (p : DatePeriod) :
    (match r.dateRange with
      | some range => range.intersects p
      | none => false) = r.atoms.any fun a => a.dateRange.intersects p := by
  have hcover : ∀ (rest : List ReservationAtom) (a : ReservationAtom), Contiguous (a :: rest) →
      ∀ last ∈ (a :: rest).getLast?, (Period.mk a.dateRange.begin_ last.dateRange.end_).isNull = false ∧
        (Period.mk a.dateRange.begin_ last.dateRange.end_).intersects p =
          (a :: rest).any fun a => a.dateRange.intersects p := by
    intro rest
    induction rest with
    | nil =>
      intro a h last hlast
      cases hlast
      exact ⟨h.nonempty a List.mem_cons_self, by simp⟩
    | cons b rest ih =>
      intro a h last hlast
      rw [List.getLast?_cons_cons] at hlast
      obtain ⟨hnull, hrest⟩ := ih b h.tail last hlast
      have ha := h.nonempty a List.mem_cons_self
      have hab : a.dateRange.end_ = b.dateRange.begin_ := (List.isChain_cons_cons.1 h.touching).1
      refine ⟨?_, ?_⟩
      · rw [Period.isNull_eq_false] at ha hnull ⊢
        exact lt_trans ha (hab ▸ hnull)
      · rw [List.any_cons, ← hrest]
        exact Period.intersects_join ha hnull hab p
  obtain ⟨hne, hcontiguous⟩ := Reservation.isValid_iff.1 hvalid
  unfold Reservation.dateRange
  rw [hvalid]
  cases hatoms : r.atoms with
  | nil => exact absurd hatoms hne
  | cons a rest =>
    rw [hatoms] at hcontiguous
    cases hlast : (a :: rest).getLast? with
    | none => simp at hlast
    | some last =>
      simp only [Reservation.lastAtom, hatoms, hlast, List.head?_cons, Bool.not_true,
        Bool.false_eq_true, if_false]
      exact (hcover rest a hcontiguous last hlast).2

theorem Consistent.getReservationsInPeriod_eq (h : b.Consistent) (p : DatePeriod) :
    b.getReservationsInPeriod p =
      b.reservations.filter fun o => o.value.atoms.any fun a => a.dateRange.intersects p :=
  List.filter_congr fun o ho => intersects_dateRange (h.valid o ho) p

end

end PlanningBoard

namespace Boards

/-- On a board of any history that is not empty the extent is the smallest period around
    all atoms, and the query for a period returns the reservations with an atom in it, in
    their order. So the query for the extent returns all. -/
theorem extent_and_period {w : Boards} (h : w.Reached) (i : Nat) :
    (∀ p : DatePeriod, p.isNull = false → (w i).getReservationsInPeriod p =
      (w i).reservations.filter fun o => o.value.atoms.any fun a => a.dateRange.intersects p) ∧
    ((w i).reservations ≠ [] → ∃ p : DatePeriod,
      (∀ build today, (w i).getPlanningExtent build today =
        .ok ⟨SpecialDate.ofDate p.begin_, SpecialDate.ofDate p.end_⟩) ∧
      (∀ o ∈ (w i).reservations, ∀ a ∈ o.value.atoms,
        p.begin_ ≤ a.dateRange.begin_ ∧ a.dateRange.end_ ≤ p.end_) ∧
      (∀ q : DatePeriod, (∀ o ∈ (w i).reservations, ∀ a ∈ o.value.atoms,
          q.begin_ ≤ a.dateRange.begin_ ∧ a.dateRange.end_ ≤ q.end_) →
        q.begin_ ≤ p.begin_ ∧ p.end_ ≤ q.end_) ∧
      (w i).getReservationsInPeriod p = (w i).reservations) := by
  have hi := (world_sound h).consistent i
  refine ⟨fun p _ => hi.getReservationsInPeriod_eq p, fun hne => ?_⟩
  obtain ⟨p, hbounds, hnull⟩ := hi.extentBounds_eq hne
  have haround := (hi.around_iff hbounds p).2 ⟨le_rfl, le_rfl⟩
  refine ⟨p, fun build today => PlanningBoard.getPlanningExtent_eq build today hne hbounds hnull,
    haround, fun q => (hi.around_iff hbounds q).1, ?_⟩
  rw [hi.getReservationsInPeriod_eq, List.filter_eq_self]
  intro o ho
  obtain ⟨hatoms, hcontiguous⟩ := Reservation.isValid_iff.1 (hi.valid o ho)
  obtain ⟨a, ha⟩ := List.exists_mem_of_ne_nil _ hatoms
  have ha' := hcontiguous.nonempty a ha
  obtain ⟨hbegin, hend⟩ := haround o ho a ha
  refine List.any_eq_true.2 ⟨a, ha, (Period.intersects_iff ha' hnull).2 ?_⟩
  rw [Period.isNull_eq_false] at ha'
  exact ⟨lt_of_lt_of_le ha' hend, lt_of_le_of_lt hbegin ha'⟩

/-- The board with one stay of three nights. -/
theorem extent_and_period_oneReservation : ∃ p : DatePeriod,
    (∀ build today, (oneReservation 0).getPlanningExtent build today =
      .ok ⟨SpecialDate.ofDate p.begin_, SpecialDate.ofDate p.end_⟩) ∧
    (oneReservation 0).getReservationsInPeriod p = [⟨7, .twoRooms⟩] := by
  have hreached : oneReservation.Reached :=
    .step (.init rfl) (.addReservation _ 0 ⟨7, .twoRooms⟩ fun _ => by simp [PlanningBoard.addrs])
  have hone : (oneReservation 0).reservations = [⟨7, .twoRooms⟩] := by decide
  obtain ⟨p, hextent, -, -, hall⟩ := (extent_and_period hreached 0).2 (by rw [hone]; exact List.cons_ne_nil _ _)
  exact ⟨p, hextent, hall.trans hone⟩

end Boards

end HotelPms

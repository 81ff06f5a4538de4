import HotelPms.Hotel.PlanningRuns
import HotelPms.Lib.Bisect

/- The nights that reservations occupy, and those that are free on a board.

   Two reservations without null periods intersect exactly if they occupy one room
   on one night (`intersectsWith_iff`). Joining atoms of one room that touch changes
   no night (`occupies_joinAdjacentAtoms`).

   `getAvailableDaysFrom` searches the row of a room by bisection. On a consistent
   board every period of that many days from the date on is free
   (`isFree_of_available`). -/
namespace HotelPms
open Lib

theorem Contiguous.join {a b : ReservationAtom} {rest : List ReservationAtom}
    (h : Contiguous (a :: b :: rest)) :
    Contiguous ({ a with dateRange := ⟨a.dateRange.begin_, b.dateRange.end_⟩ } :: rest) := by
  have ha := h.nonempty a List.mem_cons_self
  have hb := h.nonempty b (List.mem_cons_of_mem _ List.mem_cons_self)
  obtain ⟨hab, htouching⟩ := List.isChain_cons_cons.1 h.touching
  constructor
  · intro c hc
    rcases List.mem_cons.1 hc with rfl | hc
    · rw [Period.isNull_eq_false] at ha hb ⊢
      exact lt_trans ha (hab ▸ hb)
    · exact h.nonempty c (List.mem_cons_of_mem _ (List.mem_cons_of_mem _ hc))
  · cases rest with
    | nil => exact List.isChain_singleton _
    | cons c rest => exact List.isChain_cons_cons.2 (List.isChain_cons_cons.1 htouching)

namespace Reservation

/-- The reservation has the room for the night from this date to the next. -/
def Occupies (r : Reservation) (roomId : Int) (night : Date) : Prop :=
  ∃ a ∈ r.atoms, a.roomId = roomId ∧ a.dateRange.contains night = true

instance (r : Reservation) (roomId : Int) (night : Date) : Decidable (r.Occupies roomId night) :=
  inferInstanceAs (Decidable (∃ a ∈ r.atoms, a.roomId = roomId ∧ a.dateRange.contains night = true))

/-- No two reservations intersect but in a night of a room. -/
theorem intersectsWith_iff {r s : Reservation} (hr : ∀ a ∈ r.atoms, a.dateRange.isNull = false)
    (hs : ∀ a ∈ s.atoms, a.dateRange.isNull = false) :
    r.intersectsWith s = true ↔ ∃ roomId night, r.Occupies roomId night ∧ s.Occupies roomId night := by
  simp only [intersectsWith, List.any_eq_true, ReservationAtom.intersectsWith, Bool.and_eq_true,
    beq_iff_eq]
  constructor
  · rintro ⟨a, ha, b, hb, hroom, hmeets⟩
    obtain ⟨night, h₁, h₂⟩ := (Period.intersects_iff_exists (hr a ha) (hs b hb)).1 hmeets
    exact ⟨a.roomId, night, ⟨a, ha, rfl, h₁⟩, b, hb, hroom.symm, h₂⟩
  · rintro ⟨roomId, night, ⟨a, ha, hroom, h₁⟩, b, hb, hroom', h₂⟩
    refine ⟨a, ha, b, hb, hroom.trans hroom'.symm, ?_⟩
    exact (Period.intersects_iff_exists (hr a ha) (hs b hb)).2 ⟨night, h₁, h₂⟩

def removeLastAtom (r : Reservation) : Reservation := { r with atoms := r.atoms.dropLast }

/-- `dateRange()`; nothing stands for the period of two dates that are not set, which
    an invalid reservation has. -/
def dateRange (r : Reservation) : Option DatePeriod :=
  if !r.isValid then none
  else match r.atoms.head?, r.lastAtom with
    | some first, some last => some ⟨first.dateRange.begin_, last.dateRange.end_⟩
    | _, _ => none

/-- The loop of `joinAdjacentAtoms` from an atom on: it is joined with the next one as
    long as that is of the same room. -/
def joinFrom : ReservationAtom → List ReservationAtom → List ReservationAtom
  | previous, [] => [previous]
  | previous, a :: rest =>
    if previous.roomId = a.roomId then
      joinFrom { previous with dateRange := previous.dateRange.span a.dateRange } rest
    else previous :: joinFrom a rest

def joinAdjacentAtoms (r : Reservation) : Reservation :=
  match r.atoms with
  | [] => r
  | first :: rest => { r with atoms := joinFrom first rest }

theorem exists_mem_joinFrom {previous : ReservationAtom} {rest : List ReservationAtom}
    (h : Contiguous (previous :: rest)) (roomId : Int) (night : Date) :
    (∃ a ∈ joinFrom previous rest, a.roomId = roomId ∧ a.dateRange.contains night = true) ↔
      ∃ a ∈ previous :: rest, a.roomId = roomId ∧ a.dateRange.contains night = true := by
  induction rest generalizing previous with
  | nil => rfl
  | cons a rest ih =>
    rw [joinFrom]
    split
    · next hroom =>
      have hprevious := h.nonempty previous List.mem_cons_self
      have ha := h.nonempty a (List.mem_cons_of_mem _ List.mem_cons_self)
      have hab := (List.isChain_cons_cons.1 h.touching).1
      rw [Period.span_eq hprevious ha hab, ih h.join]
      simp only [List.exists_mem_cons_iff, Period.contains_join hprevious ha hab, ← hroom, and_or_left,
        or_assoc]
    · simp only [List.exists_mem_cons_iff, ih h.tail]

@[simp] theorem id_joinAdjacentAtoms (r : Reservation) : r.joinAdjacentAtoms.id = r.id := by
  rw [joinAdjacentAtoms]
  split
  · rfl
  · rfl

theorem occupies_joinAdjacentAtoms {r : Reservation} (h : Contiguous r.atoms) (roomId : Int)
    (night : Date) : r.joinAdjacentAtoms.Occupies roomId night ↔ r.Occupies roomId night := by
  rw [Occupies, joinAdjacentAtoms]
  cases hatoms : r.atoms with
  | nil => rw [Occupies]
  | cons first rest =>
    rw [hatoms] at h
    rw [Occupies, hatoms]
    exact exists_mem_joinFrom h roomId night

end Reservation

namespace PlanningBoard

/-- `getAvailableDaysFrom`: the most days there are if no atom of the room ends after
    the date. -/
def getAvailableDaysFrom (b : PlanningBoard) (roomId : Int) (date : Date) : Int :=
  match b.rooms[roomId]? with
  | none => 2147483647
  | some roomAtoms =>
    match upperBound (fun x => decide (date < x.period.end_)) roomAtoms with
    | [] => 2147483647
    | first :: _ => max 0 (first.period.begin_.dayNumber - date.dayNumber)

section
variable {b : PlanningBoard} {roomId : Int} {from_ to_ : Date}

theorem Consistent.isFree_eq (h : b.Consistent) (roomId : Int) (period : DatePeriod) :
    b.isFree roomId period = true ↔ ∀ o ∈ b.reservations, ∀ a ∈ o.value.atoms, a.roomId = roomId →
      a.dateRange.intersects period = false := by
  rw [isFree_iff]
  constructor
  · intro hfree o ho a ha hroom
    obtain ⟨i, hi, rfl⟩ := List.getElem_of_mem ha
    have hp : (⟨o.addr, i, o.value.atoms[i]⟩ : AtomPtr) ∈ o.atomPtrs :=
      ReservationObj.mem_atomPtrs.2 ⟨rfl, List.getElem?_eq_getElem hi⟩
    exact hfree _ (h.mem_row.2 ⟨mem_atomPtrs.2 ⟨o, ho, hp⟩, hroom⟩)
  · intro hfree x hx
    obtain ⟨hx, hroom⟩ := h.mem_row.1 hx
    obtain ⟨o, ho, hp⟩ := mem_atomPtrs.1 hx
    exact hfree o ho x.atom (ReservationObj.atom_mem hp) hroom

theorem partitioned_row (h : b.Consistent) (roomId : Int) (date : Date) :
    Partitioned (fun x : AtomPtr => decide (date < x.period.end_)) (b.row roomId) := by
  apply (h.kept roomId).ordered.imp_of_mem
  intro x y hx hy hxy hlater
  rw [decide_eq_true_eq] at hlater ⊢
  have hy' := Period.isNull_eq_false.1 ((h.kept roomId).nonempty y hy)
  exact lt_of_lt_of_le hlater (le_trans hxy (le_of_lt hy'))

theorem getAvailableDaysFrom_eq (h : b.Consistent) (roomId : Int) (date : Date) :
    b.getAvailableDaysFrom roomId date =
      match (b.row roomId).dropWhile fun x => !decide (date < x.period.end_) with
      | [] => 2147483647
      | first :: _ => max 0 (first.period.begin_.dayNumber - date.dayNumber) := by
  have hsearch := upperBound_eq (partitioned_row h roomId date)
  rw [row, Std.TreeMap.getD_eq_getD_getElem?] at hsearch ⊢
  rw [getAvailableDaysFrom]
  cases hrow : b.rooms[roomId]? with
  | none => rfl
  | some roomAtoms =>
    rw [hrow, Option.getD_some] at hsearch
    dsimp only
    rw [hsearch, Option.getD_some]

theorem getAvailableDaysFrom_nonneg (b : PlanningBoard) (roomId : Int) (date : Date) :
    0 ≤ b.getAvailableDaysFrom roomId date := by
  rw [getAvailableDaysFrom]
  split
  · decide
  · split
    · decide
    · exact le_max_left _ _

theorem first_later (h : b.Consistent) {date : Date} {first : AtomPtr} {rest : List AtomPtr}
    (hfound : ((b.row roomId).dropWhile fun x => !decide (date < x.period.end_)) = first :: rest) :
    first ∈ b.row roomId ∧ date < first.period.end_ ∧
      ∀ x ∈ b.row roomId, date < x.period.end_ → first.period.begin_ ≤ x.period.begin_ := by
  have hsplit := List.takeWhile_append_dropWhile
    (p := fun x : AtomPtr => !decide (date < x.period.end_)) (l := b.row roomId)
  have hsorted := (h.kept roomId).sorted
  rw [hfound] at hsplit
  rw [← hsplit] at hsorted
  have hrest := (List.pairwise_append.1 hsorted).2.1
  refine ⟨?_, ?_, fun x hx hafter => ?_⟩
  · rw [← hsplit]
    exact List.mem_append_right _ List.mem_cons_self
  · have hhead := List.head?_dropWhile_not (fun x : AtomPtr => !decide (date < x.period.end_)) (b.row roomId)
    simpa [hfound] using hhead
  · -- an earlier atom of the row does not end after the date
    have hlater : x ∈ first :: rest := by
      rw [← hsplit, List.mem_append] at hx
      refine hx.resolve_left fun hmem => ?_
      have hearlier := List.mem_takeWhile_imp hmem
      rw [decide_eq_true hafter] at hearlier
      cases hearlier
    rcases List.mem_cons.1 hlater with rfl | hmem
    · exact le_refl _
    · exact le_of_lt ((List.pairwise_cons.1 hrest).1 x hmem)

/-- As many days as are said to be available are free. -/
theorem isFree_of_available (h : b.Consistent) (hlt : from_ < to_)
    (hle : to_.dayNumber ≤ from_.dayNumber + b.getAvailableDaysFrom roomId from_) :
    b.isFree roomId ⟨from_, to_⟩ = true := by
  have hkept := h.kept roomId
  have hperiod : (Period.mk from_ to_).isNull = false := Period.isNull_eq_false.2 hlt
  rw [isFree_iff]
  intro x hx
  have hx' := hkept.nonempty x hx
  rcases le_or_gt x.period.end_ from_ with hbefore | hafter
  · exact Period.intersects_of_end_le hx' hperiod hbefore
  · -- the first atom that ends after the date begins no earlier than the period ends
    rw [Period.intersects_comm]
    apply Period.intersects_of_end_le hperiod hx'
    rw [getAvailableDaysFrom_eq h] at hle
    cases hfound : (b.row roomId).dropWhile fun x => !decide (from_ < x.period.end_) with
    | nil => simpa [hafter] using List.dropWhile_eq_nil_iff.1 hfound x hx
    | cons first rest =>
      rw [hfound] at hle
      dsimp only at hle
      have hfirst : to_ ≤ first.period.begin_ := by
        rw [Date.lt_def] at hlt
        rw [Date.le_def]
        rcases max_choice 0 (first.period.begin_.dayNumber - from_.dayNumber) with hmax | hmax
        · rw [hmax] at hle
          omega
        · rw [hmax] at hle
          omega
      exact le_trans hfirst ((first_later h hfound).2.2 x hx hafter)

end

end PlanningBoard

end HotelPms

import HotelPms.Hotel.Nights
import HotelPms.Lib.Coalesce

/- `Reservation::joinAdjacentAtoms`, which merges neighbouring atoms of one room.

   The source does it in place: an index goes over the vector, the range of the atom
   before it is widened, the atom at the index is erased, and the index steps back.
   `joinAdjacentAtoms_eq_loop` says that this ends, with `joinAdjacentAtoms`. What it
   leaves holds no two consecutive atoms of one room, and nothing that is asked about a
   reservation can tell it from the one before (`joinAdjacentAtoms_normalises`). -/
namespace HotelPms
open Lib

namespace Reservation

def firstAtom (r : Reservation) : Option ReservationAtom := r.atoms.head?

/-- `length()`, in days. -/
def length (r : Reservation) : Int :=
  match r.firstAtom, r.lastAtom with
  | some first, some last => last.dateRange.end_.dayNumber - first.dateRange.begin_.dayNumber
  | _, _ => 0

/-- The atom that two of one room are joined to: the first one, with its range widened. -/
def joinAtoms (a b : ReservationAtom) : ReservationAtom :=
  { a with dateRange := a.dateRange.span b.dateRange }

/-- `joinAdjacentAtoms` with the loop of the source; `none` if it has not ended after
    `fuel` turns. -/
def joinAdjacentAtomsLoop (fuel : Nat) (r : Reservation) : Option Reservation :=
  if r.atoms.length < 2 then some r
  else (coalesceLoop ReservationAtom.roomId joinAtoms fuel r.atoms 1).map fun atoms =>
    { r with atoms }

theorem joinFrom_eq_coalesceFrom (rest : List ReservationAtom) : ∀ a : ReservationAtom,
    joinFrom a rest = coalesceFrom ReservationAtom.roomId joinAtoms a rest := by
  induction rest with
  | nil => exact fun a => rfl
  | cons b rest ih =>
    intro a
    simp only [joinFrom, coalesceFrom, ih, joinAtoms]

theorem atoms_joinAdjacentAtoms (r : Reservation) : r.joinAdjacentAtoms.atoms =
    coalesce ReservationAtom.roomId joinAtoms r.atoms := by
  unfold joinAdjacentAtoms
  cases hatoms : r.atoms with
  | nil => simp [hatoms, coalesce]
  | cons a rest => simp [coalesce, joinFrom_eq_coalesceFrom]

theorem joinAdjacentAtoms_eq (r : Reservation) : r.joinAdjacentAtoms =
    { r with atoms := coalesce ReservationAtom.roomId joinAtoms r.atoms } := by
  rw [← atoms_joinAdjacentAtoms]
  unfold joinAdjacentAtoms
  cases hatoms : r.atoms with
  | nil => rfl
  | cons a rest => rfl

/-- The loop ends after at most one turn for each atom, with what `joinAdjacentAtoms`
    computes from left to right. -/
theorem joinAdjacentAtoms_eq_loop (r : Reservation) {fuel : Nat} (hfuel : r.atoms.length ≤ fuel) :
    r.joinAdjacentAtomsLoop fuel = some r.joinAdjacentAtoms := by
  rw [joinAdjacentAtoms_eq]
  unfold joinAdjacentAtomsLoop
  split
  · next hshort =>
    -- the source returns at once, as there is nothing to join
    have hsame : coalesce ReservationAtom.roomId joinAtoms r.atoms = r.atoms := by
      apply coalesce_of_isChain
      cases hatoms : r.atoms with
      | nil => exact List.isChain_nil
      | cons a rest =>
        cases rest with
        | nil => exact List.isChain_singleton a
        | cons b rest => simp [hatoms] at hshort
    rw [hsame]
  · next hlong =>
    have hne : r.atoms ≠ [] := by
      intro hnil
      simp [hnil] at hlong
    rw [coalesceLoop_eq hne hfuel, Option.map_some]

/-- What holds of an atom or of the next one holds of the atom they are joined to: the
    atoms before and after satisfy it alike. -/
theorem any_joinFrom {f : ReservationAtom → Bool}
    (hjoin : ∀ a b : ReservationAtom, a.roomId = b.roomId → a.dateRange.isNull = false →
      b.dateRange.isNull = false → a.dateRange.end_ = b.dateRange.begin_ →
      f { a with dateRange := ⟨a.dateRange.begin_, b.dateRange.end_⟩ } = (f a || f b))
    (rest : List ReservationAtom) : ∀ a, Contiguous (a :: rest) →
      (joinFrom a rest).any f = (a :: rest).any f := by
  induction rest with
  | nil => exact fun a _ => rfl
  | cons b rest ih =>
    intro a h
    unfold joinFrom
    split
    · next hroom =>
      have ha := h.nonempty a List.mem_cons_self
      have hb := h.nonempty b (List.mem_cons_of_mem _ List.mem_cons_self)
      have hab := (List.isChain_cons_cons.1 h.touching).1
      rw [Period.span_eq ha hb hab, ih _ h.join]
      simp only [List.any_cons, hjoin a b hroom ha hb hab, Bool.or_assoc]
    · simp only [List.any_cons, ih b h.tail]

/-- Joining keeps where the stay begins and ends, and that its atoms are contiguous. -/
theorem contiguous_joinFrom (rest : List ReservationAtom) : ∀ a, Contiguous (a :: rest) →
    Contiguous (joinFrom a rest) ∧
      (joinFrom a rest).head?.map (·.dateRange.begin_) = some a.dateRange.begin_ ∧
      (joinFrom a rest).getLast?.map (·.dateRange.end_) =
        (a :: rest).getLast?.map (·.dateRange.end_) := by
  induction rest with
  | nil => exact fun a h => ⟨h, rfl, rfl⟩
  | cons b rest ih =>
    intro a h
    unfold joinFrom
    split
    · have ha := h.nonempty a List.mem_cons_self
      have hb := h.nonempty b (List.mem_cons_of_mem _ List.mem_cons_self)
      rw [Period.span_eq ha hb (List.isChain_cons_cons.1 h.touching).1]
      obtain ⟨hcontiguous, hfirst, hlast⟩ := ih _ h.join
      refine ⟨hcontiguous, hfirst, hlast.trans ?_⟩
      cases rest with
      | nil => rfl
      | cons c rest => simp [List.getLast?_cons_cons]
    · obtain ⟨hcontiguous, hfirst, hlast⟩ := ih b h.tail
      cases hjoined : joinFrom b rest with
      | nil => simp [hjoined] at hfirst
      | cons c joined =>
        rw [hjoined] at hcontiguous hfirst hlast
        have hc : c.dateRange.begin_ = b.dateRange.begin_ := by simpa using hfirst
        have hab := (List.isChain_cons_cons.1 h.touching).1
        refine ⟨⟨?_, List.isChain_cons_cons.2 ⟨hab.trans hc.symm, hcontiguous.touching⟩⟩, rfl, ?_⟩
        · exact List.forall_mem_cons.2 ⟨h.nonempty a List.mem_cons_self, hcontiguous.nonempty⟩
        · rw [List.getLast?_cons_cons, List.getLast?_cons_cons, hlast]

/-- Two reservations begin on the same day, and end on the same day. -/
structure SameEnds (r s : Reservation) : Prop where
  first : r.firstAtom.map (·.dateRange.begin_) = s.firstAtom.map (·.dateRange.begin_)
  last : r.lastAtom.map (·.dateRange.end_) = s.lastAtom.map (·.dateRange.end_)

theorem SameEnds.length_eq {r s : Reservation} (h : SameEnds r s) : r.length = s.length := by
  have hends : ∀ t : Reservation, t.length =
      ((t.firstAtom.map (·.dateRange.begin_)).bind fun b =>
        (t.lastAtom.map (·.dateRange.end_)).map fun e => e.dayNumber - b.dayNumber).getD 0 := by
    intro t
    unfold length
    cases t.firstAtom <;> cases t.lastAtom <;> rfl
  rw [hends r, hends s, h.first, h.last]

theorem SameEnds.dateRange_eq {r s : Reservation} (h : SameEnds r s)
    (hvalid : r.isValid = s.isValid) : r.dateRange = s.dateRange := by
  have hends : ∀ t : Reservation, t.dateRange = if !t.isValid then none else
      (t.firstAtom.map (·.dateRange.begin_)).bind fun b =>
        (t.lastAtom.map (·.dateRange.end_)).map fun e => ⟨b, e⟩ := by
    intro t
    unfold dateRange firstAtom
    cases t.atoms.head? <;> cases t.lastAtom <;> rfl
  rw [hends r, hends s, h.first, h.last, hvalid]

theorem contiguous_joinAdjacentAtoms {r : Reservation} (h : Contiguous r.atoms) :
    Contiguous r.joinAdjacentAtoms.atoms ∧ (r.joinAdjacentAtoms.atoms = [] ↔ r.atoms = []) ∧
      SameEnds r.joinAdjacentAtoms r := by
  unfold joinAdjacentAtoms
  cases hatoms : r.atoms with
  | nil => exact ⟨by simpa [hatoms] using Contiguous.nil, by simp [hatoms], rfl, rfl⟩
  | cons a rest =>
    rw [hatoms] at h
    obtain ⟨hcontiguous, hfirst, hlast⟩ := contiguous_joinFrom rest a h
    refine ⟨hcontiguous, ?_, ⟨?_, ?_⟩⟩
    · cases hjoined : joinFrom a rest with
      | nil => simp [hjoined] at hfirst
      | cons b joined => simp [hjoined]
    · simpa [firstAtom, hatoms] using hfirst
    · simpa [lastAtom, hatoms] using hlast

theorem any_joinAdjacentAtoms {r : Reservation} (h : Contiguous r.atoms) {f : ReservationAtom → Bool}
    (hjoin : ∀ a b : ReservationAtom, a.roomId = b.roomId → a.dateRange.isNull = false →
      b.dateRange.isNull = false → a.dateRange.end_ = b.dateRange.begin_ →
      f { a with dateRange := ⟨a.dateRange.begin_, b.dateRange.end_⟩ } = (f a || f b)) :
    r.joinAdjacentAtoms.atoms.any f = r.atoms.any f := by
  unfold joinAdjacentAtoms
  cases hatoms : r.atoms with
  | nil => rw [hatoms]
  | cons a rest => exact any_joinFrom hjoin rest a (hatoms ▸ h)

theorem isValid_joinAdjacentAtoms {r : Reservation} (h : Contiguous r.atoms) :
    r.joinAdjacentAtoms.isValid = r.isValid := by
  obtain ⟨hcontiguous, hempty, -⟩ := contiguous_joinAdjacentAtoms h
  rw [Bool.eq_iff_iff, isValid_iff, isValid_iff, ne_eq, ne_eq, hempty]
  simp [h, hcontiguous]

theorem intersectsWith_joinAdjacentAtoms {r : Reservation} (h : Contiguous r.atoms)
    (s : Reservation) : r.joinAdjacentAtoms.intersectsWith s = r.intersectsWith s := by
  apply any_joinAdjacentAtoms h
  intro a b hroom ha hb hab
  induction s.atoms with
  | nil => rfl
  | cons c rest ih =>
    have hone : ReservationAtom.intersectsWith
        { a with dateRange := ⟨a.dateRange.begin_, b.dateRange.end_⟩ } c =
        (a.intersectsWith c || b.intersectsWith c) := by
      unfold ReservationAtom.intersectsWith
      rw [Period.intersects_join ha hb hab, ← hroom, Bool.and_or_distrib_left]
    rw [List.any_cons, hone, ih]
    simp only [List.any_cons, Bool.or_assoc, Bool.or_left_comm]

end Reservation

namespace PlanningBoard

theorem isFree_join (board : PlanningBoard) (roomId : Int) {p q : DatePeriod}
    (hp : p.isNull = false) (hq : q.isNull = false) (h : p.end_ = q.begin_) :
    board.isFree roomId ⟨p.begin_, q.end_⟩ = (board.isFree roomId p && board.isFree roomId q) := by
  rw [Bool.eq_iff_iff, Bool.and_eq_true, isFree_iff, isFree_iff, isFree_iff, ← forall₂_and]
  refine forall₂_congr fun x _ => ?_
  rw [Period.intersects_comm x.period, Period.intersects_comm x.period, Period.intersects_comm x.period,
    Period.intersects_join hp hq h, Bool.or_eq_false_iff]

theorem canAddReservation_joinAdjacentAtoms (board : PlanningBoard) {r : Reservation}
    (h : Contiguous r.atoms) :
    board.canAddReservation r.joinAdjacentAtoms = board.canAddReservation r := by
  have htaken : r.joinAdjacentAtoms.atoms.any (fun a => !board.isFree a.roomId a.dateRange) =
      r.atoms.any fun a => !board.isFree a.roomId a.dateRange := by
    apply Reservation.any_joinAdjacentAtoms h
    intro a b hroom ha hb hab
    rw [board.isFree_join a.roomId ha hb hab, hroom, Bool.not_and]
  unfold canAddReservation
  rw [Reservation.isValid_joinAdjacentAtoms h, List.all_eq_not_any_not, htaken,
    List.all_eq_not_any_not]

end PlanningBoard

namespace Reservation

/-- On a valid reservation `joinAdjacentAtoms` ends. No two consecutive atoms then have
    the same room, every night is spent in the room it was spent in before, and so no
    query tells the two apart; and joining once more changes nothing. -/
theorem joinAdjacentAtoms_normalises (r : Reservation) (hvalid : r.isValid = true) :
    (∀ fuel, r.atoms.length ≤ fuel → r.joinAdjacentAtomsLoop fuel = some r.joinAdjacentAtoms) ∧
    (r.joinAdjacentAtoms.atoms.IsChain fun a b => a.roomId ≠ b.roomId) ∧
    (∀ roomId night, r.joinAdjacentAtoms.Occupies roomId night ↔ r.Occupies roomId night) ∧
    r.joinAdjacentAtoms.isValid = true ∧
    r.joinAdjacentAtoms.dateRange = r.dateRange ∧
    r.joinAdjacentAtoms.length = r.length ∧
    (∀ s, r.joinAdjacentAtoms.intersectsWith s = r.intersectsWith s) ∧
    (∀ s : Reservation, s.intersectsWith r.joinAdjacentAtoms = s.intersectsWith r) ∧
    (∀ board : PlanningBoard, board.canAddReservation r.joinAdjacentAtoms = board.canAddReservation r) ∧
    r.joinAdjacentAtoms.joinAdjacentAtoms = r.joinAdjacentAtoms := by
  have h := (isValid_iff.1 hvalid).2
  obtain ⟨-, -, hends⟩ := contiguous_joinAdjacentAtoms h
  have hsame := isValid_joinAdjacentAtoms h
  have hkey : ∀ a b, (joinAtoms a b).roomId = a.roomId := fun _ _ => rfl
  have hchain : r.joinAdjacentAtoms.atoms.IsChain fun a b => a.roomId ≠ b.roomId := by
    rw [atoms_joinAdjacentAtoms]
    exact isChain_coalesce hkey r.atoms
  refine ⟨fun fuel => r.joinAdjacentAtoms_eq_loop, hchain, occupies_joinAdjacentAtoms h,
    hsame.trans hvalid, hends.dateRange_eq hsame, hends.length_eq, intersectsWith_joinAdjacentAtoms h,
    fun s => ?_, fun board => board.canAddReservation_joinAdjacentAtoms h, ?_⟩
  · rw [PlanningBoard.intersectsWith_comm, intersectsWith_joinAdjacentAtoms h,
      PlanningBoard.intersectsWith_comm]
  · rw [joinAdjacentAtoms_eq r.joinAdjacentAtoms, coalesce_of_isChain hchain]

/-- One of five days. -/
def dayOfFive (i : Fin 5) : Date := ⟨2458850 + i, by omega, by omega⟩

/-- Three nights in one room, as three atoms, and one in another. -/
def fourAtoms : Reservation where
  description := "four atoms"
  atoms :=
    [{ roomId := 1, dateRange := ⟨dayOfFive 0, dayOfFive 1⟩ },
     { roomId := 1, dateRange := ⟨dayOfFive 1, dayOfFive 2⟩ },
     { roomId := 1, dateRange := ⟨dayOfFive 2, dayOfFive 3⟩ },
     { roomId := 2, dateRange := ⟨dayOfFive 3, dayOfFive 4⟩ }]

theorem joinAdjacentAtoms_normalises_fourAtoms :
    fourAtoms.joinAdjacentAtomsLoop 4 = some fourAtoms.joinAdjacentAtoms ∧
      fourAtoms.joinAdjacentAtoms.atoms.map (·.roomId) = [1, 2] ∧
      fourAtoms.joinAdjacentAtoms.length = 4 := by
  obtain ⟨hloop, -, -, -, -, hlength, -⟩ := joinAdjacentAtoms_normalises fourAtoms rfl
  exact ⟨hloop 4 le_rfl, rfl, hlength⟩

end Reservation

end HotelPms

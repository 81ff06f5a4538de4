import HotelPms.Basic

/- `hotel::Reservation` and `hotel::ReservationAtom`.

   A reservation holds its rooms as a list of atoms, each a room over a date
   period. `isValid` asks for at least one atom, no null period and every atom
   beginning where the one before ends (`isValid_iff`), and the mutators keep
   the atoms contiguous or throw. Contiguous atoms never meet one another
   (`Contiguous.apart`), whatever their rooms. -/
namespace HotelPms
open Lib

/-- The identity every stored object carries. -/
structure PersistentObject where
  id : Int := 0
  revision : Int := 0
  deriving DecidableEq

inductive ReservationStatus where
  | unknown
  /-- Used for temporary selections in the planning board. -/
  | temporary
  | new
  | confirmed
  | checkedIn
  | checkedOut
  | archived
  deriving DecidableEq, Repr

/-- One room over one date period. -/
structure ReservationAtom extends PersistentObject where
  roomId : Int
  dateRange : DatePeriod
  deriving DecidableEq

namespace ReservationAtom

/-- `ReservationAtom::intersectsWith` -/
def intersectsWith (a b : ReservationAtom) : Bool :=
  a.roomId == b.roomId && a.dateRange.intersects b.dateRange

/-- `operator==`: the identity and the revision are not compared. -/
def equals (a b : ReservationAtom) : Bool :=
  a.roomId == b.roomId && a.dateRange == b.dateRange

@[simp] theorem equals_iff {a b : ReservationAtom} :
    a.equals b = true ↔ a.roomId = b.roomId ∧ a.dateRange = b.dateRange := by
  simp [equals]

end ReservationAtom

structure Reservation extends PersistentObject where
  status : ReservationStatus := .unknown
  description : String
  reservationOwnerPersonId : Option Int := none
  adults : Int := 0
  children : Int := 0
  atoms : List ReservationAtom := []
  deriving DecidableEq

/-- No null period, and every atom begins where the one before it ends. -/
structure Contiguous (atoms : List ReservationAtom) : Prop where
  nonempty : ∀ a ∈ atoms, a.dateRange.isNull = false
  touching : atoms.IsChain fun a b => a.dateRange.end_ = b.dateRange.begin_

/-- Contiguity is about the periods of the atoms. -/
theorem contiguous_iff {atoms : List ReservationAtom} : Contiguous atoms ↔
    (∀ p ∈ atoms.map (·.dateRange), p.isNull = false) ∧
      (atoms.map (·.dateRange)).IsChain fun p q => p.end_ = q.begin_ := by
  rw [List.isChain_map, List.forall_mem_map]
  exact ⟨fun h => ⟨h.nonempty, h.touching⟩, fun h => ⟨h.1, h.2⟩⟩

theorem Contiguous.of_ranges {as bs : List ReservationAtom}
    (h : as.map (·.dateRange) = bs.map (·.dateRange)) : Contiguous as ↔ Contiguous bs := by
  rw [contiguous_iff, contiguous_iff, h]

theorem Contiguous.push {atoms : List ReservationAtom} (h : Contiguous atoms) {a : ReservationAtom}
    (hnull : a.dateRange.isNull = false)
    (htouch : ∀ last ∈ atoms.getLast?, last.dateRange.end_ = a.dateRange.begin_) :
    Contiguous (atoms ++ [a]) := by
  refine ⟨fun b hb => ?_, List.isChain_append.2 ⟨h.touching, List.isChain_singleton a, ?_⟩⟩
  · rcases List.mem_append.1 hb with hb | hb
    · exact h.nonempty b hb
    · rw [List.mem_singleton.1 hb]
      exact hnull
  · intro last hlast b hb
    cases hb
    exact htouch last hlast

namespace Reservation

/-- `Reservation(description, roomId, dateRange)` -/
def ofRoom (description : String) (roomId : Int) (dateRange : DatePeriod) : Reservation :=
  { description, atoms := [{ roomId, dateRange }] }

def lastAtom (r : Reservation) : Option ReservationAtom := r.atoms.getLast?

/-- `addAtom(room, dateRange)` -/
def addAtom (r : Reservation) (room : Int) (dateRange : DatePeriod) : Except Fault Reservation :=
  if dateRange.isNull then
    .error (.logicError "Cannot add atom because its date range is invalid")
  else match r.lastAtom with
    | none => .ok { r with atoms := r.atoms ++ [{ roomId := room, dateRange }] }
    | some last =>
      if last.dateRange.end_ = dateRange.begin_ then
        .ok { r with atoms := r.atoms ++ [{ roomId := room, dateRange }] }
      else
        .error (.logicError
          "Cannot add atom because the date range is not contiguous to the previous atom")

/-- `addAtom(atom)`: a new atom of the same room and range, not a copy of `atom`. -/
def addAtomOf (r : Reservation) (atom : ReservationAtom) : Except Fault Reservation :=
  r.addAtom atom.roomId atom.dateRange

def addContinuation (r : Reservation) (room : Int) (date : Date) : Except Fault Reservation :=
  match r.lastAtom with
  | none =>
    .error (.logicError "Cannot add continuation, because reservation has no atom yet")
  | some last =>
    if date ≤ last.dateRange.end_ then
      .error (.logicError
        "Cannot create reservation continuation... The given date preceeds the end date of the last atom")
    else
      .ok { r with atoms := r.atoms ++ [{ roomId := room, dateRange := ⟨last.dateRange.end_, date⟩ }] }

/-- The loop of `isValid` from index 1 on, with the atom before it. -/
def validAfter : ReservationAtom → List ReservationAtom → Bool
  | _, [] => true
  | previous, a :: rest =>
    if a.dateRange.isNull then false
    else if previous.dateRange.end_ ≠ a.dateRange.begin_ then false
    else validAfter a rest

def isValid (r : Reservation) : Bool :=
  match r.atoms with
  | [] => false
  | first :: rest => if first.dateRange.isNull then false else validAfter first rest

def intersectsWith (r other : Reservation) : Bool :=
  r.atoms.any fun thisAtom => other.atoms.any fun otherAtom => thisAtom.intersectsWith otherAtom

/-- `operator==`: the identity and the revision are not compared. -/
def equals (a b : Reservation) : Bool :=
  a.status == b.status && a.description == b.description &&
    a.reservationOwnerPersonId == b.reservationOwnerPersonId && a.adults == b.adults &&
    a.children == b.children && a.atoms.isEqv b.atoms ReservationAtom.equals

/-- The rooms and the periods of the atoms, which is all that validity, intersection
    and equality look at. -/
def places (r : Reservation) : List (Int × DatePeriod) := r.atoms.map fun a => (a.roomId, a.dateRange)

theorem validAfter_iff {previous : ReservationAtom} {rest : List ReservationAtom} :
    validAfter previous rest = true ↔ (∀ a ∈ rest, a.dateRange.isNull = false) ∧
      (previous :: rest).IsChain fun a b => a.dateRange.end_ = b.dateRange.begin_ := by
  induction rest generalizing previous with
  | nil => simp [validAfter]
  | cons a rest ih =>
    simp only [validAfter, List.forall_mem_cons, List.isChain_cons_cons]
    cases hn : a.dateRange.isNull
    · by_cases he : previous.dateRange.end_ = a.dateRange.begin_
      · simp [he, ih]
      · simp [he]
    · simp

theorem isValid_iff {r : Reservation} : r.isValid = true ↔ r.atoms ≠ [] ∧ Contiguous r.atoms := by
  cases h : r.atoms with
  | nil => simp [isValid, h]
  | cons first rest =>
    simp only [isValid, h]
    cases hn : first.dateRange.isNull
    · simp only [Bool.false_eq_true, if_false, validAfter_iff, ne_eq, reduceCtorEq,
        not_false_eq_true, true_and]
      exact ⟨fun ⟨h₁, h₂⟩ => ⟨by simpa [hn] using h₁, h₂⟩,
        fun h => ⟨fun a ha => h.nonempty a (List.mem_cons_of_mem _ ha), h.touching⟩⟩
    · simp only [if_true, Bool.false_eq_true, false_iff]
      intro ⟨_, hc⟩
      have := hc.nonempty first List.mem_cons_self
      rw [hn] at this
      cases this

theorem isValid_of_places {r s : Reservation} (h : r.places = s.places) : r.isValid = s.isValid := by
  have hranges : r.atoms.map (·.dateRange) = s.atoms.map (·.dateRange) := by
    have := congrArg (List.map Prod.snd) h
    rwa [places, places, List.map_map, List.map_map] at this
  have hempty : r.atoms = [] ↔ s.atoms = [] := by
    rw [← List.map_eq_nil_iff (f := ReservationAtom.dateRange), hranges, List.map_eq_nil_iff]
  rw [Bool.eq_iff_iff, isValid_iff, isValid_iff, ne_eq, ne_eq, hempty, Contiguous.of_ranges hranges]

theorem intersectsWith_of_places {r s : Reservation} (h : r.places = s.places) (t : Reservation) :
    r.intersectsWith t = s.intersectsWith t := by
  have hany : ∀ u : Reservation, u.intersectsWith t = u.places.any fun p =>
      t.atoms.any fun b => p.1 == b.roomId && p.2.intersects b.dateRange := by
    intro u
    rw [intersectsWith, places, List.any_map]
    rfl
  rw [hany r, hany s, h]

theorem isEqv_iff_places {as bs : List ReservationAtom} : as.isEqv bs ReservationAtom.equals = true ↔
    (as.map fun a => (a.roomId, a.dateRange)) = bs.map fun b => (b.roomId, b.dateRange) := by
  induction as generalizing bs with
  | nil => cases bs <;> simp
  | cons a as ih =>
    cases bs with
    | nil => simp
    | cons b bs => simp [List.isEqv, ih]

theorem equals_iff {a b : Reservation} : a.equals b = true ↔ a.status = b.status ∧
    a.description = b.description ∧ a.reservationOwnerPersonId = b.reservationOwnerPersonId ∧
      a.adults = b.adults ∧ a.children = b.children ∧ a.places = b.places := by
  simp only [equals, Bool.and_eq_true, beq_iff_eq, isEqv_iff_places, places, and_assoc]

/-- Equal reservations of one identity and revision. -/
structure Same (a b : Reservation) : Prop where
  id : a.id = b.id
  revision : a.revision = b.revision
  equals : a.equals b = true

theorem Same.refl (r : Reservation) : Same r r := ⟨rfl, rfl, equals_iff.2 (by simp)⟩

/-- An atom of the same room and period that was never stored. -/
def unstored (a : ReservationAtom) : ReservationAtom := { roomId := a.roomId, dateRange := a.dateRange }

theorem addAtomOf_eq {r : Reservation} {a : ReservationAtom} (hnull : a.dateRange.isNull = false)
    (htouch : ∀ last ∈ r.atoms.getLast?, last.dateRange.end_ = a.dateRange.begin_) :
    r.addAtomOf a = .ok { r with atoms := r.atoms ++ [unstored a] } := by
  rw [addAtomOf, addAtom, hnull, lastAtom, if_neg Bool.false_ne_true]
  cases hlast : r.atoms.getLast? with
  | none => rfl
  | some last => exact if_pos (htouch last hlast)

theorem addAtomOf_ok {r r' : Reservation} {a : ReservationAtom} (hok : r.addAtomOf a = .ok r') :
    a.dateRange.isNull = false ∧
      (∀ last ∈ r.atoms.getLast?, last.dateRange.end_ = a.dateRange.begin_) ∧
      r' = { r with atoms := r.atoms ++ [unstored a] } := by
  rw [addAtomOf, addAtom, lastAtom] at hok
  cases hnull : a.dateRange.isNull with
  | true =>
    rw [hnull, if_pos rfl] at hok
    cases hok
  | false =>
    rw [hnull, if_neg Bool.false_ne_true] at hok
    cases hlast : r.atoms.getLast? with
    | none =>
      rw [hlast] at hok
      cases hok
      exact ⟨rfl, nofun, rfl⟩
    | some last =>
      rw [hlast] at hok
      dsimp only at hok
      split at hok
      · next htouch =>
        cases hok
        refine ⟨rfl, fun l hl => ?_, rfl⟩
        cases hl
        exact htouch
      · cases hok

theorem addAtoms_eq {r : Reservation} {atoms : List ReservationAtom}
    (h : Contiguous (r.atoms ++ atoms)) : atoms.foldlM (fun r a => r.addAtomOf a) r =
      Except.ok (ε := Fault) { r with atoms := r.atoms ++ atoms.map unstored } := by
  induction atoms generalizing r with
  | nil =>
    rw [List.map_nil, List.append_nil]
    rfl
  | cons a atoms ih =>
    have hnull := h.nonempty a (List.mem_append_right _ List.mem_cons_self)
    have htouch : ∀ last ∈ r.atoms.getLast?, last.dateRange.end_ = a.dateRange.begin_ :=
      fun last hlast => (List.isChain_append.1 h.touching).2.2 last hlast a rfl
    have hnext : Contiguous ({ r with atoms := r.atoms ++ [unstored a] }.atoms ++ atoms) := by
      apply (Contiguous.of_ranges _).1 h
      simp [unstored]
    rw [List.foldlM_cons, addAtomOf_eq hnull htouch]
    refine (ih hnext).trans ?_
    simp

theorem addAtoms_ok {r r' : Reservation} {atoms : List ReservationAtom} (h : Contiguous r.atoms)
    (hok : atoms.foldlM (fun r a => r.addAtomOf a) r = Except.ok (ε := Fault) r') :
    Contiguous (r.atoms ++ atoms) := by
  induction atoms generalizing r with
  | nil =>
    rw [List.append_nil]
    exact h
  | cons a atoms ih =>
    rw [List.foldlM_cons] at hok
    cases hadd : r.addAtomOf a with
    | error fault => rw [hadd] at hok; cases hok
    | ok r₁ =>
      rw [hadd] at hok
      obtain ⟨hnull, htouch, rfl⟩ := addAtomOf_ok hadd
      have hone : Contiguous (r.atoms ++ [unstored a]) := h.push hnull htouch
      apply (Contiguous.of_ranges _).1 (ih hone hok)
      simp [unstored]

/-- A reservation of one room for one night. -/
def oneNight : Reservation :=
  ofRoom "one night" 1 ⟨⟨2458850, by decide, by decide⟩, ⟨2458851, by decide, by decide⟩⟩

/-- The same night in some room. -/
def oneNightIn (room : Int) : Reservation :=
  { oneNight with atoms := oneNight.atoms.map fun atom => { atom with roomId := room } }

/-- A stay of two nights in room 1 and one in room 2. -/
def twoRooms : Reservation :=
  { description := "two rooms", atoms :=
      [{ roomId := 1, dateRange := ⟨⟨2457755, by decide, by decide⟩, ⟨2457757, by decide, by decide⟩⟩ },
       { roomId := 2, dateRange := ⟨⟨2457757, by decide, by decide⟩, ⟨2457758, by decide, by decide⟩⟩ }] }

/-- The night after the stay over two rooms, in its second room. -/
def nextNight : Reservation :=
  { ofRoom "next night" 2 ⟨⟨2457758, by decide, by decide⟩, ⟨2457759, by decide, by decide⟩⟩ with id := 1 }

end Reservation

namespace Contiguous

theorem nil : Contiguous [] := ⟨by simp, List.isChain_nil⟩

theorem tail {a : ReservationAtom} {atoms : List ReservationAtom} (h : Contiguous (a :: atoms)) :
    Contiguous atoms :=
  ⟨fun x hx => h.nonempty x (List.mem_cons_of_mem _ hx), h.touching.tail⟩

theorem ordered {atoms : List ReservationAtom} (h : Contiguous atoms) :
    atoms.Pairwise fun a b => a.dateRange.end_ ≤ b.dateRange.begin_ := by
  induction atoms with
  | nil => exact List.Pairwise.nil
  | cons a rest ih =>
    have hrest := ih h.tail
    refine List.pairwise_cons.2 ⟨?_, hrest⟩
    cases rest with
    | nil => simp
    | cons b rest =>
      have hab : a.dateRange.end_ = b.dateRange.begin_ := (List.isChain_cons_cons.1 h.touching).1
      intro c hc
      rcases List.mem_cons.1 hc with rfl | hc
      · exact le_of_eq hab
      · have hb := Period.isNull_eq_false.1 (h.nonempty b (by simp))
        have hbc := (List.pairwise_cons.1 hrest).1 c hc
        rw [hab]
        exact le_trans (le_of_lt hb) hbc

/-- Contiguous atoms never meet one another. -/
theorem apart {atoms : List ReservationAtom} (h : Contiguous atoms) :
    atoms.Pairwise fun a b => a.dateRange.intersects b.dateRange = false := by
  refine List.Pairwise.imp_of_mem ?_ h.ordered
  intro a b ha hb hab
  exact Period.intersects_of_end_le (h.nonempty a ha) (h.nonempty b hb) hab

end Contiguous

end HotelPms

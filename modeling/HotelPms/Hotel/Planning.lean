import HotelPms.Hotel.Reservation

/- `hotel::PlanningBoard`.

   The board owns a list of reservations and, redundantly, one row of atom
   pointers per room. Pointers are compared by address (the owning reservation's
   address and the index in its vector of atoms); the atom a pointer leads to is
   kept with it, since nothing changes a reservation that is on a board.

   `Consistent` says that the two structures agree. `addReservation` keeps it and
   succeeds exactly when the reservation is valid and meets no reservation of the
   board (`canAddReservation_iff`), removal keeps it (`Consistent.remove`), and
   valid reservations that do not meet one another can be added one after
   another to an empty board (`addReservations_ok`). -/
namespace HotelPms
open Lib

/-- The address of a heap object. -/
abbrev Addr := Nat

/-- A live `Reservation` object. -/
structure ReservationObj where
  addr : Addr
  value : Reservation
  deriving DecidableEq

/-- A `const ReservationAtom*`: the atom at `index` of the reservation at `owner`. -/
structure AtomPtr where
  owner : Addr
  index : Nat
  atom : ReservationAtom
  deriving DecidableEq

namespace AtomPtr

/-- Pointer equality. -/
def same (p q : AtomPtr) : Bool := p.owner == q.owner && p.index == q.index

def period (p : AtomPtr) : DatePeriod := p.atom.dateRange

end AtomPtr

/-- Pointers to the atoms of a reservation, in their order. -/
def ReservationObj.atomPtrs (o : ReservationObj) : List AtomPtr :=
  o.value.atoms.mapIdx fun i a => ⟨o.addr, i, a⟩

structure PlanningBoard where
  reservations : List ReservationObj := []
  rooms : Std.TreeMap Int (List AtomPtr) := {}

namespace PlanningBoard

/-- The row of a room. `isFree` and `getAvailableDaysFrom` treat a room without an entry as one with an empty row. -/
def row (b : PlanningBoard) (roomId : Int) : List AtomPtr := b.rooms.getD roomId []

def isFree (b : PlanningBoard) (roomId : Int) (period : DatePeriod) : Bool :=
  match b.rooms[roomId]? with
  | none => true
  | some roomAtoms => !roomAtoms.any fun x => x.period.intersects period

def canAddReservation (b : PlanningBoard) (reservation : Reservation) : Bool :=
  reservation.isValid && reservation.atoms.all fun atom => b.isFree atom.roomId atom.dateRange

/-- `auto& roomAtoms = _rooms[roomId]` and a change to `roomAtoms`: `operator[]`
    creates the row if the room has none. -/
def changeRow (b : PlanningBoard) (roomId : Int) (change : List AtomPtr → List AtomPtr) :
    PlanningBoard :=
  { b with rooms := b.rooms.alter roomId fun roomAtoms => some (change (roomAtoms.getD [])) }

def insertAtom (b : PlanningBoard) (atom : AtomPtr) : PlanningBoard :=
  b.changeRow atom.atom.roomId fun roomAtoms => sortByBegin AtomPtr.period (roomAtoms ++ [atom])

/-- `addReservation`: what is returned or thrown, and the board afterwards. -/
def addReservation (b : PlanningBoard) : Option ReservationObj → Except Fault Addr × PlanningBoard
  | none =>
    (.error (.invalidArgument "cannot add nullptr reservation to planning board"), b)
  | some reservation =>
    if !b.canAddReservation reservation.value then
      (.error (.logicError ("cannot add reservation " ++ reservation.value.description)), b)
    else
      let inserted := reservation.atomPtrs.foldl insertAtom b
      (.ok reservation.addr, { inserted with reservations := inserted.reservations ++ [reservation] })

/-- One turn of the loop over the atoms in `removeReservation`. -/
def removeAtom (b : PlanningBoard) (atom : AtomPtr) : PlanningBoard :=
  b.changeRow atom.atom.roomId fun roomAtoms => roomAtoms.eraseP fun x => x.same atom

/-- `removeReservation(const Reservation*)` -/
def removeReservation (b : PlanningBoard) : Option ReservationObj → Except Fault Unit × PlanningBoard
  | none =>
    (.error (.invalidArgument "cannot remove nullptr reservation from planning board"), b)
  | some reservation =>
    let removed := reservation.atomPtrs.foldl removeAtom b
    (.ok (), { removed with
      reservations := removed.reservations.eraseP fun x => x.addr == reservation.addr })

/-- `removeReservation(int)` -/
def removeReservationById (b : PlanningBoard) (reservationId : Int) : PlanningBoard :=
  match b.reservations.find? fun x => x.value.id == reservationId with
  | none => b
  | some reservation =>
    let removed := reservation.atomPtrs.foldl removeAtom b
    { removed with reservations := removed.reservations.eraseP fun x => x.value.id == reservationId }

def clear (_ : PlanningBoard) : PlanningBoard := { reservations := [], rooms := {} }

/-- Adding reservations one after another, up to the first that throws. -/
def addReservations (b : PlanningBoard) : List ReservationObj → Except Fault Unit × PlanningBoard
  | [] => (.ok (), b)
  | o :: rest =>
    match b.addReservation (some o) with
    | (.ok _, b') => b'.addReservations rest
    | (.error e, b') => (.error e, b')

/-- Copies of reservations, made at the given addresses. -/
def copies (os : List ReservationObj) (addrs : List Addr) : List ReservationObj :=
  List.zipWith (fun o addr => ⟨addr, o.value⟩) os addrs

/-- `operator=(const PlanningBoard&)` from another board; `addrs` are where
    `make_unique` puts the copies. -/
def copyAssign (b that : PlanningBoard) (addrs : List Addr) : Except Fault Unit × PlanningBoard :=
  b.clear.addReservations (copies that.reservations addrs)

/-- `operator=(PlanningBoard&&)` from another board: both boards afterwards. -/
def moveAssign (_ that : PlanningBoard) : PlanningBoard × PlanningBoard :=
  ({ reservations := that.reservations, rooms := that.rooms }, that.clear)

/-- Pointers to all atoms of the reservations on the board. -/
def atomPtrs (b : PlanningBoard) : List AtomPtr := b.reservations.flatMap ReservationObj.atomPtrs

/-- The list of reservations and the rows of the rooms agree, and every row is
    kept: sorted strictly by begin, no null period, no overlap. -/
structure Consistent (b : PlanningBoard) : Prop where
  kept : ∀ roomId, Kept AtomPtr.period (b.row roomId)
  mirrors : ∀ roomId, (b.row roomId).Perm (b.atomPtrs.filter fun p => p.atom.roomId == roomId)
  valid : ∀ o ∈ b.reservations, o.value.isValid = true
  addrs : (b.reservations.map (·.addr)).Nodup

end PlanningBoard

/-! ## Pointers -/

theorem AtomPtr.same_iff {p q : AtomPtr} : p.same q = true ↔ p.owner = q.owner ∧ p.index = q.index := by
  simp [AtomPtr.same]

namespace ReservationObj

theorem mem_atomPtrs {o : ReservationObj} {p : AtomPtr} :
    p ∈ o.atomPtrs ↔ p.owner = o.addr ∧ o.value.atoms[p.index]? = some p.atom := by
  simp only [atomPtrs, List.mem_mapIdx]
  constructor
  · rintro ⟨i, hi, rfl⟩
    exact ⟨rfl, List.getElem?_eq_getElem hi⟩
  · rintro ⟨ho, ha⟩
    obtain ⟨hi, ha⟩ := List.getElem?_eq_some_iff.1 ha
    exact ⟨p.index, hi, by rw [← ho, ha]⟩

theorem atomPtrs_map_atom (o : ReservationObj) : o.atomPtrs.map AtomPtr.atom = o.value.atoms := by
  refine List.ext_getElem? fun i => ?_
  simp [atomPtrs, Function.comp_def]

theorem atom_mem {o : ReservationObj} {p : AtomPtr} (hp : p ∈ o.atomPtrs) : p.atom ∈ o.value.atoms :=
  List.mem_of_getElem? (mem_atomPtrs.1 hp).2

theorem atomPtrs_distinct (o : ReservationObj) :
    o.atomPtrs.Pairwise fun p q => p.same q = false := by
  rw [List.pairwise_iff_getElem]
  intro i j hi hj hij
  simp only [atomPtrs, List.getElem_mapIdx, AtomPtr.same, beq_self_eq_true, Bool.true_and,
    beq_eq_false_iff_ne]
  omega

theorem atomPtrs_apart {o : ReservationObj} (h : o.value.isValid = true) :
    o.atomPtrs.Pairwise fun p q => p.period.intersects q.period = false := by
  have hc := (Reservation.isValid_iff.1 h).2.apart
  rw [← atomPtrs_map_atom, List.pairwise_map] at hc
  exact hc

theorem atomPtrs_nonempty {o : ReservationObj} (h : o.value.isValid = true) :
    ∀ p ∈ o.atomPtrs, p.period.isNull = false :=
  fun p hp => (Reservation.isValid_iff.1 h).2.nonempty p.atom (atom_mem hp)

end ReservationObj

theorem eraseP_eq_filter {α : Type*} {p : α → Bool} {l : List α}
    (h : l.Pairwise fun x y => p x = true → p y = false) :
    l.eraseP p = l.filter fun x => !p x := by
  induction l with
  | nil => rfl
  | cons a l ih =>
    obtain ⟨ha, hl⟩ := List.pairwise_cons.1 h
    cases hp : p a
    · simp [hp, ih hl]
    · have hall : l.filter (fun x => !p x) = l :=
        List.filter_eq_self.2 fun x hx => by rw [ha x hx hp]; rfl
      simp [hp, hall]

namespace PlanningBoard

/-! ## What each step does to the rows -/

theorem row_changeRow (b : PlanningBoard) (k roomId : Int)
    (change : List AtomPtr → List AtomPtr) :
    (b.changeRow k change).row roomId =
      if k = roomId then change (b.row roomId) else b.row roomId := by
  simp only [row, changeRow, Std.TreeMap.getD_alter, Std.LawfulEqCmp.compare_eq_iff_eq]
  split
  · next h =>
    subst h
    rw [Std.TreeMap.getD_eq_getD_getElem?]
    rfl
  · rfl

theorem row_insertAtom (b : PlanningBoard) (p : AtomPtr) (roomId : Int) :
    (b.insertAtom p).row roomId =
      if p.atom.roomId = roomId then sortByBegin AtomPtr.period (b.row roomId ++ [p])
      else b.row roomId :=
  row_changeRow _ _ _ _

theorem row_removeAtom (b : PlanningBoard) (p : AtomPtr) (roomId : Int) :
    (b.removeAtom p).row roomId =
      if p.atom.roomId = roomId then (b.row roomId).eraseP fun x => x.same p
      else b.row roomId :=
  row_changeRow _ _ _ _

theorem foldl_insertAtom_reservations (ps : List AtomPtr) (b : PlanningBoard) :
    (ps.foldl insertAtom b).reservations = b.reservations := by
  induction ps generalizing b with
  | nil => rfl
  | cons p ps ih => exact ih (b.insertAtom p)

theorem foldl_removeAtom_reservations (ps : List AtomPtr) (b : PlanningBoard) :
    (ps.foldl removeAtom b).reservations = b.reservations := by
  induction ps generalizing b with
  | nil => rfl
  | cons p ps ih => exact ih (b.removeAtom p)

@[simp] theorem row_with_reservations (b : PlanningBoard) (os : List ReservationObj) (roomId : Int) :
    row { b with reservations := os } roomId = b.row roomId := rfl

theorem isFree_iff (b : PlanningBoard) (roomId : Int) (period : DatePeriod) :
    b.isFree roomId period = true ↔ ∀ x ∈ b.row roomId, x.period.intersects period = false := by
  simp only [isFree, row, Std.TreeMap.getD_eq_getD_getElem?]
  cases b.rooms[roomId]? <;> simp

/-- Inserting pointers that are free on the board and apart from one another
    keeps every row, and each row gains exactly the pointers of its room. -/
theorem foldl_insertAtom_row (ps : List AtomPtr) (b : PlanningBoard)
    (hkept : ∀ roomId, Kept AtomPtr.period (b.row roomId))
    (hne : ∀ p ∈ ps, p.period.isNull = false)
    (hapart : ps.Pairwise fun p q => p.period.intersects q.period = false)
    (hfree : ∀ p ∈ ps, ∀ y ∈ b.row p.atom.roomId, y.period.intersects p.period = false)
    (roomId : Int) :
    Kept AtomPtr.period ((ps.foldl insertAtom b).row roomId) ∧
    ((ps.foldl insertAtom b).row roomId).Perm
      (b.row roomId ++ ps.filter fun p => p.atom.roomId == roomId) := by
  induction ps generalizing b with
  | nil => exact ⟨hkept roomId, by simp⟩
  | cons p ps ih =>
    obtain ⟨hp, hps⟩ := List.pairwise_cons.1 hapart
    have hmem : ∀ k y, y ∈ (b.insertAtom p).row k → y ∈ b.row k ∨ y = p := by
      intro k y hy
      rw [row_insertAtom] at hy
      split at hy
      · simpa using (sortByBegin_perm AtomPtr.period _).mem_iff.1 hy
      · exact Or.inl hy
    have hkept' : ∀ k, Kept AtomPtr.period ((b.insertAtom p).row k) := by
      intro k
      rw [row_insertAtom]
      split
      · next h =>
        subst h
        exact (hkept _).insert AtomPtr.period (hne p (by simp)) (hfree p (by simp))
      · exact hkept k
    have hfree' : ∀ q ∈ ps, ∀ y ∈ (b.insertAtom p).row q.atom.roomId,
        y.period.intersects q.period = false := by
      intro q hq y hy
      rcases hmem _ y hy with hy | rfl
      · exact hfree q (List.mem_cons_of_mem _ hq) y hy
      · exact hp q hq
    obtain ⟨h₁, h₂⟩ :=
      ih (b.insertAtom p) hkept' (fun q hq => hne q (List.mem_cons_of_mem _ hq)) hps hfree'
    refine ⟨h₁, h₂.trans ?_⟩
    rw [row_insertAtom, List.filter_cons]
    by_cases h : p.atom.roomId = roomId
    · simp only [h, if_true, beq_self_eq_true]
      refine ((sortByBegin_perm AtomPtr.period _).append_right _).trans ?_
      simp
    · simp [h]

/-- Removing pointers erases exactly these pointers, each from the row of its room. -/
theorem foldl_removeAtom_row (ps : List AtomPtr) (b : PlanningBoard)
    (hdist : ∀ roomId, (b.row roomId).Pairwise fun p q => p.same q = false) (roomId : Int) :
    (ps.foldl removeAtom b).row roomId =
      (b.row roomId).filter fun x => !ps.any fun p => p.atom.roomId == roomId && x.same p := by
  induction ps generalizing b with
  | nil => exact (List.filter_eq_self.2 (by simp)).symm
  | cons p ps ih =>
    have hrow : ∀ k, (b.removeAtom p).row k =
        (b.row k).filter fun x => !(p.atom.roomId == k && x.same p) := by
      intro k
      rw [row_removeAtom]
      by_cases h : p.atom.roomId = k
      · rw [if_pos h, eraseP_eq_filter]
        · simp [h]
        · refine (hdist k).imp ?_
          intro x y hxy hx
          rw [← Bool.not_eq_true, AtomPtr.same_iff] at hxy ⊢
          rw [AtomPtr.same_iff] at hx
          exact fun hy => hxy ⟨hx.1.trans hy.1.symm, hx.2.trans hy.2.symm⟩
      · rw [if_neg h]
        exact (List.filter_eq_self.2 (by simp [h])).symm
    rw [List.foldl_cons, ih]
    · rw [hrow, List.filter_filter]
      congr 1
      funext x
      simp only [List.any_cons, Bool.not_or]
      rw [Bool.and_comm]
    · intro k
      rw [hrow]
      exact (hdist k).sublist List.filter_sublist

/-! ## Consistency -/

theorem consistent_empty : Consistent {} where
  kept roomId := by simpa [row] using Kept.nil AtomPtr.period
  mirrors roomId := by simp [row, atomPtrs]
  valid := by simp
  addrs := by simp

theorem mem_atomPtrs {b : PlanningBoard} {p : AtomPtr} :
    p ∈ b.atomPtrs ↔ ∃ o ∈ b.reservations, p ∈ o.atomPtrs := by
  simp [atomPtrs]

theorem Consistent.mem_row {b : PlanningBoard} (h : b.Consistent) {roomId : Int} {p : AtomPtr} :
    p ∈ b.row roomId ↔ p ∈ b.atomPtrs ∧ p.atom.roomId = roomId := by
  rw [(h.mirrors roomId).mem_iff, List.mem_filter, beq_iff_eq]

theorem Consistent.atomPtrs_distinct {b : PlanningBoard} (h : b.Consistent) :
    b.atomPtrs.Pairwise fun p q => p.same q = false := by
  rw [atomPtrs, List.pairwise_flatMap]
  refine ⟨fun o _ => o.atomPtrs_distinct, ?_⟩
  refine (List.pairwise_map.1 h.addrs).imp ?_
  intro o o' hne p hp q hq
  have hpo := (ReservationObj.mem_atomPtrs.1 hp).1
  have hqo := (ReservationObj.mem_atomPtrs.1 hq).1
  rw [← Bool.not_eq_true, AtomPtr.same_iff, hpo, hqo]
  exact fun hs => hne hs.1

theorem Consistent.row_distinct {b : PlanningBoard} (h : b.Consistent) (roomId : Int) :
    (b.row roomId).Pairwise fun p q => p.same q = false := by
  refine ((h.mirrors roomId).pairwise_iff ?_).2 (h.atomPtrs_distinct.sublist List.filter_sublist)
  intro p q hpq
  rw [← Bool.not_eq_true, AtomPtr.same_iff] at hpq ⊢
  exact fun hs => hpq ⟨hs.1.symm, hs.2.symm⟩

theorem intersectsWith_eq_false {r s : Reservation} :
    r.intersectsWith s = false ↔ ∀ a ∈ r.atoms, ∀ a' ∈ s.atoms, a.roomId = a'.roomId →
      a.dateRange.intersects a'.dateRange = false := by
  simp only [Reservation.intersectsWith, ReservationAtom.intersectsWith, List.any_eq_false,
    List.any_eq_true, Bool.and_eq_true, beq_iff_eq, not_exists, not_and, Bool.not_eq_true]

theorem intersectsWith_comm (r s : Reservation) : r.intersectsWith s = s.intersectsWith r := by
  rw [Bool.eq_iff_iff, ← not_iff_not, Bool.not_eq_true, Bool.not_eq_true, intersectsWith_eq_false,
    intersectsWith_eq_false]
  constructor <;>
  · intro h a ha a' ha' hr
    rw [Period.intersects_comm]
    exact h a' ha' a ha hr.symm

theorem Consistent.canAddReservation_eq {b : PlanningBoard} (h : b.Consistent) (r : Reservation) :
    b.canAddReservation r = true ↔
      r.isValid = true ∧ ∀ o ∈ b.reservations, r.intersectsWith o.value = false := by
  simp only [canAddReservation, Bool.and_eq_true, List.all_eq_true, isFree_iff,
    intersectsWith_eq_false]
  refine and_congr_right fun _ => ?_
  constructor
  · intro hf o ho a ha a' ha' hr
    obtain ⟨i, hi, rfl⟩ := List.getElem_of_mem ha'
    have hp : (⟨o.addr, i, o.value.atoms[i]⟩ : AtomPtr) ∈ o.atomPtrs :=
      ReservationObj.mem_atomPtrs.2 ⟨rfl, List.getElem?_eq_getElem hi⟩
    have := hf a ha _ (h.mem_row.2 ⟨mem_atomPtrs.2 ⟨o, ho, hp⟩, hr.symm⟩)
    rw [Period.intersects_comm]
    exact this
  · intro hf a ha x hx
    obtain ⟨hx, hroom⟩ := h.mem_row.1 hx
    obtain ⟨o, ho, hp⟩ := mem_atomPtrs.1 hx
    have := hf o ho a ha x.atom (ReservationObj.atom_mem hp) hroom.symm
    rw [Period.intersects_comm] at this
    exact this

theorem addReservation_error {b : PlanningBoard} {o : Option ReservationObj} {e : Fault}
    (h : (b.addReservation o).1 = .error e) : (b.addReservation o).2 = b := by
  cases o with
  | none => rfl
  | some o =>
    simp only [addReservation] at h ⊢
    split
    · rfl
    · next hc =>
      rw [if_neg hc] at h
      cases h

theorem addReservation_accepted {b : PlanningBoard} {o : ReservationObj}
    (h : b.canAddReservation o.value = true) :
    b.addReservation (some o) = (.ok o.addr,
      { o.atomPtrs.foldl insertAtom b with reservations := b.reservations ++ [o] }) := by
  simp [addReservation, h, foldl_insertAtom_reservations]

theorem addReservation_refused {b : PlanningBoard} {o : ReservationObj}
    (h : b.canAddReservation o.value = false) :
    b.addReservation (some o) =
      (.error (.logicError ("cannot add reservation " ++ o.value.description)), b) := by
  simp [addReservation, h]

/-- Adding at an address that no reservation of the board has keeps consistency. -/
theorem Consistent.add {b : PlanningBoard} (h : b.Consistent) {o : ReservationObj}
    (hfresh : o.addr ∉ b.reservations.map (·.addr)) :
    (b.addReservation (some o)).2.Consistent := by
  cases hc : b.canAddReservation o.value with
  | false =>
    rw [addReservation_refused hc]
    exact h
  | true =>
    rw [addReservation_accepted hc]
    have hcan := (h.canAddReservation_eq o.value).1 hc
    have hvalid := hcan.1
    have hfree : ∀ p ∈ o.atomPtrs, ∀ y ∈ b.row p.atom.roomId,
        y.period.intersects p.period = false := by
      intro p hp y hy
      obtain ⟨hy, hroom⟩ := h.mem_row.1 hy
      obtain ⟨o', ho', hq⟩ := mem_atomPtrs.1 hy
      rw [Period.intersects_comm]
      exact intersectsWith_eq_false.1 (hcan.2 o' ho') p.atom (ReservationObj.atom_mem hp) y.atom
        (ReservationObj.atom_mem hq) hroom.symm
    have hrow := foldl_insertAtom_row o.atomPtrs b h.kept
      (ReservationObj.atomPtrs_nonempty hvalid) (ReservationObj.atomPtrs_apart hvalid) hfree
    refine ⟨fun k => (hrow k).1, fun k => ?_, ?_, ?_⟩
    · refine (hrow k).2.trans ?_
      simp only [atomPtrs, List.flatMap_append, List.filter_append]
      refine List.Perm.append ?_ (by simp)
      exact h.mirrors k
    · intro o' ho'
      rcases List.mem_append.1 ho' with ho' | ho'
      · exact h.valid o' ho'
      · rw [List.mem_singleton.1 ho']
        exact hvalid
    · simp only [List.map_append, List.map_cons, List.map_nil]
      refine List.nodup_append.2 ⟨h.addrs, by simp, ?_⟩
      intro x hx y hy
      rw [List.mem_singleton.1 hy]
      exact fun he => hfresh (he ▸ hx)

/-- The board without the reservation at `addr`. -/
theorem Consistent.remove {b : PlanningBoard} (h : b.Consistent) {o : ReservationObj}
    (hlive : ∀ o' ∈ b.reservations, o'.addr = o.addr → o' = o) :
    Consistent { o.atomPtrs.foldl removeAtom b with
      reservations := b.reservations.filter fun x => x.addr != o.addr } := by
  have hrow : ∀ k, (o.atomPtrs.foldl removeAtom b).row k =
      (b.row k).filter fun x => x.owner != o.addr := by
    intro k
    rw [foldl_removeAtom_row _ _ h.row_distinct]
    refine List.filter_congr fun x hx => ?_
    obtain ⟨hx, hroom⟩ := h.mem_row.1 hx
    obtain ⟨o', ho', hp⟩ := mem_atomPtrs.1 hx
    rw [Bool.eq_iff_iff, Bool.not_eq_true', bne_iff_ne, ← Bool.not_eq_true, not_iff_not]
    simp only [List.any_eq_true, Bool.and_eq_true, beq_iff_eq, AtomPtr.same_iff]
    constructor
    · rintro ⟨q, hq, _, hs⟩
      exact hs.1.trans (ReservationObj.mem_atomPtrs.1 hq).1
    · intro ho
      have : o' = o := hlive o' ho' ((ReservationObj.mem_atomPtrs.1 hp).1.symm.trans ho)
      subst this
      exact ⟨x, hp, hroom, rfl, rfl⟩
  -- the pointers that are left are those of the other reservations
  have hptrs : atomPtrs { o.atomPtrs.foldl removeAtom b with
      reservations := b.reservations.filter fun x => x.addr != o.addr } =
      b.atomPtrs.filter fun x => x.owner != o.addr := by
    simp only [atomPtrs]
    induction b.reservations with
    | nil => rfl
    | cons o' os ih =>
      have howner : ∀ p ∈ o'.atomPtrs, p.owner = o'.addr :=
        fun p hp => (ReservationObj.mem_atomPtrs.1 hp).1
      rw [List.filter_cons, List.flatMap_cons, List.filter_append, ← ih]
      by_cases ha : o'.addr = o.addr
      · have : o'.atomPtrs.filter (fun x => x.owner != o.addr) = [] :=
          List.filter_eq_nil_iff.2 fun p hp => by simp [howner p hp, ha]
        simp [ha, this]
      · have : o'.atomPtrs.filter (fun x => x.owner != o.addr) = o'.atomPtrs :=
          List.filter_eq_self.2 fun p hp => by simp [howner p hp, ha]
        simp [ha, this]
  refine ⟨fun k => ?_, fun k => ?_, ?_, ?_⟩
  · rw [row_with_reservations, hrow]
    exact (h.kept k).sublist AtomPtr.period List.filter_sublist
  · rw [row_with_reservations, hrow, hptrs, List.filter_filter]
    refine ((h.mirrors k).filter _).trans ?_
    rw [List.filter_filter]
    simp only [Bool.and_comm]
    exact List.Perm.refl _
  · intro o' ho'
    exact h.valid o' (List.mem_of_mem_filter ho')
  · exact h.addrs.sublist (List.filter_sublist.map _)

theorem Consistent.conflictFree {b : PlanningBoard} (h : b.Consistent) :
    b.reservations.Pairwise fun o o' => o.value.intersectsWith o'.value = false := by
  refine List.Pairwise.imp_of_mem ?_ (List.pairwise_map.1 h.addrs)
  intro o o' ho ho' hne
  rw [intersectsWith_eq_false]
  intro a ha a' ha' hroom
  obtain ⟨i, hi, rfl⟩ := List.getElem_of_mem ha
  obtain ⟨j, hj, rfl⟩ := List.getElem_of_mem ha'
  have hp : (⟨o.addr, i, o.value.atoms[i]⟩ : AtomPtr) ∈ o.atomPtrs :=
    ReservationObj.mem_atomPtrs.2 ⟨rfl, List.getElem?_eq_getElem hi⟩
  have hq : (⟨o'.addr, j, o'.value.atoms[j]⟩ : AtomPtr) ∈ o'.atomPtrs :=
    ReservationObj.mem_atomPtrs.2 ⟨rfl, List.getElem?_eq_getElem hj⟩
  have : Std.Symm fun x y : AtomPtr => x.period.intersects y.period = false :=
    ⟨fun x y hxy => by rw [Period.intersects_comm]; exact hxy⟩
  exact (h.kept o'.value.atoms[j].roomId).disjoint.forall
    (h.mem_row.2 ⟨mem_atomPtrs.2 ⟨o, ho, hp⟩, hroom⟩)
    (h.mem_row.2 ⟨mem_atomPtrs.2 ⟨o', ho', hq⟩, rfl⟩) (fun he => hne (congrArg AtomPtr.owner he))

/-- Valid reservations that meet neither one another nor the board are all
    accepted, in order. -/
theorem addReservations_ok (os : List ReservationObj) (b : PlanningBoard) (hb : b.Consistent)
    (hvalid : ∀ o ∈ os, o.value.isValid = true)
    (hapart : os.Pairwise fun o o' => o.value.intersectsWith o'.value = false)
    (hfree : ∀ o ∈ os, ∀ o' ∈ b.reservations, o.value.intersectsWith o'.value = false)
    (haddrs : (b.reservations.map (·.addr) ++ os.map (·.addr)).Nodup) :
    (b.addReservations os).1 = .ok () ∧ (b.addReservations os).2.Consistent ∧
      (b.addReservations os).2.reservations = b.reservations ++ os := by
  induction os generalizing b with
  | nil => exact ⟨rfl, hb, by simp [addReservations]⟩
  | cons o os ih =>
    obtain ⟨ho, hos⟩ := List.pairwise_cons.1 hapart
    have hcan : b.canAddReservation o.value = true :=
      (hb.canAddReservation_eq o.value).2 ⟨hvalid o (by simp), hfree o (by simp)⟩
    have hfresh : o.addr ∉ b.reservations.map (·.addr) := by
      intro hm
      exact (List.nodup_append.1 haddrs).2.2 o.addr hm o.addr (by simp) rfl
    have hadded := hb.add hfresh
    rw [addReservation_accepted hcan] at hadded
    have hrest := ih _ hadded (fun x hx => hvalid x (List.mem_cons_of_mem _ hx)) hos ?_ ?_
    · simp only [addReservations, addReservation_accepted hcan]
      refine ⟨hrest.1, hrest.2.1, hrest.2.2.trans ?_⟩
      simp
    · intro x hx y hy
      rcases List.mem_append.1 hy with hy | hy
      · exact hfree x (List.mem_cons_of_mem _ hx) y hy
      · rw [List.mem_singleton.1 hy, intersectsWith_comm]
        exact ho x hx
    · simpa using haddrs

theorem of_addReservations_ok (os : List ReservationObj) (b : PlanningBoard) (hb : b.Consistent)
    (hok : (b.addReservations os).1 = .ok ())
    (haddrs : (b.reservations.map (·.addr) ++ os.map (·.addr)).Nodup) :
    (b.addReservations os).2.Consistent ∧
      (b.addReservations os).2.reservations = b.reservations ++ os := by
  induction os generalizing b with
  | nil => exact ⟨hb, (List.append_nil _).symm⟩
  | cons o os ih =>
    have hfresh : o.addr ∉ b.reservations.map (·.addr) := by
      intro hm
      exact (List.nodup_append.1 haddrs).2.2 o.addr hm o.addr (by simp) rfl
    cases hcan : b.canAddReservation o.value with
    | false =>
      simp only [addReservations, addReservation_refused hcan] at hok
      cases hok
    | true =>
      have hadded := hb.add hfresh
      rw [addReservation_accepted hcan] at hadded
      simp only [addReservations, addReservation_accepted hcan] at hok ⊢
      obtain ⟨hconsistent, hreservations⟩ := ih _ hadded hok (by simpa using haddrs)
      refine ⟨hconsistent, hreservations.trans ?_⟩
      simp

theorem Consistent.rows_eq {b c : PlanningBoard} (hb : b.Consistent) (hc : c.Consistent)
    (h : c.reservations.map (·.value) = b.reservations.map (·.value)) (roomId : Int) :
    (c.row roomId).map AtomPtr.atom = (b.row roomId).map AtomPtr.atom := by
  have hatoms : ∀ d : PlanningBoard, d.Consistent → ((d.row roomId).map AtomPtr.atom).Perm
      (((d.reservations.map (·.value)).flatMap Reservation.atoms).filter
        fun a => a.roomId == roomId) := by
    intro d hd
    refine ((hd.mirrors roomId).map AtomPtr.atom).trans (List.Perm.of_eq ?_)
    have hall : d.atomPtrs.map AtomPtr.atom =
        (d.reservations.map (·.value)).flatMap Reservation.atoms := by
      simp only [atomPtrs, List.map_flatMap, ReservationObj.atomPtrs_map_atom, List.flatMap_map]
    rw [← hall, List.filter_map]
    rfl
  have hkept : ∀ d : PlanningBoard, d.Consistent →
      Kept (fun a : ReservationAtom => a.dateRange) ((d.row roomId).map AtomPtr.atom) :=
    fun d hd => Kept.map _ (hd.kept roomId)
  refine (hkept c hc).eq_of_perm _ (hkept b hb) ((hatoms c hc).trans ?_)
  rw [h]
  exact (hatoms b hb).symm

/-! ## Rows that were created are there for an atom -/

/-- No room has an entry with an empty row, as long as nothing was removed. -/
def Tight (b : PlanningBoard) : Prop := ∀ roomId, roomId ∈ b.rooms → b.row roomId ≠ []

theorem tight_insertAtom {b : PlanningBoard} (h : b.Tight) (p : AtomPtr) : (b.insertAtom p).Tight := by
  intro roomId hm
  rw [row_insertAtom]
  by_cases hp : p.atom.roomId = roomId
  · rw [if_pos hp]
    exact fun he => by simpa [he] using (sortByBegin_perm AtomPtr.period (b.row roomId ++ [p])).length_eq
  · rw [if_neg hp]
    refine h roomId ?_
    simp only [insertAtom, changeRow, Std.TreeMap.mem_alter, Std.LawfulEqCmp.compare_eq_iff_eq] at hm
    rwa [if_neg hp] at hm

theorem tight_foldl_insertAtom (ps : List AtomPtr) {b : PlanningBoard} (h : b.Tight) :
    (ps.foldl insertAtom b).Tight := by
  induction ps generalizing b with
  | nil => exact h
  | cons p ps ih => exact ih (tight_insertAtom h p)

theorem tight_addReservations (os : List ReservationObj) {b : PlanningBoard} (h : b.Tight) :
    (b.addReservations os).2.Tight := by
  induction os generalizing b with
  | nil => exact h
  | cons o os ih =>
    cases hc : b.canAddReservation o.value
    · simp only [addReservations, addReservation_refused hc]
      exact h
    · simp only [addReservations, addReservation_accepted hc]
      exact ih (b := { o.atomPtrs.foldl insertAtom b with reservations := b.reservations ++ [o] })
        (tight_foldl_insertAtom o.atomPtrs h)

theorem Tight.mem_rooms_iff {b : PlanningBoard} (h : b.Tight) (roomId : Int) :
    roomId ∈ b.rooms ↔ b.row roomId ≠ [] := by
  refine ⟨h roomId, fun hne => ?_⟩
  rw [Std.TreeMap.mem_iff_isSome_getElem?]
  cases hr : b.rooms[roomId]? with
  | none => exact absurd (by simp [row, Std.TreeMap.getD_eq_getD_getElem?, hr]) hne
  | some _ => rfl

end PlanningBoard

end HotelPms

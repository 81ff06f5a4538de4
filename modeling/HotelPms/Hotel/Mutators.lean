import HotelPms.Lib.Run
import HotelPms.Hotel.Joining

/- Runs of the functions that change the atoms of a reservation.

   Each function is what the source does to the object it is called on, which keeps
   what was done to it when an exception leaves the call. `addAtom` and its siblings of
   `Hotel.Reservation` give the same outcomes (`run_addAtom`, `run_addContinuation`).
   From a reservation without atoms, or of one room, the atoms stay contiguous whatever
   is called (`stays_contiguous`). -/
namespace HotelPms
open Lib

/-- `length().days()` of a period. -/
def Lib.Period.days (p : DatePeriod) : Int := p.end_.dayNumber - p.begin_.dayNumber

theorem Contiguous.sum_days (rest : List ReservationAtom) : ∀ a, Contiguous (a :: rest) →
    ∀ last ∈ (a :: rest).getLast?, ((a :: rest).map (·.dateRange.days)).sum =
      last.dateRange.end_.dayNumber - a.dateRange.begin_.dayNumber := by
  induction rest with
  | nil =>
    intro a _ last hlast
    cases hlast
    simp [Period.days]
  | cons b rest ih =>
    intro a h last hlast
    rw [List.getLast?_cons_cons] at hlast
    have hrest := ih b h.tail last hlast
    have hab : a.dateRange.end_ = b.dateRange.begin_ := (List.isChain_cons_cons.1 h.touching).1
    calc ((a :: b :: rest).map (·.dateRange.days)).sum
        = a.dateRange.days + ((b :: rest).map (·.dateRange.days)).sum := by
          rw [List.map_cons, List.sum_cons]
      _ = (a.dateRange.end_.dayNumber - a.dateRange.begin_.dayNumber) +
            (last.dateRange.end_.dayNumber - b.dateRange.begin_.dayNumber) := by
          rw [hrest, Period.days]
      _ = last.dateRange.end_.dayNumber - a.dateRange.begin_.dayNumber := by
          rw [hab]
          omega

theorem Contiguous.dropLast {atoms : List ReservationAtom} (h : Contiguous atoms) :
    Contiguous atoms.dropLast :=
  ⟨fun a ha => h.nonempty a (List.mem_of_mem_dropLast ha), h.touching.dropLast⟩

/-- A call on a reservation: what it throws, and what it has done to the object. -/
abbrev ReservationCall := ExceptT Fault (StateM Reservation) Unit

namespace ReservationCall
open Reservation

def pushBack (atom : ReservationAtom) : ReservationCall :=
  modify fun r => { r with atoms := r.atoms ++ [atom] }

def addAtom (room : Int) (dateRange : DatePeriod) : ReservationCall := do
  if dateRange.isNull then
    throw (.logicError "Cannot add atom because its date range is invalid")
  let r ← get
  match r.lastAtom with
  | none => pushBack { roomId := room, dateRange }
  | some last =>
    if last.dateRange.end_ = dateRange.begin_ then
      pushBack { roomId := room, dateRange }
    else
      throw (.logicError
        "Cannot add atom because the date range is not contiguous to the previous atom")

/-- `addAtom(const ReservationAtom&)` -/
def addAtomOf (atom : ReservationAtom) : ReservationCall := addAtom atom.roomId atom.dateRange

def addContinuation (room : Int) (date : Date) : ReservationCall := do
  let r ← get
  match r.lastAtom with
  | none =>
    throw (.logicError "Cannot add continuation, because reservation has no atom yet")
  | some last =>
    if last.dateRange.end_ ≥ date then
      throw (.logicError
        "Cannot create reservation continuation... The given date preceeds the end date of the last atom")
    pushBack { roomId := room, dateRange := ⟨last.dateRange.end_, date⟩ }

def joinAdjacentAtoms : ReservationCall := modify Reservation.joinAdjacentAtoms

def removeLastAtom : ReservationCall := modify Reservation.removeLastAtom

def removeAllAtoms : ReservationCall := modify fun r => { r with atoms := [] }

/-- A call of one of the functions that change the atoms. -/
inductive Mutator : ReservationCall → Prop where
  | addAtom (room : Int) (dateRange : DatePeriod) : Mutator (addAtom room dateRange)
  | addAtomOf (atom : ReservationAtom) : Mutator (addAtomOf atom)
  | addContinuation (room : Int) (date : Date) : Mutator (addContinuation room date)
  | joinAdjacentAtoms : Mutator joinAdjacentAtoms
  | removeLastAtom : Mutator removeLastAtom
  | removeAllAtoms : Mutator removeAllAtoms

/-- What the call throws, and the reservation after it. -/
def on (call : ReservationCall) (r : Reservation) : Except Fault Unit × Reservation := call.run.run r

/-- The outcome of a call that has this result, and changes nothing if it throws. -/
def outcome (r : Reservation) : Except Fault Reservation → Except Fault Unit × Reservation
  | .ok r' => (.ok (), r')
  | .error e => (.error e, r)

theorem on_get (next : Reservation → ReservationCall) (r : Reservation) :
    on (get >>= next) r = on (next r) r := rfl

theorem on_addAtom (room : Int) (dateRange : DatePeriod) (r : Reservation) :
    on (addAtom room dateRange) r = outcome r (r.addAtom room dateRange) := by
  unfold addAtom Reservation.addAtom
  cases dateRange.isNull with
  | true => rfl
  | false =>
    show on (get >>= _) r = _
    rw [on_get, if_neg Bool.false_ne_true]
    cases r.lastAtom with
    | none => rfl
    | some last =>
      dsimp only
      split
      · rfl
      · rfl

theorem on_addContinuation (room : Int) (date : Date) (r : Reservation) :
    on (addContinuation room date) r = outcome r (r.addContinuation room date) := by
  unfold addContinuation Reservation.addContinuation
  rw [on_get]
  cases r.lastAtom with
  | none => rfl
  | some last =>
    dsimp only
    by_cases hdate : date ≤ last.dateRange.end_
    · rw [if_pos hdate, if_pos hdate]
      rfl
    · rw [if_neg hdate, if_neg hdate]
      rfl

/-- What a call may do to a reservation with contiguous atoms: they stay contiguous, and
    a call that throws changes nothing. -/
structure Sound (r : Reservation) (result : Except Fault Unit × Reservation) : Prop where
  contiguous : Contiguous result.2.atoms
  unchanged : ∀ e, result.1 = .error e → result.2 = r

theorem sound_outcome {r : Reservation} (h : Contiguous r.atoms) {result : Except Fault Reservation}
    (hok : ∀ r', result = .ok r' → Contiguous r'.atoms) : Sound r (outcome r result) := by
  cases result with
  | ok r' => exact ⟨hok r' rfl, fun e he => by cases he⟩
  | error e => exact ⟨h, fun _ _ => rfl⟩

theorem contiguous_addAtom {r r' : Reservation} (h : Contiguous r.atoms) {room : Int}
    {dateRange : DatePeriod} (hok : r.addAtom room dateRange = .ok r') : Contiguous r'.atoms := by
  obtain ⟨hnull, htouch, rfl⟩ := addAtomOf_ok (a := { roomId := room, dateRange }) hok
  exact h.push hnull htouch

theorem contiguous_addContinuation {r r' : Reservation} (h : Contiguous r.atoms) {room : Int}
    {date : Date} (hok : r.addContinuation room date = .ok r') : Contiguous r'.atoms := by
  unfold Reservation.addContinuation at hok
  cases hlast : r.lastAtom with
  | none =>
    rw [hlast] at hok
    cases hok
  | some last =>
    rw [hlast] at hok
    dsimp only at hok
    by_cases hdate : date ≤ last.dateRange.end_
    · rw [if_pos hdate] at hok
      cases hok
    · rw [if_neg hdate] at hok
      cases hok
      apply h.push
      · exact Period.isNull_eq_false.2 (not_le.1 hdate)
      · intro last' hlast'
        cases hlast.symm.trans hlast'
        rfl

theorem sound_call {call : ReservationCall} (hcall : Mutator call) {r : Reservation}
    (h : Contiguous r.atoms) : Sound r (on call r) := by
  cases hcall with
  | addAtom room dateRange =>
    rw [on_addAtom]
    exact sound_outcome h fun _ => contiguous_addAtom h
  | addAtomOf atom =>
    rw [addAtomOf, on_addAtom]
    exact sound_outcome h fun _ => contiguous_addAtom h
  | addContinuation room date =>
    rw [on_addContinuation]
    exact sound_outcome h fun _ => contiguous_addContinuation h
  | joinAdjacentAtoms =>
    exact ⟨(contiguous_joinAdjacentAtoms h).1, fun e he => by cases he⟩
  | removeLastAtom => exact ⟨h.dropLast, fun e he => by cases he⟩
  | removeAllAtoms => exact ⟨Contiguous.nil, fun e he => by cases he⟩

end ReservationCall

namespace Reservation

/-- A reservation as it is constructed, without atoms or with one room. -/
inductive Constructed : Reservation → Prop where
  | empty (description : String) : Constructed { description }
  | ofRoom (description : String) (roomId : Int) (dateRange : DatePeriod)
      (nonempty : dateRange.isNull = false) : Constructed (ofRoom description roomId dateRange)

/-- A call of a function that changes the atoms, whether it returns or throws. -/
def Mutated (r r' : Reservation) : Prop :=
  ∃ call, ReservationCall.Mutator call ∧ r' = (ReservationCall.on call r).2

theorem contiguous_constructed {r : Reservation} (h : Constructed r) : Contiguous r.atoms := by
  cases h with
  | empty description => exact Contiguous.nil
  | ofRoom description roomId dateRange nonempty =>
    exact ⟨List.forall_mem_singleton.2 nonempty, List.isChain_singleton _⟩

theorem contiguous_reached {r : Reservation} (h : Reachable Constructed Mutated r) :
    Contiguous r.atoms := by
  refine h.invariant (fun _ => contiguous_constructed) fun r r' hr hstep => ?_
  obtain ⟨call, hcall, rfl⟩ := hstep
  exact (ReservationCall.sound_call hcall hr).contiguous

theorem length_of_contiguous {r : Reservation} (h : Contiguous r.atoms) :
    r.length = (r.atoms.map (·.dateRange.days)).sum ∧
      (r.atoms ≠ [] → ∃ range, r.dateRange = some range ∧ r.length = range.days) := by
  cases hatoms : r.atoms with
  | nil => simp [length, firstAtom, hatoms]
  | cons a rest =>
    have hvalid : r.isValid = true := isValid_iff.2 ⟨by simp [hatoms], h⟩
    rw [hatoms] at h
    cases hlast : (a :: rest).getLast? with
    | none => simp at hlast
    | some last =>
      have hlength : r.length = last.dateRange.end_.dayNumber - a.dateRange.begin_.dayNumber := by
        simp [length, firstAtom, lastAtom, hatoms, hlast]
      have hrange : r.dateRange = some ⟨a.dateRange.begin_, last.dateRange.end_⟩ := by
        simp [dateRange, hvalid, lastAtom, hatoms, hlast]
      refine ⟨?_, fun _ => ⟨_, hrange, hlength⟩⟩
      rw [hlength, Contiguous.sum_days rest a h last hlast]

/-- Whatever is called on a reservation that was constructed without atoms or with one
    room: it has no atoms or is valid, a call that throws leaves it unchanged, and its
    length is that of its atoms together, and of its date range. -/
theorem stays_contiguous {r : Reservation} (h : Reachable Constructed Mutated r) :
    (r.atoms = [] ∨ r.isValid = true) ∧
    (∀ call e, ReservationCall.Mutator call → (call.on r).1 = .error e → (call.on r).2 = r) ∧
    r.length = (r.atoms.map (·.dateRange.days)).sum ∧
    (r.atoms ≠ [] → ∃ range, r.dateRange = some range ∧ r.length = range.days) := by
  have hcontiguous := contiguous_reached h
  obtain ⟨hlength, hrange⟩ := length_of_contiguous hcontiguous
  refine ⟨?_, fun call e hcall => (ReservationCall.sound_call hcall hcontiguous).unchanged e,
    hlength, hrange⟩
  by_cases hempty : r.atoms = []
  · exact Or.inl hempty
  · exact Or.inr (isValid_iff.2 ⟨hempty, hcontiguous⟩)

/-- A night in room 1, which is continued in room 2. -/
theorem stays_contiguous_oneNight :
    (ReservationCall.on (.addContinuation 2 ⟨2458852, by decide, by decide⟩) oneNight).2.length = 2 ∧
      oneNight.length = (oneNight.atoms.map (·.dateRange.days)).sum :=
  have h : Reachable Constructed Mutated oneNight :=
    .init (.ofRoom "one night" 1 _ rfl)
  ⟨rfl, (stays_contiguous h).2.2.1⟩

end Reservation

end HotelPms

import HotelPms.Lib.Run
import HotelPms.Hotel.Planning

/- Histories of planning boards.

   A world is any number of boards that start empty. A step is one call on one
   of them: an addition (which may throw), a removal by pointer or by id, `clear`,
   and copy or move assignment from another board. New reservations come at
   addresses nothing live occupies, and a removal may name any live reservation,
   whether it is on the board, on another board or on none.

   `world_sound` is the invariant of all histories: every board is consistent and
   no reservation is owned by two boards. `board_invariant` puts it in terms of
   rows and reservations. -/
namespace HotelPms
open Lib

namespace PlanningBoard

def addrs (b : PlanningBoard) : List Addr := b.reservations.map (·.addr)

end PlanningBoard

abbrev Boards := Nat → PlanningBoard

namespace Boards

/-- No reservation on any of the boards is at `addr`. -/
def Fresh (w : Boards) (addr : Addr) : Prop := ∀ i, addr ∉ (w i).addrs

/-- `o` is a live reservation: one on some board, or one that no board owns. -/
def Live (w : Boards) (o : ReservationObj) : Prop :=
  (∃ i, o ∈ (w i).reservations) ∨ w.Fresh o.addr

/-- One call on one board. -/
inductive Step : Boards → Boards → Prop where
  | addReservation (w : Boards) (i : Nat) (o : ReservationObj) (fresh : w.Fresh o.addr) :
    Step w (Function.update w i ((w i).addReservation (some o)).2)
  | addNullptr (w : Boards) (i : Nat) :
    Step w (Function.update w i ((w i).addReservation none).2)
  | removeReservation (w : Boards) (i : Nat) (o : ReservationObj) (live : w.Live o) :
    Step w (Function.update w i ((w i).removeReservation (some o)).2)
  | removeNullptr (w : Boards) (i : Nat) :
    Step w (Function.update w i ((w i).removeReservation none).2)
  | removeReservationById (w : Boards) (i : Nat) (id : Int) :
    Step w (Function.update w i ((w i).removeReservationById id))
  | clear (w : Boards) (i : Nat) :
    Step w (Function.update w i (w i).clear)
  | copyAssign (w : Boards) (i j : Nat) (addrs : List Addr) (other : i ≠ j)
      (length : addrs.length = (w j).reservations.length) (nodup : addrs.Nodup)
      (fresh : ∀ k, k ≠ i → ∀ a ∈ addrs, a ∉ (w k).addrs) :
    Step w (Function.update w i ((w i).copyAssign (w j) addrs).2)
  | moveAssign (w : Boards) (i j : Nat) (other : i ≠ j) :
    Step w (Function.update (Function.update w i ((w i).moveAssign (w j)).1) j
      ((w i).moveAssign (w j)).2)
  -- assigning a board to itself fails an assertion; with `NDEBUG` a copy returns
  -- at once, and a move has cleared the board before it moves from it
  | copyAssignSelf (w : Boards) : Step w w
  | moveAssignSelf (w : Boards) (i : Nat) : Step w (Function.update w i (w i).clear)

/-- The boards reachable from empty ones. -/
def Reached (w : Boards) : Prop := Reachable (fun w => w = fun _ => {}) Step w

/-- Every board is consistent, and no reservation is on two of them. -/
structure Sound (w : Boards) : Prop where
  consistent : ∀ i, (w i).Consistent
  apart : ∀ i j, i ≠ j → ∀ a ∈ (w i).addrs, a ∉ (w j).addrs

end Boards

namespace PlanningBoard

theorem Consistent.eq_of_addr {b : PlanningBoard} (h : b.Consistent) {o o' : ReservationObj}
    (ho : o ∈ b.reservations) (ho' : o' ∈ b.reservations) (he : o'.addr = o.addr) : o' = o :=
  List.inj_on_of_nodup_map h.addrs ho' ho he

theorem Consistent.eraseP_addr {b : PlanningBoard} (h : b.Consistent) (addr : Addr) :
    b.reservations.eraseP (fun x => x.addr == addr) =
      b.reservations.filter fun x => x.addr != addr := by
  refine eraseP_eq_filter ?_
  refine (List.pairwise_map.1 h.addrs).imp ?_
  intro o o' hne ho
  rw [beq_iff_eq] at ho
  rw [beq_eq_false_iff_ne]
  exact fun ho' => hne (ho.trans ho'.symm)

theorem removeReservation_eq {b : PlanningBoard} (h : b.Consistent) (o : ReservationObj) :
    b.removeReservation (some o) = (.ok (), { o.atomPtrs.foldl removeAtom b with
      reservations := b.reservations.filter fun x => x.addr != o.addr }) := by
  simp only [removeReservation, foldl_removeAtom_reservations, h.eraseP_addr]

theorem removeReservationById_eq {b : PlanningBoard} (h : b.Consistent) {id : Int}
    {o : ReservationObj} (ho : b.reservations.find? (fun x => x.value.id == id) = some o) :
    b.removeReservationById id = (b.removeReservation (some o)).2 := by
  have herase : b.reservations.eraseP (fun x => x.value.id == id) =
      b.reservations.eraseP fun x => x.addr == o.addr := by
    have hn := List.pairwise_map.1 h.addrs
    revert ho hn
    induction b.reservations with
    | nil => simp
    | cons o' os ih =>
      intro ho hn
      rw [List.find?_cons] at ho
      cases hid : o'.value.id == id
      · rw [hid] at ho
        have hmem : o ∈ os := List.mem_of_find?_eq_some ho
        have hne : (o'.addr == o.addr) = false := by
          rw [beq_eq_false_iff_ne]
          exact (List.pairwise_cons.1 hn).1 o hmem
        rw [List.eraseP_cons_of_neg (by simp [hid]), List.eraseP_cons_of_neg (by simp [hne]),
          ih ho (List.pairwise_cons.1 hn).2]
      · rw [hid] at ho
        cases ho
        rw [List.eraseP_cons_of_pos (by simp [hid]), List.eraseP_cons_of_pos (by simp)]
  simp only [removeReservationById, ho, removeReservation, foldl_removeAtom_reservations, herase]

theorem copies_values (os : List ReservationObj) (addrs : List Addr)
    (hlen : addrs.length = os.length) :
    (copies os addrs).map (·.value) = os.map (·.value) := by
  induction os generalizing addrs with
  | nil => rfl
  | cons o os ih =>
    cases addrs with
    | nil => simp at hlen
    | cons a addrs =>
      simp only [copies, List.zipWith_cons_cons, List.map_cons]
      rw [← ih addrs (by simpa using hlen)]
      rfl

theorem copies_addrs (os : List ReservationObj) (addrs : List Addr)
    (hlen : addrs.length = os.length) : (copies os addrs).map (·.addr) = addrs := by
  induction os generalizing addrs with
  | nil =>
    rw [List.length_nil] at hlen
    rw [List.eq_nil_of_length_eq_zero hlen]
    rfl
  | cons o os ih =>
    cases addrs with
    | nil => simp at hlen
    | cons a addrs =>
      simp only [copies, List.zipWith_cons_cons, List.map_cons]
      rw [← copies, ih addrs (by simpa using hlen)]

theorem copyAssign_ok (b : PlanningBoard) {that : PlanningBoard} (hthat : that.Consistent)
    {addrs : List Addr} (hlen : addrs.length = that.reservations.length) (hnodup : addrs.Nodup) :
    (b.copyAssign that addrs).1 = .ok () ∧ (b.copyAssign that addrs).2.Consistent ∧
      (b.copyAssign that addrs).2.reservations = copies that.reservations addrs := by
  have hvalues := copies_values that.reservations addrs hlen
  have haddrs := copies_addrs that.reservations addrs hlen
  have hvalid : ∀ r ∈ (copies that.reservations addrs).map (·.value), r.isValid = true := by
    rw [hvalues]
    intro r hr
    obtain ⟨o, ho, rfl⟩ := List.mem_map.1 hr
    exact hthat.valid o ho
  have hapart : ((copies that.reservations addrs).map (·.value)).Pairwise
      fun r s => r.intersectsWith s = false := by
    rw [hvalues, List.pairwise_map]
    exact hthat.conflictFree
  exact addReservations_ok (copies that.reservations addrs) b.clear consistent_empty
    (fun o ho => hvalid _ (List.mem_map_of_mem ho)) (List.pairwise_map.1 hapart)
    (by simp [clear]) (by simpa [clear, haddrs] using hnodup)

end PlanningBoard

/-! ## The invariant of all histories -/

namespace Boards

theorem sound_init : Sound fun _ => {} where
  consistent _ := PlanningBoard.consistent_empty
  apart _ _ _ := by simp [PlanningBoard.addrs]

/-- Changing one board keeps a world sound if the changed board is consistent
    and owns nothing that another board owns. -/
theorem Sound.update {w : Boards} (h : w.Sound) {i : Nat} {b : PlanningBoard} (hb : b.Consistent)
    (hown : ∀ k, k ≠ i → ∀ a ∈ b.addrs, a ∉ (w k).addrs) : Sound (Function.update w i b) := by
  refine ⟨fun k => ?_, fun k l hkl a ha => ?_⟩
  · by_cases hk : k = i
    · subst hk
      rw [Function.update_self]
      exact hb
    · rw [Function.update_of_ne hk]
      exact h.consistent k
  · by_cases hk : k = i
    · subst hk
      rw [Function.update_self] at ha
      rw [Function.update_of_ne hkl.symm]
      exact hown l hkl.symm a ha
    · rw [Function.update_of_ne hk] at ha
      by_cases hl : l = i
      · subst hl
        rw [Function.update_self]
        exact fun ha' => hown k hk a ha' ha
      · rw [Function.update_of_ne hl]
        exact h.apart k l hkl a ha

theorem Sound.update_subset {w : Boards} (h : w.Sound) {i : Nat} {b : PlanningBoard}
    (hb : b.Consistent) (hsub : ∀ a ∈ b.addrs, a ∈ (w i).addrs) :
    Sound (Function.update w i b) :=
  h.update hb fun k hk a ha => h.apart i k hk.symm a (hsub a ha)

theorem Sound.eq_of_live {w : Boards} (h : w.Sound) {i : Nat} {o : ReservationObj}
    (hlive : w.Live o) : ∀ o' ∈ (w i).reservations, o'.addr = o.addr → o' = o := by
  intro o' ho' he
  rcases hlive with ⟨j, hj⟩ | hfresh
  · by_cases hij : i = j
    · subst hij
      exact (h.consistent i).eq_of_addr hj ho' he
    · exact absurd (List.mem_map_of_mem hj)
        (h.apart i j hij o.addr (he ▸ List.mem_map_of_mem ho'))
  · exact absurd (he ▸ List.mem_map_of_mem ho') (hfresh i)

theorem Sound.removeReservation {w : Boards} (h : w.Sound) {i : Nat} {o : ReservationObj}
    (hlive : w.Live o) :
    Sound (Function.update w i ((w i).removeReservation (some o)).2) := by
  rw [PlanningBoard.removeReservation_eq (h.consistent i)]
  refine h.update_subset ((h.consistent i).remove (h.eq_of_live hlive)) ?_
  exact fun a ha => (List.filter_sublist.map _).subset ha

theorem sound_step {w w' : Boards} (h : w.Sound) (hs : Step w w') : w'.Sound := by
  cases hs with
  | addReservation i o fresh =>
    refine h.update ((h.consistent i).add (fresh i)) fun k hk a ha => ?_
    cases hc : (w i).canAddReservation o.value with
    | false =>
      rw [PlanningBoard.addReservation_refused hc] at ha
      exact h.apart i k hk.symm a ha
    | true =>
      rw [PlanningBoard.addReservation_accepted hc] at ha
      simp only [PlanningBoard.addrs, List.map_append, List.mem_append, List.map_cons,
        List.map_nil, List.mem_singleton] at ha
      rcases ha with ha | rfl
      · exact h.apart i k hk.symm a ha
      · exact fresh k
  | addNullptr i => exact h.update_subset (h.consistent i) fun _ ha => ha
  | removeReservation i o live => exact h.removeReservation live
  | removeNullptr i => exact h.update_subset (h.consistent i) fun _ ha => ha
  | removeReservationById i id =>
    cases hf : (w i).reservations.find? fun x => x.value.id == id with
    | none =>
      simp only [PlanningBoard.removeReservationById, hf]
      exact h.update_subset (h.consistent i) fun _ ha => ha
    | some o =>
      rw [PlanningBoard.removeReservationById_eq (h.consistent i) hf]
      exact h.removeReservation (Or.inl ⟨i, List.mem_of_find?_eq_some hf⟩)
  | clear i =>
    exact h.update_subset PlanningBoard.consistent_empty (by simp [PlanningBoard.clear, PlanningBoard.addrs])
  | copyAssign i j addrs other length nodup fresh =>
    obtain ⟨_, hc, hr⟩ := PlanningBoard.copyAssign_ok (w i) (h.consistent j) length nodup
    refine h.update hc fun k hk a ha => ?_
    rw [PlanningBoard.addrs, hr, PlanningBoard.copies_addrs _ _ length] at ha
    exact fresh k hk a ha
  | moveAssign i j other =>
    -- first the board moved from is left empty, then nobody else owns its reservations
    have hj : Sound (Function.update w j (w j).clear) :=
      h.update_subset PlanningBoard.consistent_empty (by simp [PlanningBoard.clear, PlanningBoard.addrs])
    have hi := hj.update (i := i) (b := w j) (h.consistent j) fun k hk a ha => by
      by_cases hkj : k = j
      · subst hkj
        rw [Function.update_self]
        simp [PlanningBoard.clear, PlanningBoard.addrs]
      · rw [Function.update_of_ne hkj]
        exact h.apart j k (fun he => hkj he.symm) a ha
    rw [Function.update_comm other]
    exact hi
  | copyAssignSelf => exact h
  | moveAssignSelf i =>
    exact h.update_subset PlanningBoard.consistent_empty (by simp [PlanningBoard.clear, PlanningBoard.addrs])

theorem world_sound {w : Boards} (h : w.Reached) : w.Sound := by
  refine Reachable.invariant (I := Sound) ?_ (fun _ _ => sound_step) h
  rintro _ rfl
  exact sound_init

/-- In every history the rows of every board are sorted strictly by begin, hold
    no null period and no overlap; they hold exactly the atoms of the board's
    reservations, each under one pointer and in the row of its room; an addition
    that throws changes nothing; and copying the board to any other never throws
    and gives the same reservations in the same order and the same rows (the copy
    has no entry for a room whose row was left empty). -/
theorem board_invariant {w : Boards} (h : w.Reached) (i : Nat) :
    (∀ roomId, (∀ p ∈ (w i).row roomId, p.period.begin_ < p.period.end_) ∧
      ((w i).row roomId).Pairwise (fun p q => p.period.begin_ < q.period.begin_) ∧
      ((w i).row roomId).Pairwise fun p q => p.period.intersects q.period = false) ∧
    (∀ roomId, ((w i).row roomId).Perm
      ((w i).atomPtrs.filter fun p => p.atom.roomId == roomId)) ∧
    ((w i).atomPtrs.Pairwise fun p q => p.same q = false) ∧
    (∀ o e, ((w i).addReservation o).1 = .error e → ((w i).addReservation o).2 = w i) ∧
    (∀ j addrs, addrs.length = (w i).reservations.length → addrs.Nodup →
      ((w j).copyAssign (w i) addrs).1 = .ok () ∧
      ((w j).copyAssign (w i) addrs).2.reservations.map (·.value) =
        (w i).reservations.map (·.value) ∧
      ∀ roomId, (((w j).copyAssign (w i) addrs).2.row roomId).map AtomPtr.atom =
          ((w i).row roomId).map AtomPtr.atom ∧
        (roomId ∈ ((w j).copyAssign (w i) addrs).2.rooms ↔ (w i).row roomId ≠ [])) := by
  have hi := (world_sound h).consistent i
  refine ⟨fun k => ?_, hi.mirrors, hi.atomPtrs_distinct,
    fun _ _ => PlanningBoard.addReservation_error, fun j addrs hlen hnodup => ?_⟩
  · have hk := hi.kept k
    exact ⟨fun p hp => Period.isNull_eq_false.1 (hk.nonempty p hp), hk.sorted, hk.disjoint⟩
  · obtain ⟨hok, hc, hr⟩ := PlanningBoard.copyAssign_ok (w j) hi hlen hnodup
    have hvalues : ((w j).copyAssign (w i) addrs).2.reservations.map (·.value) =
        (w i).reservations.map (·.value) := by
      rw [hr, PlanningBoard.copies_values _ _ hlen]
    refine ⟨hok, hvalues, fun k => ?_⟩
    have hrow := hi.rows_eq hc hvalues k
    have htight : ((w j).copyAssign (w i) addrs).2.Tight :=
      PlanningBoard.tight_addReservations _ fun k hk => by simp [PlanningBoard.clear] at hk
    refine ⟨hrow, (htight.mem_rooms_iff k).trans (not_congr ?_)⟩
    rw [← List.map_eq_nil_iff (f := AtomPtr.atom), hrow, List.map_eq_nil_iff]

/-- Board 0 with one reservation. -/
def oneReservation : Boards :=
  Function.update (fun _ => {}) 0 (({} : PlanningBoard).addReservation (some ⟨7, .twoRooms⟩)).2

theorem board_invariant_oneReservation :
    ((oneReservation 0).row 2).Perm
      ((oneReservation 0).atomPtrs.filter fun p => p.atom.roomId == 2) ∧
    ((oneReservation 1).copyAssign (oneReservation 0) [8]).1 = .ok () := by
  have hreached : oneReservation.Reached :=
    .step (.init rfl) (.addReservation _ 0 ⟨7, .twoRooms⟩ fun _ => by simp [PlanningBoard.addrs])
  obtain ⟨_, hmirrors, _, _, hcopy⟩ := board_invariant hreached 0
  exact ⟨hmirrors 2, (hcopy 1 [8] (by decide) (by decide)).1⟩

end Boards

end HotelPms

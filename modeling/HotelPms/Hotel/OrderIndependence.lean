import HotelPms.Hotel.Availability
import HotelPms.Hotel.Extent

/- What a board answers depends only on which reservations are on it.

   Two consistent boards with the same reservations, in any order, have the same rows
   and give the same answers (`Consistent.answers`). So two reservations that can be
   added one after the other can be added the other way round, with the same rows
   (`Consistent.swap`), and adding a reservation and removing it again leaves every answer
   as it was (`Consistent.removed`), although the board may keep an empty row. -/
namespace HotelPms
open Lib

namespace PlanningBoard

/-- Two boards give the same answers to every query. -/
structure SameAnswers (b c : PlanningBoard) : Prop where
  isFree : ∀ roomId period, b.isFree roomId period = c.isFree roomId period
  isFreeDays : ∀ roomId period, b.isFreeDays roomId period = c.isFreeDays roomId period
  available : ∀ roomId date, b.getAvailableDaysFrom roomId date = c.getAvailableDaysFrom roomId date
  extent : ∀ build today, b.getPlanningExtent build today = c.getPlanningExtent build today

/-- The rows and the answers of a consistent board are fixed by which reservations it has. -/
theorem Consistent.answers {b c : PlanningBoard} (hb : b.Consistent) (hc : c.Consistent)
    (h : b.reservations.Perm c.reservations) : (∀ roomId, b.row roomId = c.row roomId) ∧
      SameAnswers b c := by
  have hptrs : b.atomPtrs.Perm c.atomPtrs := h.flatMap_right _
  have hrow : ∀ roomId, b.row roomId = c.row roomId := by
    intro roomId
    refine (hb.kept roomId).eq_of_perm _ (hc.kept roomId) ?_
    exact ((hb.mirrors roomId).trans (hptrs.filter _)).trans (hc.mirrors roomId).symm
  refine ⟨hrow, ?_, ?_, ?_, ?_⟩
  · intro roomId period
    rw [Bool.eq_iff_iff, isFree_iff, isFree_iff, hrow]
  · intro roomId period
    rw [Bool.eq_iff_iff, isFreeDays_iff, isFreeDays_iff, hrow]
  · intro roomId date
    rw [getAvailableDaysFrom_eq hb, getAvailableDaysFrom_eq hc, hrow]
  · intro build today
    have hbounds : b.extentBounds = c.extentBounds := by
      apply Prod.ext
      · refine eq_of_forall_le_iff fun d => ?_
        rw [(hb.extentBounds_spec d).1, (hc.extentBounds_spec d).1]
        exact forall_congr' fun p => by rw [hptrs.mem_iff]
      · refine eq_of_forall_ge_iff fun d => ?_
        rw [(hb.extentBounds_spec d).2, (hc.extentBounds_spec d).2]
        exact forall_congr' fun p => by rw [hptrs.mem_iff]
    have hempty : b.reservations.isEmpty = c.reservations.isEmpty := by
      rw [Bool.eq_iff_iff, List.isEmpty_iff, List.isEmpty_iff, ← List.length_eq_zero_iff,
        ← List.length_eq_zero_iff, h.length_eq]
    unfold getPlanningExtent
    rw [hbounds, hempty]

theorem mem_rooms_foldl_insertAtom (ps : List AtomPtr) (roomId : Int) : ∀ b : PlanningBoard,
    roomId ∈ (ps.foldl insertAtom b).rooms ↔ roomId ∈ b.rooms ∨ ∃ p ∈ ps, p.atom.roomId = roomId := by
  induction ps with
  | nil => simp
  | cons p ps ih =>
    intro b
    have hone : roomId ∈ (b.insertAtom p).rooms ↔ roomId ∈ b.rooms ∨ p.atom.roomId = roomId := by
      simp only [insertAtom, changeRow, Std.TreeMap.mem_alter, Std.LawfulEqCmp.compare_eq_iff_eq]
      by_cases hroom : p.atom.roomId = roomId
      · simp [hroom]
      · simp [hroom]
    rw [List.foldl_cons, ih, hone, or_assoc, List.exists_mem_cons_iff]

theorem getElem?_rooms_eq {b c : PlanningBoard} {roomId : Int} (hrow : b.row roomId = c.row roomId)
    (hmem : roomId ∈ b.rooms ↔ roomId ∈ c.rooms) : b.rooms[roomId]? = c.rooms[roomId]? := by
  rw [Std.TreeMap.mem_iff_isSome_getElem?, Std.TreeMap.mem_iff_isSome_getElem?] at hmem
  rw [row, row, Std.TreeMap.getD_eq_getD_getElem?, Std.TreeMap.getD_eq_getD_getElem?] at hrow
  cases hb : b.rooms[roomId]? with
  | none =>
    cases hc : c.rooms[roomId]? with
    | none => rfl
    | some _ => simp [hb, hc] at hmem
  | some x =>
    cases hc : c.rooms[roomId]? with
    | none => simp [hb, hc] at hmem
    | some y => simpa [hb, hc] using hrow

theorem Consistent.added {b c : PlanningBoard} (h : b.Consistent) {o : ReservationObj} {addr : Addr}
    (hfresh : o.addr ∉ b.addrs) (hadd : b.addReservation (some o) = (.ok addr, c)) :
    b.canAddReservation o.value = true ∧ c.Consistent ∧ c.reservations = b.reservations ++ [o] ∧
      ∀ roomId, roomId ∈ c.rooms ↔ roomId ∈ b.rooms ∨ ∃ p ∈ o.atomPtrs, p.atom.roomId = roomId := by
  cases hcan : b.canAddReservation o.value with
  | false =>
    rw [addReservation_refused hcan] at hadd
    cases congrArg Prod.fst hadd
  | true =>
    have hconsistent := h.add hfresh
    rw [hadd] at hconsistent
    rw [addReservation_accepted hcan] at hadd
    cases congrArg Prod.snd hadd
    exact ⟨rfl, hconsistent, rfl, fun roomId => mem_rooms_foldl_insertAtom o.atomPtrs roomId b⟩

theorem addReservation_ok {b : PlanningBoard} {o : ReservationObj}
    (hcan : b.canAddReservation o.value = true) :
    ∃ c, b.addReservation (some o) = (.ok o.addr, c) :=
  ⟨_, addReservation_accepted hcan⟩

theorem Consistent.swap {b b₁ b₁₂ : PlanningBoard} (h : b.Consistent) {o₁ o₂ : ReservationObj}
    (fresh₁ : o₁.addr ∉ b.addrs) (fresh₂ : o₂.addr ∉ b.addrs) (distinct : o₁.addr ≠ o₂.addr)
    (first : b.addReservation (some o₁) = (.ok o₁.addr, b₁))
    (second : b₁.addReservation (some o₂) = (.ok o₂.addr, b₁₂)) :
    ∃ b₂ b₂₁, b.addReservation (some o₂) = (.ok o₂.addr, b₂) ∧
      b₂.addReservation (some o₁) = (.ok o₁.addr, b₂₁) ∧
      (∀ roomId : Int, b₁₂.rooms[roomId]? = b₂₁.rooms[roomId]?) ∧ SameAnswers b₁₂ b₂₁ := by
  have hnot : ∀ {c : PlanningBoard} {o o' : ReservationObj}, c.reservations = b.reservations ++ [o] →
      o.addr ≠ o'.addr → o'.addr ∉ b.addrs → o'.addr ∉ c.addrs := by
    intro c o o' hc hne hfresh
    rw [PlanningBoard.addrs, hc, List.map_append, List.mem_append, not_or]
    exact ⟨hfresh, by simpa using hne.symm⟩
  obtain ⟨hcan₁, hb₁, hres₁, hrooms₁⟩ := h.added fresh₁ first
  obtain ⟨hcan₂, hb₁₂, hres₁₂, hrooms₁₂⟩ := hb₁.added (hnot hres₁ distinct fresh₂) second
  -- the second reservation meets nothing on the board, and not the first one either
  obtain ⟨hvalid₁, hmeets₁⟩ := (h.canAddReservation_eq o₁.value).1 hcan₁
  obtain ⟨hvalid₂, hmeets₂⟩ := (hb₁.canAddReservation_eq o₂.value).1 hcan₂
  rw [hres₁] at hmeets₂
  obtain ⟨b₂, hadd₂⟩ := addReservation_ok ((h.canAddReservation_eq o₂.value).2
    ⟨hvalid₂, fun o ho => hmeets₂ o (List.mem_append_left _ ho)⟩)
  obtain ⟨-, hb₂, hres₂, hrooms₂⟩ := h.added fresh₂ hadd₂
  have hcan : b₂.canAddReservation o₁.value = true := by
    refine (hb₂.canAddReservation_eq o₁.value).2 ⟨hvalid₁, fun o ho => ?_⟩
    rw [hres₂, List.mem_append] at ho
    rcases ho with ho | ho
    · exact hmeets₁ o ho
    · rw [List.mem_singleton.1 ho, intersectsWith_comm]
      exact hmeets₂ o₁ (List.mem_append_right _ List.mem_cons_self)
  obtain ⟨b₂₁, hadd₂₁⟩ := addReservation_ok hcan
  obtain ⟨-, hb₂₁, hres₂₁, hrooms₂₁⟩ := hb₂.added (hnot hres₂ distinct.symm fresh₁) hadd₂₁
  have hperm : b₁₂.reservations.Perm b₂₁.reservations := by
    rw [hres₁₂, hres₁, hres₂₁, hres₂, List.append_assoc, List.append_assoc]
    exact (List.Perm.swap o₂ o₁ []).append_left _
  obtain ⟨hrow, hanswers⟩ := hb₁₂.answers hb₂₁ hperm
  refine ⟨b₂, b₂₁, hadd₂, hadd₂₁, fun roomId => getElem?_rooms_eq (hrow roomId) ?_, hanswers⟩
  rw [hrooms₁₂, hrooms₁, hrooms₂₁, hrooms₂, or_assoc, or_assoc]
  exact or_congr_right or_comm

/-- Removing the reservation that was added last gives back the board before, but for
    rows that are left empty. -/
theorem Consistent.removed {b c : PlanningBoard} (h : b.Consistent) {o : ReservationObj}
    (fresh : o.addr ∉ b.addrs) (hadd : b.addReservation (some o) = (.ok o.addr, c)) :
    (c.removeReservation (some o)).1 = .ok () ∧
      (c.removeReservation (some o)).2.reservations = b.reservations ∧
      SameAnswers (c.removeReservation (some o)).2 b := by
  obtain ⟨-, hc, hreservations, -⟩ := h.added fresh hadd
  have hremoved := hc.remove (o := o) fun o' ho' heq =>
    hc.eq_of_addr (by rw [hreservations]; simp) ho' heq
  rw [removeReservation_eq hc]
  have hrest : c.reservations.filter (fun x => x.addr != o.addr) = b.reservations := by
    have hself : b.reservations.filter (fun x => x.addr != o.addr) = b.reservations := by
      rw [List.filter_eq_self]
      intro o' ho'
      rw [bne_iff_ne]
      exact fun heq => fresh (heq ▸ List.mem_map_of_mem ho')
    rw [hreservations, List.filter_append, hself]
    simp
  exact ⟨rfl, hrest, (hremoved.answers h (.of_eq hrest)).2⟩

theorem Consistent.removeReservationById_added {b c : PlanningBoard} (h : b.Consistent)
    {o : ReservationObj} (fresh : o.addr ∉ b.addrs)
    (hadd : b.addReservation (some o) = (.ok o.addr, c))
    (hother : ∀ o' ∈ b.reservations, o'.value.id ≠ o.value.id) :
    c.removeReservationById o.value.id = (c.removeReservation (some o)).2 := by
  obtain ⟨-, hc, hreservations, -⟩ := h.added fresh hadd
  apply removeReservationById_eq hc
  rw [hreservations, List.find?_append]
  have hnone : b.reservations.find? (fun x => x.value.id == o.value.id) = none := by
    rw [List.find?_eq_none]
    intro o' ho'
    simpa using hother o' ho'
  rw [hnone, Option.none_or]
  simp

end PlanningBoard

namespace Boards
open PlanningBoard

/-- On a board of any history: two reservations that can be added one after the other can
    be added the other way round, and both orders give the same rows and the same answers;
    and adding a reservation and removing it again, by pointer or by an id that no other
    reservation of the board has, gives the same reservations and the same answers. -/
theorem order_and_undo {w : Boards} (h : w.Reached) (i : Nat) :
    (∀ (o₁ o₂ : ReservationObj) (b₁ b₁₂ : PlanningBoard), w.Fresh o₁.addr → w.Fresh o₂.addr →
      o₁.addr ≠ o₂.addr →
      (w i).addReservation (some o₁) = (.ok o₁.addr, b₁) →
      b₁.addReservation (some o₂) = (.ok o₂.addr, b₁₂) →
      ∃ b₂ b₂₁, (w i).addReservation (some o₂) = (.ok o₂.addr, b₂) ∧
        b₂.addReservation (some o₁) = (.ok o₁.addr, b₂₁) ∧
        (∀ roomId : Int, b₁₂.rooms[roomId]? = b₂₁.rooms[roomId]?) ∧ SameAnswers b₁₂ b₂₁) ∧
    ∀ (o : ReservationObj) (b : PlanningBoard), w.Fresh o.addr →
      (w i).addReservation (some o) = (.ok o.addr, b) →
      ((b.removeReservation (some o)).1 = .ok () ∧
        (b.removeReservation (some o)).2.reservations = (w i).reservations ∧
        SameAnswers (b.removeReservation (some o)).2 (w i)) ∧
      ((∀ o' ∈ (w i).reservations, o'.value.id ≠ o.value.id) →
        (b.removeReservationById o.value.id).reservations = (w i).reservations ∧
        SameAnswers (b.removeReservationById o.value.id) (w i)) := by
  have hi := (world_sound h).consistent i
  refine ⟨fun o₁ o₂ b₁ b₁₂ fresh₁ fresh₂ distinct first second =>
    hi.swap (fresh₁ i) (fresh₂ i) distinct first second, fun o b fresh hadd => ?_⟩
  have hremoved := hi.removed (fresh i) hadd
  refine ⟨hremoved, fun hother => ?_⟩
  rw [hi.removeReservationById_added (fresh i) hadd hother]
  exact hremoved.2

/-- The two stays are added in both orders, and the second one is removed again. -/
theorem order_and_undo_nextNight : ∃ both swapped : PlanningBoard,
    (oneReservation 0).addReservation (some ⟨8, .nextNight⟩) = (.ok 8, both) ∧
    (∃ b, ({} : PlanningBoard).addReservation (some ⟨8, .nextNight⟩) = (.ok 8, b) ∧
      b.addReservation (some ⟨7, .twoRooms⟩) = (.ok 7, swapped)) ∧
    (∀ roomId : Int, both.rooms[roomId]? = swapped.rooms[roomId]?) ∧ SameAnswers both swapped ∧
    (both.removeReservation (some ⟨8, .nextNight⟩)).2.reservations = [⟨7, .twoRooms⟩] ∧
    (both.removeReservationById 1).reservations = [⟨7, .twoRooms⟩] := by
  have hempty : Reached fun _ => {} := .init rfl
  have hone : oneReservation.Reached :=
    .step (.init rfl) (.addReservation _ 0 ⟨7, .twoRooms⟩ fun _ => by simp [PlanningBoard.addrs])
  have hreservations : (oneReservation 0).reservations = [⟨7, .twoRooms⟩] := by decide
  have hboth : (oneReservation 0).addReservation (some ⟨8, .nextNight⟩) = (.ok 8, _) :=
    addReservation_accepted (o := ⟨8, .nextNight⟩) (by decide)
  obtain ⟨b, swapped, hfirst, hsecond, hrows, hanswers⟩ := (order_and_undo hempty 0).1 ⟨7, .twoRooms⟩
    ⟨8, .nextNight⟩ (oneReservation 0) _ (fun _ => by simp [PlanningBoard.addrs])
    (fun _ => by simp [PlanningBoard.addrs]) (by decide)
    (addReservation_accepted (o := ⟨7, .twoRooms⟩) rfl) hboth
  have hfresh : oneReservation.Fresh 8 := by
    intro i
    by_cases hi : i = 0
    · subst hi
      decide
    · simp [oneReservation, hi, PlanningBoard.addrs]
  obtain ⟨⟨-, hremoved, -⟩, hbyId⟩ := (order_and_undo hone 0).2 ⟨8, .nextNight⟩ _ hfresh hboth
  have hone' : ∀ o ∈ (oneReservation 0).reservations, o.value.id ≠ Reservation.nextNight.id := by decide
  exact ⟨_, swapped, hboth, ⟨b, hfirst, hsecond⟩, hrows, hanswers, hremoved.trans hreservations,
    (hbyId hone').1.trans hreservations⟩

end Boards

end HotelPms

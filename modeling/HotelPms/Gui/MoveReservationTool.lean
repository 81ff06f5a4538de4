import HotelPms.Gui.Tool
import HotelPms.Hotel.Nights
import HotelPms.Persistence.Operations

/- `gui::planningwidget::MoveReservationTool`: an atom dragged to another room.

   The ghost is a copy of the reservation on the board. It moves onto a room only if
   the room is free, but its original room is not asked for: the reservation itself
   is there. The tool does not hear when it is gone. If it is removed, or moved by
   another client, while the ghost is in another room, and the original room is
   booked again, the ghost can still move back (`dragged_back`).

   `submits_free_iff` says of every sequence of events that this is all that can go
   wrong: a release never submits what meets another reservation exactly if no move
   onto the original room does. -/
namespace HotelPms
open Lib

/-- The reservation that is dragged, with the index of the atom under the mouse. -/
structure MoveGhost where
  temporaryReservation : Reservation
  originalStatus : ReservationStatus
  originalRoomId : Int
  atomIndex : Nat
  inRange : atomIndex < temporaryReservation.atoms.length

namespace MoveGhost

def atom (ghost : MoveGhost) : ReservationAtom :=
  ghost.temporaryReservation.atoms.get ⟨ghost.atomIndex, ghost.inRange⟩

theorem inRange_modify (ghost : MoveGhost) (change : ReservationAtom → ReservationAtom) :
    ghost.atomIndex < (ghost.temporaryReservation.atoms.modify ghost.atomIndex change).length := by
  rw [List.length_modify]
  exact ghost.inRange

/-- `atom.setRoomId(roomId)` -/
def setRoomId (ghost : MoveGhost) (roomId : Int) : MoveGhost :=
  { ghost with
    temporaryReservation := { ghost.temporaryReservation with
      atoms := ghost.temporaryReservation.atoms.modify ghost.atomIndex fun atom =>
        { atom with roomId } }
    inRange := ghost.inRange_modify fun atom => { atom with roomId } }

/-- The reservation as it is submitted: with its status, and atoms of one room joined. -/
def submitted (ghost : MoveGhost) : Reservation :=
  Reservation.joinAdjacentAtoms { ghost.temporaryReservation with status := ghost.originalStatus }

end MoveGhost

structure MoveReservationTool where
  currentGhost : Option MoveGhost := none

namespace MoveReservationTool

def unload (_ : MoveReservationTool) : MoveReservationTool := {}

def reservationAdded (tool : MoveReservationTool) (item : Reservation) : MoveReservationTool where
  currentGhost :=
    tool.currentGhost.filter fun ghost => !item.intersectsWith ghost.temporaryReservation

/-- A press on the atom at an index of a reservation. -/
def atomMousePressEvent (tool : MoveReservationTool) (reservation : Reservation) (atomIndex : Nat)
    (inRange : atomIndex < reservation.atoms.length) : MoveReservationTool :=
  match tool.currentGhost with
  | some _ => tool
  | none => { currentGhost := some {
      temporaryReservation := { reservation with status := .temporary }
      originalStatus := reservation.status
      originalRoomId := (reservation.atoms.get ⟨atomIndex, inRange⟩).roomId
      atomIndex
      inRange } }

/-- A release: the tool afterwards, and what it submits. -/
def mouseReleaseEvent (tool : MoveReservationTool) : MoveReservationTool × Operations :=
  match tool.currentGhost with
  | none => ({}, [])
  | some ghost => ({}, [.update (.reservation (some ghost.submitted))])

/-- A move of the mouse over the row of a room, if it is over one. -/
def mouseMoveEvent (tool : MoveReservationTool) (planning : PlanningBoard) (row : Option Int) :
    MoveReservationTool :=
  match tool.currentGhost, row with
  | some ghost, some id =>
    if id = ghost.originalRoomId ∨ planning.isFree id ghost.atom.dateRange = true then
      { currentGhost := some (ghost.setRoomId id) }
    else tool
  | _, _ => tool

end MoveReservationTool

/-! ## Events -/

/-- The board, the tool and what it submitted. -/
structure Dragging extends WithTool MoveReservationTool where
  queued : Operations := []

namespace Dragging

inductive Event where
  /-- a press on the atom at an index of the reservation at an address -/
  | atomMousePress (reservation : Addr) (atomIndex : Nat)
  | mouseMove (row : Option Int)
  | mouseRelease
  | load
  | unload
  | reservationAdded (reservation : Reservation)
  | reservationUpdated (reservation : Reservation)
  | reservationRemoved (reservationId : Int)

/-- The state after an event. -/
def handle (build : Build) (d : Dragging) : Event → Dragging
  | .atomMousePress reservation atomIndex =>
    if d.active then
      match d.context.planning.reservations.find? fun o => o.addr == reservation with
      | some o =>
        if inRange : atomIndex < o.value.atoms.length then
          { d with tool := d.tool.atomMousePressEvent o.value atomIndex inRange }
        else d
      | none => d
    else d
  | .mouseMove row =>
    if d.active then { d with tool := d.tool.mouseMoveEvent d.context.planning row } else d
  | .mouseRelease =>
    if d.active then
      let (tool, operations) := d.tool.mouseReleaseEvent
      { d with tool, queued := d.queued ++ operations }
    else d
  | .load => { d with active := true }
  | .unload => if d.active then { d with active := false, tool := d.tool.unload } else d
  | .reservationAdded reservation => { d with
      toWithTool := (d.addReservation build MoveReservationTool.reservationAdded reservation).2 }
  | .reservationUpdated reservation => { d with
      toWithTool := (d.updateReservation build MoveReservationTool.reservationAdded reservation).2 }
  | .reservationRemoved reservationId => { d with toWithTool := d.removeReservation reservationId }

/-- The state that events lead to, from an empty board. -/
def run (build : Build) (events : List Event) : Dragging :=
  events.foldl (handle build) { tool := {} }

/-- What a release would submit now has no room for a night for which another
    reservation on the board has it. -/
def SubmitsFree (d : Dragging) : Prop :=
  ∀ r, .update (.reservation (some r)) ∈ d.tool.mouseReleaseEvent.2 → ∀ item ∈ d.context.items,
    item.id ≠ r.id → ∀ roomId night, ¬ (r.Occupies roomId night ∧ item.Occupies roomId night)

/-- If an event moves the ghost onto its original room, no other reservation on the board
    has the room for a night of the atom. -/
def BackFree (d : Dragging) : Event → Prop
  | .mouseMove (some id) => ∀ ghost ∈ d.tool.currentGhost, id = ghost.originalRoomId →
    ∀ item ∈ d.context.items, item.id ≠ ghost.temporaryReservation.id → ∀ night,
      ¬ (ghost.atom.dateRange.contains night = true ∧ item.Occupies id night)
  | _ => True

/-! ## Ghosts -/

section
variable {build : Build} {d : Dragging} {ghost : MoveGhost} {items : List Reservation}

theorem id_submitted (ghost : MoveGhost) : ghost.submitted.id = ghost.temporaryReservation.id :=
  Reservation.id_joinAdjacentAtoms _

theorem occupies_submitted (h : Contiguous ghost.temporaryReservation.atoms) (roomId : Int)
    (night : Date) :
    ghost.submitted.Occupies roomId night ↔ ghost.temporaryReservation.Occupies roomId night :=
  Reservation.occupies_joinAdjacentAtoms
    (r := { ghost.temporaryReservation with status := ghost.originalStatus }) h roomId night

theorem mem_modify {α : Type} {xs : List α} {i : Nat} {f : α → α} {x : α} (h : x ∈ xs.modify i f) :
    x ∈ xs ∨ ∃ hi : i < xs.length, x = f (xs.get ⟨i, hi⟩) := by
  obtain ⟨j, hj, rfl⟩ := List.getElem_of_mem h
  rw [List.length_modify] at hj
  rw [List.getElem_modify]
  split
  · next he =>
    subst he
    exact Or.inr ⟨hj, rfl⟩
  · exact Or.inl (List.getElem_mem hj)

theorem contiguous_setRoomId (h : Contiguous ghost.temporaryReservation.atoms) (roomId : Int) :
    Contiguous (ghost.setRoomId roomId).temporaryReservation.atoms := by
  apply (Contiguous.of_ranges _).1 h
  apply List.ext_getElem
  · simp [MoveGhost.setRoomId]
  · intro i h₁ h₂
    simp only [MoveGhost.setRoomId, List.getElem_map, List.getElem_modify]
    split
    · rfl
    · rfl

theorem mem_setRoomId {roomId : Int} {a : ReservationAtom}
    (h : a ∈ (ghost.setRoomId roomId).temporaryReservation.atoms) :
    a ∈ ghost.temporaryReservation.atoms ∨ a = { ghost.atom with roomId } := by
  rcases mem_modify h with hold | ⟨_, hnew⟩
  · exact Or.inl hold
  · exact Or.inr hnew

theorem moved_mem (ghost : MoveGhost) (roomId : Int) :
    { ghost.atom with roomId } ∈ (ghost.setRoomId roomId).temporaryReservation.atoms := by
  rw [MoveGhost.setRoomId, List.mem_iff_getElem]
  refine ⟨ghost.atomIndex, by simpa using ghost.inRange, ?_⟩
  rw [List.getElem_modify, if_pos rfl]
  rfl

/-! ## What every run keeps -/

/-- The ghost is contiguous. -/
def Drawn (_ : List Reservation) (tool : MoveReservationTool) : Prop :=
  ∀ ghost ∈ tool.currentGhost, Contiguous ghost.temporaryReservation.atoms

/-- The ghost is contiguous, and meets no other reservation on the board. -/
def Clear (items : List Reservation) (tool : MoveReservationTool) : Prop :=
  ∀ ghost ∈ tool.currentGhost, Contiguous ghost.temporaryReservation.atoms ∧ ∀ item ∈ items,
    item.id ≠ ghost.temporaryReservation.id → item.intersectsWith ghost.temporaryReservation = false

theorem mem_reservationAdded {tool : MoveReservationTool} {r : Reservation}
    (h : ghost ∈ (tool.reservationAdded r).currentGhost) :
    ghost ∈ tool.currentGhost ∧ r.intersectsWith ghost.temporaryReservation = false := by
  have hfilter := Option.filter_eq_some_iff.1 h
  exact ⟨hfilter.1, by simpa using hfilter.2⟩

theorem drawn_idle (items : List Reservation) : Drawn items {} :=
  fun _ hghost => absurd hghost (Option.not_mem_none _)

theorem clear_idle (items : List Reservation) : Clear items {} :=
  fun _ hghost => absurd hghost (Option.not_mem_none _)

theorem keeps_drawn : WithTool.Keeps MoveReservationTool.reservationAdded {} Drawn where
  idle := drawn_idle
  fewer h _ := h
  heard _ h _ hghost := h _ (mem_reservationAdded hghost).1

theorem keeps_clear : WithTool.Keeps MoveReservationTool.reservationAdded {} Clear where
  idle := clear_idle
  fewer h hfewer ghost hghost :=
    ⟨(h ghost hghost).1, fun item hitem => (h ghost hghost).2 item (hfewer hitem)⟩
  heard {items tool} r h ghost hghost := by
    obtain ⟨hold, hmiss⟩ := mem_reservationAdded hghost
    refine ⟨(h ghost hold).1, fun item hitem hne => ?_⟩
    rcases List.mem_append.1 hitem with hitem | hitem
    · exact (h ghost hold).2 item hitem hne
    · rw [List.mem_singleton.1 hitem]
      exact hmiss

theorem apart_of_ne {c : Context} (hc : c.Sound) {o : ReservationObj}
    (ho : o ∈ c.planning.reservations) {item : Reservation} (hitem : item ∈ c.items)
    (hne : item.id ≠ o.value.id) : item.intersectsWith o.value = false := by
  obtain ⟨o', ho', rfl⟩ := List.mem_map.1 hitem
  have hsymm : Std.Symm fun x y : ReservationObj => x.value.intersectsWith y.value = false := by
    constructor
    intro x y hxy
    rw [PlanningBoard.intersectsWith_comm]
    exact hxy
  exact hc.consistent.conflictFree.forall ho' ho fun heq => hne (congrArg (·.value.id) heq)

/-- An event of the mouse keeps a property that a press starts and a move keeps. -/
theorem sound_handle {P : List Reservation → MoveReservationTool → Prop}
    (hP : WithTool.Keeps MoveReservationTool.reservationAdded {} P) {event : Event}
    (h : WithTool.Sound {} P d.toWithTool)
    (hpress : ∀ o ∈ d.context.planning.reservations, ∀ atomIndex inRange,
      P d.context.items (d.tool.atomMousePressEvent o.value atomIndex inRange))
    (hmove : ∀ row, event = .mouseMove row →
      P d.context.items (d.tool.mouseMoveEvent d.context.planning row)) :
    WithTool.Sound {} P (d.handle build event).toWithTool := by
  have hactive : ∀ tool, d.active = true → d.active = false → tool = ({} : MoveReservationTool) := by
    intro tool htrue hfalse
    cases htrue.symm.trans hfalse
  cases event with
  | atomMousePress reservation atomIndex =>
    rw [handle]
    split
    · next hlistens =>
      split
      · next o hfind =>
        split
        · next inRange =>
          exact ⟨h.board, hactive _ hlistens,
            hpress o (List.mem_of_find?_eq_some hfind) atomIndex inRange⟩
        · exact h
      · exact h
    · exact h
  | mouseMove row =>
    rw [handle]
    split
    · next hlistens => exact ⟨h.board, hactive _ hlistens, hmove row rfl⟩
    · exact h
  | mouseRelease =>
    rw [handle]
    split
    · next hlistens =>
      refine ⟨h.board, hactive _ hlistens, ?_⟩
      have hreleased : d.tool.mouseReleaseEvent.1 = {} := by
        rw [MoveReservationTool.mouseReleaseEvent]
        split
        · rfl
        · rfl
      show P d.context.items d.tool.mouseReleaseEvent.1
      rw [hreleased]
      exact hP.idle _
    · exact h
  | load => exact ⟨h.board, nofun, h.property⟩
  | unload =>
    rw [handle]
    split
    · exact ⟨h.board, fun _ => rfl, hP.idle _⟩
    · exact h
  | reservationAdded reservation => exact WithTool.sound_addReservation hP h reservation
  | reservationUpdated reservation => exact WithTool.sound_updateReservation hP h reservation
  | reservationRemoved reservationId => exact WithTool.sound_removeReservation hP h reservationId

theorem drawn_press {tool : MoveReservationTool} (h : Drawn items tool) {o : ReservationObj}
    (hvalid : o.value.isValid = true) (atomIndex : Nat)
    (inRange : atomIndex < o.value.atoms.length) :
    Drawn items (tool.atomMousePressEvent o.value atomIndex inRange) := by
  rw [MoveReservationTool.atomMousePressEvent]
  split
  · exact h
  · rintro _ ⟨⟩
    exact (Reservation.isValid_iff.1 hvalid).2

theorem drawn_move {tool : MoveReservationTool} (h : Drawn items tool) (planning : PlanningBoard)
    (row : Option Int) : Drawn items (tool.mouseMoveEvent planning row) := by
  unfold MoveReservationTool.mouseMoveEvent
  split
  · next ghost id hcurrent =>
    split
    · rintro _ ⟨⟩
      exact contiguous_setRoomId (h ghost hcurrent) id
    · exact h
  · exact h

theorem run_drawn (build : Build) (events : List Event) :
    WithTool.Sound {} Drawn (run build events).toWithTool := by
  induction events using List.reverseRecOn with
  | nil => exact ⟨Context.sound_empty, fun _ => rfl, drawn_idle _⟩
  | append_singleton past event ih =>
    rw [run, List.foldl_append]
    apply sound_handle keeps_drawn ih
    · intro o ho atomIndex inRange
      exact drawn_press ih.property (ih.board.consistent.valid o ho) atomIndex inRange
    · exact fun row _ => drawn_move ih.property _ row

theorem clear_press (h : Clear d.context.items d.tool) (hboard : d.context.Sound) {o : ReservationObj}
    (ho : o ∈ d.context.planning.reservations) (atomIndex : Nat)
    (inRange : atomIndex < o.value.atoms.length) :
    Clear d.context.items (d.tool.atomMousePressEvent o.value atomIndex inRange) := by
  rw [MoveReservationTool.atomMousePressEvent]
  split
  · exact h
  · rintro _ ⟨⟩
    refine ⟨(Reservation.isValid_iff.1 (hboard.consistent.valid o ho)).2, fun item hitem hne => ?_⟩
    exact apart_of_ne hboard ho hitem hne

theorem nonempty_items {c : Context} (hc : c.Sound) {item : Reservation} (hitem : item ∈ c.items) :
    ∀ a ∈ item.atoms, a.dateRange.isNull = false := by
  obtain ⟨o, ho, rfl⟩ := List.mem_map.1 hitem
  exact (Reservation.isValid_iff.1 (hc.consistent.valid o ho)).2.nonempty

/-- A move onto a room that is free, or onto the original one if nothing else is there,
    keeps the ghost clear. -/
theorem clear_move (h : Clear d.context.items d.tool) (hboard : d.context.Sound) {row : Option Int}
    (hback : d.BackFree (.mouseMove row)) :
    Clear d.context.items (d.tool.mouseMoveEvent d.context.planning row) := by
  unfold MoveReservationTool.mouseMoveEvent
  split
  · next ghost id hcurrent =>
    split
    · next hallowed =>
      rintro _ ⟨⟩
      obtain ⟨hcontiguous, hclear⟩ := h ghost hcurrent
      have hnull : ghost.atom.dateRange.isNull = false :=
        hcontiguous.nonempty _ (List.get_mem _ _)
      refine ⟨contiguous_setRoomId hcontiguous id, fun item hitem hne => ?_⟩
      have hold := PlanningBoard.intersectsWith_eq_false.1 (hclear item hitem hne)
      rw [PlanningBoard.intersectsWith_eq_false]
      intro a ha a' ha' hroom
      rcases mem_setRoomId ha' with hmem | rfl
      · exact hold a ha a' hmem hroom
      · rcases hallowed with horiginal | hfree
        · -- the original room is not asked for
          have hnight := hback ghost hcurrent horiginal item hitem hne
          rw [← Bool.not_eq_true, Period.intersects_iff_exists (nonempty_items hboard hitem a ha) hnull]
          rintro ⟨night, h₁, h₂⟩
          exact hnight night ⟨h₂, a, ha, hroom, h₁⟩
        · obtain ⟨o, ho, rfl⟩ := List.mem_map.1 hitem
          exact (hboard.consistent.isFree_eq _ _).1 hfree o ho a ha hroom
    · exact h
  · exact h

/-- What a release submits is clear exactly if the ghost is. -/
theorem submitsFree_iff (hboard : d.context.Sound) (hdrawn : Drawn d.context.items d.tool) :
    d.SubmitsFree ↔ Clear d.context.items d.tool := by
  rw [SubmitsFree]
  cases hcurrent : d.tool.currentGhost with
  | none =>
    refine iff_of_true ?_ ?_
    · rw [MoveReservationTool.mouseReleaseEvent, hcurrent]
      exact fun _ hmem => absurd hmem List.not_mem_nil
    · rw [Clear, hcurrent]
      exact fun _ hghost => absurd hghost (Option.not_mem_none _)
  | some ghost =>
    have hcontiguous := hdrawn ghost hcurrent
    have hmeets : ∀ item ∈ d.context.items,
        item.intersectsWith ghost.temporaryReservation = false ↔ ∀ roomId night,
          ¬ (ghost.temporaryReservation.Occupies roomId night ∧ item.Occupies roomId night) := by
      intro item hitem
      rw [← Bool.not_eq_true,
        Reservation.intersectsWith_iff (nonempty_items hboard hitem) hcontiguous.nonempty]
      constructor
      · exact fun hnone roomId night hboth => hnone ⟨roomId, night, hboth.2, hboth.1⟩
      · rintro hnone ⟨roomId, night, h₁, h₂⟩
        exact hnone roomId night ⟨h₂, h₁⟩
    have hreleased : d.tool.mouseReleaseEvent.2 = [.update (.reservation (some ghost.submitted))] := by
      rw [MoveReservationTool.mouseReleaseEvent, hcurrent]
    rw [hreleased]
    constructor
    · rintro hfree _ hghost
      cases hcurrent.symm.trans hghost
      refine ⟨hcontiguous, fun item hitem hne => (hmeets item hitem).2 fun roomId night hboth => ?_⟩
      refine hfree ghost.submitted (List.mem_singleton_self _) item hitem ?_ roomId night ⟨?_, hboth.2⟩
      · rw [id_submitted]
        exact hne
      · rw [occupies_submitted hcontiguous]
        exact hboth.1
    · intro hclear r hr item hitem hne roomId night hboth
      cases List.mem_singleton.1 hr
      rw [id_submitted] at hne
      rw [occupies_submitted hcontiguous] at hboth
      exact (hmeets item hitem).1 ((hclear ghost hcurrent).2 item hitem hne) roomId night hboth

theorem backFree_of_clear (hboard : d.context.Sound) (hdrawn : Drawn d.context.items d.tool)
    {row : Option Int} (hclear : Clear d.context.items (d.tool.mouseMoveEvent d.context.planning row)) :
    d.BackFree (.mouseMove row) := by
  cases row with
  | none => trivial
  | some id =>
    intro ghost hcurrent horiginal item hitem hne night ⟨hcontains, hoccupies⟩
    have hmoved : ghost.setRoomId id ∈
        (d.tool.mouseMoveEvent d.context.planning (some id)).currentGhost := by
      unfold MoveReservationTool.mouseMoveEvent
      rw [hcurrent]
      dsimp only
      rw [if_pos (Or.inl horiginal)]
      rfl
    have hmiss := (hclear _ hmoved).2 item hitem hne
    have hcontiguous := contiguous_setRoomId (hdrawn ghost hcurrent) id
    have hmeet := (Reservation.intersectsWith_iff (nonempty_items hboard hitem) hcontiguous.nonempty).2
      ⟨id, night, hoccupies, _, moved_mem ghost id, rfl, hcontains⟩
    rw [hmiss] at hmeet
    cases hmeet

end

/-- In every sequence of events, whenever the mouse is released what is submitted meets
    no other reservation on the board, exactly if no move of the atom onto its original
    room finds another reservation there. -/
theorem submits_free_iff (build : Build) (events : List Event) :
    (∀ past, past <+: events → (run build past).SubmitsFree) ↔
      ∀ past event, past ++ [event] <+: events → (run build past).BackFree event := by
  constructor
  · intro hfree past event hpast
    have hbefore := run_drawn build past
    have hafter := run_drawn build (past ++ [event])
    have hclear := (submitsFree_iff hafter.board hafter.property).1 (hfree _ hpast)
    cases event with
    | mouseMove row =>
      by_cases hactive : (run build past).active = true
      · apply backFree_of_clear hbefore.board hbefore.property
        rw [run, List.foldl_append, List.foldl_cons, List.foldl_nil, handle, ← run, if_pos hactive]
          at hclear
        exact hclear
      · -- a tool that is not active has no ghost
        have hidle := hbefore.inactive (by simpa using hactive)
        cases row with
        | none => trivial
        | some id =>
          intro ghost hghost
          rw [hidle] at hghost
          cases hghost
    | _ => trivial
  · intro hback past hpast
    have hclear : WithTool.Sound {} Clear (run build past).toWithTool := by
      induction past using List.reverseRecOn with
      | nil => exact ⟨Context.sound_empty, fun _ => rfl, clear_idle _⟩
      | append_singleton past event ih =>
        have hbefore := ih ((List.prefix_append past [event]).trans hpast)
        rw [run, List.foldl_append]
        apply sound_handle keeps_clear hbefore
        · intro o ho atomIndex inRange
          exact clear_press hbefore.property hbefore.board ho atomIndex inRange
        · rintro row rfl
          exact clear_move hbefore.property hbefore.board (hback past _ hpast)
    exact (submitsFree_iff hclear.board fun ghost hghost => (hclear.property ghost hghost).1).2
      hclear.property

/-- A reservation is dragged to another room, removed by another client, its room is
    booked again, and the ghost is dragged back. -/
def draggedBack : List Event :=
  [.load, .reservationAdded { Reservation.oneNight with id := 5, revision := 1 },
    .atomMousePress 0 0, .mouseMove (some 2), .reservationRemoved 5,
    .reservationAdded { Reservation.oneNight with id := 6, revision := 1 }, .mouseMove (some 1)]

/-- What is submitted then has the night that another reservation has. -/
theorem dragged_back : ¬ (run .debug draggedBack).SubmitsFree := by
  have hsubmitted : (run .debug draggedBack).tool.mouseReleaseEvent.2 =
      [.update (.reservation (some { Reservation.oneNight with id := 5, revision := 1 }))] := by
    decide +kernel
  have hitems : (run .debug draggedBack).context.items =
      [{ Reservation.oneNight with id := 6, revision := 1 }] := by
    decide +kernel
  have hnight : ∀ id revision, ({ Reservation.oneNight with id, revision } : Reservation).Occupies 1
      ⟨2458850, by decide, by decide⟩ :=
    fun _ _ => ⟨_, List.mem_singleton_self _, rfl, rfl⟩
  intro hfree
  refine hfree { Reservation.oneNight with id := 5, revision := 1 } ?_
    { Reservation.oneNight with id := 6, revision := 1 } ?_ (by decide) 1 _ ⟨hnight 5 1, hnight 6 1⟩
  · rw [hsubmitted]
    exact List.mem_singleton_self _
  · rw [hitems]
    exact List.mem_singleton_self _

end Dragging

end HotelPms

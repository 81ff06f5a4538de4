import HotelPms.Gui.Tool
import HotelPms.Hotel.Nights
import HotelPms.Persistence.Operations

/- `gui::planningwidget::NewReservationTool`: selections drawn on the board.

   While the mouse is pressed there is a current ghost, whose last atom follows the
   mouse; released, it joins the other ghosts. How far an atom may reach is computed
   from the board and from the other ghosts (`computeMaximumDate`), so it meets
   neither (`free_of_le_maximum`), and a reservation that comes to the board takes
   the ghosts away that it meets.

   `Disjoint` is kept by every event; `selections_never_conflict` says what follows
   of every state that events lead to. Dates are taken to be exact: a maximum date
   may lie beyond the last date. -/
namespace HotelPms
open Lib

structure ReservationGhost where
  temporaryReservation : Reservation
  startRoomId : Int
  startDate : Date

structure NewReservationTool where
  ghosts : List ReservationGhost := []
  currentGhost : Option ReservationGhost := none

namespace NewReservationTool

def unload (_ : NewReservationTool) : NewReservationTool := {}

def reservationAdded (tool : NewReservationTool) (item : Reservation) : NewReservationTool where
  ghosts := tool.ghosts.filter fun ghost => !item.intersectsWith ghost.temporaryReservation
  currentGhost :=
    tool.currentGhost.filter fun ghost => !item.intersectsWith ghost.temporaryReservation

/-- The loops of `computeMaximumDate` over the atoms of the ghosts. -/
def narrow (roomId : Int) (fromDate : Date) (maximumDate : Int) : List ReservationAtom → Int
  | [] => maximumDate
  | ghostAtom :: rest =>
    if ghostAtom.roomId = roomId then
      if ghostAtom.dateRange.contains fromDate then fromDate.dayNumber
      else if fromDate ≤ ghostAtom.dateRange.begin_ ∧
          ghostAtom.dateRange.begin_.dayNumber < maximumDate then
        narrow roomId fromDate ghostAtom.dateRange.begin_.dayNumber rest
      else narrow roomId fromDate maximumDate rest
    else narrow roomId fromDate maximumDate rest

/-- `computeMaximumDate`, as the number of a day. -/
def computeMaximumDate (tool : NewReservationTool) (planning : PlanningBoard) (roomId : Int)
    (fromDate : Date) : Int :=
  narrow roomId fromDate (fromDate.dayNumber + planning.getAvailableDaysFrom roomId fromDate)
    (tool.ghosts.flatMap fun ghost => ghost.temporaryReservation.atoms)

/-- A press at a date on the row of a room, if it is one. -/
def mousePressEvent (tool : NewReservationTool) (planning : PlanningBoard) (row : Option Int)
    (date : Date) : NewReservationTool :=
  match row with
  | none => tool
  | some roomId =>
    if tool.computeMaximumDate planning roomId date = date.dayNumber then tool
    else { tool with currentGhost := some {
      temporaryReservation := { status := .temporary, description := "new" }
      startRoomId := roomId
      startDate := date } }

def mouseReleaseEvent (tool : NewReservationTool) : NewReservationTool :=
  match tool.currentGhost with
  | none => tool
  | some ghost =>
    if ghost.temporaryReservation.dateRange.all Period.isNull then { tool with currentGhost := none }
    else { ghosts := tool.ghosts ++ [ghost], currentGhost := none }

/-- What a move of the mouse draws: an atom in a room from a date on, in the place of
    the last atom or behind it. -/
structure Target where
  roomId : Int
  modifyLastAtom : Bool
  startDate : Date

/-- The atom to draw in the room of the last one, or in that of the row under the mouse
    if shift is pressed. -/
def target (ghost : ReservationGhost) (shift : Bool) (row : Option Int) : Target :=
  let lastAtom := ghost.temporaryReservation.lastAtom
  let currentRoomId := (lastAtom.map (·.roomId)).getD ghost.startRoomId
  let current : Target :=
    match lastAtom with
    | some atom =>
      if atom.roomId = currentRoomId then ⟨currentRoomId, true, atom.dateRange.begin_⟩
      else ⟨currentRoomId, false, ghost.startDate⟩
    | none => ⟨currentRoomId, false, ghost.startDate⟩
  match row with
  | none => current
  | some roomId =>
    if shift = true ∧ roomId ≠ currentRoomId then
      match lastAtom with
      | some atom =>
        if atom.roomId = roomId then ⟨roomId, true, atom.dateRange.begin_⟩
        else ⟨roomId, false, atom.dateRange.end_⟩
      | none => ⟨roomId, false, ghost.startDate⟩
    else current

/-- The date of the mouse, no earlier than the start and no later than the maximum. -/
def limit (startDate currentDate : Date) (maximumDate : Int) (h : startDate.dayNumber ≤ maximumDate) :
    Date :=
  let currentDate := if currentDate < startDate then startDate else currentDate
  if hlater : maximumDate < currentDate.dayNumber then
    ⟨maximumDate, startDate.lower.trans h, hlater.le.trans currentDate.upper⟩
  else currentDate

theorem narrow_ge {roomId : Int} {fromDate : Date} {maximumDate : Int}
    (h : fromDate.dayNumber ≤ maximumDate) (atoms : List ReservationAtom) :
    fromDate.dayNumber ≤ narrow roomId fromDate maximumDate atoms := by
  induction atoms generalizing maximumDate with
  | nil => exact h
  | cons atom rest ih =>
    rw [narrow]
    split_ifs with _ _ hcloser
    · exact le_rfl
    · exact ih hcloser.1
    · exact ih h
    · exact ih h

theorem le_computeMaximumDate (tool : NewReservationTool) (planning : PlanningBoard) (roomId : Int)
    (fromDate : Date) : fromDate.dayNumber ≤ tool.computeMaximumDate planning roomId fromDate := by
  apply narrow_ge
  have hdays := planning.getAvailableDaysFrom_nonneg roomId fromDate
  omega

/-- The last part of `mouseMoveEvent`: the last atom is removed if it is modified, and an
    atom up to the date is added if it is not empty. -/
def redraw (tool : NewReservationTool) (ghost : ReservationGhost) (drawn : Target)
    (currentDate : Date) : Except Fault Unit × NewReservationTool :=
  let newPeriod : DatePeriod := ⟨drawn.startDate, currentDate⟩
  let reservation :=
    if drawn.modifyLastAtom then ghost.temporaryReservation.removeLastAtom
    else ghost.temporaryReservation
  let withReservation (temporaryReservation : Reservation) : NewReservationTool :=
    { tool with currentGhost := some { ghost with temporaryReservation } }
  if newPeriod.isNull then (.ok (), withReservation reservation)
  else
    match reservation.addAtom drawn.roomId newPeriod with
    | .ok added => (.ok (), withReservation added)
    | .error fault => (.error fault, withReservation reservation)

/-- A move of the mouse to a date, over the row of a room if it is over one: what is
    thrown, and the tool afterwards. -/
def mouseMoveEvent (tool : NewReservationTool) (planning : PlanningBoard) (currentDate : Date)
    (shift : Bool) (row : Option Int) : Except Fault Unit × NewReservationTool :=
  match tool.currentGhost with
  | none => (.ok (), tool)
  | some ghost =>
    let drawn := target ghost shift row
    tool.redraw ghost drawn (limit drawn.startDate currentDate
      (tool.computeMaximumDate planning drawn.roomId drawn.startDate)
      (tool.le_computeMaximumDate planning drawn.roomId drawn.startDate))

inductive Key where
  | escape
  | backspace
  | enter
  | other

/-- The tool after a key was pressed, and whether it asks for a description. -/
def keyPressEvent (tool : NewReservationTool) (key : Key) : NewReservationTool × Bool :=
  if tool.currentGhost.isSome then (tool, false)
  else
    match key with
    | .escape => (tool.unload, false)
    | .backspace => ({ tool with ghosts := tool.ghosts.dropLast }, false)
    | .enter => (tool, !tool.ghosts.isEmpty)
    | .other => (tool, false)

/-- The rest of the handler of the enter key once the description was given: what is queued. -/
def described (tool : NewReservationTool) (reservationName : String) :
    NewReservationTool × Operations :=
  if reservationName.isEmpty then (tool, [])
  else ({ tool with ghosts := [] }, tool.ghosts.map fun ghost => .storeNew (.reservation (some
    { ghost.temporaryReservation with status := .new, description := reservationName })))

end NewReservationTool

/-! ## Events -/

/-- The board, the tool, whether it asks for a description, and what it queued. -/
structure Drawing extends WithTool NewReservationTool where
  asking : Bool := false
  queued : Operations := []

namespace Drawing
open NewReservationTool

inductive Event where
  | mousePress (row : Option Int) (date : Date)
  | mouseMove (date : Date) (shift : Bool) (row : Option Int)
  | mouseRelease
  | keyPress (key : Key)
  | described (reservationName : String)
  | load
  | unload
  | reservationAdded (reservation : Reservation)
  | reservationUpdated (reservation : Reservation)
  | reservationRemoved (reservationId : Int)

/-- An event of the mouse or the keyboard reaches the tool while it is active and no
    dialog is open. -/
def listens (d : Drawing) : Bool := d.active && !d.asking

/-- What an event throws, and the state afterwards. -/
def handle (build : Build) (d : Drawing) : Event → Except Fault Unit × Drawing
  | .mousePress row date =>
    if d.listens then
      (.ok (), { d with tool := d.tool.mousePressEvent d.context.planning row date })
    else (.ok (), d)
  | .mouseMove date shift row =>
    if d.listens then
      let (thrown, tool) := d.tool.mouseMoveEvent d.context.planning date shift row
      (thrown, { d with tool })
    else (.ok (), d)
  | .mouseRelease =>
    if d.listens then (.ok (), { d with tool := d.tool.mouseReleaseEvent }) else (.ok (), d)
  | .keyPress key =>
    if d.listens then
      let (tool, asking) := d.tool.keyPressEvent key
      (.ok (), { d with tool, asking })
    else (.ok (), d)
  | .described reservationName =>
    if d.asking then
      let (tool, operations) := d.tool.described reservationName
      (.ok (), { d with tool, asking := false, queued := d.queued ++ operations })
    else (.ok (), d)
  | .load => if d.asking then (.ok (), d) else (.ok (), { d with active := true })
  | .unload =>
    if d.listens then (.ok (), { d with active := false, tool := d.tool.unload }) else (.ok (), d)
  | .reservationAdded reservation =>
    let (thrown, board) := d.addReservation build NewReservationTool.reservationAdded reservation
    (thrown, { d with toWithTool := board })
  | .reservationUpdated reservation =>
    let (thrown, board) := d.updateReservation build NewReservationTool.reservationAdded reservation
    (thrown, { d with toWithTool := board })
  | .reservationRemoved reservationId =>
    (.ok (), { d with toWithTool := d.removeReservation reservationId })

/-- What events lead to. -/
def Reached (build : Build) (d : Drawing) : Prop :=
  Reachable (fun d => d = { tool := {} }) (fun d d' => ∃ event, (d.handle build event).2 = d') d

end Drawing

/-! ## How far an atom may reach -/

namespace NewReservationTool

section
variable {tool : NewReservationTool} {planning : PlanningBoard} {items : List Reservation}
  {ghost : ReservationGhost} {roomId : Int} {from_ to_ : Date}

theorem narrow_le (roomId : Int) (from_ : Date) {maximumDate : Int}
    (h : from_.dayNumber ≤ maximumDate) (atoms : List ReservationAtom) :
    narrow roomId from_ maximumDate atoms ≤ maximumDate := by
  induction atoms generalizing maximumDate with
  | nil => exact le_rfl
  | cons atom rest ih =>
    rw [narrow]
    split_ifs with _ _ hcloser
    · exact h
    · exact le_trans (ih hcloser.1) (le_of_lt hcloser.2)
    · exact ih h
    · exact ih h

/-- Nothing that ends by the narrowed date meets an atom of the room. -/
theorem narrow_free (hlt : from_ < to_) {maximumDate : Int} (h : from_.dayNumber ≤ maximumDate)
    {atoms : List ReservationAtom} (hatoms : ∀ a ∈ atoms, a.dateRange.isNull = false)
    (hle : to_.dayNumber ≤ narrow roomId from_ maximumDate atoms) :
    ∀ a ∈ atoms, a.roomId = roomId → a.dateRange.intersects ⟨from_, to_⟩ = false := by
  have hperiod : (Period.mk from_ to_).isNull = false := Period.isNull_eq_false.2 hlt
  induction atoms generalizing maximumDate with
  | nil => exact nofun
  | cons atom rest ih =>
    have hrest := fun a ha => hatoms a (List.mem_cons_of_mem _ ha)
    have hatom := hatoms atom List.mem_cons_self
    rw [narrow] at hle
    rw [List.forall_mem_cons]
    split_ifs at hle with hroom hcontains hcloser
    · exact absurd hlt (not_lt_of_ge hle)
    · refine ⟨fun _ => ?_, ih hcloser.1 hrest hle⟩
      have hfar : to_ ≤ atom.dateRange.begin_ := by
        rw [Date.le_def]
        exact le_trans hle (narrow_le roomId from_ hcloser.1 rest)
      rw [Period.intersects_comm]
      exact Period.intersects_of_end_le hperiod hatom hfar
    · refine ⟨fun _ => ?_, ih h hrest hle⟩
      have hmaximum := le_trans hle (narrow_le roomId from_ h rest)
      rcases le_or_gt from_ atom.dateRange.begin_ with hafter | hbefore
      · -- it begins after the maximum
        have hfar : to_ ≤ atom.dateRange.begin_ := by
          rw [Date.le_def]
          by_contra hnear
          exact hcloser ⟨hafter, by omega⟩
        rw [Period.intersects_comm]
        exact Period.intersects_of_end_le hperiod hatom hfar
      · -- it begins before the date, and does not hold it
        have hended : atom.dateRange.end_ ≤ from_ := by
          rw [Period.contains, Bool.and_eq_true, decide_eq_true_eq, decide_eq_true_eq] at hcontains
          exact not_lt.1 fun hlater => hcontains ⟨le_of_lt hbefore, hlater⟩
        exact Period.intersects_of_end_le hatom hperiod hended
    · exact ⟨fun hsame => absurd hsame hroom, ih h hrest hle⟩

/-- Nothing that ends by the maximum date meets the board or another ghost. -/
theorem free_of_le_maximum (hboard : planning.Consistent)
    (hghosts : ∀ ghost ∈ tool.ghosts, Contiguous ghost.temporaryReservation.atoms) (hlt : from_ < to_)
    (hle : to_.dayNumber ≤ tool.computeMaximumDate planning roomId from_) :
    planning.isFree roomId ⟨from_, to_⟩ = true ∧
      ∀ ghost ∈ tool.ghosts, ∀ a ∈ ghost.temporaryReservation.atoms, a.roomId = roomId →
        a.dateRange.intersects ⟨from_, to_⟩ = false := by
  have hdays := planning.getAvailableDaysFrom_nonneg roomId from_
  have hstart : from_.dayNumber ≤ from_.dayNumber + planning.getAvailableDaysFrom roomId from_ := by
    omega
  constructor
  · exact PlanningBoard.isFree_of_available hboard hlt (le_trans hle (narrow_le roomId from_ hstart _))
  · have hatoms : ∀ a ∈ tool.ghosts.flatMap fun ghost => ghost.temporaryReservation.atoms,
        a.dateRange.isNull = false := by
      intro a ha
      obtain ⟨ghost, hghost, hmem⟩ := List.mem_flatMap.1 ha
      exact (hghosts ghost hghost).nonempty a hmem
    intro ghost hghost a ha
    exact narrow_free hlt hstart hatoms hle a (List.mem_flatMap.2 ⟨ghost, hghost, ha⟩)

theorem limit_le (start current : Date) {maximumDate : Int} (h : start.dayNumber ≤ maximumDate) :
    (limit start current maximumDate h).dayNumber ≤ maximumDate := by
  by_cases hearly : current < start
  · simp only [limit, if_pos hearly]
    rw [dif_neg (not_lt.2 h)]
    exact h
  · simp only [limit, if_neg hearly]
    split
    · exact le_rfl
    · next hlater => exact not_lt.1 hlater

theorem getLast?_dropLast_touches {atoms : List ReservationAtom} (h : Contiguous atoms)
    {atom : ReservationAtom} (hlast : atoms.getLast? = some atom) :
    ∀ last ∈ atoms.dropLast.getLast?, last.dateRange.end_ = atom.dateRange.begin_ := by
  obtain ⟨init, rfl⟩ := List.getLast?_eq_some_iff.1 hlast
  rw [List.dropLast_concat]
  intro last hmem
  exact (List.isChain_append.1 h.touching).2.2 last hmem atom rfl

theorem target_cases {atom : ReservationAtom} (hlast : ghost.temporaryReservation.lastAtom = some atom)
    (shift : Bool) (row : Option Int) :
    (target ghost shift row).modifyLastAtom = true ∧
        (target ghost shift row).startDate = atom.dateRange.begin_ ∨
      (target ghost shift row).modifyLastAtom = false ∧
        (target ghost shift row).startDate = atom.dateRange.end_ := by
  simp only [target, hlast, Option.map_some, Option.getD_some, if_true]
  cases row with
  | none => exact Or.inl ⟨rfl, rfl⟩
  | some roomId =>
    dsimp only
    by_cases hswitch : shift = true ∧ roomId ≠ atom.roomId
    · rw [if_pos hswitch, if_neg (Ne.symm hswitch.2)]
      exact Or.inr ⟨rfl, rfl⟩
    · rw [if_neg hswitch]
      exact Or.inl ⟨rfl, rfl⟩

theorem target_touches (h : Contiguous ghost.temporaryReservation.atoms) (shift : Bool)
    (row : Option Int) : ∀ last ∈ (if (target ghost shift row).modifyLastAtom then
        ghost.temporaryReservation.removeLastAtom else ghost.temporaryReservation).atoms.getLast?,
      last.dateRange.end_ = (target ghost shift row).startDate := by
  cases hlast : ghost.temporaryReservation.lastAtom with
  | none =>
    have hempty := List.getLast?_eq_none_iff.1 hlast
    split
    · rw [Reservation.removeLastAtom, hempty]
      exact nofun
    · rw [hempty]
      exact nofun
  | some atom =>
    rcases target_cases hlast shift row with ⟨hmodify, hstart⟩ | ⟨hmodify, hstart⟩
    · rw [hmodify, hstart]
      exact getLast?_dropLast_touches h hlast
    · rw [hmodify, hstart]
      intro last hmem
      cases hlast.symm.trans hmem
      rfl

/-! ## Ghosts that meet nothing -/

/-- The ghosts, the current one included. -/
def all (tool : NewReservationTool) : List ReservationGhost := tool.ghosts ++ tool.currentGhost.toList

/-- The ghosts are contiguous, and meet neither one another nor what is on the board. -/
structure Disjoint (items : List Reservation) (tool : NewReservationTool) : Prop where
  contiguous : ∀ ghost ∈ tool.all, Contiguous ghost.temporaryReservation.atoms
  apart : tool.all.Pairwise fun ghost ghost' =>
    ghost.temporaryReservation.intersectsWith ghost'.temporaryReservation = false
  free : ∀ ghost ∈ tool.all, ∀ item ∈ items,
    item.intersectsWith ghost.temporaryReservation = false

theorem Disjoint.sublist {tool' : NewReservationTool} (h : Disjoint items tool)
    (hsub : tool'.all.Sublist tool.all) : Disjoint items tool' where
  contiguous ghost hghost := h.contiguous ghost (hsub.subset hghost)
  apart := h.apart.sublist hsub
  free ghost hghost := h.free ghost (hsub.subset hghost)

theorem disjoint_idle (items : List Reservation) : Disjoint items {} :=
  ⟨fun _ hghost => absurd hghost List.not_mem_nil, List.Pairwise.nil,
    fun _ hghost => absurd hghost List.not_mem_nil⟩

theorem all_reservationAdded (tool : NewReservationTool) (item : Reservation) :
    (tool.reservationAdded item).all =
      tool.all.filter fun ghost => !item.intersectsWith ghost.temporaryReservation := by
  rw [all, all, List.filter_append, reservationAdded]
  congr 1
  cases tool.currentGhost with
  | none => rfl
  | some ghost =>
    rw [Option.toList_some, Option.filter_some, List.filter_singleton]
    cases item.intersectsWith ghost.temporaryReservation with
    | false => rfl
    | true => rfl

theorem keeps : WithTool.Keeps reservationAdded {} Disjoint where
  idle := disjoint_idle
  fewer h hfewer :=
    ⟨h.contiguous, h.apart, fun ghost hghost item hitem => h.free ghost hghost item (hfewer hitem)⟩
  heard {items tool} r h := by
    have hleft : Disjoint items (tool.reservationAdded r) := by
      apply h.sublist
      rw [all_reservationAdded]
      exact List.filter_sublist
    refine ⟨hleft.contiguous, hleft.apart, fun ghost hghost item hitem => ?_⟩
    rcases List.mem_append.1 hitem with hitem | hitem
    · exact hleft.free ghost hghost item hitem
    · rw [all_reservationAdded, List.mem_filter] at hghost
      rw [List.mem_singleton.1 hitem]
      simpa using hghost.2

/-! ## The events of the mouse -/

theorem disjoint_release (h : Disjoint items tool) : Disjoint items tool.mouseReleaseEvent := by
  apply h.sublist
  rw [mouseReleaseEvent]
  cases hcurrent : tool.currentGhost with
  | none => exact List.Sublist.refl _
  | some ghost =>
    dsimp only
    split
    · rw [all, all, Option.toList_none, List.append_nil]
      exact List.sublist_append_left _ _
    · rw [all, all, hcurrent, Option.toList_none, List.append_nil]
      exact List.Sublist.refl _

/-- The current ghost with other atoms: each is one of its own, or one that meets nothing. -/
theorem Disjoint.draw (h : Disjoint items tool) (hcurrent : tool.currentGhost = some ghost)
    {r : Reservation} (hcontiguous : Contiguous r.atoms)
    (hatoms : ∀ s : Reservation, ghost.temporaryReservation.intersectsWith s = false →
      (s ∈ items ∨ ∃ other ∈ tool.ghosts, s = other.temporaryReservation) →
        r.intersectsWith s = false) :
    Disjoint items { tool with currentGhost := some { ghost with temporaryReservation := r } } := by
  have hall : tool.all = tool.ghosts ++ [ghost] := by
    rw [all, hcurrent, Option.toList_some]
  have hghost : ghost ∈ tool.all := by
    rw [hall]
    exact List.mem_append_right _ (List.mem_singleton_self _)
  have hothers : ∀ other ∈ tool.ghosts, other ∈ tool.all := by
    rw [hall]
    exact fun other hother => List.mem_append_left _ hother
  have hapart := h.apart
  rw [hall, List.pairwise_append] at hapart
  constructor
  · rw [all, Option.toList_some]
    intro other hother
    rcases List.mem_append.1 hother with hother | hother
    · exact h.contiguous other (hothers other hother)
    · rw [List.mem_singleton.1 hother]
      exact hcontiguous
  · rw [all, Option.toList_some, List.pairwise_append]
    refine ⟨hapart.1, List.pairwise_singleton _ _, fun other hother drawn hdrawn => ?_⟩
    rw [List.mem_singleton.1 hdrawn, PlanningBoard.intersectsWith_comm]
    apply hatoms _ _ (Or.inr ⟨other, hother, rfl⟩)
    rw [PlanningBoard.intersectsWith_comm]
    exact hapart.2.2 other hother ghost (List.mem_singleton_self _)
  · rw [all, Option.toList_some]
    intro other hother item hitem
    rcases List.mem_append.1 hother with hother | hother
    · exact h.free other (hothers other hother) item hitem
    · rw [List.mem_singleton.1 hother, PlanningBoard.intersectsWith_comm]
      apply hatoms _ _ (Or.inl hitem)
      rw [PlanningBoard.intersectsWith_comm]
      exact h.free ghost hghost item hitem

theorem disjoint_press (h : Disjoint items tool) (planning : PlanningBoard) (row : Option Int)
    (date : Date) : Disjoint items (tool.mousePressEvent planning row date) := by
  cases row with
  | none => exact h
  | some roomId =>
    rw [mousePressEvent]
    split
    · exact h
    · -- the new ghost has no atoms yet
      have hdropped : Disjoint items { tool with currentGhost := none } := by
        apply h.sublist
        rw [all, all, Option.toList_none, List.append_nil]
        exact List.sublist_append_left _ _
      have hnone : ∀ s : Reservation,
          s.intersectsWith { status := .temporary, description := "new" } = false := by
        intro s
        rw [PlanningBoard.intersectsWith_eq_false]
        exact fun a _ => nofun
      have hghosts := hdropped.apart
      rw [all, Option.toList_none, List.append_nil] at hghosts
      constructor
      · rw [all, Option.toList_some]
        intro other hother
        rcases List.mem_append.1 hother with hother | hother
        · exact hdropped.contiguous other (List.mem_append_left _ hother)
        · rw [List.mem_singleton.1 hother]
          exact Contiguous.nil
      · rw [all, Option.toList_some, List.pairwise_append]
        refine ⟨hghosts, List.pairwise_singleton _ _, fun other _ drawn hdrawn => ?_⟩
        rw [List.mem_singleton.1 hdrawn]
        exact hnone _
      · rw [all, Option.toList_some]
        intro other hother item hitem
        rcases List.mem_append.1 hother with hother | hother
        · exact hdropped.free other (List.mem_append_left _ hother) item hitem
        · rw [List.mem_singleton.1 hother]
          exact hnone _

theorem contiguous_concat {atoms : List ReservationAtom} {atom : ReservationAtom}
    (h : Contiguous atoms) (hnull : atom.dateRange.isNull = false)
    (htouch : ∀ last ∈ atoms.getLast?, last.dateRange.end_ = atom.dateRange.begin_) :
    Contiguous (atoms ++ [atom]) := by
  refine ⟨?_, List.isChain_append.2 ⟨h.touching, List.isChain_singleton _, ?_⟩⟩
  · intro a ha
    rcases List.mem_append.1 ha with ha | ha
    · exact h.nonempty a ha
    · rw [List.mem_singleton.1 ha]
      exact hnull
  · intro last hlast b hb
    cases hb
    exact htouch last hlast

theorem contiguous_dropLast {atoms : List ReservationAtom} (h : Contiguous atoms) :
    Contiguous atoms.dropLast :=
  ⟨fun a ha => h.nonempty a (List.dropLast_subset _ ha), h.touching.prefix (List.dropLast_prefix _)⟩

/-- What is drawn up to the maximum date meets nothing. -/
theorem disjoint_redraw (hboard : planning.Consistent)
    (h : Disjoint (planning.reservations.map (·.value)) tool) (hcurrent : tool.currentGhost = some ghost)
    {drawn : Target} (htouch : ∀ last ∈ (if drawn.modifyLastAtom then
        ghost.temporaryReservation.removeLastAtom else ghost.temporaryReservation).atoms.getLast?,
      last.dateRange.end_ = drawn.startDate)
    (hle : to_.dayNumber ≤ tool.computeMaximumDate planning drawn.roomId drawn.startDate) :
    (tool.redraw ghost drawn to_).1 = .ok () ∧
      Disjoint (planning.reservations.map (·.value)) (tool.redraw ghost drawn to_).2 := by
  have hcontiguous : Contiguous ghost.temporaryReservation.atoms := by
    apply h.contiguous
    rw [all, hcurrent]
    exact List.mem_append_right _ (List.mem_singleton_self _)
  rw [redraw]
  generalize hrest : (if drawn.modifyLastAtom then ghost.temporaryReservation.removeLastAtom
    else ghost.temporaryReservation) = rest at htouch ⊢
  have hleft : Contiguous rest.atoms ∧ rest.atoms ⊆ ghost.temporaryReservation.atoms := by
    rw [← hrest]
    split
    · exact ⟨contiguous_dropLast hcontiguous, List.dropLast_subset _⟩
    · exact ⟨hcontiguous, List.Subset.refl _⟩
  -- taking atoms away cannot make two reservations meet
  have hmeets : ∀ s : Reservation, ghost.temporaryReservation.intersectsWith s = false →
      rest.intersectsWith s = false := by
    intro s hs
    rw [PlanningBoard.intersectsWith_eq_false] at hs ⊢
    exact fun a ha => hs a (hleft.2 ha)
  cases hnull : (Period.mk drawn.startDate to_).isNull with
  | true => exact ⟨rfl, h.draw hcurrent hleft.1 fun s hs _ => hmeets s hs⟩
  | false =>
    have hadd : rest.addAtom drawn.roomId ⟨drawn.startDate, to_⟩ = .ok { rest with
        atoms := rest.atoms ++ [{ roomId := drawn.roomId, dateRange := ⟨drawn.startDate, to_⟩ }] } :=
      Reservation.addAtomOf_eq (a := { roomId := drawn.roomId, dateRange := ⟨drawn.startDate, to_⟩ })
        hnull htouch
    rw [if_neg Bool.false_ne_true, hadd]
    have hghosts : ∀ ghost ∈ tool.ghosts, Contiguous ghost.temporaryReservation.atoms :=
      fun other hother => h.contiguous other (List.mem_append_left _ hother)
    -- up to the maximum date the room is free of items and of other ghosts
    obtain ⟨hfree, hothers⟩ :=
      free_of_le_maximum hboard hghosts (Period.isNull_eq_false.1 hnull) hle
    refine ⟨rfl, h.draw hcurrent (contiguous_concat hleft.1 hnull htouch) fun s hs hother => ?_⟩
    rw [PlanningBoard.intersectsWith_eq_false, List.forall_mem_append, List.forall_mem_singleton]
    refine ⟨PlanningBoard.intersectsWith_eq_false.1 (hmeets s hs), fun a ha hroom => ?_⟩
    rw [Period.intersects_comm]
    rcases hother with hitem | ⟨other, hother, rfl⟩
    · obtain ⟨o, ho, rfl⟩ := List.mem_map.1 hitem
      exact (hboard.isFree_eq _ _).1 hfree o ho a ha hroom.symm
    · exact hothers other hother a ha hroom.symm

theorem disjoint_move (hboard : planning.Consistent)
    (h : Disjoint (planning.reservations.map (·.value)) tool) (date : Date) (shift : Bool)
    (row : Option Int) : (tool.mouseMoveEvent planning date shift row).1 = .ok () ∧
      Disjoint (planning.reservations.map (·.value)) (tool.mouseMoveEvent planning date shift row).2 := by
  rw [mouseMoveEvent]
  cases hcurrent : tool.currentGhost with
  | none => exact ⟨rfl, h⟩
  | some ghost =>
    have hcontiguous : Contiguous ghost.temporaryReservation.atoms := by
      apply h.contiguous
      rw [all, hcurrent]
      exact List.mem_append_right _ (List.mem_singleton_self _)
    exact disjoint_redraw hboard h hcurrent (target_touches hcontiguous shift row) (limit_le _ _ _)

end

end NewReservationTool

/-! ## Runs -/

namespace Drawing
open NewReservationTool

/-- The invariant of every event. -/
abbrev Sound (d : Drawing) : Prop := WithTool.Sound {} Disjoint d.toWithTool

section
variable {build : Build} {d : Drawing}

theorem Sound.with_tool (h : Sound d) (hlistens : d.listens = true) {tool : NewReservationTool}
    (htool : Disjoint d.context.items tool) (asking : Bool) : Sound { d with tool, asking } := by
  refine ⟨h.board, fun hinactive => ?_, htool⟩
  rw [listens, Bool.and_eq_true] at hlistens
  cases hlistens.1.symm.trans hinactive

theorem disjoint_key {items : List Reservation} {tool : NewReservationTool} (h : Disjoint items tool)
    (key : Key) : Disjoint items (tool.keyPressEvent key).1 := by
  unfold keyPressEvent
  split
  · exact h
  · cases key with
    | escape => exact disjoint_idle items
    | backspace =>
      apply h.sublist
      exact (List.dropLast_sublist _).append (List.Sublist.refl _)
    | enter => exact h
    | other => exact h

theorem disjoint_described {items : List Reservation} {tool : NewReservationTool}
    (h : Disjoint items tool) (reservationName : String) :
    Disjoint items (tool.described reservationName).1 := by
  rw [described]
  split
  · exact h
  · exact h.sublist (List.sublist_append_right _ _)

theorem sound_handle (h : Sound d) (event : Event) : Sound (d.handle build event).2 := by
  cases event with
  | mousePress row date =>
    rw [handle]
    split
    · next hlistens =>
      exact h.with_tool hlistens (disjoint_press h.property d.context.planning row date) d.asking
    · exact h
  | mouseMove date shift row =>
    rw [handle]
    split
    · next hlistens =>
      exact h.with_tool hlistens
        (disjoint_move h.board.consistent h.property date shift row).2 d.asking
    · exact h
  | mouseRelease =>
    rw [handle]
    split
    · next hlistens => exact h.with_tool hlistens (disjoint_release h.property) d.asking
    · exact h
  | keyPress key =>
    rw [handle]
    split
    · next hlistens => exact h.with_tool hlistens (disjoint_key h.property key) _
    · exact h
  | described reservationName =>
    rw [handle]
    split
    · refine ⟨h.board, fun hinactive => ?_, disjoint_described h.property reservationName⟩
      have hidle := h.inactive hinactive
      show (d.tool.described reservationName).1 = {}
      rw [hidle, NewReservationTool.described]
      split
      · rfl
      · rfl
    · exact h
  | load =>
    rw [handle]
    split
    · exact h
    · exact ⟨h.board, nofun, h.property⟩
  | unload =>
    rw [handle]
    split
    · exact ⟨h.board, fun _ => rfl, disjoint_idle _⟩
    · exact h
  | reservationAdded reservation => exact WithTool.sound_addReservation keeps h reservation
  | reservationUpdated reservation => exact WithTool.sound_updateReservation keeps h reservation
  | reservationRemoved reservationId => exact WithTool.sound_removeReservation keeps h reservationId

theorem reached_sound (h : Reached build d) : Sound d := by
  apply h.invariant
  · rintro _ rfl
    exact ⟨Context.sound_empty, fun _ => rfl, disjoint_idle _⟩
  · rintro d _ hd ⟨event, rfl⟩
    exact sound_handle hd event

end

/-- In every state that events lead to: every ghost is empty or valid, no two ghosts
    have a room for the same night, and none has one that a reservation on the board
    has; and no move of the mouse throws. -/
theorem selections_never_conflict {build : Build} {d : Drawing} (h : Reached build d) :
    (∀ ghost ∈ d.tool.all, ghost.temporaryReservation.atoms = [] ∨
      ghost.temporaryReservation.isValid = true) ∧
    (d.tool.all.Pairwise fun ghost ghost' => ∀ roomId night,
      ¬ (ghost.temporaryReservation.Occupies roomId night ∧
        ghost'.temporaryReservation.Occupies roomId night)) ∧
    (∀ ghost ∈ d.tool.all, ∀ item ∈ d.context.items, ∀ roomId night,
      ¬ (ghost.temporaryReservation.Occupies roomId night ∧ item.Occupies roomId night)) ∧
    ∀ date shift row, (d.handle build (.mouseMove date shift row)).1 = .ok () := by
  have hsound := reached_sound h
  have hghosts := fun ghost hghost => (hsound.property.contiguous ghost hghost).nonempty
  have hitems : ∀ item ∈ d.context.items, ∀ a ∈ item.atoms, a.dateRange.isNull = false := by
    intro item hitem
    obtain ⟨o, ho, rfl⟩ := List.mem_map.1 hitem
    exact (Reservation.isValid_iff.1 (hsound.board.consistent.valid o ho)).2.nonempty
  refine ⟨fun ghost hghost => ?_, ?_, fun ghost hghost item hitem roomId night => ?_,
    fun date shift row => ?_⟩
  · rw [Reservation.isValid_iff]
    have hcontiguous := hsound.property.contiguous ghost hghost
    by_cases hempty : ghost.temporaryReservation.atoms = []
    · exact Or.inl hempty
    · exact Or.inr ⟨hempty, hcontiguous⟩
  · apply hsound.property.apart.imp_of_mem
    intro ghost ghost' hghost hghost' hapart roomId night hboth
    have hmeet := (Reservation.intersectsWith_iff (hghosts ghost hghost) (hghosts ghost' hghost')).2
      ⟨roomId, night, hboth⟩
    rw [hapart] at hmeet
    cases hmeet
  · rintro ⟨hdrawn, hbooked⟩
    have hmeet := (Reservation.intersectsWith_iff (hitems item hitem) (hghosts ghost hghost)).2
      ⟨roomId, night, hbooked, hdrawn⟩
    rw [hsound.property.free ghost hghost item hitem] at hmeet
    cases hmeet
  · rw [handle]
    split
    · exact (disjoint_move hsound.board.consistent hsound.property date shift row).1
    · rfl

/-- One night is drawn in a room of an empty board. -/
theorem selections_never_conflict_oneNight : ∃ d : Drawing, Reached .debug d ∧
    d.tool.ghosts.map (fun ghost => ghost.temporaryReservation.atoms) =
      [Reservation.oneNight.atoms] ∧
    ∀ ghost ∈ d.tool.all, ghost.temporaryReservation.atoms = [] ∨
      ghost.temporaryReservation.isValid = true := by
  have h₀ : Reached .debug { tool := {} } := .init rfl
  have h₁ := h₀.step ⟨.load, rfl⟩
  have h₂ := h₁.step ⟨.mousePress (some 1) ⟨2458850, by decide, by decide⟩, rfl⟩
  have h₃ := h₂.step ⟨.mouseMove ⟨2458851, by decide, by decide⟩ false none, rfl⟩
  have h₄ := h₃.step ⟨.mouseRelease, rfl⟩
  exact ⟨_, h₄, by decide +kernel, (selections_never_conflict h₄).1⟩

end Drawing

end HotelPms

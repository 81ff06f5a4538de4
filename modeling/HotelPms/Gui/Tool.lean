import HotelPms.Gui.Context
import HotelPms.Lib.Run

/- `gui::planningwidget::Tool`: what a tool of the planning widget hears of the board.

   The active tool hears of every reservation before it is added to the board, also
   if the board then refuses it. It hears of no removal, and an update is a removal
   and an addition. A tool that is not active is idle.

   `Keeps` is what a property of the tool and the reservations on the board has to
   meet so that no change of the board breaks it. -/
namespace HotelPms

/-- The board and a tool. -/
structure WithTool (τ : Type) where
  context : Context := {}
  active : Bool := false
  tool : τ

namespace WithTool
variable {τ : Type}

/-- `Context::addReservation`: what is thrown, and the state afterwards. -/
def addReservation (build : Build) (reservationAdded : τ → Reservation → τ) (s : WithTool τ)
    (reservation : Reservation) : Except Fault Unit × WithTool τ :=
  match build.assert (reservation.id != 0) "reservation.id() != 0" with
  | .error fault => (.error fault, s)
  | .ok _ =>
    let heard := { s with tool := if s.active then reservationAdded s.tool reservation else s.tool }
    match s.context.addReservation build reservation with
    | .ok context => (.ok (), { heard with context })
    | .error fault => (.error fault, heard)

/-- `Context::removeReservation` -/
def removeReservation (s : WithTool τ) (reservationId : Int) : WithTool τ :=
  { s with context := s.context.removeReservation reservationId }

/-- One turn of the loop of `PlanningWidget::reservationsUpdated`. -/
def updateReservation (build : Build) (reservationAdded : τ → Reservation → τ) (s : WithTool τ)
    (reservation : Reservation) : Except Fault Unit × WithTool τ :=
  (s.removeReservation reservation.id).addReservation build reservationAdded reservation

/-- A property of the reservations on the board and the tool that changes of the board keep. -/
structure Keeps (reservationAdded : τ → Reservation → τ) (idle : τ)
    (P : List Reservation → τ → Prop) : Prop where
  idle : ∀ items, P items idle
  fewer : ∀ {items items' tool}, P items tool → items' ⊆ items → P items' tool
  heard : ∀ {items tool} r, P items tool → P (items ++ [r]) (reservationAdded tool r)

/-- The board is consistent, the tool is idle unless it is active, and the property holds. -/
structure Sound (idle : τ) (P : List Reservation → τ → Prop) (s : WithTool τ) : Prop where
  board : s.context.Sound
  inactive : s.active = false → s.tool = idle
  property : P s.context.items s.tool

variable {build : Build} {reservationAdded : τ → Reservation → τ} {idle : τ}
  {P : List Reservation → τ → Prop} {s : WithTool τ}

theorem sound_removeReservation (hP : Keeps reservationAdded idle P) (h : Sound idle P s) (id : Int) :
    Sound idle P (s.removeReservation id) := by
  obtain ⟨hboard, hsublist⟩ := Context.removeReservation_sublist h.board id
  exact ⟨hboard, h.inactive, hP.fewer h.property hsublist.subset⟩

theorem sound_addReservation (hP : Keeps reservationAdded idle P) (h : Sound idle P s)
    (r : Reservation) : Sound idle P (s.addReservation build reservationAdded r).2 := by
  rw [addReservation]
  cases build.assert (r.id != 0) "reservation.id() != 0" with
  | error fault => exact h
  | ok _ =>
    have hheard : P (s.context.items ++ [r]) (if s.active then reservationAdded s.tool r else s.tool) := by
      split
      · exact hP.heard r h.property
      · next hactive =>
        rw [h.inactive (by simpa using hactive)]
        exact hP.idle _
    have hinactive : s.active = false →
        (if s.active then reservationAdded s.tool r else s.tool) = idle := by
      intro hactive
      rw [if_neg (by simp [hactive])]
      exact h.inactive hactive
    cases hadd : s.context.addReservation build r with
    | error fault => exact ⟨h.board, hinactive, hP.fewer hheard (List.subset_append_left _ _)⟩
    | ok context =>
      obtain ⟨-, hboard, hitems, -⟩ := Context.of_addReservation_ok h.board hadd
      refine ⟨hboard, hinactive, ?_⟩
      rw [hitems]
      exact hheard

theorem sound_updateReservation (hP : Keeps reservationAdded idle P) (h : Sound idle P s)
    (r : Reservation) : Sound idle P (s.updateReservation build reservationAdded r).2 :=
  sound_addReservation hP (sound_removeReservation hP h r.id) r

end WithTool

end HotelPms

import HotelPms.Gui.EditReservation

/- Saving a reservation that nobody has edited.

   A reservation goes into the form of the dialog and comes out of it again. The
   widgets keep what is within their ranges: the combo box has no item for
   `Unknown`, and the spin boxes end at 10 (`formValues_setFormValues_iff`). So an
   update that is saved without editing is the reservation that was delivered exactly
   if the form can display it (`unedited_save_iff`). -/
namespace HotelPms
open Lib

namespace Form

variable {lineEdit : LineEdit}

/-- A field comes back as it was exactly if the form shows its value. -/
theorem formValues_field_iff {tuple : FormTuple} {field : FormField} :
    (setFormValues lineEdit tuple).formValues field = tuple field ↔
      Shows lineEdit field (tuple field) := by
  constructor
  · intro h
    rw [← h]
    exact shows_formValues (setFormValues lineEdit tuple) field
  · exact formValues_setFormValues

theorem formValues_setFormValues_iff (r : Reservation) :
    (setFormValues lineEdit (itemToTuple r)).formValues = itemToTuple r ↔
      EditSession.Displayable lineEdit r := by
  rw [funext_iff]
  exact forall_congr' fun field => formValues_field_iff

@[simp] theorem setItemFromTuple_itemToTuple (r : Reservation) : setItemFromTuple r (itemToTuple r) = r := rfl

/-- The reservation that comes out of the form. -/
def resaved (lineEdit : LineEdit) (r : Reservation) : Reservation :=
  setItemFromTuple r (setFormValues lineEdit (itemToTuple r)).formValues

theorem resaved_eq_iff {r : Reservation} :
    resaved lineEdit r = r ↔ EditSession.Displayable lineEdit r := by
  rw [← formValues_setFormValues_iff]
  constructor
  · intro h
    have hvalues := congrArg itemToTuple h
    rwa [resaved, itemToTuple_setItemFromTuple] at hvalues
  · intro h
    rw [resaved, h, setItemFromTuple_itemToTuple]

end Form

namespace EditSession

variable {lineEdit : LineEdit} {build : Build} {s s' : EditSession lineEdit}

/-- The user does nothing but save. -/
def Unedited : EditEvent lineEdit → Prop
  | .receive _ => True
  | .saveClicked => True
  | .saveTaskUpdated _ => True
  | _ => False

/-- The runs in which the user does nothing but save. -/
def ReachedUnedited (build : Build) (s : EditSession lineEdit) : Prop :=
  Reachable (fun s => s = {}) (fun s s' => ∃ event, Unedited event ∧ Step build event s s') s

/-- The form shows the version that was delivered, as far as it can. -/
structure Untouched (s : EditSession lineEdit) : Prop where
  reference : ∀ r ∈ s.dialog.referenceVersion, r ∈ s.versions ∧
    s.dialog.form = .setFormValues lineEdit (Form.itemToTuple r)
  submitted : ∀ submission ∈ s.submitted, ∃ r ∈ s.versions,
    submission.reservation = Form.resaved lineEdit r

theorem untouched_init : Untouched ({} : EditSession lineEdit) := ⟨by simp, by simp⟩

/-- A change of the stream leaves the version and the form, or sets both. -/
theorem reference_applyChange {d d' : EditReservationDialog lineEdit} {change : DataStreamChange}
    (h : d.applyChange build change = .ok d') {r : Reservation} (hr : d'.referenceVersion = some r) :
    (d.referenceVersion = some r ∧ d'.form = d.form) ∨
      (∃ items, change.items = some (.reservations items) ∧ r ∈ items) ∧
        d'.form = .setFormValues lineEdit (Form.itemToTuple r) := by
  cases change with
  | itemsAdded newItems =>
    obtain ⟨reservations, hget, h⟩ := Except.bind_eq_ok.1 h
    cases newItems with
    | hotels items => cases hget
    | reservations items =>
      cases hget
      obtain ⟨reservation, rest, rfl, rfl⟩ := EditReservationDialog.of_reservationsAdded h
      cases hr
      exact Or.inr ⟨⟨_, rfl, List.mem_cons_self⟩, rfl⟩
  | itemsUpdated updatedItems =>
    obtain ⟨reservations, -, h⟩ := Except.bind_eq_ok.1 h
    obtain ⟨newVersion, rest, -, rfl⟩ := EditReservationDialog.of_reservationsUpdated h
    exact Or.inl ⟨hr, rfl⟩
  | itemsRemoved removedItems =>
    rw [EditReservationDialog.of_reservationsRemoved h] at hr
    cases hr
  | initialized =>
    rw [EditReservationDialog.of_reservationsInitialized h] at hr ⊢
    exact Or.inl ⟨hr, rfl⟩
  | cleared =>
    cases h
    cases hr

theorem Untouched.receive (h : Untouched s) {change : DataStreamChange}
    {dialog : EditReservationDialog lineEdit} (happlied : s.dialog.applyChange build change = .ok dialog)
    (marks : Marks) : Untouched { s with dialog, received := s.received ++ [change], marks } where
  reference r hr := by
    rcases reference_applyChange happlied hr with ⟨hold, hform⟩ | ⟨⟨items, hitems, hmem⟩, hform⟩
    · obtain ⟨hsent, hshown⟩ := h.reference r hold
      exact ⟨s.versions_append dialog change marks hsent, hform.trans hshown⟩
    · exact ⟨s.mem_versions dialog marks hitems hmem, hform⟩
  submitted submission hmem := by
    obtain ⟨r, hsent, hsaved⟩ := h.submitted submission hmem
    exact ⟨r, s.versions_append dialog change marks hsent, hsaved⟩

theorem Untouched.save (h : Untouched s) {reservation : Reservation}
    {dialog : EditReservationDialog lineEdit}
    (hclicked : s.dialog.saveClicked build = .ok (reservation, dialog)) :
    Untouched { s with dialog, submitted := s.submitted ++ [⟨reservation, s.marks⟩] } := by
  obtain ⟨reference, hreference, rfl, rfl⟩ := EditReservationDialog.of_saveClicked hclicked
  obtain ⟨hsent, hform⟩ := h.reference reference hreference
  refine ⟨h.reference, fun submission hmem => ?_⟩
  rcases List.mem_append.1 hmem with hmem | hmem
  · exact h.submitted submission hmem
  · rw [List.mem_singleton.1 hmem]
    exact ⟨reference, hsent, by rw [hform, Form.resaved]⟩

theorem untouched_step {event : EditEvent lineEdit} (h : Untouched s) (hunedited : Unedited event)
    (hs : Step build event s s') : Untouched s' := by
  cases hs with
  | receive _ change dialog applied => exact h.receive applied _
  | saveClicked _ enabled saveEnabled noBox reservation dialog clicked => exact h.save clicked
  | saveTaskUpdated _ saving results dialog updated =>
    rcases EditReservationDialog.of_saveTaskUpdated updated with rfl | rfl
    · exact ⟨h.reference, h.submitted⟩
    · exact ⟨h.reference, h.submitted⟩
  | edit | mergeChangesClicked | choose => exact absurd hunedited id

theorem reached_untouched (h : ReachedUnedited build s) : Untouched s := by
  refine Reachable.invariant (I := Untouched) ?_ ?_ h
  · intro s hs
    rw [hs]
    exact untouched_init
  · intro s s' huntouched hs
    obtain ⟨event, hunedited, hstep⟩ := hs
    exact untouched_step huntouched hunedited hstep

theorem saved_at_once (lineEdit : LineEdit) (build : Build) (r : Reservation) :
    ∃ s : EditSession lineEdit, ReachedUnedited build s ∧
      s.received = [.itemsAdded (.reservations [r]), .initialized] ∧
      s.submitted.map (·.reservation) = [Form.resaved lineEdit r] := by
  have h₀ : ReachedUnedited build ({} : EditSession lineEdit) := .init rfl
  obtain ⟨_ | _⟩ := build
  all_goals
    have h₁ := h₀.step ⟨.receive (.itemsAdded (.reservations [r])), trivial, .receive _ _ _ rfl⟩
    have h₂ := h₁.step ⟨.receive .initialized, trivial, .receive _ _ _ rfl⟩
    have h₃ := h₂.step ⟨.saveClicked, trivial, .saveClicked _ rfl rfl rfl _ _ rfl⟩
    exact ⟨_, h₃, rfl, rfl⟩

/-- The form gives a reservation back as it was exactly if it can display all its fields.
    In every run in which the user does nothing but save, each update is what comes out
    of the form for a version that was delivered, and so it is this version exactly if
    the form can display it. Every reservation can be delivered and saved. -/
theorem unedited_save_iff (lineEdit : LineEdit) (build : Build) :
    (∀ r : Reservation, (Form.setFormValues lineEdit (Form.itemToTuple r)).formValues = Form.itemToTuple r ↔
      Displayable lineEdit r) ∧
    (∀ s : EditSession lineEdit, ReachedUnedited build s → ∀ submission ∈ s.submitted,
      ∃ r ∈ s.versions, submission.reservation.id = r.id ∧ submission.reservation.revision = r.revision ∧
        (submission.reservation = r ↔ Displayable lineEdit r)) ∧
    ∀ r : Reservation, ∃ s : EditSession lineEdit, ReachedUnedited build s ∧
      s.received = [.itemsAdded (.reservations [r]), .initialized] ∧
      ∃ submission, s.submitted.map (·.reservation) = [submission] ∧
        (submission = r ↔ Displayable lineEdit r) := by
  refine ⟨Form.formValues_setFormValues_iff, fun s hs submission hmem => ?_, fun r => ?_⟩
  · obtain ⟨r, hsent, hsaved⟩ := (reached_untouched hs).submitted submission hmem
    rw [hsaved]
    exact ⟨r, hsent, rfl, rfl, Form.resaved_eq_iff⟩
  · obtain ⟨s, hs, hreceived, hsubmitted⟩ := saved_at_once lineEdit build r
    exact ⟨s, hs, hreceived, Form.resaved lineEdit r, hsubmitted, Form.resaved_eq_iff⟩

/-- A party of eleven adults is delivered, and saved as one of ten under the same revision. -/
theorem adults_are_clamped : ∃ s : EditSession shortTexts, ReachedUnedited .debug s ∧
    s.received = [.itemsAdded (.reservations [versionOf 1 "Party" 11]), .initialized] ∧
    s.submitted.map (·.reservation) = [versionOf 1 "Party" 10] :=
  saved_at_once shortTexts .debug (versionOf 1 "Party" 11)

end EditSession

end HotelPms

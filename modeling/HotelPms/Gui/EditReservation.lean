import HotelPms.Lib.PlaceMarkers
import HotelPms.Lib.Run
import HotelPms.Persistence.Operations

/- `gui::dialogs::EditReservationDialog`: one reservation in a form.

   The dialog holds the version it edits against, the newest version its stream has
   sent, and the form. *Resolve conflicts* merges the newest version into the form.
   For each field that both sides changed it opens a message box, whose event loop
   goes on to deliver changes of the stream, and when the last box is closed the
   dialog adopts the newest version it has by then. That may be newer than the
   version it has merged (`update_lost`). The text of a box is filled by a chain of
   `arg`, so a place marker in a description can keep it from showing the value of the
   other side. A form also does not show every version as it is: its widgets have
   their ranges.

   `saves_fit` says that this is all that can go wrong: in every run in which the
   form can show what it is given, no description has a place marker that gets in the
   way, and no box is closed on a newer version than the merged one, each value that
   is saved is that of the version saved against, or was set by the user. -/
namespace HotelPms
open Lib
open PlaceMarkers (arg markers)

/-! ## The form -/

/-- A `QLineEdit`, of which `text` is what `text()` returns after `setText`. -/
structure LineEdit where
  text : String → String
  text_text : ∀ s, text (text s) = text s
  text_empty : text "" = ""

/-- A `QSpinBox` with `setRange(0, 10)`. -/
structure SpinBox where
  value : Int
  lower : 0 ≤ value
  upper : value ≤ 10

/-- `setValue`, which a range bounds. -/
def SpinBox.setValue (n : Int) : SpinBox :=
  ⟨max 0 (min n 10), le_max_left _ _, max_le (by decide) (min_le_right _ _)⟩

def SpinBox.InRange (n : Int) : Prop := 0 ≤ n ∧ n ≤ 10

instance (n : Int) : Decidable (SpinBox.InRange n) := inferInstanceAs (Decidable (_ ∧ _))

theorem SpinBox.value_setValue {n : Int} (h : InRange n) : (setValue n).value = n := by
  show max 0 (min n 10) = n
  rw [min_eq_left h.2, max_eq_right h.1]

/-- The `QComboBox` with the five statuses; the index is -1 if none is selected. -/
structure ComboBox where
  currentIndex : Int
  lower : -1 ≤ currentIndex
  upper : currentIndex ≤ 4

/-- `setCurrentIndex`, which selects nothing for an index out of range. -/
def ComboBox.setCurrentIndex (i : Int) : ComboBox :=
  if h : 0 ≤ i ∧ i ≤ 4 then ⟨i, by omega, h.2⟩ else ⟨-1, le_rfl, by decide⟩

/-- The enumerator as an `int`. -/
def ReservationStatus.toInt : ReservationStatus → Int
  | .unknown => 0
  | .temporary => 1
  | .new => 2
  | .confirmed => 3
  | .checkedIn => 4
  | .checkedOut => 5
  | .archived => 6

/-- `static_cast<ReservationStatus>` -/
def ReservationStatus.ofInt (n : Int) : ReservationStatus :=
  if n = 1 then .temporary
  else if n = 2 then .new
  else if n = 3 then .confirmed
  else if n = 4 then .checkedIn
  else if n = 5 then .checkedOut
  else if n = 6 then .archived
  else .unknown

inductive FormField where
  | status
  | description
  | numberOfAdults
  | numberOfChildren
  deriving DecidableEq

/-- `Form::Value`, which for each field is one of its alternatives. -/
def FormField.Value : FormField → Type
  | .status => ReservationStatus
  | .description => String
  | .numberOfAdults => Int
  | .numberOfChildren => Int

instance (field : FormField) : DecidableEq field.Value :=
  match field with
  | .status => inferInstanceAs (DecidableEq ReservationStatus)
  | .description => inferInstanceAs (DecidableEq String)
  | .numberOfAdults => inferInstanceAs (DecidableEq Int)
  | .numberOfChildren => inferInstanceAs (DecidableEq Int)

/-- `Form::Tuple` -/
abbrev FormTuple := ∀ field : FormField, field.Value

/-- The widgets of the form. -/
structure Form (lineEdit : LineEdit) where
  cbxStatus : ComboBox
  txtDescription : String
  spbNumberOfAdults : SpinBox
  spbNumberOfChildren : SpinBox
  /-- The text is one that the widget can have. -/
  fits : lineEdit.text txtDescription = txtDescription

namespace Form

variable {lineEdit : LineEdit}

/-- The form as the constructor leaves it. -/
def new (lineEdit : LineEdit) : Form lineEdit where
  cbxStatus := .setCurrentIndex 0
  txtDescription := ""
  spbNumberOfAdults := .setValue 0
  spbNumberOfChildren := .setValue 0
  fits := lineEdit.text_empty

def formValues (form : Form lineEdit) : FormTuple
  | .status => ReservationStatus.ofInt (form.cbxStatus.currentIndex + 2)
  | .description => form.txtDescription
  | .numberOfAdults => form.spbNumberOfAdults.value
  | .numberOfChildren => form.spbNumberOfChildren.value

/-- Every widget is set. -/
def setFormValues (lineEdit : LineEdit) (tuple : FormTuple) : Form lineEdit where
  cbxStatus := .setCurrentIndex (ReservationStatus.toInt (tuple .status) - 2)
  txtDescription := lineEdit.text (tuple .description)
  spbNumberOfAdults := .setValue (tuple .numberOfAdults)
  spbNumberOfChildren := .setValue (tuple .numberOfChildren)
  fits := lineEdit.text_text (tuple .description)

def itemToTuple (item : Reservation) : FormTuple
  | .status => item.status
  | .description => item.description
  | .numberOfAdults => item.adults
  | .numberOfChildren => item.children

def setItemFromTuple (item : Reservation) (tuple : FormTuple) : Reservation :=
  { item with
    status := tuple .status
    description := tuple .description
    adults := tuple .numberOfAdults
    children := tuple .numberOfChildren }

@[simp] theorem itemToTuple_setItemFromTuple (item : Reservation) (tuple : FormTuple) :
    itemToTuple (setItemFromTuple item tuple) = tuple := by
  funext field
  cases field with
  | status | description | numberOfAdults | numberOfChildren => rfl

/-- The form shows a value of a field as it is. -/
def Shows (lineEdit : LineEdit) : (field : FormField) → field.Value → Prop
  | .status, status => status ≠ .unknown
  | .description, text => lineEdit.text text = text
  | .numberOfAdults, n => SpinBox.InRange n
  | .numberOfChildren, n => SpinBox.InRange n

theorem shows_formValues (form : Form lineEdit) (field : FormField) :
    Shows lineEdit field (form.formValues field) := by
  cases field with
  | status =>
    have hlower := form.cbxStatus.lower
    have hupper := form.cbxStatus.upper
    show ReservationStatus.ofInt (form.cbxStatus.currentIndex + 2) ≠ .unknown
    generalize form.cbxStatus.currentIndex = i at hlower hupper
    interval_cases i <;> decide
  | description => exact form.fits
  | numberOfAdults => exact ⟨form.spbNumberOfAdults.lower, form.spbNumberOfAdults.upper⟩
  | numberOfChildren => exact ⟨form.spbNumberOfChildren.lower, form.spbNumberOfChildren.upper⟩

theorem formValues_setFormValues {tuple : FormTuple} {field : FormField}
    (h : Shows lineEdit field (tuple field)) :
    (setFormValues lineEdit tuple).formValues field = tuple field := by
  cases field with
  | status =>
    show ReservationStatus.ofInt ((ComboBox.setCurrentIndex
      (ReservationStatus.toInt (tuple .status) - 2)).currentIndex + 2) = tuple .status
    have hne : tuple .status ≠ ReservationStatus.unknown := h
    generalize tuple .status = status at hne
    cases status with
    | unknown => exact absurd rfl hne
    | temporary | new | confirmed | checkedIn | checkedOut | archived => rfl
  | description => exact h
  | numberOfAdults => exact SpinBox.value_setValue h
  | numberOfChildren => exact SpinBox.value_setValue h

end Form

/-! ## Merging -/

structure Resolution where
  merged : FormTuple
  conflicts : List FormField

namespace Resolver

/-- The indices of the loop. -/
def fields : List FormField := [.status, .description, .numberOfAdults, .numberOfChildren]

/-- One turn of the loop: the merged value, which is none for a conflict. -/
def mergeField (base ours theirs : FormTuple) (field : FormField) : Option field.Value :=
  if ours field = theirs field then some (ours field)
  else if base field ≠ ours field ∧ base field = theirs field then some (ours field)
  else if base field = ours field ∧ base field ≠ theirs field then some (theirs field)
  else none

def merge (base ours theirs : FormTuple) : Resolution where
  merged field := (mergeField base ours theirs field).getD (base field)
  conflicts := fields.filter fun field => (mergeField base ours theirs field).isNone

/-- Whether the value of a field is taken from the other side. -/
def takesTheirs (base ours theirs : FormTuple) (field : FormField) : Bool :=
  decide (ours field ≠ theirs field) && decide (base field = ours field)

end Resolver

/-! ## Message boxes -/

/-- The message box that is open, and the local variables of the loop around it. -/
structure ConflictBox where
  base : FormTuple
  ours : FormTuple
  theirs : FormTuple
  merged : FormTuple
  conflict : FormField
  /-- the conflicts that are still to come -/
  rest : List FormField

/-- The buttons of a message box. -/
inductive ConflictButton where
  | base
  | our
  | their

/-- What is merged, for the button clicked. -/
def ConflictBox.choose (box : ConflictBox) : ConflictButton → FormTuple
  | .base => box.merged
  | .our => Function.update box.merged box.conflict (box.ours box.conflict)
  | .their => Function.update box.merged box.conflict (box.theirs box.conflict)

/-! ## The text of a message box -/

/-- The label of a field in `getWidgets`. -/
def FormField.label : FormField → String
  | .status => "Status:"
  | .description => "Description:"
  | .numberOfAdults => "Number of adults:"
  | .numberOfChildren => "Number of children:"

/-- The names in `valueToStr`. -/
def ReservationStatus.name : ReservationStatus → String
  | .unknown => "Unknown"
  | .temporary => "Temporary"
  | .new => "New"
  | .confirmed => "Confirmed"
  | .checkedIn => "CheckedIn"
  | .checkedOut => "CheckedOut"
  | .archived => "Archived"

def FormField.valueToStr : (field : FormField) → field.Value → String
  | .status, value => ReservationStatus.name value
  | .description, value => value
  | .numberOfAdults, value => toString (show Int from value)
  | .numberOfChildren, value => toString (show Int from value)

namespace ConflictBox

/-- The first lines of the text. -/
def question : List Char :=
  "Failed to automatically merge a field. Please choose which value to keep:\n\n".toList

/-- The text of the box before the values are put in. -/
def template : List Char :=
  question ++ "%1\nBase version: \t%2\nOur version: \t%3\nTheir version: \t%4".toList

def baseLabel : List Char := "\nBase version: \t".toList

def ourLabel : List Char := "\nOur version: \t".toList

def theirLabel : List Char := "\nTheir version: \t".toList

theorem template_eq : template = question ++
    '%' :: '1' :: (baseLabel ++ '%' :: '2' :: (ourLabel ++ '%' :: '3' :: (theirLabel ++ ['%', '4']))) :=
  congrArg (question ++ ·) rfl

variable (box : ConflictBox)

/-- The value of the field in conflict, as the box is given it. -/
def str (tuple : FormTuple) : List Char := (box.conflict.valueToStr (tuple box.conflict)).toList

def text : List Char :=
  arg (arg (arg (arg template box.conflict.label.toList) (box.str box.base)) (box.str box.ours))
    (box.str box.theirs)

/-- The value of the other side, if the text shows it. -/
def shownTheirs : Option box.conflict.Value :=
  if theirLabel ++ box.str box.theirs <:+ box.text then some (box.theirs box.conflict)
  else none

/-- No value before that of the other side has a place marker that is replaced before its own. -/
def PlacesTheirs : Prop := ∀ n ∈ markers (box.str box.base) ++ markers (box.str box.ours), 4 ≤ n

instance : Decidable box.PlacesTheirs := inferInstanceAs (Decidable (∀ _ ∈ _, _))

theorem percent_not_mem_toString (n : Int) : '%' ∉ (toString n).toList := by
  have hdigits : ∀ n : Nat, '%' ∉ (toString n).toList := by
    intro n hmem
    rw [Nat.toString_eq_repr, Nat.toList_repr] at hmem
    cases Nat.isDigit_of_mem_toDigits (by decide) (by decide) hmem
  cases n with
  | ofNat n => exact hdigits n
  | negSucc n =>
    show '%' ∉ ("-" ++ toString n.succ).toList
    rw [String.toList_append, List.mem_append, not_or]
    exact ⟨by decide, hdigits n.succ⟩

theorem placesTheirs_of_ne (h : box.conflict ≠ .description) : box.PlacesTheirs := by
  have hnone : ∀ tuple, markers (box.str tuple) = [] := by
    intro tuple
    have hpercent : '%' ∉ box.str tuple := by
      unfold str
      generalize tuple box.conflict = value
      generalize box.conflict = field at h value
      cases field with
      | status =>
        cases (value : ReservationStatus) with
        | unknown | temporary | new | confirmed | checkedIn | checkedOut | archived => decide
      | description => exact absurd rfl h
      | numberOfAdults | numberOfChildren => exact percent_not_mem_toString value
    have hmarkers : markers (box.str tuple ++ []) = [] := PlaceMarkers.markers_of_not_mem hpercent
    rwa [List.append_nil] at hmarkers
  intro n hn
  rw [hnone, hnone] at hn
  cases hn

theorem percent_not_mem_label : '%' ∉ question ++ (box.conflict.label.toList ++ baseLabel) := by
  cases box.conflict with
  | status | description | numberOfAdults | numberOfChildren => decide

/-- A text that places the value of the other side ends with it, behind its label. -/
theorem shownTheirs_eq (h : box.PlacesTheirs) : box.shownTheirs = some (box.theirs box.conflict) := by
  have hours : PlaceMarkers.Breaks ourLabel := by decide
  have htheirs : PlaceMarkers.Breaks theirLabel := by decide
  -- what stands before the value of the base version
  let before := question ++ (box.conflict.label.toList ++ baseLabel)
  have hbefore : ∀ ys, markers (before ++ ys) = markers ys :=
    fun ys => PlaceMarkers.markers_of_not_mem box.percent_not_mem_label
  have hlabel : arg template box.conflict.label.toList =
      before ++ '%' :: '2' :: (ourLabel ++ '%' :: '3' :: (theirLabel ++ ['%', '4'])) := by
    rw [template_eq, PlaceMarkers.arg_of_lower (n := 1) rfl (by decide) (by decide) (by decide)]
    simp [before]
  have hbase : arg (arg template box.conflict.label.toList) (box.str box.base) =
      before ++ (box.str box.base ++ ourLabel) ++ '%' :: '3' :: (theirLabel ++ ['%', '4']) := by
    have hnone : ∀ m ∈ markers before, 2 < m := by
      have hmarkers := hbefore []
      rw [List.append_nil] at hmarkers
      simp [hmarkers, markers]
    rw [hlabel, PlaceMarkers.arg_of_lower (n := 2) rfl (by decide) hnone (by decide)]
    simp
  have hmarkers : markers (before ++ (box.str box.base ++ ourLabel)) = markers (box.str box.base) := by
    rw [hbefore, PlaceMarkers.markers_append hours]
    exact List.append_nil _
  have hour : arg (arg (arg template box.conflict.label.toList) (box.str box.base)) (box.str box.ours) =
      before ++ (box.str box.base ++ ourLabel) ++ box.str box.ours ++ theirLabel ++ '%' :: '4' :: [] := by
    rw [hbase, PlaceMarkers.arg_of_lower (n := 3) rfl (by decide) ?_ (by decide)]
    · simp
    · rw [hmarkers]
      exact fun m hm => h m (List.mem_append_left _ hm)
  have hlast : ∀ m ∈ markers (before ++ (box.str box.base ++ ourLabel) ++ box.str box.ours ++ theirLabel),
      4 ≤ m := by
    have hbreaks : PlaceMarkers.Breaks (ourLabel ++ box.str box.ours) := hours
    have hpercent : '%' ∉ ourLabel := by decide
    have hall : markers (before ++ (box.str box.base ++ ourLabel) ++ box.str box.ours ++ theirLabel) =
        markers (box.str box.base) ++ markers (box.str box.ours) := by
      rw [PlaceMarkers.markers_append htheirs, List.append_assoc before, hbefore, List.append_assoc,
        PlaceMarkers.markers_append hbreaks, PlaceMarkers.markers_of_not_mem hpercent]
      exact List.append_nil _
    rw [hall]
    exact h
  have hnot : 4 ∉ markers theirLabel := by decide
  have htext : box.text = PlaceMarkers.fill 4 (box.str box.theirs) 0
      (before ++ (box.str box.base ++ ourLabel) ++ box.str box.ours) ++ (theirLabel ++ box.str box.theirs) := by
    rw [text, hour, PlaceMarkers.arg_of_lowest (n := 4) rfl (by decide) hlast (by decide),
      PlaceMarkers.fill_append 4 _ htheirs (Nat.zero_le _), PlaceMarkers.fill_of_not_mem _ hnot]
    simp [PlaceMarkers.fill]
  rw [shownTheirs, if_pos]
  rw [htext]
  exact List.suffix_append _ _

set_option maxRecDepth 2000 in
/-- Where they have one, what was typed and what the other side has can change places. -/
example (base ours theirs : Reservation) (hbase : base.description = "%1") (hours : ours.description = "%1x")
    (htheirs : theirs.description = "Theirs") (merged : FormTuple) (rest : List FormField) :
    text { base := Form.itemToTuple base, ours := Form.itemToTuple ours, theirs := Form.itemToTuple theirs,
           merged, conflict := .description, rest } = question ++
      "Description:\nBase version: \tTheirsx\nOur version: \t%3\nTheir version: \t%4".toList := by
  simp only [text, str, FormField.valueToStr, Form.itemToTuple, hbase, hours, htheirs, FormField.label]
  decide

end ConflictBox

/-! ## The dialog -/

inductive EditReservationStatus where
  | notInitialized
  | ready
  | removed
  | saving
  deriving DecidableEq

structure EditReservationDialog (lineEdit : LineEdit) where
  status : EditReservationStatus := .notInitialized
  referenceVersion : Option Reservation := none
  newestVersion : Option Reservation := none
  form : Form lineEdit := .new lineEdit
  /-- what `updateUI` has set: whether the dialog and its button *Save* are enabled, and
      whether *Resolve conflicts* is visible -/
  enabled : Bool := false
  saveEnabled : Bool := false
  mergeVisible : Bool := false
  /-- `exec()` of a message box runs. -/
  conflictBox : Option ConflictBox := none
  /-- A batch was queued whose results are not here yet. -/
  saveTask : Bool := false
  closed : Bool := false

namespace EditReservationDialog

variable {lineEdit : LineEdit}

def updateUI (d : EditReservationDialog lineEdit) : EditReservationDialog lineEdit :=
  { d with
    enabled := d.status == .ready && d.referenceVersion.isSome
    saveEnabled := d.status == .ready && d.newestVersion.isNone
    mergeVisible := d.status == .ready && d.newestVersion.isSome }

/-- The update that is queued, and the dialog. -/
def saveClicked (build : Build) (d : EditReservationDialog lineEdit) :
    Except Fault (Reservation × EditReservationDialog lineEdit) := do
  build.assert (d.status == .ready) "_status == Status::Ready"
  build.assert d.referenceVersion.isSome "_referenceVersion != std::nullopt"
  match d.referenceVersion with
  | none => .error (.logicError "*_referenceVersion")
  | some referenceVersion =>
    return (Form.setItemFromTuple referenceVersion d.form.formValues,
      updateUI { d with status := .saving, saveTask := true })

/-- `mergeChangesClicked` after its `if` -/
def adoptNewestVersion (d : EditReservationDialog lineEdit) : EditReservationDialog lineEdit :=
  updateUI { d with referenceVersion := d.newestVersion, newestVersion := none, conflictBox := none }

/-- `mergeChangesClicked` after the loop over the conflicts -/
def finishMerge (d : EditReservationDialog lineEdit) (merged : FormTuple) : EditReservationDialog lineEdit :=
  adoptNewestVersion { d with form := .setFormValues lineEdit merged }

/-- `mergeChangesClicked`, up to the first message box if there is a conflict. -/
def mergeChangesClicked (d : EditReservationDialog lineEdit) :
    Except Fault (EditReservationDialog lineEdit) :=
  match d.newestVersion, d.referenceVersion with
  | none, _ => .ok d.adoptNewestVersion
  | some _, none => .error (.logicError "*_referenceVersion")
  | some newestVersion, some referenceVersion =>
    let base := Form.itemToTuple referenceVersion
    let ours := d.form.formValues
    let theirs := Form.itemToTuple newestVersion
    let resolution := Resolver.merge base ours theirs
    match resolution.conflicts with
    | [] => .ok (d.finishMerge resolution.merged)
    | conflict :: rest => .ok { d with
        conflictBox := some { base, ours, theirs, merged := resolution.merged, conflict, rest } }

/-- A message box is closed with one of its buttons: the next one, or the end of the loop. -/
def buttonClicked (d : EditReservationDialog lineEdit) (box : ConflictBox) (button : ConflictButton) :
    EditReservationDialog lineEdit :=
  match box.rest with
  | [] => d.finishMerge (box.choose button)
  | conflict :: rest =>
    { d with conflictBox := some { box with merged := box.choose button, conflict, rest } }

def reservationsInitialized (build : Build) (d : EditReservationDialog lineEdit) :
    Except Fault (EditReservationDialog lineEdit) := do
  build.assert (d.status == .notInitialized) "_status == Status::NotInitialized"
  return updateUI { d with status := .ready }

def reservationsAdded (build : Build) (d : EditReservationDialog lineEdit)
    (reservations : List Reservation) : Except Fault (EditReservationDialog lineEdit) := do
  build.assert (d.status == .notInitialized) "_status == Status::NotInitialized"
  build.assert (reservations.length == 1) "reservations.size() == 1"
  build.assert d.referenceVersion.isNone "_referenceVersion == std::nullopt"
  match reservations with
  | [] => .error (.logicError "reservations[0]")
  | reservation :: _ => return { d with
      referenceVersion := some reservation
      form := .setFormValues lineEdit (Form.itemToTuple reservation) }

def reservationsUpdated (build : Build) (d : EditReservationDialog lineEdit)
    (reservations : List Reservation) : Except Fault (EditReservationDialog lineEdit) := do
  build.assert (reservations.length == 1) "reservations.size() == 1"
  build.assert d.referenceVersion.isSome "_referenceVersion != std::nullopt"
  match reservations with
  | [] => .error (.logicError "reservations[0]")
  | newVersion :: _ =>
    build.assert (d.referenceVersion.any fun reference => reference.revision < newVersion.revision)
      "newVersion.revision() > _referenceVersion->revision()"
    return updateUI { d with newestVersion := some newVersion }

def reservationsRemoved (build : Build) (d : EditReservationDialog lineEdit) (ids : List Int) :
    Except Fault (EditReservationDialog lineEdit) := do
  build.assert (ids.length == 1) "ids.size() == 1"
  build.assert d.referenceVersion.isSome "_referenceVersion != std::nullopt"
  build.assert (d.referenceVersion.any fun reference => ids.head? == some reference.id)
    "_referenceVersion->id() == ids[0]"
  return updateUI { d with referenceVersion := none, status := .removed }

def allReservationsRemoved (d : EditReservationDialog lineEdit) : EditReservationDialog lineEdit :=
  updateUI { d with referenceVersion := none, status := .removed }

/-- A change of the stream, as `DataStreamObserverAdapter` passes it on. -/
def applyChange (build : Build) (d : EditReservationDialog lineEdit) :
    DataStreamChange → Except Fault (EditReservationDialog lineEdit)
  | .itemsAdded newItems => do d.reservationsAdded build (← newItems.getReservations)
  | .itemsUpdated updatedItems => do d.reservationsUpdated build (← updatedItems.getReservations)
  | .itemsRemoved removedItems => d.reservationsRemoved build removedItems
  | .initialized => d.reservationsInitialized build
  | .cleared => .ok d.allReservationsRemoved

/-- The message of a failure is read before it is shown. -/
def saveTaskUpdated (d : EditReservationDialog lineEdit) (results : List TaskResult) :
    Except Fault (EditReservationDialog lineEdit) :=
  match results with
  | [] => .error (.logicError "results[0]")
  | result :: _ =>
    if result.status = .successful then .ok { d with closed := true, saveTask := false } else do
      let message ← result.result.field "message"
      let _ ← message.toStr
      return updateUI { d with status := .ready, saveTask := false }

/-! What a handler has done when it returns. -/

@[simp] theorem updateUI_referenceVersion (d : EditReservationDialog lineEdit) :
    d.updateUI.referenceVersion = d.referenceVersion := rfl

@[simp] theorem updateUI_newestVersion (d : EditReservationDialog lineEdit) :
    d.updateUI.newestVersion = d.newestVersion := rfl

@[simp] theorem updateUI_form (d : EditReservationDialog lineEdit) : d.updateUI.form = d.form := rfl

@[simp] theorem updateUI_conflictBox (d : EditReservationDialog lineEdit) :
    d.updateUI.conflictBox = d.conflictBox := rfl

/-- What can be clicked does not fail. -/
structure Flags (d : EditReservationDialog lineEdit) : Prop where
  enabled : d.enabled = true → d.status = .ready ∧ d.referenceVersion.isSome = true
  mergeVisible : d.mergeVisible = true → d.newestVersion.isSome = true

theorem flags_updateUI (d : EditReservationDialog lineEdit) : d.updateUI.Flags where
  enabled h := by simpa [updateUI] using h
  mergeVisible h := (Bool.and_eq_true _ _ ▸ h).2

variable {build : Build} {d d' : EditReservationDialog lineEdit}

theorem of_saveClicked {reservation : Reservation} (h : d.saveClicked build = .ok (reservation, d')) :
    ∃ reference, d.referenceVersion = some reference ∧
      reservation = Form.setItemFromTuple reference d.form.formValues ∧
      d' = updateUI { d with status := .saving, saveTask := true } := by
  obtain ⟨_, -, h⟩ := Except.bind_eq_ok.1 h
  obtain ⟨_, -, h⟩ := Except.bind_eq_ok.1 h
  cases hreference : d.referenceVersion with
  | none =>
    rw [hreference] at h
    cases h
  | some reference =>
    rw [hreference] at h
    cases h
    exact ⟨reference, rfl, rfl, rfl⟩

theorem of_reservationsInitialized (h : d.reservationsInitialized build = .ok d') :
    d' = updateUI { d with status := .ready } := by
  obtain ⟨_, -, h⟩ := Except.bind_eq_ok.1 h
  cases h
  rfl

theorem of_reservationsAdded {reservations : List Reservation}
    (h : d.reservationsAdded build reservations = .ok d') :
    ∃ reservation rest, reservations = reservation :: rest ∧ d' = { d with
      referenceVersion := some reservation
      form := .setFormValues lineEdit (Form.itemToTuple reservation) } := by
  obtain ⟨_, -, h⟩ := Except.bind_eq_ok.1 h
  obtain ⟨_, -, h⟩ := Except.bind_eq_ok.1 h
  obtain ⟨_, -, h⟩ := Except.bind_eq_ok.1 h
  cases reservations with
  | nil => cases h
  | cons reservation rest =>
    cases h
    exact ⟨reservation, rest, rfl, rfl⟩

theorem of_reservationsUpdated {reservations : List Reservation}
    (h : d.reservationsUpdated build reservations = .ok d') :
    ∃ newVersion rest, reservations = newVersion :: rest ∧
      d' = updateUI { d with newestVersion := some newVersion } := by
  obtain ⟨_, -, h⟩ := Except.bind_eq_ok.1 h
  obtain ⟨_, -, h⟩ := Except.bind_eq_ok.1 h
  cases reservations with
  | nil => cases h
  | cons newVersion rest =>
    obtain ⟨_, -, h⟩ := Except.bind_eq_ok.1 h
    cases h
    exact ⟨newVersion, rest, rfl, rfl⟩

theorem of_reservationsRemoved {ids : List Int} (h : d.reservationsRemoved build ids = .ok d') :
    d' = d.allReservationsRemoved := by
  obtain ⟨_, -, h⟩ := Except.bind_eq_ok.1 h
  obtain ⟨_, -, h⟩ := Except.bind_eq_ok.1 h
  obtain ⟨_, -, h⟩ := Except.bind_eq_ok.1 h
  cases h
  rfl

theorem of_saveTaskUpdated {results : List TaskResult} (h : d.saveTaskUpdated results = .ok d') :
    d' = { d with closed := true, saveTask := false } ∨
      d' = updateUI { d with status := .ready, saveTask := false } := by
  cases results with
  | nil => cases h
  | cons result rest =>
    rw [saveTaskUpdated] at h
    split at h
    · cases h
      exact Or.inl rfl
    · obtain ⟨message, -, h⟩ := Except.bind_eq_ok.1 h
      obtain ⟨text, -, h⟩ := Except.bind_eq_ok.1 h
      cases h
      exact Or.inr rfl

theorem of_mergeChangesClicked {newest : Reservation} (hnewest : d.newestVersion = some newest)
    (h : d.mergeChangesClicked = .ok d') : ∃ reference, d.referenceVersion = some reference ∧
      ∃ resolution, resolution = Resolver.merge (Form.itemToTuple reference) d.form.formValues
        (Form.itemToTuple newest) ∧
      (resolution.conflicts = [] ∧ d' = d.finishMerge resolution.merged ∨
        ∃ conflict rest, resolution.conflicts = conflict :: rest ∧ d' = { d with
          conflictBox := some {
            base := Form.itemToTuple reference, ours := d.form.formValues,
            theirs := Form.itemToTuple newest, merged := resolution.merged, conflict, rest } }) := by
  rw [mergeChangesClicked, hnewest] at h
  cases hreference : d.referenceVersion with
  | none =>
    rw [hreference] at h
    cases h
  | some reference =>
    rw [hreference] at h
    refine ⟨reference, rfl, _, rfl, ?_⟩
    dsimp only at h
    split at h
    · next hnone =>
      cases h
      exact Or.inl ⟨hnone, rfl⟩
    · next conflict rest hsome =>
      cases h
      exact Or.inr ⟨conflict, rest, hsome, by rw [hnewest]⟩

end EditReservationDialog

/-! ## The dialog in use -/

/-- How the value of a field came into the form: whether the user has typed it, and
    the other side's value as the message box showed it in which it was chosen. -/
structure Mark (field : FormField) where
  edited : Bool := false
  shown : Option field.Value := none

abbrev Marks := ∀ field : FormField, Mark field

/-- An update that the dialog has queued, and the marks of its fields then. -/
structure Submission where
  reservation : Reservation
  marks : Marks

structure EditSession (lineEdit : LineEdit) where
  dialog : EditReservationDialog lineEdit := {}
  /-- history: the changes of the stream -/
  received : List DataStreamChange := []
  /-- history: the marks of the form, and those of the values that are merged -/
  marks : Marks := fun _ => {}
  mergedMarks : Marks := fun _ => {}
  submitted : List Submission := []

inductive EditEvent (lineEdit : LineEdit) where
  | receive (change : DataStreamChange)
  /-- The user changes one field. -/
  | edit (field : FormField) (form : Form lineEdit)
  | saveClicked
  | mergeChangesClicked
  /-- A message box is closed. -/
  | choose (button : ConflictButton)
  | saveTaskUpdated (results : List TaskResult)

namespace EditSession

variable {lineEdit : LineEdit}

/-- The versions of the reservation that the stream has sent. -/
def versions (s : EditSession lineEdit) : List Reservation :=
  s.received.flatMap fun change =>
    match change.items with
    | some (.reservations items) => items
    | _ => []

/-- An addition fills the form. -/
def marksAfter (marks : Marks) : DataStreamChange → Marks
  | .itemsAdded _ => fun _ => {}
  | _ => marks

/-- The fields taken from the other side are unmarked. -/
def mergeMarks (s : EditSession lineEdit) : Marks := fun field =>
  match s.dialog.referenceVersion, s.dialog.newestVersion with
  | some reference, some newest =>
    if Resolver.takesTheirs (Form.itemToTuple reference) s.dialog.form.formValues
        (Form.itemToTuple newest) field then {} else s.marks field
  | _, _ => s.marks field

/-- The mark of a value that was chosen. -/
def chosenMark (box : ConflictBox) (mark : Mark box.conflict) : ConflictButton → Mark box.conflict
  | .our => { mark with shown := box.shownTheirs }
  | _ => { shown := box.shownTheirs }

/-- The merged values go into the form when no message box is open. -/
def merging (s : EditSession lineEdit) (dialog : EditReservationDialog lineEdit) (marks : Marks) :
    EditSession lineEdit :=
  { s with dialog, mergedMarks := marks, marks := if dialog.conflictBox.isSome then s.marks else marks }

/-- What can happen. While a message box is open the user cannot use the dialog; the
    stream goes on. A step that would stop on an assertion is no step. -/
inductive Step (build : Build) : EditEvent lineEdit → EditSession lineEdit → EditSession lineEdit → Prop where
  | receive (s : EditSession lineEdit) (change : DataStreamChange)
      (dialog : EditReservationDialog lineEdit) (applied : s.dialog.applyChange build change = .ok dialog) :
    Step build (.receive change) s { s with
      dialog, received := s.received ++ [change], marks := marksAfter s.marks change }
  | edit (s : EditSession lineEdit) (enabled : s.dialog.enabled = true)
      (noBox : s.dialog.conflictBox = none) (field : FormField) (form : Form lineEdit)
      (others : ∀ other, other ≠ field → form.formValues other = s.dialog.form.formValues other) :
    Step build (.edit field form) s { s with
      dialog := { s.dialog with form }
      marks := Function.update s.marks field { edited := true } }
  | saveClicked (s : EditSession lineEdit) (enabled : s.dialog.enabled = true)
      (saveEnabled : s.dialog.saveEnabled = true) (noBox : s.dialog.conflictBox = none)
      (reservation : Reservation) (dialog : EditReservationDialog lineEdit)
      (clicked : s.dialog.saveClicked build = .ok (reservation, dialog)) :
    Step build .saveClicked s { s with dialog, submitted := s.submitted ++ [⟨reservation, s.marks⟩] }
  | mergeChangesClicked (s : EditSession lineEdit) (enabled : s.dialog.enabled = true)
      (visible : s.dialog.mergeVisible = true) (noBox : s.dialog.conflictBox = none)
      (dialog : EditReservationDialog lineEdit) (clicked : s.dialog.mergeChangesClicked = .ok dialog) :
    Step build .mergeChangesClicked s (s.merging dialog s.mergeMarks)
  | choose (s : EditSession lineEdit) (box : ConflictBox) (shown : s.dialog.conflictBox = some box)
      (button : ConflictButton) :
    Step build (.choose button) s (s.merging (s.dialog.buttonClicked box button)
      (Function.update s.mergedMarks box.conflict
        (chosenMark box (s.mergedMarks box.conflict) button)))
  | saveTaskUpdated (s : EditSession lineEdit) (saving : s.dialog.saveTask = true)
      (results : List TaskResult) (dialog : EditReservationDialog lineEdit)
      (updated : s.dialog.saveTaskUpdated results = .ok dialog) :
    Step build (.saveTaskUpdated results) s { s with dialog }

/-- All that is possible from a dialog that was opened. -/
def Reached (build : Build) (s : EditSession lineEdit) : Prop :=
  Reachable (fun s => s = {}) (fun s s' => ∃ event, Step build event s s') s

/-- The form can show all fields of a version. -/
def Displayable (lineEdit : LineEdit) (version : Reservation) : Prop :=
  ∀ field, Form.Shows lineEdit field (Form.itemToTuple version field)

/-- The condition on a step: the form can show the version that is put into it or merged, no
    place marker keeps a message box from showing the value of the other side, and the last
    message box is not closed on another version than the merged one. -/
def Fits (s : EditSession lineEdit) : EditEvent lineEdit → Prop
  | .receive (.itemsAdded (.reservations items)) => ∀ version ∈ items.head?, Displayable lineEdit version
  | .mergeChangesClicked => ∀ version ∈ s.dialog.newestVersion, Displayable lineEdit version
  | .choose _ => ∀ box ∈ s.dialog.conflictBox, box.PlacesTheirs ∧
      (box.rest = [] → ∀ version ∈ s.dialog.newestVersion, Form.itemToTuple version = box.theirs)
  | _ => True

/-- The runs all of whose steps meet the condition. -/
def ReachedFitting (build : Build) (s : EditSession lineEdit) : Prop :=
  Reachable (fun s => s = {}) (fun s s' => ∃ event, s.Fits event ∧ Step build event s s') s

/-! ## What every step keeps -/

/-- The value of a field is that of a version, or was set by the user: typed, or chosen in
    a message box that showed the value of the version. -/
def Deliberate (mark : Mark field) (value version : field.Value) : Prop :=
  value = version ∨ mark.edited = true ∨ mark.shown = some version

/-- The message box that is open shows what is merged. -/
structure BoxSound (lineEdit : LineEdit) (marks : Marks) (box : ConflictBox) : Prop where
  ours : ∀ field, Form.Shows lineEdit field (box.ours field)
  theirs : ∀ field, Form.Shows lineEdit field (box.theirs field)
  merged : ∀ field, Form.Shows lineEdit field (box.merged field)
  settled : ∀ field, field ∉ box.conflict :: box.rest →
    Deliberate (marks field) (box.merged field) (box.theirs field)

structure Sound (s : EditSession lineEdit) : Prop where
  flags : s.dialog.Flags
  reference : ∀ version ∈ s.dialog.referenceVersion, version ∈ s.versions ∧
    Displayable lineEdit version ∧
    ∀ field, Deliberate (s.marks field) (s.dialog.form.formValues field) (Form.itemToTuple version field)
  newest : ∀ version ∈ s.dialog.newestVersion, version ∈ s.versions
  box : ∀ box ∈ s.dialog.conflictBox, BoxSound lineEdit s.mergedMarks box
  submitted : ∀ submission ∈ s.submitted, ∃ version ∈ s.versions,
    submission.reservation.id = version.id ∧ submission.reservation.revision = version.revision ∧
    ∀ field, Deliberate (submission.marks field) (Form.itemToTuple submission.reservation field)
      (Form.itemToTuple version field)

theorem sound_init : Sound ({} : EditSession lineEdit) where
  flags := ⟨by simp, by simp⟩
  reference := by simp
  newest := by simp
  box := by simp
  submitted := by simp

variable {build : Build} {s s' : EditSession lineEdit}

theorem versions_append (s : EditSession lineEdit) (dialog : EditReservationDialog lineEdit)
    (change : DataStreamChange) (marks : Marks) :
    s.versions ⊆ versions { s with dialog, received := s.received ++ [change], marks } := by
  intro version hversion
  rw [versions, List.flatMap_append]
  exact List.mem_append_left _ hversion

theorem mem_versions (s : EditSession lineEdit) (dialog : EditReservationDialog lineEdit)
    {change : DataStreamChange} (marks : Marks) {items : List Reservation} {version : Reservation}
    (hchange : change.items = some (.reservations items)) (hversion : version ∈ items) :
    version ∈ versions { s with dialog, received := s.received ++ [change], marks } := by
  rw [versions, List.flatMap_append]
  refine List.mem_append_right _ (List.mem_flatMap.2 ⟨change, List.mem_singleton_self change, ?_⟩)
  rw [hchange]
  exact hversion

theorem Sound.of_receive (h : Sound s) {change : DataStreamChange} {marks : Marks}
    {dialog : EditReservationDialog lineEdit} (hflags : dialog.Flags)
    (hreference : ∀ version ∈ dialog.referenceVersion, version ∈ s.dialog.referenceVersion)
    (hform : dialog.form = s.dialog.form) (hmarks : marks = s.marks)
    (hnewest : ∀ version ∈ dialog.newestVersion, version ∈ s.dialog.newestVersion ∨
      ∃ items, change.items = some (.reservations items) ∧ version ∈ items)
    (hbox : dialog.conflictBox = s.dialog.conflictBox) :
    Sound { s with dialog, received := s.received ++ [change], marks } := by
  have hversions := s.versions_append dialog change marks
  refine ⟨hflags, fun version hversion => ?_, fun version hversion => ?_, fun box hmem => ?_,
    fun submission hmem => ?_⟩
  · obtain ⟨hmem, hshown, hdeliberate⟩ := h.reference version (hreference version hversion)
    refine ⟨hversions hmem, hshown, fun field => ?_⟩
    show Deliberate (marks field) (dialog.form.formValues field) _
    rw [hform, hmarks]
    exact hdeliberate field
  · rcases hnewest version hversion with hold | ⟨items, hitems, hmem⟩
    · exact hversions (h.newest version hold)
    · exact s.mem_versions dialog marks hitems hmem
  · exact h.box box (hbox ▸ hmem)
  · obtain ⟨version, hversion, hsubmission⟩ := h.submitted submission hmem
    exact ⟨version, hversions hversion, hsubmission⟩

theorem sound_receive (h : Sound s) {change : DataStreamChange} {dialog : EditReservationDialog lineEdit}
    (hfits : s.Fits (.receive change)) (applied : s.dialog.applyChange build change = .ok dialog) :
    Sound { s with dialog, received := s.received ++ [change], marks := marksAfter s.marks change } := by
  cases change with
  | itemsAdded newItems =>
    obtain ⟨items, hitems, applied⟩ := Except.bind_eq_ok.1 applied
    cases newItems with
    | hotels _ => cases hitems
    | reservations reservations =>
      cases hitems
      obtain ⟨reservation, rest, rfl, rfl⟩ := EditReservationDialog.of_reservationsAdded applied
      have hshown : Displayable lineEdit reservation := hfits reservation rfl
      have hversions := s.versions_append { s.dialog with
        referenceVersion := some reservation
        form := .setFormValues lineEdit (Form.itemToTuple reservation) }
        (.itemsAdded (.reservations (reservation :: rest))) (fun _ => {})
      refine ⟨⟨fun henabled => ⟨(h.flags.enabled henabled).1, rfl⟩, h.flags.mergeVisible⟩,
        fun version hversion => ?_, fun version hversion => ?_, h.box, fun submission hmem => ?_⟩
      · cases hversion
        refine ⟨s.mem_versions _ _ rfl List.mem_cons_self, hshown, fun field => Or.inl ?_⟩
        exact Form.formValues_setFormValues (hshown field)
      · exact hversions (h.newest version hversion)
      · obtain ⟨version, hversion, hsubmission⟩ := h.submitted submission hmem
        exact ⟨version, hversions hversion, hsubmission⟩
  | itemsUpdated updatedItems =>
    obtain ⟨items, hitems, applied⟩ := Except.bind_eq_ok.1 applied
    cases updatedItems with
    | hotels _ => cases hitems
    | reservations reservations =>
      cases hitems
      obtain ⟨newVersion, rest, rfl, rfl⟩ := EditReservationDialog.of_reservationsUpdated applied
      refine h.of_receive (EditReservationDialog.flags_updateUI _) (fun _ hversion => hversion) rfl rfl
        (fun version hversion => ?_) rfl
      cases hversion
      exact Or.inr ⟨_, rfl, List.mem_cons_self⟩
  | itemsRemoved removedItems =>
    obtain rfl := EditReservationDialog.of_reservationsRemoved applied
    exact h.of_receive (EditReservationDialog.flags_updateUI _)
      (fun version hversion => absurd hversion (Option.not_mem_none version)) rfl rfl
      (fun _ hversion => Or.inl hversion) rfl
  | initialized =>
    obtain rfl := EditReservationDialog.of_reservationsInitialized applied
    exact h.of_receive (EditReservationDialog.flags_updateUI _) (fun _ hversion => hversion) rfl rfl
      (fun _ hversion => Or.inl hversion) rfl
  | cleared =>
    cases applied
    exact h.of_receive (EditReservationDialog.flags_updateUI _)
      (fun version hversion => absurd hversion (Option.not_mem_none version)) rfl rfl
      (fun _ hversion => Or.inl hversion) rfl

theorem sound_edit (h : Sound s) {field : FormField} {form : Form lineEdit}
    (others : ∀ other, other ≠ field → form.formValues other = s.dialog.form.formValues other) :
    Sound { s with
      dialog := { s.dialog with form }
      marks := Function.update s.marks field { edited := true } } := by
  refine ⟨⟨h.flags.enabled, h.flags.mergeVisible⟩, fun version hversion => ?_, h.newest, h.box, h.submitted⟩
  obtain ⟨hmem, hshown, hdeliberate⟩ := h.reference version hversion
  refine ⟨hmem, hshown, fun other => ?_⟩
  show Deliberate (Function.update s.marks field { edited := true } other) (form.formValues other) _
  by_cases hother : other = field
  · subst hother
    rw [Function.update_self]
    exact Or.inr (Or.inl rfl)
  · rw [Function.update_of_ne hother, others other hother]
    exact hdeliberate other

theorem sound_save (h : Sound s) {reservation : Reservation} {dialog : EditReservationDialog lineEdit}
    (clicked : s.dialog.saveClicked build = .ok (reservation, dialog)) :
    Sound { s with dialog, submitted := s.submitted ++ [⟨reservation, s.marks⟩] } := by
  obtain ⟨reference, hreference, rfl, rfl⟩ := EditReservationDialog.of_saveClicked clicked
  refine ⟨EditReservationDialog.flags_updateUI _, h.reference, h.newest, h.box, fun submission hmem => ?_⟩
  rcases List.mem_append.1 hmem with hold | hnew
  · exact h.submitted submission hold
  · rw [List.mem_singleton.1 hnew]
    obtain ⟨hversion, -, hdeliberate⟩ := h.reference reference hreference
    refine ⟨reference, hversion, rfl, rfl, fun field => ?_⟩
    show Deliberate (s.marks field) (Form.itemToTuple (Form.setItemFromTuple _ _) field) _
    rw [Form.itemToTuple_setItemFromTuple]
    exact hdeliberate field

/-! ## Merging keeps track of the merged version -/

variable {base ours theirs : FormTuple} {field : FormField}

theorem mergeField_settled {mark : Mark field} {value : field.Value}
    (hmerged : Resolver.mergeField base ours theirs field = some value)
    (hdeliberate : Deliberate mark (ours field) (base field)) :
    Deliberate (if Resolver.takesTheirs base ours theirs field then {} else mark) value (theirs field) := by
  rw [Resolver.mergeField] at hmerged
  split at hmerged
  · next hsame =>
    cases hmerged
    exact Or.inl hsame
  · next hdiffers =>
    split at hmerged
    · next hours =>
      cases hmerged
      have hkeeps : Resolver.takesTheirs base ours theirs field = false := by
        simp [Resolver.takesTheirs, hours.1]
      rw [hkeeps, ← hours.2]
      exact hdeliberate
    · split at hmerged
      · cases hmerged
        exact Or.inl rfl
      · cases hmerged

theorem mergeField_cases (base ours theirs : FormTuple) (field : FormField) :
    (Resolver.merge base ours theirs).merged field = base field ∨
      (Resolver.merge base ours theirs).merged field = ours field ∨
      (Resolver.merge base ours theirs).merged field = theirs field := by
  have hmerged : (Resolver.merge base ours theirs).merged field =
      (Resolver.mergeField base ours theirs field).getD (base field) := rfl
  rw [hmerged, Resolver.mergeField]
  split
  · exact Or.inr (Or.inl rfl)
  · split
    · exact Or.inr (Or.inl rfl)
    · split
      · exact Or.inr (Or.inr rfl)
      · exact Or.inl rfl

theorem mem_conflicts (base ours theirs : FormTuple) (field : FormField) :
    field ∈ (Resolver.merge base ours theirs).conflicts ↔
      Resolver.mergeField base ours theirs field = none := by
  rw [Resolver.merge, List.mem_filter, Option.isNone_iff_eq_none]
  refine and_iff_right ?_
  cases field with
  | status | description | numberOfAdults | numberOfChildren => decide

theorem Sound.finish (h : Sound s) {merged : FormTuple} {marks : Marks}
    (hshows : ∀ field, Form.Shows lineEdit field (merged field))
    (hnewest : ∀ version ∈ s.dialog.newestVersion, Displayable lineEdit version ∧
      ∀ field, Deliberate (marks field) (merged field) (Form.itemToTuple version field)) :
    Sound (s.merging (s.dialog.finishMerge merged) marks) := by
  refine ⟨EditReservationDialog.flags_updateUI _, fun version hversion => ?_,
    fun version hversion => absurd hversion (Option.not_mem_none _),
    fun box hbox => absurd hbox (Option.not_mem_none _), h.submitted⟩
  obtain ⟨hshown, hdeliberate⟩ := hnewest version hversion
  refine ⟨h.newest version hversion, hshown, fun field => ?_⟩
  show Deliberate (marks field) ((Form.setFormValues lineEdit merged).formValues field) _
  rw [Form.formValues_setFormValues (hshows field)]
  exact hdeliberate field

theorem Sound.goOn (h : Sound s) {box : ConflictBox} {marks : Marks} (hbox : BoxSound lineEdit marks box) :
    Sound (s.merging { s.dialog with conflictBox := some box } marks) := by
  refine ⟨⟨h.flags.enabled, h.flags.mergeVisible⟩, h.reference, h.newest, fun other hother => ?_, h.submitted⟩
  cases hother
  exact hbox

theorem sound_merge (h : Sound s) {dialog : EditReservationDialog lineEdit}
    (hfits : s.Fits .mergeChangesClicked) (visible : s.dialog.mergeVisible = true)
    (clicked : s.dialog.mergeChangesClicked = .ok dialog) : Sound (s.merging dialog s.mergeMarks) := by
  obtain ⟨newest, hnewest⟩ := Option.isSome_iff_exists.1 (h.flags.mergeVisible visible)
  obtain ⟨reference, hreference, resolution, rfl, hcases⟩ :=
    EditReservationDialog.of_mergeChangesClicked hnewest clicked
  obtain ⟨-, hbase, hdeliberate⟩ := h.reference reference hreference
  have htheirs : Displayable lineEdit newest := hfits newest hnewest
  have hours := Form.shows_formValues s.dialog.form
  have hshows : ∀ field, Form.Shows lineEdit field ((Resolver.merge (Form.itemToTuple reference)
      s.dialog.form.formValues (Form.itemToTuple newest)).merged field) := by
    intro field
    rcases mergeField_cases (Form.itemToTuple reference) s.dialog.form.formValues
      (Form.itemToTuple newest) field with heq | heq | heq
    · exact heq ▸ hbase field
    · exact heq ▸ hours field
    · exact heq ▸ htheirs field
  have hsettled : ∀ field, field ∉ (Resolver.merge (Form.itemToTuple reference)
      s.dialog.form.formValues (Form.itemToTuple newest)).conflicts →
      Deliberate (s.mergeMarks field) ((Resolver.merge (Form.itemToTuple reference)
        s.dialog.form.formValues (Form.itemToTuple newest)).merged field)
        (Form.itemToTuple newest field) := by
    intro field hfield
    obtain ⟨value, hvalue⟩ := Option.ne_none_iff_exists'.1 (mt (mem_conflicts _ _ _ field).2 hfield)
    have hmerged := mergeField_settled hvalue (hdeliberate field)
    show Deliberate (s.mergeMarks field) ((Resolver.mergeField _ _ _ field).getD _) _
    rw [mergeMarks, hreference, hnewest, hvalue]
    exact hmerged
  rcases hcases with ⟨hnone, rfl⟩ | ⟨conflict, rest, hconflicts, rfl⟩
  · refine h.finish hshows fun version hversion => ?_
    obtain rfl := Option.some.inj (hversion.symm.trans hnewest)
    refine ⟨htheirs, fun field => hsettled field ?_⟩
    rw [hnone]
    exact List.not_mem_nil
  · exact h.goOn ⟨hours, htheirs, hshows, fun field hfield => hsettled field (hconflicts ▸ hfield)⟩

/-- The box that was closed has settled its field, whichever button was clicked. -/
theorem BoxSound.chosen {box : ConflictBox} (h : BoxSound lineEdit s.mergedMarks box)
    (hplaces : box.PlacesTheirs) (button : ConflictButton) : ∀ marks,
      marks = Function.update s.mergedMarks box.conflict
        (chosenMark box (s.mergedMarks box.conflict) button) →
    (∀ field, Form.Shows lineEdit field (box.choose button field)) ∧
      ∀ field, field ∉ box.rest → Deliberate (marks field) (box.choose button field) (box.theirs field) := by
  rintro _ rfl
  constructor
  · intro field
    cases button with
    | base => exact h.merged field
    | our =>
      by_cases hfield : field = box.conflict
      · subst hfield
        rw [ConflictBox.choose, Function.update_self]
        exact h.ours _
      · rw [ConflictBox.choose, Function.update_of_ne hfield]
        exact h.merged field
    | their =>
      by_cases hfield : field = box.conflict
      · subst hfield
        rw [ConflictBox.choose, Function.update_self]
        exact h.theirs _
      · rw [ConflictBox.choose, Function.update_of_ne hfield]
        exact h.merged field
  · intro field hrest
    by_cases hfield : field = box.conflict
    · subst hfield
      rw [Function.update_self]
      cases button with
      | base | our | their => exact Or.inr (Or.inr (box.shownTheirs_eq hplaces))
    · have hkept : box.choose button field = box.merged field := by
        cases button with
        | base => rfl
        | our | their => exact Function.update_of_ne hfield ..
      rw [Function.update_of_ne hfield, hkept]
      exact h.settled field fun hmem => (List.mem_cons.1 hmem).elim hfield hrest

theorem sound_choose (h : Sound s) {box : ConflictBox} (hshown : s.dialog.conflictBox = some box)
    {button : ConflictButton} (hfits : s.Fits (.choose button)) :
    Sound (s.merging (s.dialog.buttonClicked box button) (Function.update s.mergedMarks box.conflict
      (chosenMark box (s.mergedMarks box.conflict) button))) := by
  have hbox := h.box box hshown
  obtain ⟨hplaces, hlast⟩ := hfits box hshown
  obtain ⟨hshows, hsettled⟩ := hbox.chosen hplaces button _ rfl
  rw [EditReservationDialog.buttonClicked]
  cases hrest : box.rest with
  | nil =>
    refine h.finish hshows fun version hversion => ?_
    -- the version that is adopted is the one that was merged
    have hmerged := hlast hrest version hversion
    constructor
    · intro field
      rw [hmerged]
      exact hbox.theirs field
    · intro field
      rw [hmerged]
      exact hsettled field (hrest ▸ List.not_mem_nil)
  | cons conflict rest =>
    refine h.goOn ⟨hbox.ours, hbox.theirs, hshows, fun field hfield => hsettled field ?_⟩
    rw [hrest]
    exact hfield

theorem sound_saveTaskUpdated (h : Sound s) {results : List TaskResult}
    {dialog : EditReservationDialog lineEdit} (updated : s.dialog.saveTaskUpdated results = .ok dialog) :
    Sound { s with dialog } := by
  rcases EditReservationDialog.of_saveTaskUpdated updated with rfl | rfl
  · exact ⟨⟨h.flags.enabled, h.flags.mergeVisible⟩, h.reference, h.newest, h.box, h.submitted⟩
  · exact ⟨EditReservationDialog.flags_updateUI _, h.reference, h.newest, h.box, h.submitted⟩

theorem sound_step {event : EditEvent lineEdit} (h : Sound s) (hfits : s.Fits event)
    (hs : Step build event s s') : Sound s' := by
  cases hs with
  | receive _ change dialog applied => exact sound_receive h hfits applied
  | edit _ enabled noBox field form others => exact sound_edit h others
  | saveClicked _ enabled saveEnabled noBox reservation dialog clicked => exact sound_save h clicked
  | mergeChangesClicked _ enabled visible noBox dialog clicked => exact sound_merge h hfits visible clicked
  | choose _ box shown button => exact sound_choose h shown hfits
  | saveTaskUpdated _ saving results dialog updated => exact sound_saveTaskUpdated h updated

theorem reached_sound (h : ReachedFitting build s) : Sound s := by
  refine Reachable.invariant (I := Sound) ?_ ?_ h
  · intro s hs
    rw [hs]
    exact sound_init
  · intro s s' hsound hs
    obtain ⟨event, hfits, hstep⟩ := hs
    exact sound_step hsound hfits hstep

/-- In every run all of whose steps meet the condition, each update that the dialog queues
    carries the id and the revision of a version that its stream has sent, and each of its
    fields has the value of this version, or was typed by the user, or was chosen in a
    message box that showed the value of this version. -/
theorem saves_fit (build : Build) (h : ReachedFitting build s) :
    ∀ submission ∈ s.submitted, ∃ version ∈ s.versions,
      submission.reservation.id = version.id ∧ submission.reservation.revision = version.revision ∧
      ∀ field, Form.itemToTuple submission.reservation field = Form.itemToTuple version field ∨
        (submission.marks field).edited = true ∨
        (submission.marks field).shown = some (Form.itemToTuple version field) :=
  (reached_sound h).submitted

/-! ## A newer version while a message box is open -/

/-- A line edit, as it is for short texts. -/
def shortTexts : LineEdit := ⟨id, fun _ => rfl, rfl⟩

/-- A version of the reservation with id 1. -/
def versionOf (revision : Int) (description : String) (adults : Int) : Reservation :=
  { id := 1, revision, status := .confirmed, description, adults }

/-- The form with a text typed into it. -/
def typed (form : Form shortTexts) (text : String) : Form shortTexts :=
  { form with txtDescription := text, fits := rfl }

theorem typed_others (form : Form shortTexts) (text : String) :
    ∀ other, other ≠ .description → (typed form text).formValues other = form.formValues other := by
  intro other hother
  cases other with
  | description => exact absurd rfl hother
  | status | numberOfAdults | numberOfChildren => rfl

set_option maxRecDepth 2000 in
/-- The user and another client change the description, and the user keeps what was typed. -/
theorem saves_fit_typed : ∃ s : EditSession shortTexts, ∃ submission ∈ s.submitted,
    submission.reservation = versionOf 2 "Ours" 2 ∧
    (submission.marks .description).shown = some "Theirs" ∧
    ∃ version ∈ s.versions, submission.reservation.revision = version.revision ∧
      ∀ field, Form.itemToTuple submission.reservation field = Form.itemToTuple version field ∨
        (submission.marks field).edited = true ∨
        (submission.marks field).shown = some (Form.itemToTuple version field) := by
  have h₀ : ReachedFitting .debug ({} : EditSession shortTexts) := .init rfl
  have hshown : ∀ revision description, Displayable shortTexts (versionOf revision description 2) := by
    intro revision description field
    cases field with
    | status => exact ReservationStatus.noConfusion
    | description => rfl
    | numberOfAdults => exact (by decide : SpinBox.InRange 2)
    | numberOfChildren => exact (by decide : SpinBox.InRange 0)
  have h₁ := h₀.step ⟨.receive (.itemsAdded (.reservations [versionOf 1 "Base" 2])),
    fun _ hversion => by cases hversion; exact hshown 1 "Base", .receive _ _ _ rfl⟩
  have h₂ := h₁.step ⟨.receive .initialized, trivial, .receive _ _ _ rfl⟩
  have h₃ := h₂.step ⟨.edit .description _, trivial, .edit _ rfl rfl _ _ (typed_others _ "Ours")⟩
  have h₄ := h₃.step ⟨.receive (.itemsUpdated (.reservations [versionOf 2 "Theirs" 2])), trivial,
    .receive _ _ _ rfl⟩
  have h₅ := h₄.step ⟨.mergeChangesClicked, fun _ hversion => by cases hversion; exact hshown 2 "Theirs",
    .mergeChangesClicked _ rfl rfl rfl _ rfl⟩
  have h₆ := h₅.step ⟨.choose .our, fun _ hbox => by
      cases hbox
      exact ⟨by decide, fun _ _ hversion => by cases hversion; rfl⟩,
    .choose _ _ rfl .our⟩
  have h₇ := h₆.step ⟨.saveClicked, trivial, .saveClicked _ rfl rfl rfl _ _ rfl⟩
  obtain ⟨version, hversion, -, hsaved⟩ := saves_fit .debug h₇ _ List.mem_cons_self
  exact ⟨_, _, List.mem_cons_self, rfl, rfl, version, hversion, hsaved⟩

/-- The same, while another client changes the number of adults before the message box is
    closed: the update carries the revision of the last version, and takes its change back. -/
theorem update_lost : ∃ s : EditSession shortTexts, Reached .debug s ∧
    s.received = [.itemsAdded (.reservations [versionOf 1 "Base" 2]), .initialized,
      .itemsUpdated (.reservations [versionOf 2 "Theirs" 2]),
      .itemsUpdated (.reservations [versionOf 3 "Theirs" 4])] ∧
    ∃ submission ∈ s.submitted, submission.reservation = versionOf 3 "Ours" 2 ∧
      ¬ ∃ version ∈ s.versions, submission.reservation.revision = version.revision ∧
        ∀ field, Form.itemToTuple submission.reservation field = Form.itemToTuple version field ∨
          (submission.marks field).edited = true ∨
          (submission.marks field).shown = some (Form.itemToTuple version field) := by
  have h₀ : Reached .debug ({} : EditSession shortTexts) := .init rfl
  have h₁ := h₀.step ⟨_, .receive _ (.itemsAdded (.reservations [versionOf 1 "Base" 2])) _ rfl⟩
  have h₂ := h₁.step ⟨_, .receive _ .initialized _ rfl⟩
  have h₃ := h₂.step ⟨_, .edit _ rfl rfl _ _ (typed_others _ "Ours")⟩
  have h₄ := h₃.step ⟨_, .receive _ (.itemsUpdated (.reservations [versionOf 2 "Theirs" 2])) _ rfl⟩
  have h₅ := h₄.step ⟨_, .mergeChangesClicked _ rfl rfl rfl _ rfl⟩
  have h₆ := h₅.step ⟨_, .receive _ (.itemsUpdated (.reservations [versionOf 3 "Theirs" 4])) _ rfl⟩
  have h₇ := h₆.step ⟨_, .choose _ _ rfl .our⟩
  have h₈ := h₇.step ⟨_, .saveClicked _ rfl rfl rfl _ _ rfl⟩
  refine ⟨_, h₈, rfl, _, List.mem_cons_self, rfl, ?_⟩
  rintro ⟨version, hversion, hrevision, hfields⟩
  have hadults := hfields .numberOfAdults
  have hsent : version ∈ [versionOf 1 "Base" 2, versionOf 2 "Theirs" 2, versionOf 3 "Theirs" 4] := hversion
  simp only [List.mem_cons, List.not_mem_nil, or_false] at hsent
  -- only the last version has the revision, and it has another number of adults
  rcases hsent with rfl | rfl | rfl
  · cases hrevision
  · cases hrevision
  · rcases hadults with hsame | hedited | hchosen
    · cases hsame
    · cases hedited
    · cases hchosen

end EditSession

end HotelPms

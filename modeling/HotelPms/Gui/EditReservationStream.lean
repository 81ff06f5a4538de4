import HotelPms.Gui.EditReservation
import HotelPms.Sqlite.Fates

/- What an edit dialog asserts about the events of its stream.

   The handlers assume that the reservation comes before the stream is initialized
   and never later, that its updates have ascending revisions, and that nothing is
   heard of it after it was removed (`Follows`). While they are right the assertions
   hold, whatever the user does in the meantime, also while a message box is open
   (`attended_step`). The storage keeps the revisions in order, but it announces each
   deletion and each update, and ids are used again after everything was erased. So
   the assertions hold exactly for the histories in which the reservation is updated
   and deleted only while it is there, and not stored again (`assertions_hold_iff`);
   two clients that delete the same reservation stop the dialog of a third
   (`deleted_twice`). -/
namespace HotelPms
open Lib SqliteStorage

/-- How far the stream of an id has come: nothing was sent, the reservation was, or the
    stream is initialized. The revision is the last one, as long as the reservation is there. -/
inductive StreamPhase where
  | fresh
  | added (revision : Int)
  | running (revision : Option Int)

/-- What the handlers of the dialog expect next. -/
inductive Follows (id : Int) : StreamPhase → DataStreamChange → StreamPhase → Prop where
  | added (r : Reservation) (hasId : r.id = id) :
    Follows id .fresh (.itemsAdded (.reservations [r])) (.added r.revision)
  | missing : Follows id .fresh .initialized (.running none)
  | initialized (revision : Int) : Follows id (.added revision) .initialized (.running (some revision))
  | updated (r : Reservation) (revision : Int) (hasId : r.id = id) (newer : revision < r.revision) :
    Follows id (.running (some revision)) (.itemsUpdated (.reservations [r])) (.running (some r.revision))
  | removed (revision : Int) :
    Follows id (.running (some revision)) (.itemsRemoved [id]) (.running none)
  | cleared (revision : Option Int) : Follows id (.running revision) .cleared (.running none)

/-- Of orderly fates the stream is sent what the dialog expects. -/
theorem follows_of_orderly {id : Int} {labels : List (Fate × DataStreamChange)} {before after : Option Int}
    (h : Trace (Sends id) before labels after) {found : Bool}
    (horderly : Fate.Orderly found (labels.map Prod.fst)) (hfound : found = true → before.isSome = true) :
    ∃ revision, Trace (Follows id) (.running (if found then before else none)) (labels.map Prod.snd)
      (.running revision) := by
  induction h generalizing found with
  | nil => exact ⟨_, .nil _⟩
  | cons first rest ih =>
    obtain ⟨later, hnext, horderly⟩ := Fate.orderly_cons.1 horderly
    cases first with
    | stored r hasId =>
      cases found with
      | false => cases hnext
      | true => cases hnext
    | updated r revision hasId newer =>
      cases found with
      | false => cases hnext
      | true =>
        cases hnext
        obtain ⟨last, htrace⟩ := ih horderly fun _ => rfl
        exact ⟨last, .cons (.updated r revision hasId newer) htrace⟩
    | deleted =>
      cases found with
      | false => cases hnext
      | true =>
        cases hnext
        obtain ⟨revision, hrevision⟩ := Option.isSome_iff_exists.1 (hfound rfl)
        obtain ⟨last, htrace⟩ := ih horderly Bool.noConfusion
        rw [if_pos rfl, hrevision]
        exact ⟨last, .cons (.removed revision) htrace⟩
    | erased =>
      have hlater : later = false := by
        cases found with
        | false | true => exact (Option.some.inj hnext).symm
      subst hlater
      obtain ⟨last, htrace⟩ := ih horderly Bool.noConfusion
      exact ⟨last, .cons (.cleared _) htrace⟩

/-! ## The dialog follows its stream -/

namespace EditReservationDialog

variable {lineEdit : LineEdit} {build : Build} {id : Int} {d d' : EditReservationDialog lineEdit}
  {phase phase' : StreamPhase}

/-- The dialog has the reservation, in versions that are no newer than the revision. -/
def HoldsUpTo (id revision : Int) (d : EditReservationDialog lineEdit) : Prop :=
  d.referenceVersion.isSome = true ∧
    ∀ version, version ∈ d.referenceVersion ∨ version ∈ d.newestVersion →
      version.id = id ∧ version.revision ≤ revision

/-- The state of the dialog in a phase of its stream. -/
def Attends (id : Int) (d : EditReservationDialog lineEdit) : StreamPhase → Prop
  | .fresh => d.status = .notInitialized ∧ d.referenceVersion = none ∧ d.newestVersion = none
  | .added revision => d.status = .notInitialized ∧ HoldsUpTo id revision d
  | .running revision => d.status ≠ .notInitialized ∧ ∀ last ∈ revision, HoldsUpTo id last d

theorem reservationsRemoved_ok (build : Build) {reference : Reservation}
    (hreference : d.referenceVersion = some reference) (hid : reference.id = id) :
    d.reservationsRemoved build [id] = .ok d.allReservationsRemoved := by
  simp only [reservationsRemoved, hreference, hid, List.length_singleton, beq_self_eq_true,
    Option.isSome_some, Option.any_some, List.head?_cons, Build.assert_true]
  rfl

/-- An expected change passes all assertions. -/
theorem attends_applyChange (build : Build) {change : DataStreamChange} (h : Attends id d phase)
    (hfollows : Follows id phase change phase') :
    ∃ d', d.applyChange build change = .ok d' ∧ Attends id d' phase' := by
  cases hfollows with
  | added r hasId =>
    obtain ⟨hstatus, hreference, hnewest⟩ := h
    refine ⟨{ d with
      referenceVersion := some r
      form := .setFormValues lineEdit (Form.itemToTuple r) }, ?_, hstatus, rfl, fun version hversion => ?_⟩
    · show d.reservationsAdded build [r] = _
      simp only [reservationsAdded, hstatus, hreference, beq_self_eq_true,
        Option.isNone_none, List.length_singleton, Build.assert_true]
      rfl
    · rcases hversion with hversion | hversion
      · cases hversion
        exact ⟨hasId, le_rfl⟩
      · rw [hnewest] at hversion
        cases hversion
  | missing =>
    refine ⟨{ d with status := .ready }.updateUI, ?_, EditReservationStatus.noConfusion,
      fun last hlast => absurd hlast (Option.not_mem_none _)⟩
    show d.reservationsInitialized build = _
    simp only [reservationsInitialized, h.1, beq_self_eq_true, Build.assert_true]
    rfl
  | initialized revision =>
    refine ⟨{ d with status := .ready }.updateUI, ?_, EditReservationStatus.noConfusion, fun last hlast => ?_⟩
    · show d.reservationsInitialized build = _
      simp only [reservationsInitialized, h.1, beq_self_eq_true, Build.assert_true]
      rfl
    · cases hlast
      exact h.2
  | updated r revision hasId newer =>
    obtain ⟨hstatus, hholds⟩ := h
    obtain ⟨hsome, hversions⟩ := hholds revision rfl
    obtain ⟨reference, hreference⟩ := Option.isSome_iff_exists.1 hsome
    -- both versions the dialog holds are no newer than the last revision
    have hnewer : reference.revision < r.revision :=
      lt_of_le_of_lt (hversions reference (Or.inl hreference)).2 newer
    refine ⟨{ d with newestVersion := some r }.updateUI, ?_, hstatus, fun last hlast => ?_⟩
    · show d.reservationsUpdated build [r] = _
      simp only [reservationsUpdated, hreference, List.length_singleton,
        beq_self_eq_true, Option.isSome_some, Option.any_some, decide_eq_true hnewer, Build.assert_true]
      rfl
    · cases hlast
      refine ⟨hsome, fun version hversion => ?_⟩
      rcases hversion with hversion | hversion
      · obtain ⟨hid, hle⟩ := hversions version (Or.inl hversion)
        exact ⟨hid, hle.trans newer.le⟩
      · cases hversion
        exact ⟨hasId, le_rfl⟩
  | removed revision =>
    obtain ⟨hsome, hversions⟩ := h.2 revision rfl
    obtain ⟨reference, hreference⟩ := Option.isSome_iff_exists.1 hsome
    obtain ⟨hid, -⟩ := hversions reference (Or.inl hreference)
    exact ⟨d.allReservationsRemoved, reservationsRemoved_ok build hreference hid,
      EditReservationStatus.noConfusion, fun last hlast => absurd hlast (Option.not_mem_none _)⟩
  | cleared revision =>
    exact ⟨d.allReservationsRemoved, rfl, EditReservationStatus.noConfusion,
      fun last hlast => absurd hlast (Option.not_mem_none _)⟩

theorem Attends.of_user (h : Attends id d phase) (hstatus : d.status ≠ .notInitialized)
    (hstatus' : d'.status ≠ .notInitialized)
    (hsome : d.referenceVersion.isSome = true → d'.referenceVersion.isSome = true)
    (hversions : ∀ version, version ∈ d'.referenceVersion ∨ version ∈ d'.newestVersion →
      version ∈ d.referenceVersion ∨ version ∈ d.newestVersion) : Attends id d' phase := by
  cases phase with
  | fresh => exact absurd h.1 hstatus
  | added revision => exact absurd h.1 hstatus
  | running revision =>
    refine ⟨hstatus', fun last hlast => ?_⟩
    obtain ⟨hreference, hall⟩ := h.2 last hlast
    exact ⟨hsome hreference, fun version hversion => hall version (hversions version hversion)⟩

end EditReservationDialog

namespace EditSession

open EditReservationDialog (Attends attends_applyChange)

variable {lineEdit : LineEdit} {build : Build} {id : Int} {s s' : EditSession lineEdit}

/-- The dialog is in the phase of what it has received, and what the user or a result can
    do to it is done after the stream was initialized. -/
structure Attended (id : Int) (s : EditSession lineEdit) : Prop where
  flags : s.dialog.Flags
  box : s.dialog.conflictBox.isSome = true → s.dialog.newestVersion.isSome = true
  busy : s.dialog.conflictBox.isSome = true ∨ s.dialog.saveTask = true → s.dialog.status ≠ .notInitialized
  attends : ∀ phase, Trace (Follows id) .fresh s.received phase → Attends id s.dialog phase

theorem attended_init (id : Int) : Attended id ({} : EditSession lineEdit) where
  flags := ⟨by simp, by simp⟩
  box := by simp
  busy := by simp
  attends phase h := by
    cases h
    exact ⟨rfl, rfl, rfl⟩

/-- A change of the stream leaves the message box and the task alone, and does not undo the
    initialization. -/
theorem receive_frame {dialog : EditReservationDialog lineEdit} {change : DataStreamChange}
    (applied : s.dialog.applyChange build change = .ok dialog) :
    dialog.conflictBox = s.dialog.conflictBox ∧ dialog.saveTask = s.dialog.saveTask ∧
      (s.dialog.newestVersion.isSome = true → dialog.newestVersion.isSome = true) ∧
      (s.dialog.status ≠ .notInitialized → dialog.status ≠ .notInitialized) ∧
      (s.dialog.Flags → dialog.Flags) := by
  cases change with
  | itemsAdded newItems =>
    obtain ⟨items, -, applied⟩ := Except.bind_eq_ok.1 applied
    obtain ⟨reservation, rest, -, rfl⟩ := EditReservationDialog.of_reservationsAdded applied
    exact ⟨rfl, rfl, id, id, fun h => ⟨fun henabled => ⟨(h.enabled henabled).1, rfl⟩, h.mergeVisible⟩⟩
  | itemsUpdated updatedItems =>
    obtain ⟨items, -, applied⟩ := Except.bind_eq_ok.1 applied
    obtain ⟨newVersion, rest, -, rfl⟩ := EditReservationDialog.of_reservationsUpdated applied
    exact ⟨rfl, rfl, fun _ => rfl, id, fun _ => EditReservationDialog.flags_updateUI _⟩
  | itemsRemoved removedItems =>
    obtain rfl := EditReservationDialog.of_reservationsRemoved applied
    exact ⟨rfl, rfl, id, fun _ => EditReservationStatus.noConfusion,
      fun _ => EditReservationDialog.flags_updateUI _⟩
  | initialized =>
    obtain rfl := EditReservationDialog.of_reservationsInitialized applied
    exact ⟨rfl, rfl, id, fun _ => EditReservationStatus.noConfusion,
      fun _ => EditReservationDialog.flags_updateUI _⟩
  | cleared =>
    cases applied
    exact ⟨rfl, rfl, id, fun _ => EditReservationStatus.noConfusion,
      fun _ => EditReservationDialog.flags_updateUI _⟩

theorem attended_receive (h : Attended id s) {dialog : EditReservationDialog lineEdit}
    {change : DataStreamChange} (applied : s.dialog.applyChange build change = .ok dialog) (marks : Marks) :
    Attended id { s with dialog, received := s.received ++ [change], marks } := by
  obtain ⟨hbox, htask, hnewest, hstatus, hflags⟩ := receive_frame applied
  refine ⟨hflags h.flags, fun hshown => ?_, fun hbusy => ?_, fun phase' htrace => ?_⟩
  · exact hnewest (h.box (hbox ▸ hshown))
  · exact hstatus (h.busy (htask ▸ hbox ▸ hbusy))
  · obtain ⟨phase, hpast, hlast⟩ := htrace.split
    cases hlast with
    | cons hfollows hnil =>
      cases hnil
      obtain ⟨dialog', happlied, hattends⟩ := attends_applyChange build (h.attends phase hpast) hfollows
      rw [applied] at happlied
      cases happlied
      exact hattends

theorem Attended.of_user (h : Attended id s) (hreceived : s'.received = s.received)
    (hflags : s'.dialog.Flags)
    (hbox : s'.dialog.conflictBox.isSome = true → s'.dialog.newestVersion.isSome = true)
    (hstatus : s.dialog.status ≠ .notInitialized) (hstatus' : s'.dialog.status ≠ .notInitialized)
    (hsome : s.dialog.referenceVersion.isSome = true → s'.dialog.referenceVersion.isSome = true)
    (hversions : ∀ version, version ∈ s'.dialog.referenceVersion ∨ version ∈ s'.dialog.newestVersion →
      version ∈ s.dialog.referenceVersion ∨ version ∈ s.dialog.newestVersion) : Attended id s' := by
  refine ⟨hflags, hbox, fun _ => hstatus', fun phase htrace => ?_⟩
  rw [hreceived] at htrace
  exact (h.attends phase htrace).of_user hstatus hstatus' hsome hversions

theorem attended_finishMerge (h : Attended id s) (hstatus : s.dialog.status ≠ .notInitialized)
    (hnewest : s.dialog.newestVersion.isSome = true) (merged : FormTuple) (marks : Marks) :
    Attended id (s.merging (s.dialog.finishMerge merged) marks) := by
  refine h.of_user rfl (EditReservationDialog.flags_updateUI _) ?_ hstatus hstatus ?_ ?_
  · intro hshown
    cases hshown
  · intro _
    exact hnewest
  · rintro version (hversion | hversion)
    · exact Or.inr hversion
    · cases hversion

theorem attended_step {event : EditEvent lineEdit} (h : Attended id s) (hs : Step build event s s') :
    Attended id s' := by
  cases hs with
  | receive _ change dialog applied => exact attended_receive h applied _
  | edit _ enabled noBox field form others =>
    have hready : s.dialog.status ≠ .notInitialized := by
      rw [(h.flags.enabled enabled).1]
      exact EditReservationStatus.noConfusion
    exact h.of_user rfl ⟨h.flags.enabled, h.flags.mergeVisible⟩ h.box hready hready (fun h => h) fun _ h => h
  | saveClicked _ enabled saveEnabled noBox reservation dialog clicked =>
    have hready : s.dialog.status ≠ .notInitialized := by
      rw [(h.flags.enabled enabled).1]
      exact EditReservationStatus.noConfusion
    obtain ⟨reference, -, -, rfl⟩ := EditReservationDialog.of_saveClicked clicked
    exact h.of_user rfl (EditReservationDialog.flags_updateUI _) h.box hready
      EditReservationStatus.noConfusion (fun h => h) fun _ h => h
  | mergeChangesClicked _ enabled visible noBox dialog clicked =>
    have hready : s.dialog.status ≠ .notInitialized := by
      rw [(h.flags.enabled enabled).1]
      exact EditReservationStatus.noConfusion
    have hsome := h.flags.mergeVisible visible
    obtain ⟨newest, hnewest⟩ := Option.isSome_iff_exists.1 hsome
    obtain ⟨reference, -, resolution, -, hcases⟩ :=
      EditReservationDialog.of_mergeChangesClicked hnewest clicked
    rcases hcases with ⟨-, rfl⟩ | ⟨conflict, rest, -, rfl⟩
    · exact attended_finishMerge h hready hsome _ _
    · exact h.of_user rfl ⟨h.flags.enabled, h.flags.mergeVisible⟩ (fun _ => hsome) hready hready
        (fun h => h) fun _ h => h
  | choose _ box shown button =>
    have hshown : s.dialog.conflictBox.isSome = true := Option.isSome_iff_exists.2 ⟨box, shown⟩
    have hstatus := h.busy (Or.inl hshown)
    rw [EditReservationDialog.buttonClicked]
    cases box.rest with
    | nil => exact attended_finishMerge h hstatus (h.box hshown) _ _
    | cons conflict rest =>
      exact h.of_user rfl ⟨h.flags.enabled, h.flags.mergeVisible⟩ (fun _ => h.box hshown) hstatus hstatus
        (fun h => h) fun _ h => h
  | saveTaskUpdated _ saving results dialog updated =>
    have hstatus := h.busy (Or.inr saving)
    rcases EditReservationDialog.of_saveTaskUpdated updated with rfl | rfl
    · exact h.of_user rfl ⟨h.flags.enabled, h.flags.mergeVisible⟩ h.box hstatus hstatus (fun h => h) fun _ h => h
    · exact h.of_user rfl (EditReservationDialog.flags_updateUI _) h.box hstatus
        EditReservationStatus.noConfusion (fun h => h) fun _ h => h

theorem reached_attended (h : Reached build s) (id : Int) : Attended id s := by
  refine Reachable.invariant (I := Attended id) ?_ ?_ h
  · intro s hs
    rw [hs]
    exact attended_init id
  · intro s s' hattended hs
    obtain ⟨event, hstep⟩ := hs
    exact attended_step hattended hstep

/-! ## The assertions -/

/-- No dialog that is sent these changes stops at one of them, whatever its user does. -/
def AssertionsHold (lineEdit : LineEdit) (build : Build) (changes : List DataStreamChange) : Prop :=
  ∀ (s : EditSession lineEdit) (change : DataStreamChange), Reached build s →
    s.received ++ [change] <+: changes → ∃ dialog, s.dialog.applyChange build change = .ok dialog

theorem assertionsHold_of_follows {changes : List DataStreamChange} {phase : StreamPhase}
    (h : Trace (Follows id) .fresh changes phase) (build : Build) : AssertionsHold lineEdit build changes := by
  intro s change hreached hprefix
  obtain ⟨later, rfl⟩ := hprefix
  obtain ⟨phase', hpast, -⟩ := h.split
  obtain ⟨phase₀, hreceived, hlast⟩ := hpast.split
  cases hlast with
  | cons hfollows _ =>
    obtain ⟨dialog, happlied, -⟩ :=
      attends_applyChange build ((reached_attended hreached id).attends phase₀ hreceived) hfollows
    exact ⟨dialog, happlied⟩

theorem AssertionsHold.fold {changes : List DataStreamChange} (h : AssertionsHold lineEdit build changes) :
    ∃ dialog, changes.foldlM (EditReservationDialog.applyChange build)
      ({} : EditReservationDialog lineEdit) = .ok dialog := by
  have hpast : ∀ past, past <+: changes → ∃ s : EditSession lineEdit, Reached build s ∧
      s.received = past ∧ past.foldlM (EditReservationDialog.applyChange build)
        ({} : EditReservationDialog lineEdit) = .ok s.dialog := by
    intro past
    induction past using List.reverseRecOn with
    | nil => exact fun _ => ⟨{}, .init rfl, rfl, rfl⟩
    | append_singleton past change ih =>
      intro hprefix
      obtain ⟨s, hreached, hreceived, hfold⟩ := ih ((List.prefix_append past [change]).trans hprefix)
      obtain ⟨dialog, happlied⟩ := h s change hreached (hreceived ▸ hprefix)
      refine ⟨_, hreached.step ⟨_, .receive s change dialog happlied⟩, congrArg (· ++ [change]) hreceived, ?_⟩
      rw [List.foldlM_append, Except.bind_ok hfold, List.foldlM_cons, Except.bind_ok happlied]
      rfl
  obtain ⟨s, -, -, hfold⟩ := hpast changes List.prefix_rfl
  exact ⟨s.dialog, hfold⟩

end EditSession

theorem Build.of_assert_debug {condition : Bool} {what : String} {u : Unit}
    (h : Build.debug.assert condition what = .ok u) : condition = true := by
  cases condition with
  | false => cases h
  | true => rfl

/-- An initialized dialog that takes the changes for some fates was sent orderly ones. -/
theorem orderly_of_fold {lineEdit : LineEdit} {id : Int} {labels : List (Fate × DataStreamChange)}
    {before after : Option Int} (h : Trace (Sends id) before labels after)
    {d d' : EditReservationDialog lineEdit}
    (hfold : (labels.map Prod.snd).foldlM (EditReservationDialog.applyChange .debug) d = .ok d')
    (hstatus : d.status ≠ .notInitialized) :
    Fate.Orderly d.referenceVersion.isSome (labels.map Prod.fst) := by
  induction h generalizing d with
  | nil => exact rfl
  | cons first rest ih =>
    rw [List.map_cons, List.foldlM_cons] at hfold
    obtain ⟨next, happlied, hfold⟩ := Except.bind_eq_ok.1 hfold
    rw [List.map_cons, Fate.orderly_cons]
    cases first with
    | stored r hasId =>
      obtain ⟨_, -, happlied⟩ := Except.bind_eq_ok.1 happlied
      obtain ⟨_, hassert, -⟩ := Except.bind_eq_ok.1 happlied
      exact absurd (beq_iff_eq.1 (Build.of_assert_debug hassert)) hstatus
    | updated r revision hasId newer =>
      obtain ⟨_, -, happlied⟩ := Except.bind_eq_ok.1 happlied
      obtain ⟨_, -, hasserts⟩ := Except.bind_eq_ok.1 happlied
      obtain ⟨_, hassert, -⟩ := Except.bind_eq_ok.1 hasserts
      obtain ⟨newVersion, _, -, rfl⟩ := EditReservationDialog.of_reservationsUpdated happlied
      have hsome := Build.of_assert_debug hassert
      have hlater := ih hfold hstatus
      rw [EditReservationDialog.updateUI_referenceVersion, hsome] at hlater
      rw [hsome]
      exact ⟨true, rfl, hlater⟩
    | deleted =>
      obtain ⟨_, -, hasserts⟩ := Except.bind_eq_ok.1 happlied
      obtain ⟨_, hassert, -⟩ := Except.bind_eq_ok.1 hasserts
      obtain rfl := EditReservationDialog.of_reservationsRemoved happlied
      rw [Build.of_assert_debug hassert]
      exact ⟨false, rfl, ih hfold EditReservationStatus.noConfusion⟩
    | erased =>
      cases happlied
      have hnext : Fate.next d.referenceVersion.isSome .erased = some false := by
        cases d.referenceVersion.isSome with
        | false | true => rfl
      exact ⟨false, hnext, ih hfold EditReservationStatus.noConfusion⟩

theorem initialized_of_fold {lineEdit : LineEdit} {item : Option Reservation}
    {changes : List DataStreamChange} {d' : EditReservationDialog lineEdit}
    (hfold : ((item.toList.map fun r => DataStreamChange.itemsAdded (.reservations [r])) ++
      .initialized :: changes).foldlM (EditReservationDialog.applyChange .debug)
        ({} : EditReservationDialog lineEdit) = .ok d') :
    ∃ d, d.referenceVersion.isSome = item.isSome ∧ d.status ≠ .notInitialized ∧
      changes.foldlM (EditReservationDialog.applyChange .debug) d = .ok d' := by
  cases item with
  | none => exact ⟨_, rfl, EditReservationStatus.noConfusion, hfold⟩
  | some r => exact ⟨_, rfl, EditReservationStatus.noConfusion, hfold⟩

/-- Whether a reservation with the id is loaded. -/
def isLoaded (build : Build) (boost : BoostDate) (db : Database) (id : Int) : Bool :=
  match loadReservationById build boost db id with
  | .ok item => item.isSome
  | .error _ => false

namespace Backend

variable {build : Build} {boost : BoostDate} {db₀ : Database} {s₁ s₂ s : Backend} {streamId id : Int}

/-- In every run of the backend the dialogs on a stream of an id pass their assertions, in
    both builds and whatever their users do, if and only if no reservation was stored with
    the id since the stream was initialized, and the reservation was updated and deleted
    only while it was there. -/
theorem assertions_hold_iff (lineEdit : LineEdit) (h : Reached build boost db₀ s₁)
    (hinit : Initializes build boost (byIdStream streamId id) s₁ s₂) (hrun : Run build boost s₂ s)
    (hconnected : streamId ∉ s.disconnected) :
    changesFor streamId s.delivered <+: changesFor streamId s.published ∧
      ((∀ build', EditSession.AssertionsHold lineEdit build' (changesFor streamId s.published)) ↔
        Fate.Orderly (isLoaded build boost s₁.storage.current id) (fatesSince build boost id s₂ s)) := by
  obtain ⟨item, changes, hitem, hpublished, ⟨labels, htrace, hfates, rfl⟩, hdelivered⟩ :=
    published_byId h hinit hrun hconnected
  have hloaded : isLoaded build boost s₁.storage.current id = item.isSome := by
    rw [isLoaded, hitem]
  refine ⟨hdelivered, ?_⟩
  rw [hloaded, hpublished, ← hfates]
  refine ⟨fun hholds => ?_, fun horderly build' => ?_⟩
  · obtain ⟨d', hfold⟩ := (hholds .debug).fold
    obtain ⟨d, hsome, hstatus, hfold⟩ := initialized_of_fold hfold
    rw [← hsome]
    exact orderly_of_fold htrace hfold hstatus
  · cases item with
    | none =>
      obtain ⟨last, hfollows⟩ := follows_of_orderly htrace horderly Bool.noConfusion
      exact EditSession.assertionsHold_of_follows (.cons .missing hfollows) build'
    | some r =>
      obtain ⟨hid, hrevision⟩ := rowRevision_of_loaded hitem
      have hrow : rowRevision id s₁.storage.current = some r.revision := hrevision
      rw [hrow] at htrace
      obtain ⟨last, hfollows⟩ := follows_of_orderly htrace horderly fun _ => rfl
      exact EditSession.assertionsHold_of_follows
        (.cons (.added r hid) (.cons (.initialized r.revision) hfollows)) build'

theorem loaded_withStored : ∃ first : Reservation, first.id = 1 ∧
    loadReservationById .debug .gregorian (withStored {} Reservation.oneNight) 1 = .ok (some first) := by
  have hloads : Loads .debug .gregorian _ _ := loads_store loads_empty (r := Reservation.oneNight) rfl rfl
  exact ⟨_, rfl, loadReservationById_eq (loadAllReservations_of_loads hloads) 1⟩

/-- A reservation is stored, a stream of its id is initialized, and two batches delete it. -/
theorem deleted_run : ∃ (first : Reservation) (s₁ s₂ once twice : Backend), first.id = 1 ∧
    Reached .debug .gregorian {} s₁ ∧
    Initializes .debug .gregorian (byIdStream 1 1) s₁ s₂ ∧ Run .debug .gregorian s₂ once ∧
    Run .debug .gregorian once twice ∧ once.disconnected = [] ∧
    isLoaded .debug .gregorian s₁.storage.current 1 = true ∧
    fatesSince .debug .gregorian 1 s₂ once = [.deleted] ∧
    twice.executed.map (·.operations) = [[.storeNew (.reservation (some Reservation.oneNight))],
      [.delete .reservation 1], [.delete .reservation 1]] ∧
    changesFor 1 twice.delivered = [.itemsAdded (.reservations [first]), .initialized,
      .itemsRemoved [1], .itemsRemoved [1]] := by
  obtain ⟨first, hid, hloaded⟩ := loaded_withStored
  have h₀ : Reached .debug .gregorian {} { storage := { current := {} } } := .init rfl
  have h₁ := h₀.step (.queueOperations _ [.storeNew (.reservation (some Reservation.oneNight))])
  have h₂ := h₁.step (.swap _ rfl)
  have h₃ := h₂.step (.collect _ rfl)
  have h₄ := h₃.step (.process _ rfl rfl)
  have h₅ := h₄.step (.executeTask _ rfl _ _ rfl _ [] rfl rfl)
  have h₆ := h₅.step (.loop _ rfl rfl)
  have h₇ := h₆.step (.createStream _ .reservation "reservation.by_id" (.obj [("id", .int 1)])
    (byIdStream 1 1) rfl)
  have h₈ := h₇.step (.queueOperations _ [.delete .reservation 1])
  have h₉ := h₈.step (.queueOperations _ [.delete .reservation 1])
  have h₁₀ := h₉.step (.swap _ rfl)
  have h₁₁ := h₁₀.step (.collect _ rfl)
  refine ⟨first, _, _, _, _, hid, h₁₁,
    ⟨.initializeOne _ rfl (byIdStream 1 1) _ rfl _ (initialChanges_byId 1 hloaded), rfl⟩,
    (Relation.ReflTransGen.refl.tail (.process _ rfl rfl)).tail (.executeTask _ rfl _ _ rfl _ _ rfl rfl),
    (Relation.ReflTransGen.refl.tail (.executeTask _ rfl _ _ rfl _ _ rfl rfl)).tail (.applyStreamChanges _),
    rfl, ?_, rfl, rfl, rfl⟩
  show isLoaded .debug .gregorian (withStored {} Reservation.oneNight) 1 = true
  rw [isLoaded, hloaded]
  rfl

/-- While one client edits a reservation, another one deletes it. -/
theorem assertions_hold_deleted : ∃ s₁ s₂ s : Backend, Reached .debug .gregorian {} s₁ ∧
    Initializes .debug .gregorian (byIdStream 1 1) s₁ s₂ ∧ Run .debug .gregorian s₂ s ∧
    fatesSince .debug .gregorian 1 s₂ s = [.deleted] ∧
    EditSession.AssertionsHold EditSession.shortTexts .debug (changesFor 1 s.published) := by
  obtain ⟨first, s₁, s₂, once, twice, -, h, hinit, hrun, -, hnone, hloaded, hfates, -, -⟩ := deleted_run
  have hconnected : 1 ∉ once.disconnected := by
    rw [hnone]
    exact List.not_mem_nil
  have horderly : Fate.Orderly (isLoaded .debug .gregorian s₁.storage.current 1)
      (fatesSince .debug .gregorian 1 s₂ once) := by
    rw [hloaded, hfates]
    decide
  have hholds := (assertions_hold_iff EditSession.shortTexts h hinit hrun hconnected).2.2 horderly
  exact ⟨s₁, s₂, once, h, hinit, hrun, hfates, hholds .debug⟩

/-- Two clients delete the reservation that a third one edits. The dialog is told twice, and
    the second time it has no reservation any more. -/
theorem deleted_twice : ∃ (s : Backend) (first : Reservation) (e : EditSession EditSession.shortTexts),
    Reached .debug .gregorian {} s ∧
    s.executed.map (·.operations) = [[.storeNew (.reservation (some Reservation.oneNight))],
      [.delete .reservation 1], [.delete .reservation 1]] ∧
    changesFor 1 s.delivered = [.itemsAdded (.reservations [first]), .initialized,
      .itemsRemoved [1], .itemsRemoved [1]] ∧
    EditSession.Reached .debug e ∧ e.received ++ [.itemsRemoved [1]] = changesFor 1 s.delivered ∧
    e.dialog.applyChange .debug (.itemsRemoved [1]) =
      .error (.assertion "_referenceVersion != std::nullopt") := by
  obtain ⟨first, s₁, s₂, once, twice, hid, h, hinit, hrun, hrun', -, -, -, hexecuted, hdelivered⟩ := deleted_run
  have hreached := reached_run (reached_run (h.step hinit.step) hrun) hrun'
  have h₀ : EditSession.Reached .debug ({} : EditSession EditSession.shortTexts) := .init rfl
  have h₁ := h₀.step ⟨_, .receive _ (.itemsAdded (.reservations [first])) _ rfl⟩
  have h₂ := h₁.step ⟨_, .receive _ .initialized _ rfl⟩
  have h₃ := h₂.step ⟨_, .receive _ (.itemsRemoved [1]) _
    (EditReservationDialog.reservationsRemoved_ok .debug rfl hid)⟩
  exact ⟨twice, first, _, hreached, hexecuted, hdelivered, h₃, hdelivered.symm, rfl⟩

end Backend

end HotelPms

import HotelPms.Sqlite.Revisions
import HotelPms.Sqlite.SingleId

/- What befalls a reservation, and what the stream of its id is sent.

   Each committed operation that concerns the id is one change of the stream
   (`mirrored_effect`), whatever became of the reservation before: a deletion is
   announced whether there is something to delete or not, and an update finds the
   row of a reservation that was deleted, since a deletion leaves it where it is.
   What is kept in every history is the order of the revisions (`Sends`). Which
   fates may follow one another is said by `Fate.next`, and nothing in the storage
   or in the stream enforces it. -/
namespace HotelPms
open Lib SqliteStorage DataStreamManager SqliteBackend
open Backend (byIdStream pair_byIdStream)

/-- What an operation is to the reservation with an id. -/
inductive Fate where
  | stored
  | updated
  | deleted
  | erased
  deriving DecidableEq

/-- Whether the reservation is there after a fate, if the fate makes sense. -/
def Fate.next : Bool → Fate → Option Bool
  | true, .updated => some true
  | true, .deleted => some false
  | _, .erased => some false
  | _, _ => none

/-- The reservation is updated and deleted only while it is there, and not stored again. -/
def Fate.Orderly (found : Bool) (fates : List Fate) : Prop :=
  (fates.foldlM Fate.next found).isSome = true

instance (found : Bool) (fates : List Fate) : Decidable (Fate.Orderly found fates) :=
  inferInstanceAs (Decidable (_ = true))

theorem Fate.orderly_cons {found : Bool} {fate : Fate} {fates : List Fate} :
    Orderly found (fate :: fates) ↔ ∃ after, next found fate = some after ∧ Orderly after fates := by
  rw [Orderly, List.foldlM_cons]
  cases next found fate with
  | none => simp
  | some after => simp [Orderly]

/-- The fate of the reservation with an id in an operation that succeeds. -/
def Operation.fate (id : Int) (db : Database) : Operation → Option Fate
  | .eraseAllData => some .erased
  | .storeNew (.reservation (some _)) => if db.reservation.nextId = id then some .stored else none
  | .update (.reservation (some r)) => if r.id = id then some .updated else none
  | .delete .reservation deleted => if deleted = id then some .deleted else none
  | _ => none

/-- The fates of a reservation in a batch. -/
def fatesOf (build : Build) (boost : BoostDate) (id : Int) (db : Database) : Operations → List Fate
  | [] => []
  | op :: ops =>
    match executeOperation build boost db op with
    | .ok e => (op.fate id db).toList ++ fatesOf build boost id e.db ops
    | .error _ => []

/-- A batch that was rolled back is no fate. -/
def BatchRecord.fates (build : Build) (boost : BoostDate) (id : Int) (r : BatchRecord) : List Fate :=
  if r.committed then fatesOf build boost id r.before r.operations else []

/-- A fate and the change that the stream is sent. The state is the revision of the row. -/
inductive Sends (id : Int) : Option Int → Fate × DataStreamChange → Option Int → Prop where
  | stored (r : Reservation) (hasId : r.id = id) :
    Sends id none (.stored, .itemsAdded (.reservations [r])) (some r.revision)
  | updated (r : Reservation) (revision : Int) (hasId : r.id = id) (newer : revision < r.revision) :
    Sends id (some revision) (.updated, .itemsUpdated (.reservations [r])) (some r.revision)
  | deleted (revision : Option Int) : Sends id revision (.deleted, .itemsRemoved [id]) revision
  | erased (revision : Option Int) : Sends id revision (.erased, .cleared) none

/-- The revision of the row of a reservation. -/
abbrev rowRevision (id : Int) (db : Database) : Option Int := Item.storedRevision db (.reservation id)

/-- From one database to the other the reservation has these fates, and the stream of its
    id is sent these changes, one for each. -/
def Mirrored (id : Int) (db db' : Database) (fates : List Fate) (changes : List DataStreamChange) : Prop :=
  ∃ labels, Trace (Sends id) (rowRevision id db) labels (rowRevision id db') ∧
    labels.map Prod.fst = fates ∧ labels.map Prod.snd = changes

section
variable {build : Build} {boost : BoostDate} {id : Int} {db db' db'' : Database}

theorem Mirrored.nothing (h : rowRevision id db' = rowRevision id db) : Mirrored id db db' [] [] := by
  refine ⟨[], ?_, rfl, rfl⟩
  rw [h]
  exact .nil _

theorem Mirrored.one {fate : Fate} {change : DataStreamChange}
    (h : Sends id (rowRevision id db) (fate, change) (rowRevision id db')) :
    Mirrored id db db' [fate] [change] :=
  ⟨[(fate, change)], .single h, rfl, rfl⟩

/-- One change for one fate if `p` holds, and nothing of either otherwise. -/
theorem Mirrored.of_if {p : Prop} [Decidable p] {fate : Fate} {change : DataStreamChange}
    (hone : p → Sends id (rowRevision id db) (fate, change) (rowRevision id db'))
    (hnone : ¬p → rowRevision id db' = rowRevision id db) :
    Mirrored id db db' (if p then some fate else none).toList (if p then some change else none).toList := by
  by_cases hp : p
  · rw [if_pos hp, if_pos hp]
    exact .one (hone hp)
  · rw [if_neg hp, if_neg hp]
    exact .nothing (hnone hp)

theorem Mirrored.append {fates fates' : List Fate} {changes changes' : List DataStreamChange}
    (h : Mirrored id db db' fates changes) (h' : Mirrored id db' db'' fates' changes') :
    Mirrored id db db'' (fates ++ fates') (changes ++ changes') := by
  obtain ⟨labels, htrace, rfl, rfl⟩ := h
  obtain ⟨labels', htrace', rfl, rfl⟩ := h'
  exact ⟨labels ++ labels', htrace.append htrace', List.map_append, List.map_append⟩

/-! ## What the stream of an id receives -/

theorem received_byId (streamId id : Int) {n : Notice} (hplain : n.Plain) :
    received (byIdStream streamId id) n.type n.change =
      if n.type = .reservation then (n.change.restrict id).toList else [] := by
  rw [received_restrict (pair_byIdStream streamId streamId id) hplain]
  have hall : received (reservationStream streamId) n.type n.change =
      if n.type = .reservation then [n.change] else [] := by
    unfold received
    by_cases htype : n.type = .reservation
    · rw [if_pos htype, htype]
      rfl
    · rw [if_neg htype]
      exact if_neg (Ne.symm htype)
  rw [hall]
  split
  · rw [List.filterMap_cons]
    cases n.change.restrict id with
    | none => rfl
    | some change => rfl
  · rfl

theorem restrict_item (id : Int) (r : Reservation) :
    (DataStreamChange.itemsAdded (.reservations [r])).restrict id =
        (if r.id = id then some (.itemsAdded (.reservations [r])) else none) ∧
      (DataStreamChange.itemsUpdated (.reservations [r])).restrict id =
        (if r.id = id then some (.itemsUpdated (.reservations [r])) else none) := by
  by_cases hid : r.id = id
  · simp [DataStreamChange.restrict, StreamableItems.filter, StreamableItems.isEmpty, hid]
  · simp [DataStreamChange.restrict, StreamableItems.filter, StreamableItems.isEmpty, hid]

theorem restrict_removed (id removed : Int) : (DataStreamChange.itemsRemoved [removed]).restrict id =
    if removed = id then some (.itemsRemoved [id]) else none := by
  by_cases hid : removed = id
  · simp [DataStreamChange.restrict, hid]
  · simp [DataStreamChange.restrict, hid]

theorem mirrored_stored {r r' : Reservation} (id : Int)
    (stored : storeNewReservationAndAtoms build boost db r = .ok (db', r')) :
    Mirrored id db db' (if db.reservation.nextId = id then some Fate.stored else none).toList
      (if r'.id = id then some (DataStreamChange.itemsAdded (.reservations [r'])) else none).toList := by
  obtain ⟨status, -, rfl, rfl⟩ := of_storeNewReservationAndAtoms stored
  have hrow : rowRevision id (insertAtoms boost (withRow db r status) (numbered db r)).1 =
      ((db.reservation.insert (newRow r status)).get? id).map (·.revision) := rfl
  refine .of_if (fun hid => ?_) fun hid => ?_
  · -- the id is new, so that there was no row
    have hbefore : rowRevision id db = none := by
      show (db.reservation.get? id).map _ = none
      rw [Table.get?_of_lt (hid ▸ Int.lt_succ _)]
      rfl
    rw [hrow, hbefore, Table.get?_insert, if_pos hid.symm]
    exact .stored _ hid
  · rw [hrow, Table.get?_insert, if_neg (Ne.symm hid)]
    rfl

theorem mirrored_updated {r r' : Reservation} (id : Int)
    (updated : updateReservation build boost db r = .ok (true, db', r')) :
    Mirrored id db db' (if r.id = id then some Fate.updated else none).toList
      (if r'.id = id then some (DataStreamChange.itemsUpdated (.reservations [r'])) else none).toList := by
  obtain ⟨status, -, ⟨row, hget, hrevision⟩, rfl, rfl⟩ := of_updateReservation updated
  have hrow : rowRevision id (insertAtoms boost (withoutAtoms db r status) r).1 =
      ((updatedReservations db r status).get? id).map (·.revision) := rfl
  rw [updatedReservations, Table.get?_update] at hrow
  refine .of_if (fun hid => ?_) fun hid => ?_
  · subst hid
    have hbefore : rowRevision r.id db = some r.revision := by
      show (db.reservation.get? r.id).map _ = _
      rw [hget, Option.map_some, hrevision]
    have hafter : rowRevision r.id (insertAtoms boost (withoutAtoms db r status) r).1 =
        some (r.revision + 1) := by
      rw [hrow, hget]
      simp [updatedRow, hrevision]
    rw [hbefore, hafter]
    exact .updated _ _ rfl (Int.lt_succ _)
  · rw [hrow]
    show _ = (db.reservation.get? id).map _
    cases db.reservation.get? id with
    | none => rfl
    | some other => simp [Ne.symm hid]

/-- What the operation announces is one change for its fate, and none otherwise. -/
theorem mirrored_effect {op : Operation} {notices : List Notice}
    (he : Effect build boost db op db' notices) (streamId id : Int) :
    Mirrored id db db' (op.fate id db).toList (receivedAll (byIdStream streamId id) notices) := by
  have hreceived : receivedAll (byIdStream streamId id) notices = notices.flatMap fun n =>
      if n.type = .reservation then (n.change.restrict id).toList else [] :=
    List.flatMap_congr fun n hn => received_byId streamId id (plain_effect he n hn)
  rw [hreceived]
  cases he with
  | eraseAllData => exact .one (.erased _)
  | storeNull item null =>
    -- an empty item has no id
    have hnone : (Operation.storeNew item).fate id db = none := by
      cases item with
      | hotel item => rfl
      | person item => rfl
      | reservation item =>
        cases item with
        | none => rfl
        | some r => cases null
    rw [hnone]
    exact .nothing rfl
  | storeHotel hotel => exact .nothing rfl
  | storeReservation r r' db' stored =>
    simp only [List.flatMap_cons, List.flatMap_nil, List.append_nil, if_true, (restrict_item _ _).1]
    exact mirrored_stored id stored
  | updateHotel hotel hotel' db' hasId updated =>
    obtain ⟨-, rfl, -⟩ := of_updateHotel updated
    exact .nothing rfl
  | updateReservation r r' db' hasId updated =>
    simp only [List.flatMap_cons, List.flatMap_nil, List.append_nil, if_true, (restrict_item _ _).2]
    exact mirrored_updated id updated
  | deleteReservation deleted =>
    simp only [List.flatMap_cons, List.flatMap_nil, List.append_nil, if_true, restrict_removed]
    exact .of_if (fun _ => .deleted _) fun _ => rfl

theorem mirrored_batch {streams : List DataStream} {ops : Operations} {results : List TaskResult}
    {cs : List DataStreamDifferential} (h : Succeed build boost streams db ops db' results cs)
    (streamId id : Int) :
    Mirrored id db db' (fatesOf build boost id db ops)
      (receivedAll (byIdStream streamId id) (noticesOf build boost db ops)) := by
  induction h with
  | nil => exact .nothing rfl
  | cons executed succeeded announced rest ih =>
    have hfirst := mirrored_effect (effect_of_succeeded executed succeeded) streamId id
    rw [fatesOf, noticesOf, executed, receivedAll, List.flatMap_append]
    exact hfirst.append ih

/-- Over the batches of a history the changes of the stream mirror the fates of the reservation. -/
theorem mirrored_history {db₀ : Database} {rs : List BatchRecord} (h : History build boost db₀ rs db)
    (streamId id : Int) :
    Mirrored id db₀ db (rs.flatMap (·.fates build boost id))
      (batchChanges build boost (byIdStream streamId id) rs) := by
  induction h with
  | nil => exact .nothing rfl
  | commit past succeed ih =>
    have hlast := mirrored_batch succeed streamId id
    have hall := ih.append hlast
    rw [Backend.batchChanges_append, List.flatMap_append, batchChanges]
    simpa [batchChanges, BatchRecord.fates, BatchRecord.notices] using hall
  | rollback past fails ih =>
    rw [Backend.batchChanges_append, List.flatMap_append]
    simpa [batchChanges, BatchRecord.fates, BatchRecord.notices, receivedAll] using ih

/-! ## What the stream of an id is initialized with -/

theorem beginReservation_revision {row : ReservationRow} {atom : Int × ReservationAtomRow}
    {r : Reservation} (h : beginReservation build boost id row atom = .ok r) :
    r.revision = row.revision := by
  obtain ⟨dateFrom, -, h⟩ := Except.bind_eq_ok.1 h
  obtain ⟨dateTo, -, h⟩ := Except.bind_eq_ok.1 h
  obtain ⟨status, -, h⟩ := Except.bind_eq_ok.1 h
  cases h
  rfl

theorem continueRows_object {rows : List ((Int × ReservationRow) × (Int × ReservationAtomRow))}
    {current r : Reservation}
    (h : rows.foldlM (loadByIdRow build boost id) (some current) = .ok (some r)) :
    r.toPersistentObject = current.toPersistentObject := by
  induction rows generalizing current with
  | nil =>
    cases h
    rfl
  | cons row rows ih =>
    rw [List.foldlM_cons] at h
    obtain ⟨next, hnext, h⟩ := Except.bind_eq_ok.1 h
    obtain ⟨longer, hlonger, hnext⟩ := Except.bind_eq_ok.1 hnext
    cases hnext
    exact (ih h).trans (continueReservation_object hlonger)

/-- A reservation that was loaded has the id, and the revision of its row. -/
theorem rowRevision_of_loaded {r : Reservation} (h : loadReservationById build boost db id = .ok (some r)) :
    r.id = id ∧ rowRevision id db = some r.revision := by
  rw [loadReservationById] at h
  cases hrows : (reservationAndAtoms db).filter fun row => row.1.1 == id with
  | nil =>
    rw [hrows] at h
    cases h
  | cons first rows =>
    rw [hrows, List.foldlM_cons] at h
    obtain ⟨next, hnext, h⟩ := Except.bind_eq_ok.1 h
    obtain ⟨current, hcurrent, hnext⟩ := Except.bind_eq_ok.1 hnext
    cases hnext
    have hobject := continueRows_object h
    have hfirst : first ∈ (reservationAndAtoms db).filter fun row => row.1.1 == id := by
      rw [hrows]
      exact List.mem_cons_self
    obtain ⟨hjoined, hid⟩ := List.mem_filter.1 hfirst
    obtain ⟨row, hrow, hatom⟩ := List.mem_flatMap.1 hjoined
    obtain ⟨atom, -, rfl⟩ := List.mem_map.1 hatom
    have hget : db.reservation.get? id = some row.2 := by
      rw [← beq_iff_eq.1 hid]
      exact Table.mem_rows_iff.1 hrow
    constructor
    · exact (congrArg PersistentObject.id hobject).trans (beginReservation_id hcurrent)
    · show (db.reservation.get? id).map _ = _
      rw [hget, Option.map_some, ← beginReservation_revision hcurrent]
      exact congrArg some (congrArg PersistentObject.revision hobject).symm

theorem initialChanges_byId (streamId : Int) {item : Option Reservation}
    (h : loadReservationById build boost db id = .ok item) :
    Backend.initialChanges build boost (byIdStream streamId id) db =
      .ok (((item.toList.map fun r => DataStreamChange.itemsAdded (.reservations [r])) ++
        [DataStreamChange.initialized]).map fun change => ⟨streamId, change⟩) := by
  have hinitialize : DataStreamHandler.initializeStream .singleId build boost (byIdStream streamId id) db =
      .ok (item.toList.map fun r => DataStreamChange.itemsAdded (.reservations [r])) :=
    (Except.bind_ok (pair_byIdStream streamId streamId id).id _).trans (Except.bind_ok h _)
  rw [Backend.initialChanges, (pair_byIdStream streamId streamId id).handlers.2]
  exact Except.bind_ok hinitialize _

theorem of_initialChanges_byId {streamId : Int} {changes : List DataStreamDifferential}
    (h : Backend.initialChanges build boost (byIdStream streamId id) db = .ok changes) :
    ∃ item, loadReservationById build boost db id = .ok item ∧ changesFor streamId changes =
      (item.toList.map fun r => DataStreamChange.itemsAdded (.reservations [r])) ++ [.initialized] := by
  obtain ⟨added, hadded, -⟩ := Except.bind_eq_ok.1 h
  rw [(pair_byIdStream streamId streamId id).handlers.2] at hadded
  obtain ⟨key, hkey, hadded⟩ := Except.bind_eq_ok.1 hadded
  cases (pair_byIdStream streamId streamId id).id.symm.trans hkey
  obtain ⟨item, hitem, -⟩ := Except.bind_eq_ok.1 hadded
  rw [initialChanges_byId streamId hitem] at h
  cases h
  exact ⟨item, hitem, changesFor_map streamId _⟩

end

namespace Backend

variable {build : Build} {boost : BoostDate} {db₀ : Database} {s₁ s₂ s : Backend} {streamId id : Int}

theorem reached_run (h : Reached build boost db₀ s₁) (hrun : Run build boost s₁ s) :
    Reached build boost db₀ s :=
  Reachable.run h hrun

/-- The fates of a reservation since a stream was initialized. -/
def fatesSince (build : Build) (boost : BoostDate) (id : Int) (initialized s : Backend) : List Fate :=
  (s.executed.drop initialized.executed.length).flatMap (·.fates build boost id)

/-- Since it was initialized the stream of an id was sent the reservation as it was
    loaded, and a change for each of its fates. -/
theorem published_byId (h : Reached build boost db₀ s₁)
    (hinit : Initializes build boost (byIdStream streamId id) s₁ s₂) (hrun : Run build boost s₂ s)
    (hconnected : streamId ∉ s.disconnected) :
    ∃ item changes, loadReservationById build boost s₁.storage.current id = .ok item ∧
      changesFor streamId s.published =
        (item.toList.map fun r => DataStreamChange.itemsAdded (.reservations [r])) ++
          .initialized :: changes ∧
      Mirrored id s₁.storage.current s.storage.current (fatesSince build boost id s₂ s) changes ∧
      changesFor streamId s.delivered <+: changesFor streamId s.published := by
  have hsound₁ := reached_sound h
  have hsound₂ := sound_step hsound₁ hinit.step
  have hsound := sound_run hsound₂ hrun
  have hconnected₂ : streamId ∉ s₂.disconnected := fun hmem => hconnected (disconnected_run hrun hmem)
  obtain ⟨initial, hinitial, hnone, hpublished, -, -, hstorage, hrunning⟩ :=
    initializes_spec hsound₁ hinit hconnected₂
  obtain ⟨item, hitem, hloaded⟩ := of_initialChanges_byId hinitial
  obtain ⟨hrunning', hextends⟩ := running_run hsound₂ hrun hrunning hconnected
  obtain ⟨new, hexecuted, hsent, -⟩ := hextends.run
  refine ⟨item, batchChanges build boost (byIdStream streamId id) new, hitem, ?_, ?_, ?_⟩
  · show changesFor (byIdStream streamId id).streamId s.published = _
    have hloaded' : changesFor (byIdStream streamId id).streamId initial = _ := hloaded
    rw [hsent, hpublished, changesFor_append, hnone, List.nil_append, hloaded', List.append_assoc]
    rfl
  · -- the batches executed since then are a history of their own
    have hlength : s₂.executed.length ≤ s.executed.length := by
      rw [hexecuted, List.length_append]
      exact Nat.le_add_right _ _
    have hsince := (hsound.history.split hlength).2
    have hstart : databaseAfter db₀ s.executed s₂.executed.length = s₁.storage.current := by
      rw [databaseAfter, hexecuted, List.take_append_of_le_length le_rfl, List.take_length]
      rw [← hstorage, ← databaseAfter_length hsound₂.history, databaseAfter, List.take_length]
    rw [hstart] at hsince
    have hmirrored := mirrored_history hsince streamId id
    rw [hexecuted, List.drop_left] at hmirrored
    rw [fatesSince, hexecuted, List.drop_left]
    exact hmirrored
  · have hdelivered := hsound.delivered _ (hsound.active _ hrunning'.active) hconnected
    exact ⟨_, hdelivered⟩

end Backend

end HotelPms

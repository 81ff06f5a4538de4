import HotelPms.Sqlite.History

/- What `loadAll<hotel::Reservation>` returns.

   The joined rows of a reservation are regrouped into one reservation, with the
   period of each atom after the first beginning where the one before it ends. The loop
   over all result rows does for each row of the table what `loadRow` does for one
   (`loadAllReservations_eq`). For rows that hold a valid reservation (`Holds`) this
   restores every atom, since its atoms are sorted and contiguous
   (`loadAllReservations_of_loads`). A row without atoms, which a delete leaves behind,
   is skipped by the join.

   `Loads` relates a database to the list that loading returns; what every operation
   does to the list is said by `loads_store`, `loads_update` and `loads_delete`. -/
namespace HotelPms
open Lib SqliteStorage SqliteBackend

/-- A row of `h_reservation` and the atoms with its id are what loading makes this
    reservation of. -/
structure Holds (build : Build) (boost : BoostDate) (db : Database) (row : Int × ReservationRow)
    (r : Reservation) : Prop where
  id : r.id = row.1
  revision : r.revision = row.2.revision
  status : parseReservationStatus build (readText row.2.status) = .ok r.status
  description : r.description = readText row.2.description
  owner : r.reservationOwnerPersonId = none
  adults : r.adults = row.2.adults
  children : r.children = row.2.children
  valid : r.isValid = true
  unrevised : ∀ a ∈ r.atoms, a.revision = 0
  atoms : atomsOf db row.1 = r.atoms.map fun a => (a.id, atomRow boost row.1 a)

/-- The rows that the join does not skip. -/
def visibleRows (db : Database) : List (Int × ReservationRow) :=
  db.reservation.rows.filter fun row => !(atomsOf db row.1).isEmpty

/-- The rows of a database hold these reservations, in the order of their ids, and
    no atom names a reservation that is still to come. -/
structure Loads (build : Build) (boost : BoostDate) (db : Database) (items : List Reservation) :
    Prop where
  rows : List.Forall₂ (Holds build boost db) (visibleRows db) items
  fresh : ∀ id, db.reservation.seq < id → atomsOf db id = []

/-- The result rows of a reservation. -/
def resultRows (db : Database) (row : Int × ReservationRow) :
    List ((Int × ReservationRow) × (Int × ReservationAtomRow)) :=
  ((atomsOf db row.1).insertionSort fun a b => a.2.dateFrom ≤ b.2.dateFrom).map fun a => (row, a)

/-- What both loops make of the result rows of one reservation. -/
def loadRow (build : Build) (boost : BoostDate) (db : Database) (row : Int × ReservationRow) :
    Except Fault (Option Reservation) :=
  (resultRows db row).foldlM (loadByIdRow build boost row.1) none

section
variable {build : Build} {boost : BoostDate} {db db' : Database} {row : Int × ReservationRow}
  {r : Reservation} {items : List Reservation}

/-! ## Regrouping -/

theorem resultRows_of_holds (h : Holds build boost db row r) :
    resultRows db row = r.atoms.map fun a => (row, (a.id, atomRow boost row.1 a)) := by
  have hcontiguous := (Reservation.isValid_iff.1 h.valid).2
  have hsorted : (r.atoms.map fun a => (a.id, atomRow boost row.1 a)).Pairwise
      fun a b => a.2.dateFrom ≤ b.2.dateFrom := by
    rw [List.pairwise_map]
    apply hcontiguous.ordered.imp_of_mem
    intro a b ha _ hab
    have hlt : a.dateRange.begin_ < b.dateRange.begin_ :=
      lt_of_lt_of_le (Period.isNull_eq_false.1 (hcontiguous.nonempty a ha)) hab
    exact le_of_lt ((boost.chronological _ _).2 hlt)
  rw [resultRows, h.atoms, hsorted.insertionSort_eq, List.map_map]
  rfl

theorem readDate_dateFrom (boost : BoostDate) (id : Int) (a : ReservationAtom) :
    readDate boost (atomRow boost id a).dateFrom = .ok a.dateRange.begin_ :=
  readDate_toIsoString boost _

theorem readDate_dateTo (boost : BoostDate) (id : Int) (a : ReservationAtom) :
    readDate boost (atomRow boost id a).dateTo = .ok a.dateRange.end_ :=
  readDate_toIsoString boost _

theorem beginReservation_eq (h : Holds build boost db row r) {a : ReservationAtom}
    (ha : a ∈ r.atoms) : beginReservation build boost row.1 row.2 (a.id, atomRow boost row.1 a) =
      .ok { r with atoms := [a] } := by
  rw [beginReservation]
  dsimp only
  rw [Except.bind_ok (readDate_dateFrom boost row.1 a), Except.bind_ok (readDate_dateTo boost row.1 a),
    Except.bind_ok h.status]
  have hunrevised := h.unrevised a ha
  obtain ⟨⟨id, revision⟩, status, description, owner, adults, children, atoms⟩ := r
  obtain ⟨⟨atomId, atomRevision⟩, roomId, dateRange⟩ := a
  obtain ⟨hid, hrevision, -, hdescription, howner, hadults, hchildren, -, -, -⟩ := h
  dsimp only at *
  subst hid hrevision hdescription howner hadults hchildren hunrevised
  rfl

theorem modify_append_singleton {α : Type} (l : List α) (x : α) (f : α → α) :
    (l ++ [x]).modify l.length f = l ++ [f x] := by
  induction l with
  | nil => rfl
  | cons y l ih => exact congrArg (y :: ·) ih

theorem continueReservation_eq (boost : BoostDate) {atoms : List ReservationAtom} {last a : ReservationAtom}
    (hlast : atoms.getLast? = some last) (htouch : last.dateRange.end_ = a.dateRange.begin_)
    (hnull : a.dateRange.isNull = false) (hunrevised : a.revision = 0) (id : Int) :
    continueReservation boost { r with atoms } (a.id, atomRow boost id a) =
      .ok { r with atoms := atoms ++ [a] } := by
  have hlater : ¬ a.dateRange.end_ ≤ last.dateRange.end_ := by
    rw [htouch, not_le]
    exact Period.isNull_eq_false.1 hnull
  have hadded : Reservation.addContinuation { r with atoms } a.roomId a.dateRange.end_ =
      .ok { r with atoms := atoms ++ [{ roomId := a.roomId, dateRange := a.dateRange }] } := by
    rw [Reservation.addContinuation, Reservation.lastAtom]
    dsimp only
    rw [hlast]
    dsimp only
    rw [if_neg hlater, htouch]
  rw [continueReservation]
  dsimp only
  rw [Except.bind_ok (readDate_dateFrom boost id a), Except.bind_ok (readDate_dateTo boost id a)]
  refine (Except.bind_ok hadded _).trans ?_
  obtain ⟨⟨atomId, atomRevision⟩, roomId, dateRange⟩ := a
  dsimp only at *
  subst hunrevised
  show Except.ok (setLastAtomId _ atomId) = _
  rw [setLastAtomId, List.length_append, List.length_singleton, Nat.add_sub_cancel,
    modify_append_singleton]

theorem reservationAndAtoms_eq (db : Database) :
    reservationAndAtoms db = db.reservation.rows.flatMap (resultRows db) := rfl

theorem beginReservation_id {id : Int} {row : ReservationRow} {atom : Int × ReservationAtomRow}
    {r : Reservation} (h : beginReservation build boost id row atom = .ok r) : r.id = id := by
  obtain ⟨dateFrom, -, h⟩ := Except.bind_eq_ok.1 h
  obtain ⟨dateTo, -, h⟩ := Except.bind_eq_ok.1 h
  obtain ⟨status, -, h⟩ := Except.bind_eq_ok.1 h
  cases h
  rfl

theorem continueReservation_object {current r : Reservation} {atom : Int × ReservationAtomRow}
    (h : continueReservation boost current atom = .ok r) :
    r.toPersistentObject = current.toPersistentObject := by
  obtain ⟨dateFrom, -, h⟩ := Except.bind_eq_ok.1 h
  obtain ⟨dateTo, -, h⟩ := Except.bind_eq_ok.1 h
  obtain ⟨longer, hlonger, h⟩ := Except.bind_eq_ok.1 h
  cases h
  rw [Reservation.addContinuation] at hlonger
  cases hlast : current.lastAtom with
  | none =>
    rw [hlast] at hlonger
    cases hlonger
  | some last =>
    rw [hlast] at hlonger
    dsimp only at hlonger
    split at hlonger
    · cases hlonger
    · cases hlonger
      rfl

theorem continueReservation_id {current r : Reservation} {atom : Int × ReservationAtomRow}
    (h : continueReservation boost current atom = .ok r) : r.id = current.id :=
  congrArg PersistentObject.id (continueReservation_object h)

theorem loadByIdRow_begin {row : Int × ReservationRow} {a : Int × ReservationAtomRow}
    {r : Reservation} (h : beginReservation build boost row.1 row.2 a = .ok r) :
    loadByIdRow build boost row.1 none (row, a) = .ok (some r) :=
  Except.bind_ok h _

theorem loadByIdRow_continue (row : Int × ReservationRow) {a : Int × ReservationAtomRow}
    {current r : Reservation} (h : continueReservation boost current a = .ok r) :
    loadByIdRow build boost row.1 (some current) (row, a) = .ok (some r) :=
  Except.bind_ok h _

theorem loadByIdRow_error (row : Int × ReservationRow) {a : Int × ReservationAtomRow}
    {current : Reservation} {fault : Fault} (h : continueReservation boost current a = .error fault) :
    loadByIdRow build boost row.1 (some current) (row, a) = .error fault := by
  rw [loadByIdRow]
  dsimp only
  rw [h]
  rfl

theorem regroup_continue {row : Int × ReservationRow} (atoms : List (Int × ReservationAtomRow))
    (tail : List ((Int × ReservationRow) × (Int × ReservationAtomRow))) {current : Reservation}
    (hid : current.id = row.1) :
    regroup build boost (some current) ((atoms.map fun a => (row, a)) ++ tail) =
      ((atoms.map fun a => (row, a)).foldlM (loadByIdRow build boost row.1) (some current) >>=
        fun whole => regroup build boost whole tail) := by
  induction atoms generalizing current with
  | nil => rfl
  | cons a atoms ih =>
    rw [List.map_cons, List.cons_append, regroup, if_neg (not_not.2 hid), List.foldlM_cons]
    cases hnext : continueReservation boost current a with
    | error fault =>
      rw [loadByIdRow_error row hnext]
      rfl
    | ok next =>
      rw [loadByIdRow_continue row hnext]
      exact ih ((continueReservation_id hnext).trans hid)

/-- The first row of a reservation begins it, in both loops, and ends the one before. -/
theorem regroup_begin {row : Int × ReservationRow} (a : Int × ReservationAtomRow)
    (atoms : List (Int × ReservationAtomRow))
    (tail : List ((Int × ReservationRow) × (Int × ReservationAtomRow))) {current : Option Reservation}
    (hother : ∀ c ∈ current, c.id ≠ row.1) :
    regroup build boost current (((a :: atoms).map fun a => (row, a)) ++ tail) = (do
      let whole ← ((a :: atoms).map fun a => (row, a)).foldlM (loadByIdRow build boost row.1) none
      return current.toList ++ (← regroup build boost whole tail)) := by
  -- what comes after the first row does not depend on the one before
  have hcurrent : regroup build boost current (((a :: atoms).map fun a => (row, a)) ++ tail) = (do
      let first ← beginReservation build boost row.1 row.2 a
      return current.toList ++
        (← regroup build boost (some first) ((atoms.map fun a => (row, a)) ++ tail))) := by
    cases current with
    | none => simp [regroup]
    | some c =>
      rw [List.map_cons, List.cons_append, regroup, if_pos (hother c rfl)]
      rfl
  rw [hcurrent, List.map_cons, List.foldlM_cons]
  cases hfirst : beginReservation build boost row.1 row.2 a with
  | error fault =>
    have hnone : loadByIdRow build boost row.1 none (row, a) = .error fault := by
      rw [loadByIdRow]
      dsimp only
      rw [hfirst]
      rfl
    rw [hnone]
    rfl
  | ok first =>
    rw [loadByIdRow_begin hfirst]
    refine (Except.bind_ok rfl _).trans ?_
    rw [regroup_continue atoms tail (beginReservation_id hfirst)]
    exact bind_assoc _ _ _

theorem loadByIdRow_id {row : Int × ReservationRow} {atoms : List (Int × ReservationAtomRow)}
    {current loaded : Option Reservation} (hid : ∀ r ∈ current, r.id = row.1)
    (h : (atoms.map fun a => (row, a)).foldlM (loadByIdRow build boost row.1) current = .ok loaded) :
    ∀ r ∈ loaded, r.id = row.1 := by
  induction atoms generalizing current with
  | nil =>
    cases h
    exact hid
  | cons a atoms ih =>
    rw [List.map_cons, List.foldlM_cons] at h
    obtain ⟨next, hnext, hrest⟩ := Except.bind_eq_ok.1 h
    refine ih (fun r hr => ?_) hrest
    cases current with
    | none =>
      obtain ⟨first, hfirst, hnext⟩ := Except.bind_eq_ok.1 hnext
      cases hnext
      cases hr
      exact beginReservation_id hfirst
    | some c =>
      obtain ⟨longer, hlonger, hnext⟩ := Except.bind_eq_ok.1 hnext
      cases hnext
      cases hr
      exact (continueReservation_id hlonger).trans (hid c rfl)

theorem loadRow_id {row : Int × ReservationRow} {loaded : Option Reservation}
    (h : loadRow build boost db row = .ok loaded) : ∀ r ∈ loaded, r.id = row.1 :=
  loadByIdRow_id (fun _ hr => absurd hr (Option.not_mem_none _)) h

/-- The loop of `loadAll` loads the rows of the table one by one. -/
theorem regroup_eq {rows : List (Int × ReservationRow)} (hdistinct : rows.Pairwise fun a b => a.1 < b.1)
    {current : Option Reservation} (hother : ∀ c ∈ current, ∀ row ∈ rows, c.id ≠ row.1) :
    regroup build boost current (rows.flatMap (resultRows db)) = (do
      let loaded ← rows.mapM (loadRow build boost db)
      return current.toList ++ loaded.reduceOption) := by
  induction rows generalizing current with
  | nil =>
    rw [List.flatMap_nil, regroup]
    exact congrArg Except.ok (List.append_nil _).symm
  | cons row rows ih =>
    obtain ⟨hlater, hdistinct⟩ := List.pairwise_cons.1 hdistinct
    rw [List.flatMap_cons, List.mapM_cons]
    cases hatoms : (atomsOf db row.1).insertionSort fun a b => a.2.dateFrom ≤ b.2.dateFrom with
    | nil =>
      -- the join skips the row
      have hnone : resultRows db row = [] := by rw [resultRows, hatoms]; rfl
      have hload : loadRow build boost db row = .ok none := by rw [loadRow, hnone]; rfl
      rw [hnone, List.nil_append, hload, ih hdistinct fun c hc other ho =>
        hother c hc other (List.mem_cons_of_mem _ ho)]
      cases rows.mapM (loadRow build boost db) <;> rfl
    | cons a atoms =>
      have hrows : resultRows db row = (a :: atoms).map fun a => (row, a) := by rw [resultRows, hatoms]
      have hload : loadRow build boost db row =
          ((a :: atoms).map fun a => (row, a)).foldlM (loadByIdRow build boost row.1) none := by
        rw [loadRow, hrows]
      rw [hrows, regroup_begin a atoms _ fun c hc => hother c hc row List.mem_cons_self, ← hload]
      cases hwhole : loadRow build boost db row with
      | error fault => rfl
      | ok whole =>
        have hnext : ∀ c ∈ whole, ∀ other ∈ rows, c.id ≠ other.1 := by
          intro c hc other ho
          rw [loadRow_id hwhole c hc]
          exact ne_of_lt (hlater other ho)
        refine (Except.bind_ok rfl _).trans ?_
        rw [ih hdistinct hnext]
        cases rows.mapM (loadRow build boost db) with
        | error fault => rfl
        | ok loaded =>
          cases whole <;> rfl

theorem loadAllReservations_eq (build : Build) (boost : BoostDate) (db : Database) :
    loadAllReservations build boost db = (do
      return (← db.reservation.rows.mapM (loadRow build boost db)).reduceOption) :=
  regroup_eq db.reservation.ascending fun _ hc => absurd hc (Option.not_mem_none _)

/-! ## Loading what the rows hold -/

theorem foldlM_atoms (build : Build) (boost : BoostDate) (row : Int × ReservationRow) (r : Reservation)
    (rest done : List ReservationAtom) (hdone : done ≠ []) (hall : Contiguous (done ++ rest))
    (hunrevised : ∀ a ∈ rest, a.revision = 0) :
    (rest.map fun a => (row, (a.id, atomRow boost row.1 a))).foldlM (loadByIdRow build boost row.1)
      (some { r with atoms := done }) = .ok (some { r with atoms := done ++ rest }) := by
  induction rest generalizing done with
  | nil => rw [List.append_nil]; rfl
  | cons a rest ih =>
    obtain ⟨last, hlast⟩ : ∃ last, done.getLast? = some last :=
      ⟨_, List.getLast?_eq_some_getLast hdone⟩
    have htouch : last.dateRange.end_ = a.dateRange.begin_ :=
      (List.isChain_append.1 hall.touching).2.2 last hlast a rfl
    have hnull := hall.nonempty a (List.mem_append_right _ List.mem_cons_self)
    have hnext := continueReservation_eq boost (r := r) hlast htouch hnull
      (hunrevised a List.mem_cons_self) row.1
    rw [List.map_cons, List.foldlM_cons, Except.bind_ok (loadByIdRow_continue row hnext)]
    have happend : done ++ a :: rest = done ++ [a] ++ rest := by
      rw [List.append_assoc]
      rfl
    rw [happend] at hall ⊢
    exact ih (done ++ [a]) (by simp) hall fun b hb => hunrevised b (List.mem_cons_of_mem _ hb)

theorem loadRow_of_holds (h : Holds build boost db row r) : loadRow build boost db row = .ok (some r) := by
  obtain ⟨hnonempty, hcontiguous⟩ := Reservation.isValid_iff.1 h.valid
  rw [loadRow, resultRows_of_holds h]
  cases hatoms : r.atoms with
  | nil => exact absurd hatoms hnonempty
  | cons a rest =>
    have ha : a ∈ r.atoms := by rw [hatoms]; exact List.mem_cons_self
    rw [hatoms] at hcontiguous
    have hunrevised : ∀ b ∈ rest, b.revision = 0 := by
      intro b hb
      apply h.unrevised b
      rw [hatoms]
      exact List.mem_cons_of_mem _ hb
    have hwhole : { r with atoms := [a] ++ rest } = r := by
      show { r with atoms := a :: rest } = r
      rw [← hatoms]
    have hrest := foldlM_atoms build boost row r rest [a] (by simp) hcontiguous hunrevised
    rw [hwhole] at hrest
    rw [List.map_cons, List.foldlM_cons, Except.bind_ok (loadByIdRow_begin (beginReservation_eq h ha))]
    exact hrest

theorem loadRow_of_nil (h : atomsOf db row.1 = []) : loadRow build boost db row = .ok none := by
  rw [loadRow, resultRows, h]
  rfl

theorem mapM_loadRow {rows : List (Int × ReservationRow)} (h : List.Forall₂ (Holds build boost db)
    (rows.filter fun row => !(atomsOf db row.1).isEmpty) items) :
    ∃ loaded, rows.mapM (loadRow build boost db) = .ok loaded ∧ loaded.reduceOption = items := by
  induction rows generalizing items with
  | nil =>
    cases h
    exact ⟨[], rfl, rfl⟩
  | cons row rows ih =>
    rw [List.filter_cons] at h
    split at h
    · cases h with
      | cons hrow hrest =>
        obtain ⟨loaded, hloaded, rfl⟩ := ih hrest
        refine ⟨some _ :: loaded, ?_, rfl⟩
        rw [List.mapM_cons, Except.bind_ok (loadRow_of_holds hrow), Except.bind_ok hloaded]
        rfl
    · next hempty =>
      have hnone : atomsOf db row.1 = [] := by simpa using hempty
      obtain ⟨loaded, hloaded, rfl⟩ := ih h
      refine ⟨none :: loaded, ?_, rfl⟩
      rw [List.mapM_cons, Except.bind_ok (loadRow_of_nil hnone), Except.bind_ok hloaded]
      rfl

/-- Loading returns the reservations that the rows hold. -/
theorem loadAllReservations_of_loads (h : Loads build boost db items) :
    loadAllReservations build boost db = .ok items := by
  obtain ⟨loaded, hloaded, hitems⟩ := mapM_loadRow h.rows
  rw [loadAllReservations_eq, Except.bind_ok hloaded, hitems]
  rfl

/-! ## What each operation does to the loaded reservations -/

/-- What loading makes of a reservation that was stored or updated. -/
def asLoaded (r : Reservation) : Reservation :=
  { r with
    status := if r.status = .temporary then .unknown else r.status
    description := readText r.description
    reservationOwnerPersonId := none
    atoms := r.atoms.map fun a => { a with revision := 0 } }

@[simp] theorem asLoaded_id (r : Reservation) : (asLoaded r).id = r.id := rfl

@[simp] theorem places_asLoaded (r : Reservation) : (asLoaded r).places = r.places := by
  rw [Reservation.places, asLoaded, List.map_map]
  rfl

@[simp] theorem places_insertAtoms (boost : BoostDate) (db : Database) (r : Reservation) :
    (insertAtoms boost db r).2.places = r.places := by
  have hlength := db.reservationAtom.insertAll_length (r.atoms.map (atomRow boost r.id))
  rw [List.length_map] at hlength
  show (List.zipWith _ r.atoms _).map _ = _
  rw [Reservation.places, List.map_zipWith]
  apply List.ext_getElem
  · simp [hlength]
  · intro i _ _
    simp

theorem parse_serialize {status : ReservationStatus} {text : String}
    (h : serializeReservationStatus build status = .ok text) :
    parseReservationStatus build (readText text) =
      .ok (if status = .temporary then .unknown else status) := by
  cases status with
  | temporary =>
    obtain ⟨_, -, h⟩ := Except.bind_eq_ok.1 h
    cases h
    rfl
  | _ => cases h; rfl

theorem zip_atomRows {β : Type} (ids : List Int) (f : ReservationAtom → β) (atoms : List ReservationAtom)
    (hf : ∀ a id revision, f { a with id, revision } = f a) :
    ids.zip (atoms.map f) = ((List.zipWith (fun a id => { a with id }) atoms ids).map fun a =>
      { a with revision := 0 }).map fun a : ReservationAtom => (a.id, f a) := by
  induction atoms generalizing ids with
  | nil => simp
  | cons a atoms ih =>
    cases ids with
    | nil => rfl
    | cons id ids => simp [ih, hf]

theorem insertedAtoms_eq (boost : BoostDate) (db : Database) (r : Reservation) :
    insertedAtoms boost db r = (asLoaded (insertAtoms boost db r).2).atoms.map
      fun a => (a.id, atomRow boost r.id a) :=
  zip_atomRows _ (atomRow boost r.id) r.atoms fun _ _ _ => rfl

/-- A row whose atoms are those just inserted holds what was inserted. -/
theorem holds_inserted (db : Database) (r : Reservation) {status : String} {revision : Int}
    (hvalid : r.isValid = true) (hstatus : serializeReservationStatus build r.status = .ok status)
    (hnone : atomsOf db r.id = []) {written : ReservationRow}
    (hwritten : written = { revision, description := r.description, status, adults := r.adults,
                            children := r.children }) :
    Holds build boost (insertAtoms boost db r).1 (r.id, written)
      (asLoaded { (insertAtoms boost db r).2 with revision }) where
  id := rfl
  revision := by rw [hwritten]; rfl
  status := by rw [hwritten]; exact parse_serialize hstatus
  description := by rw [hwritten]; rfl
  owner := rfl
  adults := by rw [hwritten]; rfl
  children := by rw [hwritten]; rfl
  valid := by
    have hplaces : (asLoaded { (insertAtoms boost db r).2 with revision }).places = r.places :=
      (places_asLoaded _).trans (places_insertAtoms boost db r)
    rw [Reservation.isValid_of_places hplaces]
    exact hvalid
  unrevised := by
    intro a ha
    obtain ⟨b, -, rfl⟩ := List.mem_map.1 ha
    rfl
  atoms := by
    rw [atomsOf_insertAtoms, if_pos rfl, hnone, List.nil_append]
    exact insertedAtoms_eq boost db r

theorem Holds.of_atoms (h : Holds build boost db row r)
    (hatoms : atomsOf db' row.1 = atomsOf db row.1) : Holds build boost db' row r :=
  { h with atoms := hatoms.trans h.atoms }

theorem Holds.visible (h : Holds build boost db row r) : (!(atomsOf db row.1).isEmpty) = true := by
  have hnonempty := (Reservation.isValid_iff.1 h.valid).1
  rw [h.atoms]
  simpa using hnonempty

theorem forall₂_with_mem {α β : Type} {R : α → β → Prop} {l : List α} {m : List β}
    (h : List.Forall₂ R l m) : List.Forall₂ (fun a b => a ∈ l ∧ R a b) l m :=
  (List.forall₂_and_left _ _).2 ⟨fun _ ha => ha, h⟩

theorem exists_of_forall₂ {α β : Type} {R : α → β → Prop} {l : List α} {m : List β}
    (h : List.Forall₂ R l m) {a : α} (ha : a ∈ l) : ∃ b ∈ m, R a b := by
  induction h with
  | nil => cases ha
  | cons hR _ ih =>
    rcases List.mem_cons.1 ha with rfl | ha
    · exact ⟨_, List.mem_cons_self, hR⟩
    · obtain ⟨b, hb, hR⟩ := ih ha
      exact ⟨b, List.mem_cons_of_mem _ hb, hR⟩

theorem exists_forall₂ {α β : Type} {R : α → β → Prop} {Q : β → Prop} {l : List α}
    (h : ∀ a ∈ l, ∃ b, R a b ∧ Q b) : ∃ m, List.Forall₂ R l m ∧ ∀ b ∈ m, Q b := by
  induction l with
  | nil => exact ⟨[], .nil, nofun⟩
  | cons a l ih =>
    obtain ⟨⟨b, hR, hQ⟩, htail⟩ := List.forall_mem_cons.1 h
    obtain ⟨m, hRs, hQs⟩ := ih htail
    exact ⟨b :: m, .cons hR hRs, List.forall_mem_cons.2 ⟨hQ, hQs⟩⟩

theorem loads_empty : Loads build boost {} [] := ⟨.nil, fun _ _ => rfl⟩

theorem Loads.of_eq (h : Loads build boost db items) (hrows : db'.reservation = db.reservation)
    (hatoms : db'.reservationAtom = db.reservationAtom) : Loads build boost db' items := by
  have hsame : ∀ id, atomsOf db' id = atomsOf db id := by
    intro id
    rw [atomsOf, hatoms, atomsOf]
  have hvisible : visibleRows db' = visibleRows db := by
    rw [visibleRows, hrows, visibleRows]
    apply List.filter_congr
    intro row _
    rw [hsame]
  constructor
  · rw [hvisible]
    exact h.rows.imp fun row _ hholds => hholds.of_atoms (hsame row.1)
  · intro id hid
    rw [hsame]
    exact h.fresh id (by rw [← hrows]; exact hid)

/-- Loaded reservations have different ids. -/
theorem Loads.distinct (h : Loads build boost db items) : (items.map (·.id)).Nodup := by
  have hids : items.map (·.id) = (visibleRows db).map (·.1) := by
    have hrows := h.rows
    clear h
    generalize visibleRows db = rows at hrows
    induction hrows with
    | nil => rfl
    | cons hrow _ ih => rw [List.map_cons, List.map_cons, ih, hrow.id]
  rw [hids, List.Nodup, List.pairwise_map]
  apply (db.reservation.ascending.sublist List.filter_sublist).imp
  intro a b hab
  exact ne_of_lt hab

/-- A valid reservation that is stored is added to what is loaded. -/
theorem loads_store {r' : Reservation} (h : Loads build boost db items) (hvalid : r.isValid = true)
    (hstored : storeNewReservationAndAtoms build boost db r = .ok (db', r')) :
    Loads build boost db' (items ++ [asLoaded r']) := by
  obtain ⟨status, hstatus, rfl, rfl⟩ := of_storeNewReservationAndAtoms hstored
  have hatoms : ∀ id, atomsOf (insertAtoms boost (withRow db r status) (numbered db r)).1 id =
      atomsOf db id ++ if (numbered db r).id = id then
        insertedAtoms boost (withRow db r status) (numbered db r) else [] :=
    fun id => atomsOf_insertAtoms _ _ id
  have hnone : atomsOf db (numbered db r).id = [] := h.fresh _ (Int.lt_add_one_of_le le_rfl)
  have hnew : Holds build boost (insertAtoms boost (withRow db r status) (numbered db r)).1
      ((numbered db r).id, newRow r status)
      (asLoaded (insertAtoms boost (withRow db r status) (numbered db r)).2) :=
    holds_inserted (withRow db r status) (numbered db r) hvalid hstatus hnone rfl
  have hold : ∀ row ∈ db.reservation.rows,
      atomsOf (insertAtoms boost (withRow db r status) (numbered db r)).1 row.1 =
        atomsOf db row.1 := by
    intro row hrow
    have hle := (db.reservation.range row hrow).2
    have hne : (numbered db r).id ≠ row.1 := by
      show db.reservation.seq + 1 ≠ row.1
      omega
    rw [hatoms, if_neg hne, List.append_nil]
  have hvisible : visibleRows (insertAtoms boost (withRow db r status) (numbered db r)).1 =
      visibleRows db ++ [((numbered db r).id, newRow r status)] := by
    show (db.reservation.rows ++ [_]).filter _ = _
    rw [List.filter_append]
    congr 1
    · apply List.filter_congr
      intro row hrow
      rw [hold row hrow]
    · exact List.filter_eq_self.2 (List.forall_mem_singleton.2 hnew.visible)
  constructor
  · rw [hvisible]
    apply List.rel_append _ (.cons hnew .nil)
    apply (forall₂_with_mem h.rows).imp
    rintro row item ⟨hmem, hrow⟩
    exact hrow.of_atoms (hold row (List.mem_of_mem_filter hmem))
  · intro id hid
    have hlt : db.reservation.seq + 1 < id := hid
    have hne : (numbered db r).id ≠ id := ne_of_lt hlt
    rw [hatoms, if_neg hne, h.fresh id (by omega), List.nil_append]

/-- What an update that finds its row leaves of the rows and the atoms. -/
structure Updated (build : Build) (boost : BoostDate) (db : Database) (r : Reservation)
    (db' : Database) (r' : Reservation) (change : Int × ReservationRow → Int × ReservationRow) :
    Prop where
  id : r'.id = r.id
  known : r.id ≤ db.reservation.seq
  seq : db'.reservation.seq = db.reservation.seq
  rows : db'.reservation.rows = db.reservation.rows.map change
  changed : ∀ row ∈ db.reservation.rows, row.1 = r.id →
    Holds build boost db' (change row) (asLoaded r')
  unchanged : ∀ row, row.1 ≠ r.id → change row = row
  ids : ∀ row, (change row).1 = row.1
  atoms : ∀ id, id ≠ r.id → atomsOf db' id = atomsOf db id

theorem updated_of_updateReservation {r' : Reservation} (hvalid : r.isValid = true)
    (hupdated : updateReservation build boost db r = .ok (true, db', r')) :
    ∃ change, Updated build boost db r db' r' change := by
  obtain ⟨status, hstatus, ⟨found, hget, hrevision⟩, rfl, rfl⟩ := of_updateReservation hupdated
  have hnone : atomsOf (withoutAtoms db r status) r.id = [] :=
    (atomsOf_otherAtoms db r.id r.id).trans (if_pos rfl)
  refine ⟨fun row => if row.1 == r.id && row.2.revision == r.revision then
    (row.1, updatedRow r status row.2) else row, ?_⟩
  constructor
  · rfl
  · exact (Table.get?_isSome_le hget).2
  · rfl
  · rfl
  · rintro ⟨id, row⟩ hrow rfl
    have hsame : row = found := Option.some.inj ((Table.mem_rows_iff.1 hrow).symm.trans hget)
    subst hsame
    rw [hrevision, beq_self_eq_true, beq_self_eq_true, Bool.and_self, if_pos rfl]
    apply holds_inserted (withoutAtoms db r status) r hvalid hstatus hnone
    rw [updatedRow, hrevision]
  · intro row hne
    rw [beq_eq_false_iff_ne.2 hne, Bool.false_and]
    rfl
  · intro row
    split <;> rfl
  · intro id hne
    rw [atomsOf_insertAtoms, if_neg (Ne.symm hne), List.append_nil]
    exact (atomsOf_otherAtoms db r.id id).trans (if_neg hne)

theorem Updated.fresh {r' : Reservation} {change : Int × ReservationRow → Int × ReservationRow}
    (hu : Updated build boost db r db' r' change) (h : Loads build boost db items) (id : Int)
    (hid : db'.reservation.seq < id) : atomsOf db' id = [] := by
  have hknown := hu.known
  rw [hu.seq] at hid
  rw [hu.atoms id (by omega)]
  exact h.fresh id hid

/-- An update with a valid reservation of one that is loaded replaces it. -/
theorem loads_update {r' : Reservation} (h : Loads build boost db items) (hvalid : r.isValid = true)
    (hupdated : updateReservation build boost db r = .ok (true, db', r'))
    (hloaded : atomsOf db r.id ≠ []) :
    Loads build boost db' (items.map fun item => if item.id = r'.id then asLoaded r' else item) := by
  obtain ⟨change, hu⟩ := updated_of_updateReservation hvalid hupdated
  have hvisible : visibleRows db' = (visibleRows db).map change := by
    rw [visibleRows, hu.rows, List.filter_map, visibleRows]
    congr 1
    apply List.filter_congr
    intro row hrow
    rw [Function.comp_apply, hu.ids]
    by_cases hrid : row.1 = r.id
    · have hnew := (hu.changed row hrow hrid).visible
      rw [hu.ids] at hnew
      rw [hnew, hrid]
      simpa using hloaded
    · rw [hu.atoms row.1 hrid]
  refine ⟨?_, hu.fresh h⟩
  rw [hvisible, List.forall₂_map_left_iff, List.forall₂_map_right_iff, hu.id]
  apply (forall₂_with_mem h.rows).imp
  rintro row item ⟨hmem, hrow⟩
  have hrowmem := List.mem_of_mem_filter hmem
  by_cases hrid : row.1 = r.id
  · rw [if_pos (hrow.id.trans hrid)]
    exact hu.changed row hrowmem hrid
  · rw [if_neg (fun he => hrid (hrow.id.symm.trans he)), hu.unchanged row hrid]
    exact hrow.of_atoms (hu.atoms row.1 hrid)

/-- What is loaded after any update with a valid reservation: that one, and others
    that were loaded before. -/
theorem loads_update_any {r' : Reservation} (h : Loads build boost db items)
    (hvalid : r.isValid = true)
    (hupdated : updateReservation build boost db r = .ok (true, db', r')) :
    ∃ items', Loads build boost db' items' ∧
      ∀ item ∈ items', item = asLoaded r' ∨ item ∈ items ∧ item.id ≠ r'.id := by
  obtain ⟨change, hu⟩ := updated_of_updateReservation hvalid hupdated
  have hall : ∀ row ∈ visibleRows db', ∃ item, Holds build boost db' row item ∧
      (item = asLoaded r' ∨ item ∈ items ∧ item.id ≠ r'.id) := by
    intro row' hrow'
    obtain ⟨hmem, hatoms⟩ := List.mem_filter.1 hrow'
    rw [hu.rows] at hmem
    obtain ⟨row, hrow, rfl⟩ := List.mem_map.1 hmem
    by_cases hrid : row.1 = r.id
    · exact ⟨asLoaded r', hu.changed row hrow hrid, Or.inl rfl⟩
    · rw [hu.unchanged row hrid] at hatoms ⊢
      rw [hu.atoms row.1 hrid] at hatoms
      obtain ⟨item, hitem, hholds⟩ := exists_of_forall₂ h.rows (List.mem_filter.2 ⟨hrow, hatoms⟩)
      refine ⟨item, hholds.of_atoms (hu.atoms row.1 hrid), Or.inr ⟨hitem, ?_⟩⟩
      rw [hholds.id, hu.id]
      exact hrid
  obtain ⟨items', hrows, hitems⟩ := exists_forall₂ hall
  exact ⟨items', ⟨hrows, hu.fresh h⟩, hitems⟩

/-- Deleting a reservation takes it out of what is loaded. -/
theorem loads_delete (h : Loads build boost db items) (id : Int) :
    Loads build boost (deleteReservationById db id)
      (VectorDataStreamObserver.removeItems (fun r : Reservation => r.id) items [id]) := by
  have hatoms : ∀ other, atomsOf (deleteReservationById db id) other =
      if other = id then [] else atomsOf db other := atomsOf_otherAtoms db id
  have hvisible : visibleRows (deleteReservationById db id) =
      (visibleRows db).filter fun row => !([id].contains row.1) := by
    rw [visibleRows, visibleRows, List.filter_filter]
    apply List.filter_congr
    intro row _
    rw [hatoms]
    by_cases hrid : row.1 = id
    · simp [hrid]
    · simp [hrid]
  have hrows : List.Forall₂ (Holds build boost db) ((visibleRows db).filter fun row => !([id].contains row.1))
      (VectorDataStreamObserver.removeItems (fun r : Reservation => r.id) items [id]) := by
    apply List.rel_filter _ h.rows
    intro row item hholds
    dsimp only
    rw [hholds.id]
  constructor
  · rw [hvisible]
    apply (forall₂_with_mem hrows).imp
    rintro row item ⟨hmem, hholds⟩
    have hne : row.1 ≠ id := by simpa using (List.mem_filter.1 hmem).2
    exact hholds.of_atoms ((hatoms row.1).trans (if_neg hne))
  · intro other hother
    rw [hatoms, h.fresh other hother]
    exact ite_self _

end

end HotelPms

import HotelPms.Server.RemoteGuarantees
import HotelPms.Sqlite.Observers

/- What the observers of a remote client hold.

   A reservation comes to a client without its owner and without the ids of its atoms, and
   otherwise as it was published. An observer that keeps the items of its stream in a vector
   does not look at these (`applyChanges_mapReservations`), so that it holds what an observer
   on the server would hold, but with every reservation as it comes back. As the client does
   not know clears, that is so as long as no batch erases everything. -/
namespace HotelPms
open Lib SqliteStorage DataStreamManager SqliteBackend JsonSerializer Reservation

/-! ## Observers of items that are changed on the way -/

section
variable {f : Reservation → Reservation}

theorem updateItem_map (hf : ∀ r, (f r).id = r.id) (items : List Reservation) (r : Reservation) :
    VectorDataStreamObserver.updateItem (fun r : Reservation => r.id) (items.map f) (f r) =
      (VectorDataStreamObserver.updateItem (fun r : Reservation => r.id) items r).map f := by
  have hfind : (items.map f).findIdx? (fun item : Reservation => item.id == (f r).id) =
      items.findIdx? fun item : Reservation => item.id == r.id := by
    rw [List.findIdx?_map, hf]
    exact congrArg (items.findIdx? ·) (funext fun item => by rw [Function.comp_apply, hf])
  unfold VectorDataStreamObserver.updateItem
  rw [hfind]
  cases items.findIdx? fun item : Reservation => item.id == r.id with
  | none => rfl
  | some i => exact List.map_set.symm

theorem updateItems_map (hf : ∀ r, (f r).id = r.id) (items rs : List Reservation) :
    VectorDataStreamObserver.updateItems (fun r : Reservation => r.id) (items.map f) (rs.map f) =
      (VectorDataStreamObserver.updateItems (fun r : Reservation => r.id) items rs).map f := by
  induction rs generalizing items with
  | nil => rfl
  | cons r rs ih =>
    rw [VectorDataStreamObserver.updateItems, List.map_cons, List.foldl_cons, updateItem_map hf]
    exact ih _

theorem applyTo_mapReservations (hf : ∀ r, (f r).id = r.id) (items : List Reservation)
    (change : DataStreamChange) :
    (change.mapReservations f).applyTo (items.map f) = (change.applyTo items).map (List.map f) := by
  cases change with
  | itemsAdded newItems =>
    cases newItems with
    | hotels hotels => rfl
    | reservations rs => exact congrArg Except.ok List.map_append.symm
  | itemsUpdated updatedItems =>
    cases updatedItems with
    | hotels hotels => rfl
    | reservations rs => exact congrArg Except.ok (updateItems_map hf items rs)
  | itemsRemoved ids =>
    refine congrArg Except.ok ?_
    unfold VectorDataStreamObserver.removeItems
    rw [List.filter_map]
    refine congrArg (List.map f) (List.filter_congr fun r _ => ?_)
    exact congrArg (fun id => !ids.contains id) (hf r)
  | initialized => rfl
  | cleared => rfl

theorem applyChanges_mapReservations (hf : ∀ r, (f r).id = r.id) (items : List Reservation)
    (changes : List DataStreamChange) :
    applyChanges (items.map f) (changes.map (·.mapReservations f)) =
      (applyChanges items changes).map (List.map f) := by
  induction changes generalizing items with
  | nil => rfl
  | cons change changes ih =>
    rw [applyChanges, List.map_cons, List.foldlM_cons, applyTo_mapReservations hf, applyChanges,
      List.foldlM_cons]
    cases change.applyTo items with
    | error fault => rfl
    | ok items => exact ih items

end

theorem sentChange_eq (change : DataStreamChange) :
    Net.sentChange change = change.mapReservations sent := by
  cases change with
  | itemsAdded items => cases items <;> rfl
  | itemsUpdated items => cases items <;> rfl
  | _ => rfl

theorem arrivingChanges_eq {changes : List DataStreamChange} (h : .cleared ∉ changes) :
    arrivingChanges changes = changes.map (·.mapReservations sent) := by
  have hall : (changes.filter fun change => change ≠ .cleared) = changes := by
    rw [List.filter_eq_self]
    intro change hmem
    have hne : change ≠ .cleared := fun he => h (he ▸ hmem)
    simpa using hne
  rw [arrivingChanges, hall]
  exact List.map_congr_left fun change _ => sentChange_eq change

/-! ## Who clears -/

section
variable {build : Build} {boost : BoostDate}

theorem SqliteBackend.Effect.not_cleared {db db' : Database} {op : Operation} {notices : List Notice}
    (h : Effect build boost db op db' notices) (hop : op ≠ .eraseAllData) :
    ∀ n ∈ notices, n.change ≠ .cleared := by
  cases h with
  | eraseAllData => exact absurd rfl hop
  | storeNull item null => exact fun n hn => absurd hn List.not_mem_nil
  | _ =>
    intro n hn
    rw [List.mem_singleton.1 hn]
    exact fun he => by cases he

theorem noticesOf_not_cleared {ops : Operations} (h : .eraseAllData ∉ ops) (db : Database) :
    ∀ n ∈ noticesOf build boost db ops, n.change ≠ .cleared := by
  induction ops generalizing db with
  | nil => exact fun n hn => absurd hn List.not_mem_nil
  | cons op ops ih =>
    rw [List.mem_cons, not_or] at h
    intro n hn
    rw [noticesOf] at hn
    split at hn
    · next e he =>
      rcases List.mem_append.1 hn with hn | hn
      · cases hs : e.result.succeeded with
        | false =>
          rw [notices_of_failed he hs] at hn
          exact absurd hn List.not_mem_nil
        | true => exact (effect_of_succeeded he hs).not_cleared (Ne.symm h.1) n hn
      · exact ih h.2 e.db n hn
    · exact absurd hn List.not_mem_nil

theorem batchChanges_not_cleared {stream : DataStream} (hall : AllReservations stream)
    {rs : List BatchRecord} (h : ∀ r ∈ rs, r.committed = true → .eraseAllData ∉ r.operations) :
    .cleared ∉ batchChanges build boost stream rs := by
  intro hmem
  obtain ⟨r, hr, hmem⟩ := List.mem_flatMap.1 hmem
  obtain ⟨n, hn, hmem⟩ := List.mem_flatMap.1 hmem
  rw [hall.received] at hmem
  unfold BatchRecord.notices at hn
  split at hn
  · next hcommitted =>
    have hchange := noticesOf_not_cleared (h r hr hcommitted) r.before n hn
    split at hmem
    · exact hchange (List.mem_singleton.1 hmem).symm
    · exact absurd hmem List.not_mem_nil
  · exact absurd hn List.not_mem_nil

/-! ## The theorem -/

theorem initialChanges_all {stream : DataStream} (hall : AllReservations stream) {db : Database}
    {held : List Reservation} (hheld : Loads build boost db held) {snapshot : List DataStreamDifferential}
    (loaded : Backend.initialChanges build boost stream db = .ok snapshot) :
    changesFor stream.streamId snapshot = [.itemsAdded (.reservations held), .initialized] := by
  have hload := loadAllReservations_of_loads hheld
  obtain ⟨changes, hchanges, hrest⟩ := Except.bind_eq_ok.1 loaded
  rw [hall.handler] at hchanges
  simp only [DataStreamHandler.initializeStream, hall.1] at hchanges
  cases (Except.bind_ok hload _).symm.trans hchanges
  cases hrest
  exact changesFor_map _ _

theorem same_sent_of_agree {r loaded : Reservation} (h : Agree r loaded)
    (howner : loaded.reservationOwnerPersonId = none) : Same (sent r) loaded := by
  obtain ⟨hstatus, hdescription, -, hadults, hchildren, hplaces⟩ := equals_iff.1 h.equals
  refine ⟨h.id, h.revision, equals_iff.2 ⟨hstatus, hdescription, howner.symm, hadults, hchildren, ?_⟩⟩
  rw [← hplaces]
  simp [sent, Reservation.places, Reservation.unstored]

theorem Loads.ownerless {db : Database} {loaded : List Reservation} (h : Loads build boost db loaded) :
    ∀ r ∈ loaded, r.reservationOwnerPersonId = none := by
  obtain ⟨hrows, -⟩ := h
  generalize visibleRows db = rows at hrows
  induction hrows with
  | nil => exact fun r hr => absurd hr List.not_mem_nil
  | cons hholds _ ih => exact List.forall_mem_cons.2 ⟨hholds.owner, ih⟩

theorem same_sent_of_agrees {db : Database} {items loaded : List Reservation}
    (hloads : Loads build boost db loaded) (h : List.Forall₂ Agree items loaded) :
    List.Forall₂ Same (items.map sent) loaded := by
  have howners := hloads.ownerless
  rw [List.forall₂_map_left_iff]
  clear hloads
  induction h with
  | nil => exact .nil
  | cons hagree _ ih =>
    obtain ⟨howner, hrest⟩ := List.forall_mem_cons.1 howners
    exact .cons (same_sent_of_agree hagree howner) (ih hrest)

end

namespace RemoteSystem

variable {build : Build} {boost : BoostDate} {s : RemoteSystem}

/-- In every interleaving, on a new database or on what earlier batches made of one, in which
    the committed batches store and update ordinary reservations in sight and none erases
    everything: when all is quiet, an observer of all reservations at any client holds the
    reservations that loading returns, in the same order and revision. -/
theorem remote_observers_agree {db₀ : Database} {earlier : List BatchRecord}
    (hearlier : History build boost {} earlier db₀) (h : Reached build boost db₀ s)
    (hops : AlongHistory build boost (fun db op => Ordinary op ∧ InSight db op)
      (earlier ++ s.server.backend.executed))
    (herase : ∀ r ∈ s.server.backend.executed, r.committed = true → .eraseAllData ∉ r.operations)
    {i : Nat} (hquiet : Quiet s i) {k : Int} {options : Json}
    (hcreated : .createStream k .reservation "" options ∈ (s.clients i).calls)
    (hopen : k ∉ (s.clients i).disconnected) :
    ∃ items loaded, applyChanges [] (changesFor k (s.clients i).delivered ++
        changesFor k (s.clients i).backend.changeList) = .ok items ∧
      loadAllReservations build boost s.server.backend.storage.current = .ok loaded ∧
      List.Forall₂ Same items loaded := by
  have hlinked := reached_linked h i
  have hserver := NetServer.reached_sound (reached_server h)
  have hk : k ∈ createdIds (s.clients i).calls := List.mem_filterMap.2 ⟨_, hcreated, rfl⟩
  rw [delivered_append hlinked hk hopen]
  obtain ⟨o, ho, rfl, hstreamOpen, hstream⟩ := hquiet.observer hlinked hk hopen
  have hall : AllReservations o.stream := by
    rw [hstream _ _ _ hcreated]
    exact ⟨rfl, rfl⟩
  obtain ⟨n, hn, snapshot, hloaded, hpublished⟩ :=
    hquiet.published hserver (NetServer.mem_observersOf.1 ho).1 hstreamOpen
  have hhistory : History build boost db₀ s.server.backend.executed s.server.backend.storage.current := by
    obtain ⟨a, ha⟩ := hserver.simulates
    have hhistory := (Backend.reached_sound ha.reached).history
    obtain ⟨_, _, _, hsame⟩ := ha.backend
    rw [hsame]
    exact hhistory
  obtain ⟨hbefore, hafter⟩ := hhistory.split hn
  -- what the stream was started with
  have hfirst : AlongHistory build boost (fun db op => Ordinary op ∧ InSight db op)
      (earlier ++ s.server.backend.executed.take n) := by
    intro r hr
    rcases List.mem_append.1 hr with hr | hr
    · exact hops r (List.mem_append_left _ hr)
    · exact hops r (List.mem_append_right _ (List.mem_of_mem_take hr))
  obtain ⟨-, -, held, hheld, -⟩ := agrees_history hall (hearlier.append hbefore) hfirst
    ⟨[], loads_empty, .nil⟩
  rw [initialChanges_all hall hheld hloaded] at hpublished
  -- what it was sent since
  obtain ⟨items, happly, loaded, hloads, hagrees⟩ := agrees_history hall hafter
    (fun r hr => hops r (List.mem_append_right _ (List.mem_of_mem_drop hr)))
    ⟨held, hheld, List.forall₂_same.2 fun r _ => Agree.refl r⟩
  have hitems : applyChanges [] (changesFor o.stream.streamId s.server.backend.published) = .ok items := by
    rw [hpublished]
    exact happly
  have hclear : .cleared ∉ changesFor o.stream.streamId s.server.backend.published := by
    rw [hpublished, List.mem_append, not_or]
    exact ⟨by simp, batchChanges_not_cleared hall fun r hr => herase r (List.mem_of_mem_drop hr)⟩
  refine ⟨items.map sent, loaded, ?_, loadAllReservations_of_loads hloads,
    same_sent_of_agrees hloads hagrees⟩
  rw [hquiet.arrived hlinked hserver ho hstreamOpen, arrivingChanges_eq hclear]
  refine (applyChanges_mapReservations (f := sent) (fun _ => rfl) [] _).trans ?_
  rw [hitems]
  rfl

/-- The batch that stores them. -/
def storeTwo : Operations :=
  [.storeNew (.reservation (some (oneNightIn 1))), .storeNew (.reservation (some (oneNightIn 2)))]

theorem succeed_storeTwo :
    ∃ results changes, Succeed .debug .gregorian [] {} storeTwo twoStored results changes := by
  have hsucceed : Succeed .debug .gregorian [] {} storeTwo _ _ _ :=
    .cons rfl rfl rfl (.cons rfl rfl rfl (.nil _))
  exact ⟨_, _, hsucceed⟩

/-- Of two stored reservations the client deletes one and moves the other one. It holds what
    loading returns: the one that it moved. -/
theorem remote_observers_agree_delete : ∃ (s : RemoteSystem) (items : List Reservation) (moved : Reservation),
    (s.clients 0).calls = [.createStream 1 .reservation "" .null, .queueOperations 2 deleteAndMove] ∧
    applyChanges [] (changesFor 1 (s.clients 0).delivered ++ changesFor 1 (s.clients 0).backend.changeList) =
      .ok items ∧
    loadAllReservations .debug .gregorian s.server.backend.storage.current = .ok [moved] ∧
    moved.id = 2 ∧ moved.atoms.map (·.roomId) = [3] ∧ List.Forall₂ Same items [moved] := by
  obtain ⟨s, h, hquiet, hcalls, hopen, -, ⟨r, hexecuted, hbefore, hoperations⟩, moved, hmoved, hid, hroom⟩ :=
    reached_quiet
  obtain ⟨results, changes, hsucceed⟩ := succeed_storeTwo
  have hstored : ∀ room db, Ordinary (.storeNew (.reservation (some (oneNightIn room)))) ∧
      InSight db (.storeNew (.reservation (some (oneNightIn room)))) := by
    refine fun room db => ⟨fun r hr => ?_, ?_⟩
    · cases hr
      exact ⟨rfl, rfl, by rintro ⟨⟩⟩
    · show '\x00' ∉ oneNight.description.toList
      decide
  have halong : AlongHistory .debug .gregorian (fun db op => Ordinary op ∧ InSight db op)
      ([⟨{}, storeTwo, results, true, twoStored⟩] ++ s.server.backend.executed) := by
    rw [hexecuted]
    refine List.forall_mem_cons.2 ⟨fun _ => ⟨hstored 1 _, fun _ _ => ⟨hstored 2 _, fun _ _ => trivial⟩⟩,
      List.forall_mem_singleton.2 fun _ => ?_⟩
    rw [hbefore, hoperations]
    refine ⟨⟨fun r hr => (by cases hr), trivial⟩, fun e he => ⟨⟨fun r hr => ?_, ?_⟩, fun _ _ => trivial⟩⟩
    · cases hr
      exact ⟨rfl, rfl, by decide⟩
    · cases he
      exact ⟨by decide, by decide⟩
  have herase : ∀ r ∈ s.server.backend.executed, r.committed = true → .eraseAllData ∉ r.operations := by
    rw [hexecuted]
    refine List.forall_mem_singleton.2 fun _ => ?_
    rw [hoperations]
    decide
  have hcreated : .createStream 1 .reservation "" .null ∈ (s.clients 0).calls := by
    rw [hcalls]
    exact List.mem_cons_self
  obtain ⟨items, loaded, happly, hload, hsame⟩ := remote_observers_agree (.commit .nil hsucceed) h halong herase
    hquiet hcreated (by rw [hopen]; exact List.not_mem_nil)
  obtain rfl := Except.ok.inj (hmoved.symm.trans hload)
  exact ⟨s, items, moved, hcalls, happly, hload, hid, hroom, hsame⟩

end RemoteSystem

end HotelPms

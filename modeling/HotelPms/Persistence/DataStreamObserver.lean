import HotelPms.Hotel.Assignment
import HotelPms.Persistence.Operations

/- `persistence::VectorDataStreamObserver<T>`, for both types of items.

   The observer copies items into its vector and assigns to them. For reservations
   that is what `applyTo` says; for hotels it is the copy constructor and `operator=`
   of `Hotel`, which can change what they copy. Whatever they do to the rest of an
   item, they keep its id (`ItemType`), so an update changes nothing but the items of
   its ids (`assignItems_ok`). What an observer of hotels holds after an update is
   the hotel it was sent only if it held one without categories
   (`hotel_assignment_iff`). -/
namespace HotelPms

/-- `std::get<std::vector<hotel::Hotel>>` -/
def StreamableItems.getHotels : StreamableItems → Except Fault (List Hotel)
  | .hotels items => .ok items
  | .reservations _ => .error .badVariantAccess

/-- What the template uses of its type: `std::get<std::vector<T>>`, `id()`, the copy
    constructor and `operator=`, which make an item with the id of the one they copy. -/
structure ItemType (α : Type) where
  get : StreamableItems → Except Fault (List α)
  id : α → Int
  copy : α → Except Fault α
  assign : α → α → Except Fault α
  copied : ∀ that, ∃ item, copy that = .ok item ∧ id item = id that
  assigned : ∀ item that, ∃ item', assign item that = .ok item' ∧ id item' = id that

/-- `hotel::Hotel` -/
def ItemType.hotel : ItemType Hotel where
  get := StreamableItems.getHotels
  id hotel := hotel.id
  copy := Hotel.copy
  assign := Hotel.assign
  copied that := ⟨that.reattach, that.copy_eq, rfl⟩
  assigned hotel that := by
    obtain ⟨hotel', hassign, -, hid, -⟩ := hotel.assign_ok that
    exact ⟨hotel', hassign, hid⟩

/-- `hotel::Reservation` -/
def ItemType.reservation : ItemType Reservation where
  get := StreamableItems.getReservations
  id reservation := reservation.id
  copy := .ok
  assign _ that := .ok that
  copied that := ⟨that, rfl, rfl⟩
  assigned _ that := ⟨that, rfl, rfl⟩

namespace VectorDataStreamObserver
variable {α : Type} (t : ItemType α)

/-- `std::copy` to the end of the vector. -/
def copyItems (dataItems items : List α) : Except Fault (List α) := do
  return dataItems ++ (← items.mapM t.copy)

/-- The first item with the id is assigned to. An item that is not held is not updated. -/
def assignItem (updatedItem : α) : List α → Except Fault (List α)
  | [] => .ok []
  | item :: rest =>
    if t.id item = t.id updatedItem then do return (← t.assign item updatedItem) :: rest
    else do return item :: (← assignItem updatedItem rest)

def assignItems (dataItems items : List α) : Except Fault (List α) :=
  items.foldlM (fun dataItems item => assignItem t item dataItems) dataItems

/-- A change, as the observer takes it. -/
def applyChange (dataItems : List α) : DataStreamChange → Except Fault (List α)
  | .itemsAdded newItems => do copyItems t dataItems (← t.get newItems)
  | .itemsUpdated updatedItems => do assignItems t dataItems (← t.get updatedItems)
  | .itemsRemoved removedItems => .ok (removeItems t.id dataItems removedItems)
  | .initialized => .ok dataItems
  | .cleared => .ok []

/-- What an observer holds after some changes. -/
def held (changes : List DataStreamChange) : Except Fault (List α) :=
  changes.foldlM (applyChange t) []

/-! ## Reservations -/

theorem assignItem_reservation (item : Reservation) (dataItems : List Reservation) :
    assignItem .reservation item dataItems =
      .ok (updateItem (fun r : Reservation => r.id) dataItems item) := by
  induction dataItems with
  | nil => rfl
  | cons x dataItems ih =>
    rw [assignItem, updateItem, List.findIdx?_cons]
    by_cases h : x.id = item.id
    · rw [if_pos (show ItemType.reservation.id x = ItemType.reservation.id item from h),
        beq_iff_eq.2 h]
      rfl
    · rw [if_neg (show ¬ ItemType.reservation.id x = ItemType.reservation.id item from h), ih,
        beq_eq_false_iff_ne.2 h, updateItem]
      cases dataItems.findIdx? fun y => y.id == item.id <;> rfl

theorem assignItems_reservation (dataItems items : List Reservation) :
    assignItems .reservation dataItems items =
      .ok (updateItems (fun r : Reservation => r.id) dataItems items) := by
  induction items generalizing dataItems with
  | nil => rfl
  | cons item items ih =>
    rw [assignItems, List.foldlM_cons, Except.bind_ok (assignItem_reservation item dataItems)]
    exact ih _

theorem copyItems_reservation (dataItems items : List Reservation) :
    copyItems .reservation dataItems items = .ok (addItems dataItems items) := by
  have hcopy : items.mapM ItemType.reservation.copy = .ok (items.map id) :=
    Except.mapM_ok fun _ _ => rfl
  rw [copyItems, Except.bind_ok hcopy, List.map_id]
  rfl

theorem applyChange_reservation (dataItems : List Reservation) (change : DataStreamChange) :
    applyChange .reservation dataItems change = change.applyTo dataItems := by
  cases change with
  | itemsAdded newItems =>
    cases newItems with
    | hotels items => rfl
    | reservations items => exact copyItems_reservation dataItems items
  | itemsUpdated updatedItems =>
    cases updatedItems with
    | hotels items => rfl
    | reservations items => exact assignItems_reservation dataItems items
  | itemsRemoved | initialized | cleared => rfl

/-! ## Items of an id -/

variable {t}

theorem mapM_copy (k : Int) (items : List α) : ∃ copies, items.mapM t.copy = .ok copies ∧
    (items.filter fun x => t.id x == k).mapM t.copy = .ok (copies.filter fun x => t.id x == k) := by
  induction items with
  | nil => exact ⟨[], rfl, rfl⟩
  | cons item items ih =>
    obtain ⟨copies, hcopies, hfilter⟩ := ih
    obtain ⟨copy, hcopy, hid⟩ := t.copied item
    refine ⟨copy :: copies, ?_, ?_⟩
    · rw [List.mapM_cons, Except.bind_ok hcopy, Except.bind_ok hcopies]
      rfl
    · rw [List.filter_cons, List.filter_cons, hid]
      split
      · rw [List.mapM_cons, Except.bind_ok hcopy, Except.bind_ok hfilter]
        rfl
      · exact hfilter

/-- Only items of its id are changed by an item. -/
theorem assignItem_ok (k : Int) (item : α) (dataItems : List α) :
    ∃ after, assignItem t item dataItems = .ok after ∧
      (t.id item = k → assignItem t item (dataItems.filter fun x => t.id x == k) =
        .ok (after.filter fun x => t.id x == k)) ∧
      (t.id item ≠ k → (after.filter fun x => t.id x == k) =
        dataItems.filter fun x => t.id x == k) := by
  induction dataItems with
  | nil => exact ⟨[], rfl, fun _ => rfl, fun _ => rfl⟩
  | cons x dataItems ih =>
    by_cases hx : t.id x = t.id item
    · obtain ⟨x', hassign, hid⟩ := t.assigned x item
      refine ⟨x' :: dataItems, ?_, fun hk => ?_, fun hk => ?_⟩
      · rw [assignItem, if_pos hx, Except.bind_ok hassign]
        rfl
      · have hxk : (t.id x == k) = true := beq_iff_eq.2 (hx.trans hk)
        have hx'k : (t.id x' == k) = true := beq_iff_eq.2 (hid.trans hk)
        rw [List.filter_cons, List.filter_cons, hxk, hx'k, if_pos rfl, if_pos rfl, assignItem,
          if_pos hx, Except.bind_ok hassign]
        rfl
      · have hxk : (t.id x == k) = false := beq_eq_false_iff_ne.2 fun h => hk (hx.symm.trans h)
        have hx'k : (t.id x' == k) = false := beq_eq_false_iff_ne.2 fun h => hk (hid.symm.trans h)
        simp [hxk, hx'k]
    · obtain ⟨after, hafter, hsame, hother⟩ := ih
      refine ⟨x :: after, ?_, fun hk => ?_, fun hk => ?_⟩
      · rw [assignItem, if_neg hx, Except.bind_ok hafter]
        rfl
      · have hxk : (t.id x == k) = false := beq_eq_false_iff_ne.2 fun h => hx (h.trans hk.symm)
        simpa [hxk] using hsame hk
      · rw [List.filter_cons, List.filter_cons, hother hk]

theorem assignItems_ok (k : Int) (items dataItems : List α) :
    ∃ after, assignItems t dataItems items = .ok after ∧
      assignItems t (dataItems.filter fun x => t.id x == k) (items.filter fun x => t.id x == k) =
        .ok (after.filter fun x => t.id x == k) := by
  induction items generalizing dataItems with
  | nil => exact ⟨dataItems, rfl, rfl⟩
  | cons item items ih =>
    obtain ⟨next, hnext, hsame, hother⟩ := assignItem_ok k item dataItems
    obtain ⟨after, hafter, hrest⟩ := ih next
    refine ⟨after, ?_, ?_⟩
    · rw [assignItems, List.foldlM_cons, Except.bind_ok hnext]
      exact hafter
    · by_cases hk : t.id item = k
      · rw [List.filter_cons, if_pos (beq_iff_eq.2 hk), assignItems, List.foldlM_cons,
          Except.bind_ok (hsame hk)]
        exact hrest
      · rw [List.filter_cons, if_neg (mt beq_iff_eq.1 hk), ← hother hk]
        exact hrest

theorem filter_of_nodup (idOf : α → Int) {items : List α} (hdistinct : (items.map idOf).Nodup) {item : α}
    (hmem : item ∈ items) : (items.filter fun x => idOf x == idOf item) = [item] := by
  induction items with
  | nil => exact absurd hmem List.not_mem_nil
  | cons x items ih =>
    rw [List.map_cons, List.nodup_cons] at hdistinct
    rw [List.filter_cons]
    rcases List.mem_cons.1 hmem with hx | hmem
    · have hnone : (items.filter fun y => idOf y == idOf item) = [] := by
        apply List.filter_eq_nil_iff.2
        intro y hy hid
        rw [hx] at hid
        exact hdistinct.1 (beq_iff_eq.1 hid ▸ List.mem_map_of_mem hy)
      rw [hnone, ← hx]
      simp
    · have hne : (idOf x == idOf item) = false := by
        rw [beq_eq_false_iff_ne]
        intro hid
        exact hdistinct.1 (hid ▸ List.mem_map_of_mem hmem)
      rw [hne, if_neg Bool.false_ne_true, ih hdistinct.2 hmem]

theorem assignItems_find {items dataItems : List α} {item held : α} (hdistinct : (items.map t.id).Nodup)
    (hmem : item ∈ items) (hheld : (dataItems.find? fun x => t.id x == t.id item) = some held) :
    ∃ after assigned, assignItems t dataItems items = .ok after ∧ t.assign held item = .ok assigned ∧
      (after.find? fun x => t.id x == t.id item) = some assigned := by
  obtain ⟨after, hafter, hrestricted⟩ := assignItems_ok (t := t) (t.id item) items dataItems
  obtain ⟨assigned, hassigned, -⟩ := t.assigned held item
  rw [← List.head?_filter] at hheld
  obtain ⟨rest, hrest⟩ : ∃ rest, (dataItems.filter fun x => t.id x == t.id item) = held :: rest := by
    cases hfilter : dataItems.filter fun x => t.id x == t.id item with
    | nil => simp [hfilter] at hheld
    | cons x rest =>
      rw [hfilter] at hheld
      exact ⟨rest, by rw [Option.some.inj hheld]⟩
  have hid : t.id held = t.id item := by
    have hin : held ∈ dataItems.filter fun x => t.id x == t.id item := by simp [hrest]
    exact beq_iff_eq.1 (List.mem_filter.1 hin).2
  have hone : assignItem t item (held :: rest) = .ok (assigned :: rest) := by
    rw [assignItem, if_pos hid, Except.bind_ok hassigned]
    rfl
  rw [filter_of_nodup t.id hdistinct hmem, hrest, assignItems, List.foldlM_cons,
    Except.bind_ok hone] at hrestricted
  have hsame : assigned :: rest = after.filter fun x => t.id x == t.id item := Except.ok.inj hrestricted
  refine ⟨after, assigned, hafter, hassigned, ?_⟩
  rw [← List.head?_filter, ← hsame]
  rfl

end VectorDataStreamObserver

/-- Assigning one hotel to another leaves two equal ones, with the same ids, distinct
    short codes and rooms of their own categories, exactly if the hotel that is
    assigned to has no categories and the other has no two of one code; and so an
    observer holds the hotel it is sent with an update. -/
theorem hotel_assignment_iff (hotels : String → Hotel) (x y : String) :
    (∃ hotels', HotelStatement.exec hotels (.assign x y) = .ok hotels' ∧
      ((hotels' y = hotels y ∧ (hotels' x).Assigned (hotels y)) ↔
        (hotels x).categories = [] ∧ (hotels y).CodesDistinct) ∧
      ((hotels x).categories = [] ∧ (hotels y).CodesDistinct → hotels' x = hotels y)) ∧
    ∀ (dataItems updatedItems : List Hotel) (held updated : Hotel),
      (updatedItems.map fun hotel => hotel.id).Nodup → updated ∈ updatedItems →
      (dataItems.find? fun hotel => hotel.id == updated.id) = some held →
      ∃ after hotel, VectorDataStreamObserver.applyChange .hotel dataItems
          (.itemsUpdated (.hotels updatedItems)) = .ok after ∧
        (after.find? fun hotel => hotel.id == updated.id) = some hotel ∧
        (hotel.Assigned updated ↔ held.categories = [] ∧ updated.CodesDistinct) ∧
        (held.categories = [] ∧ updated.CodesDistinct → hotel = updated) := by
  refine ⟨HotelStatement.exec_assign hotels x y, ?_⟩
  intro dataItems updatedItems held updated hdistinct hmem hheld
  obtain ⟨after, hotel, hafter, hassign, hfind⟩ :=
    VectorDataStreamObserver.assignItems_find (t := .hotel) hdistinct hmem hheld
  refine ⟨after, hotel, hafter, hfind, Hotel.assigned_iff hassign, fun hcond => ?_⟩
  have hcopied := Hotel.assign_of_nil hcond.1 updated
  rw [Hotel.reattach_eq hcond.2] at hcopied
  exact Except.ok.inj (hassign.symm.trans hcopied)

/-- Two hotels of one category each, with the same short code; the one is assigned to the other. -/
theorem hotel_assignment_appends : ∃ hotels assigned : String → Hotel,
    [HotelStatement.construct "a" {} "A", .addRoomCategory "a" (some ⟨{ id := 1 }, "S", "Single"⟩),
      .construct "b" {} "B", .addRoomCategory "b" (some ⟨{ id := 2 }, "S", "Suite"⟩)].foldlM
      HotelStatement.exec (fun _ => Hotel.empty {} "") = .ok hotels ∧
    HotelStatement.exec hotels (.assign "a" "b") = .ok assigned ∧
    ¬ (assigned "a").Assigned (hotels "b") ∧ ¬ (assigned "a").CodesDistinct := by
  refine ⟨_, _, rfl, rfl, fun h => ?_, by decide⟩
  exact absurd h.categoryIds (by decide)

end HotelPms

import HotelPms.Hotel.Hotel

/- Building hotels, copying them and assigning them.

   `addRoomCategory` refuses a short code the hotel has, so a hotel that is built of
   categories and rooms has distinct short codes (`Built.distinct`) and is restored by
   a copy. `operator=` does not clear what the hotel held before: it appends, and the
   appended rooms are looked up by short code among all categories, the old ones
   first. An assignment is one exactly if there was nothing before
   (`assigned_iff`). Assigning is also how two categories of one code get into a
   hotel. -/
namespace HotelPms

namespace Hotel

/-- A hotel without categories and rooms. -/
def empty (object : PersistentObject) (name : String) : Hotel :=
  { object with name, owned := Hotel.noRooms }

/-- Hotels that successful calls of `addRoomCategory` and `addRoom` make of an empty one. -/
inductive Built : Hotel → Prop
  | empty (object : PersistentObject) (name : String) : Built (Hotel.empty object name)
  | addRoomCategory {h h' : Hotel} (built : Built h) (category : Option RoomCategory)
      (ok : h.addRoomCategory category = .ok h') : Built h'
  | addRoom {h h' : Hotel} (built : Built h) (room : Option HotelRoom) (categoryShortCode : String)
      (ok : h.addRoom room categoryShortCode = .ok h') : Built h'

theorem addRoom_ok {h h' : Hotel} {room : Option HotelRoom} {code : String}
    (hok : h.addRoom room code = .ok h') :
    h'.categories = h.categories ∧ h'.id = h.id ∧ h'.revision = h.revision ∧ h'.name = h.name := by
  cases room with
  | none => cases hok
  | some room =>
    simp only [addRoom] at hok
    split at hok
    · cases hok
    · cases hok
      exact ⟨rfl, rfl, rfl, rfl⟩

theorem addRoom_found {h : Hotel} (room : HotelRoom) {code : String} {category : RoomCategory}
    (hmem : category ∈ h.categories) (hcode : category.shortCode = code) :
    ∃ h', h.addRoom (some room) code = .ok h' := by
  have hfound : h.getCategoryByShortCode code ≠ none := by
    intro hnone
    rw [getCategoryByShortCode, List.findIdx?_eq_none_iff] at hnone
    have hne := hnone category hmem
    rw [beq_eq_false_iff_ne] at hne
    exact hne hcode
  simp only [addRoom]
  split
  · next hc => exact absurd hc hfound
  · exact ⟨_, rfl⟩

theorem Built.distinct {h : Hotel} (hbuilt : h.Built) : h.CodesDistinct := by
  induction hbuilt with
  | empty object name => exact List.nodup_nil
  | addRoomCategory _ category hok ih => exact ih.addRoomCategory hok
  | addRoom _ room code hok ih =>
    rw [CodesDistinct, (addRoom_ok hok).1]
    exact ih

/-! ## Equality -/

theorem isEqv_of_map {α β : Type} {f : α → β} {r : α → α → Bool} {l m : List α}
    (h : l.map f = m.map f) (hr : ∀ x ∈ l, ∀ y ∈ m, f x = f y → r x y = true) :
    l.isEqv m r = true := by
  induction l generalizing m with
  | nil =>
    cases m with
    | nil => rfl
    | cons y m => simp at h
  | cons x l ih =>
    cases m with
    | nil => simp at h
    | cons y m =>
      simp only [List.map_cons, List.cons.injEq] at h
      have hrest := ih h.2 fun a ha b hb =>
        hr a (List.mem_cons_of_mem _ ha) b (List.mem_cons_of_mem _ hb)
      simp [List.isEqv, hr x List.mem_cons_self y List.mem_cons_self h.1, hrest]

theorem categoryOf_mem {h : Hotel} {room : HotelRoom} (hroom : room ∈ h.rooms) :
    ∃ category ∈ h.categories, h.categoryOf room = some category := by
  have hlt := h.owned room hroom
  exact ⟨h.categories[room.category], List.getElem_mem hlt, List.getElem?_eq_getElem hlt⟩

theorem equals_of_content {a b : Hotel} (hname : a.name = b.name)
    (hcategories : (a.categories.map fun c => (c.shortCode, c.name)) =
      b.categories.map fun c => (c.shortCode, c.name))
    (hrooms : (a.rooms.map fun r => (r.name, r.category)) = b.rooms.map fun r => (r.name, r.category)) :
    a.equals b = true := by
  simp only [equals, Bool.and_eq_true]
  refine ⟨⟨by simp [hname], isEqv_of_map hcategories ?_⟩, isEqv_of_map hrooms ?_⟩
  · intro c _ d _ hcontent
    simp_all [RoomCategory.equals]
  · intro r hr s hs hcontent
    obtain ⟨c, -, hc⟩ := categoryOf_mem hr
    obtain ⟨d, -, hd⟩ := categoryOf_mem hs
    have hsame := congrArg (·[r.category]?) hcategories
    simp only [Prod.mk.injEq] at hcontent
    rw [categoryOf] at hc hd
    simp only [List.getElem?_map, hc] at hsame
    rw [hcontent.2, hd] at hsame
    simp_all [categoryOf, RoomCategory.equals]

theorem equals_refl (h : Hotel) : h.equals h = true := equals_of_content rfl rfl rfl

/-! ## Assignment -/

theorem addRooms_ok (that : Hotel) {h : Hotel} {rooms : List HotelRoom}
    (hfound : ∀ room ∈ rooms, ∃ category ∈ h.categories, category.shortCode = that.shortCodeOf room) :
    ∃ h', rooms.foldlM (fun h room => h.addRoom (some room) (that.shortCodeOf room)) h =
        Except.ok (ε := Fault) h' ∧
      h'.categories = h.categories ∧ h'.id = h.id ∧ h'.revision = h.revision ∧ h'.name = h.name := by
  induction rooms generalizing h with
  | nil => exact ⟨h, rfl, rfl, rfl, rfl, rfl⟩
  | cons room rooms ih =>
    obtain ⟨category, hmem, hcode⟩ := hfound room List.mem_cons_self
    obtain ⟨h₁, hadd⟩ := addRoom_found room hmem hcode
    obtain ⟨hcategories, hid, hrevision, hname⟩ := addRoom_ok hadd
    obtain ⟨h', hrest, h₂, h₃, h₄, h₅⟩ := ih (h := h₁) (by
      intro r hr
      rw [hcategories]
      exact hfound r (List.mem_cons_of_mem _ hr))
    refine ⟨h', ?_, h₂.trans hcategories, h₃.trans hid, h₄.trans hrevision, h₅.trans hname⟩
    rw [List.foldlM_cons, Except.bind_ok hadd]
    exact hrest

theorem assign_ok (h that : Hotel) : ∃ h', h.assign that = .ok h' ∧
    h'.categories = h.categories ++ that.categories ∧ h'.id = that.id ∧
      h'.revision = that.revision ∧ h'.name = that.name := by
  apply addRooms_ok that
  intro room hroom
  obtain ⟨category, hmem, hcategory⟩ := categoryOf_mem hroom
  refine ⟨category, List.mem_append_right _ hmem, ?_⟩
  simp [shortCodeOf, hcategory]

theorem rooms_nil {h : Hotel} (hnone : h.categories = []) : h.rooms = [] := by
  rw [List.eq_nil_iff_forall_not_mem]
  intro room hroom
  have hlt := h.owned room hroom
  rw [hnone] at hlt
  exact absurd hlt (Nat.not_lt_zero _)

theorem assign_of_nil {h : Hotel} (hnone : h.categories = []) (that : Hotel) :
    h.assign that = .ok that.reattach := by
  rw [← copy_eq, copy, assign, assign]
  congr 1
  exact Hotel.ext rfl rfl rfl (by simp [hnone]) (rooms_nil (h := h) hnone)

/-- What an assignment leaves of the two hotels: equal ones, with the same ids, distinct
    short codes and rooms of categories of their own. -/
structure Assigned (h that : Hotel) : Prop where
  equals : h.equals that = true
  id : h.id = that.id
  categoryIds : h.categories.map (·.id) = that.categories.map (·.id)
  roomIds : h.rooms.map (·.id) = that.rooms.map (·.id)
  distinct : h.CodesDistinct
  owned : ∀ room ∈ h.rooms, ∃ category ∈ h.categories, h.categoryOf room = some category

theorem Assigned.refl {h : Hotel} (hdistinct : h.CodesDistinct) : Assigned h h :=
  ⟨h.equals_refl, rfl, rfl, rfl, hdistinct, fun _ hroom => categoryOf_mem hroom⟩

/-- An assignment is one exactly if the hotel had no categories, and the other one has
    no two of one code. -/
theorem assigned_iff {h that h' : Hotel} (hok : h.assign that = .ok h') :
    Assigned h' that ↔ h.categories = [] ∧ that.CodesDistinct := by
  obtain ⟨assigned, hassigned, hcategories, -⟩ := h.assign_ok that
  cases hok.symm.trans hassigned
  constructor
  · intro hsame
    have hlength : h'.categories.length = that.categories.length := by
      simpa using congrArg List.length hsame.categoryIds
    have hnone : h.categories = [] := by
      rw [hcategories, List.length_append] at hlength
      exact List.length_eq_zero_iff.1 (by omega)
    refine ⟨hnone, ?_⟩
    have hdistinct := hsame.distinct
    rwa [CodesDistinct, hcategories, hnone, List.nil_append] at hdistinct
  · intro hcond
    rw [assign_of_nil hcond.1, reattach_eq hcond.2] at hok
    cases hok
    exact Assigned.refl hcond.2

end Hotel

/-! ## Hotels in variables -/

/-- The ways to come by a hotel, or to change one, as statements on variables. -/
inductive HotelStatement where
  | construct (x : String) (object : PersistentObject) (name : String)
  | addRoomCategory (x : String) (category : Option RoomCategory)
  | addRoom (x : String) (room : Option HotelRoom) (categoryShortCode : String)
  /-- `Hotel x(y);` -/
  | copy (x y : String)
  /-- `x = y;` -/
  | assign (x y : String)

/-- The hotels after a statement. If `x` is `y`, `operator=` appends to the vector it iterates
    over, which ends only as long as the vector does not grow; then it is this. -/
def HotelStatement.exec (hotels : String → Hotel) : HotelStatement → Except Fault (String → Hotel)
  | .construct x object name => .ok (Function.update hotels x (Hotel.empty object name))
  | .addRoomCategory x category => do
    return Function.update hotels x (← (hotels x).addRoomCategory category)
  | .addRoom x room categoryShortCode => do
    return Function.update hotels x (← (hotels x).addRoom room categoryShortCode)
  | .copy x y => do return Function.update hotels x (← (hotels y).copy)
  | .assign x y => do return Function.update hotels x (← (hotels x).assign (hotels y))

/-- An assignment gives both hotels what it promises exactly if the one had no categories,
    and the other one has no two of one code. Then they are the same. -/
theorem HotelStatement.exec_assign (hotels : String → Hotel) (x y : String) :
    ∃ hotels', exec hotels (.assign x y) = .ok hotels' ∧
      ((hotels' y = hotels y ∧ (hotels' x).Assigned (hotels y)) ↔
        (hotels x).categories = [] ∧ (hotels y).CodesDistinct) ∧
      ((hotels x).categories = [] ∧ (hotels y).CodesDistinct → hotels' x = hotels y) := by
  obtain ⟨assigned, hassigned, -⟩ := (hotels x).assign_ok (hotels y)
  have hsame : (hotels x).categories = [] ∧ (hotels y).CodesDistinct → assigned = hotels y := by
    intro hcond
    rw [Hotel.assign_of_nil hcond.1, Hotel.reattach_eq hcond.2] at hassigned
    exact (Except.ok.inj hassigned).symm
  refine ⟨Function.update hotels x assigned, Except.bind_ok hassigned _, ?_⟩
  rw [Function.update_self]
  refine ⟨⟨fun h => (Hotel.assigned_iff hassigned).1 h.2, fun hcond => ⟨?_, ?_⟩⟩, hsame⟩
  · by_cases hyx : y = x
    · rw [hyx, Function.update_self, hsame hcond, hyx]
    · exact Function.update_of_ne hyx _ _
  · exact (Hotel.assigned_iff hassigned).2 hcond

end HotelPms

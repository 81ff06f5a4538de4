import HotelPms.Hotel.Reservation

/- `hotel::Hotel` with its categories and rooms, and `hotel::Person`.

   A room points to a category of its own hotel; the pointer is the index of the
   category, and `owned` says that it is one. Copying a hotel clones the
   categories and adds the rooms again by the short code of their category, so in
   a hotel with two categories of one code the rooms of the copy all belong to the
   first of them (`copy_eq`); the copy itself never throws. -/
namespace HotelPms

structure RoomCategory extends PersistentObject where
  shortCode : String
  name : String
  deriving DecidableEq

structure HotelRoom extends PersistentObject where
  /-- The index of the room's category in its hotel. -/
  category : Nat
  name : String
  deriving DecidableEq

structure Hotel extends PersistentObject where
  name : String
  categories : List RoomCategory := []
  rooms : List HotelRoom := []
  owned : ∀ room ∈ rooms, room.category < categories.length := by simp
  deriving DecidableEq

theorem Hotel.noRooms : ∀ room ∈ ([] : List HotelRoom), room.category < ([] : List RoomCategory).length := by
  simp

structure Person extends PersistentObject where
  firstName : String
  lastName : String
  deriving DecidableEq

/-- `RoomCategory::operator==`: the identity is not compared. -/
def RoomCategory.equals (a b : RoomCategory) : Bool := a.name == b.name && a.shortCode == b.shortCode

namespace Hotel

/-- `room->category()` of a room of this hotel. -/
def categoryOf (h : Hotel) (room : HotelRoom) : Option RoomCategory := h.categories[room.category]?

/-- `room->category()->shortCode()` -/
def shortCodeOf (h : Hotel) (room : HotelRoom) : String :=
  ((h.categoryOf room).map (·.shortCode)).getD ""

def getCategoryByShortCode (h : Hotel) (shortCode : String) : Option Nat :=
  h.categories.findIdx? fun category => category.shortCode == shortCode

def getCategoryById (h : Hotel) (id : Int) : Option Nat :=
  h.categories.findIdx? fun category => category.id == id

def addRoomCategory (h : Hotel) : Option RoomCategory → Except Fault Hotel
  | none => .error (.logicError "Trying to add a nullptr category to the hotel")
  | some category =>
    match h.getCategoryByShortCode category.shortCode with
    | some i => .error (.logicError ("Category already registered! Category short code: " ++
        category.shortCode ++ ", name: " ++ ((h.categories[i]?).map (·.name)).getD ""))
    | none => .ok { h with
        categories := h.categories ++ [category]
        owned := fun room hr => by
          rw [List.length_append]
          exact Nat.lt_add_right _ (h.owned room hr) }

/-- `addRoom`: the room is attached to the first category with the code. -/
def addRoom (h : Hotel) (room : Option HotelRoom) (categoryShortCode : String) :
    Except Fault Hotel :=
  match room with
  | none => .error (.logicError "Trying to add a nullptr room to the hotel")
  | some room =>
    match hc : h.getCategoryByShortCode categoryShortCode with
    | none =>
      .error (.logicError ("Trying to add a room with unknown category " ++ categoryShortCode))
    | some existingCategory => .ok { h with
        rooms := h.rooms ++ [{ room with category := existingCategory }]
        owned := fun r hr => by
          rcases List.mem_append.1 hr with hr | hr
          · exact h.owned r hr
          · rw [List.mem_singleton.1 hr]
            obtain ⟨hlt, -⟩ := List.findIdx?_eq_some_iff_findIdx_eq.1 hc
            exact hlt }

/-- `operator=(const Hotel&)` of another hotel: the categories and rooms are added to those already there. -/
def assign (h that : Hotel) : Except Fault Hotel :=
  that.rooms.foldlM (fun h room => h.addRoom (some room) (that.shortCodeOf room))
    { h with
      id := that.id
      revision := that.revision
      name := that.name
      categories := h.categories ++ that.categories
      owned := fun room hr => by
        rw [List.length_append]
        exact Nat.lt_add_right _ (h.owned room hr) }

/-- The copy constructor. -/
def copy (that : Hotel) : Except Fault Hotel := assign { name := "" } that

/-- `operator==`: names, categories and rooms, without any identity. -/
def equals (a b : Hotel) : Bool :=
  a.name == b.name && a.categories.isEqv b.categories RoomCategory.equals &&
    a.rooms.isEqv b.rooms fun r s => r.name == s.name &&
      match a.categoryOf r, b.categoryOf s with
      | some c, some d => c.equals d
      | _, _ => false

/-- The index of the first category with the short code of the room's own. -/
def firstWithCode (h : Hotel) (room : HotelRoom) : Nat :=
  h.categories.findIdx fun category => category.shortCode == h.shortCodeOf room

theorem firstWithCode_lt (h : Hotel) {room : HotelRoom} (hr : room.category < h.categories.length) :
    h.firstWithCode room < h.categories.length := by
  refine List.findIdx_lt_length_of_exists ⟨h.categories[room.category], List.getElem_mem hr, ?_⟩
  simp [shortCodeOf, categoryOf, hr]

/-- The hotel with every room attached to the first category of its code. -/
def reattach (h : Hotel) : Hotel := { h with
  rooms := h.rooms.map fun room => { room with category := h.firstWithCode room }
  owned := by
    intro room hr
    obtain ⟨r, hmem, rfl⟩ := List.mem_map.1 hr
    exact h.firstWithCode_lt (h.owned r hmem) }

@[ext] theorem ext {a b : Hotel} (hid : a.id = b.id) (hrevision : a.revision = b.revision)
    (hname : a.name = b.name) (hcategories : a.categories = b.categories)
    (hrooms : a.rooms = b.rooms) : a = b := by
  obtain ⟨⟨_, _⟩, _, _, _, _⟩ := a
  obtain ⟨⟨_, _⟩, _, _, _, _⟩ := b
  simp only at hid hrevision hname hcategories hrooms
  subst hid hrevision hname hcategories hrooms
  rfl

/-- The hotel with other rooms. -/
def withRooms (h : Hotel) (rooms : List HotelRoom)
    (owned : ∀ room ∈ rooms, room.category < h.categories.length) : Hotel :=
  { h with rooms, owned }

theorem addRoom_withRooms {h : Hotel} {rooms : List HotelRoom} {room : HotelRoom} {code : String}
    {i : Nat} (hi : h.getCategoryByShortCode code = some i)
    (howned : ∀ r ∈ rooms, r.category < h.categories.length)
    (howned' : ∀ r ∈ rooms ++ [{ room with category := i }], r.category < h.categories.length) :
    (h.withRooms rooms howned).addRoom (some room) code =
      .ok (h.withRooms (rooms ++ [{ room with category := i }]) howned') := by
  have hi' : (h.withRooms rooms howned).getCategoryByShortCode code = some i := hi
  simp only [addRoom]
  split
  · next hc => rw [hi'] at hc; cases hc
  · next j hc => rw [hi'] at hc; cases hc; rfl

theorem getCategoryByShortCode_shortCodeOf (h : Hotel) {room : HotelRoom}
    (hr : room.category < h.categories.length) :
    h.getCategoryByShortCode (h.shortCodeOf room) = some (h.firstWithCode room) := by
  rw [getCategoryByShortCode, List.findIdx?_eq_some_iff_findIdx_eq]
  exact ⟨h.firstWithCode_lt hr, rfl⟩

theorem addRooms_eq (that : Hotel) (rooms done : List HotelRoom)
    (hrooms : ∀ room ∈ rooms, room.category < that.categories.length)
    (hdone : ∀ room ∈ done, room.category < that.categories.length)
    (hall : ∀ room ∈ done ++ rooms.map fun room => { room with category := that.firstWithCode room },
      room.category < that.categories.length) :
    rooms.foldlM (fun h room => h.addRoom (some room) (that.shortCodeOf room))
        (that.withRooms done hdone) =
      Except.ok (ε := Fault) (that.withRooms (done ++ rooms.map fun room =>
        { room with category := that.firstWithCode room }) hall) := by
  induction rooms generalizing done with
  | nil => exact congrArg Except.ok (Hotel.ext rfl rfl rfl rfl (by simp [withRooms]))
  | cons room rooms ih =>
    have hroom := hrooms room List.mem_cons_self
    have hnext : ∀ r ∈ done ++ [{ room with category := that.firstWithCode room }],
        r.category < that.categories.length := by
      intro r hr
      exact hall r (by simp only [List.mem_append, List.map_cons, List.mem_cons] at hr ⊢; tauto)
    rw [List.foldlM_cons,
      addRoom_withRooms (that.getCategoryByShortCode_shortCodeOf hroom) hdone hnext]
    refine (ih _ (fun r hr => hrooms r (List.mem_cons_of_mem _ hr)) hnext (by simpa using hall)).trans ?_
    exact congrArg Except.ok (Hotel.ext rfl rfl rfl rfl (by simp [withRooms]))

/-- Copying never throws; it attaches the rooms anew. -/
theorem copy_eq (that : Hotel) : that.copy = .ok that.reattach :=
  addRooms_eq that that.rooms [] that.owned (by simp) that.reattach.owned

/-- No two categories have the same short code. -/
def CodesDistinct (h : Hotel) : Prop := (h.categories.map (·.shortCode)).Nodup

instance : DecidablePred CodesDistinct := fun h =>
  inferInstanceAs (Decidable (h.categories.map (·.shortCode)).Nodup)

/-- A hotel with one category and one room. -/
def oneRoom : Hotel where
  id := 1
  revision := 1
  name := "Hotel"
  categories := [⟨{ id := 1, revision := 1 }, "D", "Double"⟩]
  rooms := [⟨{ id := 1, revision := 1 }, 0, "101"⟩]
  owned := by decide

theorem reattach_eq {h : Hotel} (hdistinct : h.CodesDistinct) : h.reattach = h := by
  have hrooms : h.reattach.rooms = h.rooms := by
    show h.rooms.map _ = h.rooms
    conv_rhs => rw [← List.map_id h.rooms]
    apply List.map_congr_left
    intro room hroom
    have hlt := h.owned room hroom
    have hfirst := h.firstWithCode_lt hlt
    have hcode : h.categories[h.firstWithCode room].shortCode = h.shortCodeOf room := by
      have hfound := List.findIdx_getElem (w := hfirst)
      exact beq_iff_eq.1 hfound
    have hown : h.shortCodeOf room = h.categories[room.category].shortCode := by
      simp [shortCodeOf, categoryOf, hlt]
    have hsame : h.firstWithCode room = room.category := by
      have hsameCode : (h.categories.map (·.shortCode)).get ⟨h.firstWithCode room, by simpa using hfirst⟩ =
          (h.categories.map (·.shortCode)).get ⟨room.category, by simpa using hlt⟩ := by
        rw [List.get_eq_getElem, List.get_eq_getElem, List.getElem_map, List.getElem_map, hcode, hown]
      exact Fin.mk.inj (List.nodup_iff_injective_get.1 hdistinct hsameCode)
    rw [hsame]
    rfl
  exact Hotel.ext rfl rfl rfl rfl hrooms

theorem addRoomCategory_ok {h h' : Hotel} {category : RoomCategory}
    (hok : h.addRoomCategory (some category) = .ok h') :
    category.shortCode ∉ h.categories.map (·.shortCode) ∧
      h'.categories = h.categories ++ [category] ∧ h'.rooms = h.rooms ∧ h'.id = h.id ∧
      h'.revision = h.revision ∧ h'.name = h.name := by
  simp only [addRoomCategory] at hok
  split at hok
  · cases hok
  · next hnone =>
    cases hok
    rw [getCategoryByShortCode, List.findIdx?_eq_none_iff] at hnone
    refine ⟨?_, rfl, rfl, rfl, rfl, rfl⟩
    intro hmem
    obtain ⟨other, hother, hcode⟩ := List.mem_map.1 hmem
    exact absurd (beq_iff_eq.2 hcode) (by rw [hnone other hother]; exact Bool.false_ne_true)

theorem CodesDistinct.addRoomCategory {h h' : Hotel} {category : Option RoomCategory}
    (hdistinct : h.CodesDistinct) (hok : h.addRoomCategory category = .ok h') :
    h'.CodesDistinct := by
  cases category with
  | none => cases hok
  | some category =>
    obtain ⟨hnew, hcategories, -⟩ := addRoomCategory_ok hok
    rw [CodesDistinct, hcategories, List.map_append, List.nodup_append]
    refine ⟨hdistinct, List.nodup_singleton _, fun code hcode other hother heq => ?_⟩
    rw [List.map_singleton, List.mem_singleton] at hother
    apply hnew
    rwa [← hother, ← heq]

theorem addRoomCategory_new {h : Hotel} {category : RoomCategory}
    (hnew : category.shortCode ∉ h.categories.map (·.shortCode)) :
    ∃ h', h.addRoomCategory (some category) = .ok h' := by
  have hnone : h.getCategoryByShortCode category.shortCode = none := by
    rw [getCategoryByShortCode, List.findIdx?_eq_none_iff]
    intro other hother
    rw [beq_eq_false_iff_ne]
    exact fun hcode => hnew (hcode ▸ List.mem_map_of_mem hother)
  simp only [addRoomCategory]
  split
  · next i hi => rw [hnone] at hi; cases hi
  · exact ⟨_, rfl⟩

theorem addCategories_ok {h h' : Hotel} {categories : List RoomCategory} (hdone : h.CodesDistinct)
    (hok : categories.foldlM (fun h category => h.addRoomCategory (some category)) h =
      Except.ok (ε := Fault) h') :
    h'.CodesDistinct ∧ h'.categories = h.categories ++ categories ∧ h'.rooms = h.rooms ∧
      h'.id = h.id ∧ h'.revision = h.revision ∧ h'.name = h.name := by
  induction categories generalizing h with
  | nil =>
    cases hok
    exact ⟨hdone, (List.append_nil _).symm, rfl, rfl, rfl, rfl⟩
  | cons category categories ih =>
    rw [List.foldlM_cons] at hok
    obtain ⟨h₁, hadd, hok⟩ := Except.bind_eq_ok.1 hok
    obtain ⟨-, hcategories, hrooms, hid, hrevision, hname⟩ := addRoomCategory_ok hadd
    obtain ⟨h₂, h₃, h₄, h₅, h₆, h₇⟩ := ih (hdone.addRoomCategory hadd) hok
    refine ⟨h₂, ?_, h₄.trans hrooms, h₅.trans hid, h₆.trans hrevision, h₇.trans hname⟩
    rw [h₃, hcategories, List.append_assoc]
    rfl

theorem addCategories_new (h : Hotel) (categories : List RoomCategory)
    (hdistinct : ((h.categories ++ categories).map (·.shortCode)).Nodup) :
    ∃ h', categories.foldlM (fun h category => h.addRoomCategory (some category)) h =
      Except.ok (ε := Fault) h' := by
  induction categories generalizing h with
  | nil => exact ⟨h, rfl⟩
  | cons category categories ih =>
    have hnew : category.shortCode ∉ h.categories.map (·.shortCode) := by
      rw [List.map_append, List.nodup_append] at hdistinct
      intro hmem
      exact hdistinct.2.2 _ hmem _ (List.mem_map_of_mem List.mem_cons_self) rfl
    obtain ⟨h₁, hadd⟩ := addRoomCategory_new hnew
    have hcategories := (addRoomCategory_ok hadd).2.1
    obtain ⟨h', hrest⟩ := ih h₁ (by
      rw [hcategories, List.append_assoc]
      exact hdistinct)
    exact ⟨h', by rw [List.foldlM_cons, hadd]; exact hrest⟩

end Hotel

end HotelPms

import HotelPms.Hotel.Assignment
import HotelPms.Sqlite.Freshness

/- Hotels in the database.

   A hotel is three kinds of rows, linked by the ids that storing hands out. Loading
   takes its categories by `addRoomCategory`, which throws if two of their short codes
   read the same, and attaches each room to the category with its category id, leaving
   it out if there is none (`readHotel_spec`).

   A new hotel gets ids that no row has, so its rows read back as the hotel itself,
   with the ids that storing wrote into it, and all other hotels read as before. One
   that cannot be read, though, keeps all of them from being loaded
   (`hotel_storage_round_trip`). An update writes the name and the revision only, but
   is published with the categories and rooms of the object that was submitted
   (`hotel_update_iff`). -/
namespace HotelPms
open Lib SqliteStorage SqliteBackend

/-! ## Loading -/

/-- A category row, as it is read. -/
def readCategoryRow (row : Int × RoomCategoryRow) : RoomCategory :=
  { id := row.1, shortCode := readText row.2.shortCode, name := readText row.2.name }

/-- The categories that are stored for a hotel, as they are read. -/
def categoriesRead (db : Database) (id : Int) : List RoomCategory :=
  (db.roomCategory.select fun _ row => row.hotelId == id).map readCategoryRow

/-- A room row, as it is read into a hotel with these categories. -/
def readRoomRow (categories : List RoomCategory) (row : Int × RoomRow) : Option HotelRoom :=
  (categories.findIdx? fun category => category.id == row.2.categoryId).map fun category =>
    { id := row.1, category, name := readText row.2.name }

/-- The rooms that are stored for a hotel, as they are read. -/
def roomsRead (db : Database) (id : Int) : List HotelRoom :=
  (db.room.select fun _ row => row.hotelId == id).filterMap (readRoomRow (categoriesRead db id))

/-- No two short codes of the hotel read the same. -/
def CodesRead (db : Database) (id : Int) : Prop :=
  ((categoriesRead db id).map (·.shortCode)).Nodup

instance (db : Database) : DecidablePred (CodesRead db) := fun id =>
  inferInstanceAs (Decidable ((categoriesRead db id).map (·.shortCode)).Nodup)

section
variable {db : Database}

theorem findIdx?_of_nodup {α β : Type} [DecidableEq β] (key : α → β) {l : List α}
    (hdistinct : (l.map key).Nodup) {i : Nat} {x : α} (hi : l[i]? = some x) :
    l.findIdx? (fun y => key y == key x) = some i := by
  obtain ⟨hlt, hx⟩ := List.getElem?_eq_some_iff.1 hi
  rw [List.findIdx?_eq_some_iff_getElem]
  refine ⟨hlt, by simp [hx], fun j hj hkey => ?_⟩
  have hjlt : j < l.length := by omega
  have hsame : (l.map key)[j]? = (l.map key)[i]? := by
    rw [List.getElem?_map, List.getElem?_map, hi, List.getElem?_eq_getElem hjlt, Option.map_some,
      Option.map_some, beq_iff_eq.1 hkey]
  have := (List.getElem?_inj (by simpa using hjlt) hdistinct).1 hsame
  omega

theorem readRoom_spec {h : Hotel} (hdistinct : h.CodesDistinct) (row : Int × RoomRow) :
    ∃ h', readRoom h row = .ok h' ∧ h'.categories = h.categories ∧
      h'.rooms = h.rooms ++ (readRoomRow h.categories row).toList ∧
      h'.toPersistentObject = h.toPersistentObject ∧ h'.name = h.name := by
  rw [readRoom, readRoomRow, Hotel.getCategoryById]
  cases hfound : h.categories.findIdx? fun category => category.id == row.2.categoryId with
  | none => exact ⟨h, rfl, rfl, by simp, rfl, rfl⟩
  | some i =>
    obtain ⟨hlt, -⟩ := List.findIdx?_eq_some_iff_getElem.1 hfound
    have hcategory : h.categories[i]? = some h.categories[i] := List.getElem?_eq_getElem hlt
    have hcode : h.getCategoryByShortCode h.categories[i].shortCode = some i :=
      findIdx?_of_nodup RoomCategory.shortCode hdistinct hcategory
    dsimp only
    rw [hcategory, Option.map_some, Option.getD_some]
    simp only [Hotel.addRoom]
    split
    · next hnone =>
      rw [hcode] at hnone
      cases hnone
    · next j hsome =>
      rw [hcode] at hsome
      cases hsome
      exact ⟨_, rfl, rfl, rfl, rfl, rfl⟩

theorem readRooms_spec (rows : List (Int × RoomRow)) {h : Hotel} (hdistinct : h.CodesDistinct) :
    ∃ h', rows.foldlM readRoom h = .ok h' ∧ h'.categories = h.categories ∧
      h'.rooms = h.rooms ++ rows.filterMap (readRoomRow h.categories) ∧
      h'.toPersistentObject = h.toPersistentObject ∧ h'.name = h.name := by
  induction rows generalizing h with
  | nil => exact ⟨h, rfl, rfl, by simp, rfl, rfl⟩
  | cons row rows ih =>
    obtain ⟨h₁, hread, hcategories, hrooms, hobject, hname⟩ := readRoom_spec hdistinct row
    have hdistinct₁ : h₁.CodesDistinct := by
      rw [Hotel.CodesDistinct, hcategories]
      exact hdistinct
    obtain ⟨h', hrest, h₂, h₃, h₄, h₅⟩ := ih hdistinct₁
    refine ⟨h', ?_, h₂.trans hcategories, ?_, h₄.trans hobject, h₅.trans hname⟩
    · rw [List.foldlM_cons, Except.bind_ok hread]
      exact hrest
    · rw [h₃, hrooms, hcategories, List.filterMap_cons, List.append_assoc]
      cases readRoomRow h.categories row <;> rfl

/-- The hotel row, with the categories and rooms that are stored for it. -/
structure ReadAs (db : Database) (row : Int × HotelRow) (hotel : Hotel) : Prop where
  id : hotel.id = row.1
  revision : hotel.revision = row.2.revision
  name : hotel.name = readText row.2.name
  categories : hotel.categories = categoriesRead db row.1
  rooms : hotel.rooms = roomsRead db row.1

/-- The hotel before its categories and rooms are read. -/
def hotelOfRow (row : Int × HotelRow) : Hotel :=
  { id := row.1, revision := row.2.revision, name := readText row.2.name, owned := Hotel.noRooms }

theorem readHotel_eq (db : Database) (row : Int × HotelRow) : readHotel db row =
    ((categoriesRead db row.1).foldlM (fun hotel category => hotel.addRoomCategory (some category))
      (hotelOfRow row) >>= readRooms db) := by
  rw [categoriesRead, List.foldlM_map]
  rfl

theorem readCategories_ok {row : Int × HotelRow} {hotel : Hotel}
    (hadd : (categoriesRead db row.1).foldlM (fun hotel category => hotel.addRoomCategory (some category))
      (hotelOfRow row) = .ok hotel) : CodesRead db row.1 ∧ hotel.CodesDistinct ∧
        hotel.categories = categoriesRead db row.1 ∧ hotel.rooms = [] ∧ hotel.id = row.1 ∧
        hotel.revision = row.2.revision ∧ hotel.name = readText row.2.name := by
  have hfirst : (hotelOfRow row).CodesDistinct := List.nodup_nil
  obtain ⟨hdistinct, hcategories, hnone, hid, hrevision, hname⟩ := Hotel.addCategories_ok hfirst hadd
  have hsame : hotel.categories = categoriesRead db row.1 := hcategories
  refine ⟨?_, hdistinct, hsame, hnone, hid, hrevision, hname⟩
  rw [CodesRead, ← hsame]
  exact hdistinct

/-- A hotel can be read exactly if no two of its short codes read the same. -/
theorem readHotel_spec (db : Database) (row : Int × HotelRow) :
    (CodesRead db row.1 → ∃ hotel, readHotel db row = .ok hotel ∧ ReadAs db row hotel) ∧
      ∀ hotel, readHotel db row = .ok hotel → CodesRead db row.1 := by
  rw [readHotel_eq]
  constructor
  · intro hcodes
    obtain ⟨hotel, hadd⟩ := Hotel.addCategories_new (hotelOfRow row) (categoriesRead db row.1) hcodes
    obtain ⟨-, hdistinct, hcategories, hnone, hid, hrevision, hname⟩ := readCategories_ok hadd
    obtain ⟨whole, hrooms, h₁, h₂, h₃, h₄⟩ := readRooms_spec
      (db.room.select fun _ r => r.hotelId == hotel.id) hdistinct
    refine ⟨whole, (Except.bind_ok hadd _).trans hrooms, (congrArg (·.id) h₃).trans hid,
      (congrArg (·.revision) h₃).trans hrevision, h₄.trans hname, h₁.trans hcategories, ?_⟩
    rw [h₂, hnone, hcategories, hid]
    rfl
  · intro hotel hok
    obtain ⟨withCategories, hadd, -⟩ := Except.bind_eq_ok.1 hok
    exact (readCategories_ok hadd).1

theorem ReadAs.unique {row : Int × HotelRow} {a b : Hotel} (ha : ReadAs db row a)
    (hb : ReadAs db row b) : a = b :=
  Hotel.ext (ha.id.trans hb.id.symm) (ha.revision.trans hb.revision.symm) (ha.name.trans hb.name.symm)
    (ha.categories.trans hb.categories.symm) (ha.rooms.trans hb.rooms.symm)

theorem readHotel_of_readAs {row : Int × HotelRow} (hcodes : CodesRead db row.1) {hotel : Hotel}
    (h : ReadAs db row hotel) : readHotel db row = .ok hotel := by
  obtain ⟨other, hread, hother⟩ := (readHotel_spec db row).1 hcodes
  rw [hread, h.unique hother]

/-! ## Storing -/

/-- What loading makes of a hotel that was stored. -/
def hotelAsLoaded (h : Hotel) : Hotel := { h with
  name := readText h.name
  categories := h.categories.map fun category =>
    { id := category.id, shortCode := readText category.shortCode, name := readText category.name }
  rooms := h.rooms.map fun room => { id := room.id, category := room.category, name := readText room.name }
  owned := by
    intro room hr
    obtain ⟨r, hmem, rfl⟩ := List.mem_map.1 hr
    rw [List.length_map]
    exact h.owned r hmem }

theorem zip_map_eq {α β γ : Type} {ids : List Int} {l : List α} (hlength : ids.length = l.length)
    (f : α → β) (g : Int × β → γ) :
    (ids.zip (l.map f)).map g = l.mapIdx fun i x => g (ids.getD i 0, f x) := by
  apply List.ext_getElem
  · simp [hlength]
  · intro i h₁ h₂
    have hi : i < ids.length := by simpa [hlength] using h₁
    simp [List.getD, hi]

theorem select_inserted {ρ : Type} {t : Table ρ} (rows : List ρ) {condition : ρ → Bool}
    (hnone : t.select (fun _ => condition) = []) (hall : ∀ row ∈ rows, condition row = true) :
    (t.insertAll rows).1.select (fun _ => condition) = (t.insertAll rows).2.zip rows := by
  rw [Table.select_insertAll, hnone, List.nil_append]
  apply List.filter_eq_self.2
  intro row hrow
  exact hall row.2 (List.of_mem_zip hrow).2

theorem nodup_insertedIds {ρ : Type} (t : Table ρ) (rows : List ρ) : (t.insertAll rows).2.Nodup := by
  rw [Table.insertAll_ids]
  apply List.Nodup.map _ List.nodup_range
  intro i j hij
  have hij : t.seq + 1 + (i : Int) = t.seq + 1 + (j : Int) := hij
  omega

/-- The rows of the categories. -/
def categoryRows (db : Database) (h : Hotel) : List RoomCategoryRow :=
  h.categories.map fun category =>
    { hotelId := db.hotel.nextId, shortCode := category.shortCode, name := category.name }

/-- The hotel with the ids of itself and of its categories. -/
def withCategoryIds (db : Database) (h : Hotel) : Hotel :=
  setCategoryIds { h with id := db.hotel.nextId, revision := 1 }
    (db.roomCategory.insertAll (categoryRows db h)).2

/-- The rows of the rooms. -/
def roomRows (db : Database) (h : Hotel) : List RoomRow :=
  (withCategoryIds db h).rooms.map fun room =>
    { hotelId := db.hotel.nextId, categoryId := categoryIdOf (withCategoryIds db h) room, name := room.name }

theorem map_mapIdx {α β γ : Type} (l : List α) (f : Nat → α → β) (g : β → γ) :
    (l.mapIdx f).map g = l.mapIdx fun i x => g (f i x) := by
  apply List.ext_getElem
  · simp
  · intro i _ _
    simp

theorem categoriesRead_stored (hfresh : Fresh db) (h : Hotel) :
    categoriesRead (storeNewHotel db h).1 db.hotel.nextId =
      (hotelAsLoaded (storeNewHotel db h).2).categories := by
  have hrows : ((db.roomCategory.insertAll (categoryRows db h)).1.select
      fun _ row => row.hotelId == db.hotel.nextId) = _ :=
    select_inserted (categoryRows db h) hfresh.categories_next (by simp [categoryRows])
  have hlength : (db.roomCategory.insertAll (categoryRows db h)).2.length = h.categories.length := by
    simp [categoryRows]
  show List.map readCategoryRow ((db.roomCategory.insertAll (categoryRows db h)).1.select
    fun _ row => row.hotelId == db.hotel.nextId) = _
  rw [hrows]
  refine (zip_map_eq hlength _ readCategoryRow).trans ?_
  show _ = List.map _ (List.mapIdx _ h.categories)
  rw [map_mapIdx]
  rfl

theorem ids_withCategoryIds (db : Database) (h : Hotel) :
    (withCategoryIds db h).categories.map (·.id) = (db.roomCategory.insertAll (categoryRows db h)).2 := by
  have hlength : (db.roomCategory.insertAll (categoryRows db h)).2.length = h.categories.length := by
    simp [categoryRows]
  show (h.categories.mapIdx _).map _ = _
  rw [map_mapIdx]
  apply List.ext_getElem
  · simp [hlength]
  · intro i h₁ h₂
    rw [List.getElem_mapIdx]
    exact List.getD_eq_getElem _ _ h₂

theorem findIdx?_categoryIdOf (db : Database) (h : Hotel) {room : HotelRoom}
    (hroom : room ∈ (withCategoryIds db h).rooms) :
    ((hotelAsLoaded (withCategoryIds db h)).categories.findIdx? fun category =>
      category.id == categoryIdOf (withCategoryIds db h) room) = some room.category := by
  have hlt := (withCategoryIds db h).owned room hroom
  have hcategory : (withCategoryIds db h).categories[room.category]? =
      some (withCategoryIds db h).categories[room.category] := List.getElem?_eq_getElem hlt
  have hdistinct : ((withCategoryIds db h).categories.map (·.id)).Nodup := by
    rw [ids_withCategoryIds]
    exact nodup_insertedIds _ _
  have hid : categoryIdOf (withCategoryIds db h) room =
      (withCategoryIds db h).categories[room.category].id := by
    rw [categoryIdOf, Hotel.categoryOf, hcategory]
    rfl
  rw [hotelAsLoaded]
  dsimp only
  rw [List.findIdx?_map, hid]
  exact findIdx?_of_nodup (fun category : RoomCategory => category.id) hdistinct hcategory

theorem filterMap_of_map {α β : Type} {f : α → Option β} {l : List α} {m : List β}
    (h : l.map f = m.map some) : l.filterMap f = m := by
  have hall := congrArg (List.filterMap id) h
  simpa [List.filterMap_map] using hall

theorem roomsRead_stored (hfresh : Fresh db) (h : Hotel) :
    roomsRead (storeNewHotel db h).1 db.hotel.nextId =
      (hotelAsLoaded (storeNewHotel db h).2).rooms := by
  have hrows : ((db.room.insertAll (roomRows db h)).1.select
      fun _ row => row.hotelId == db.hotel.nextId) = _ :=
    select_inserted (roomRows db h) hfresh.rooms_next (by simp [roomRows])
  have hlength : (db.room.insertAll (roomRows db h)).2.length = (withCategoryIds db h).rooms.length := by
    simp [roomRows]
  have hread : ((db.room.insertAll (roomRows db h)).2.zip (roomRows db h)).map
      (readRoomRow (hotelAsLoaded (withCategoryIds db h)).categories) =
        (hotelAsLoaded (storeNewHotel db h).2).rooms.map some := by
    refine (zip_map_eq hlength _ _).trans ?_
    show _ = List.map some (List.map _ (List.mapIdx _ (withCategoryIds db h).rooms))
    rw [map_mapIdx, map_mapIdx]
    apply List.mapIdx_eq_mapIdx_iff.2
    intro i hi
    rw [readRoomRow]
    dsimp only
    rw [findIdx?_categoryIdOf db h (List.getElem_mem hi)]
    rfl
  rw [roomsRead, categoriesRead_stored hfresh]
  show List.filterMap _ ((db.room.insertAll (roomRows db h)).1.select
    fun _ row => row.hotelId == db.hotel.nextId) = _
  rw [hrows]
  exact filterMap_of_map hread

theorem readAs_stored (hfresh : Fresh db) (h : Hotel) :
    ReadAs (storeNewHotel db h).1 (db.hotel.nextId, { name := h.name })
      (hotelAsLoaded (storeNewHotel db h).2) :=
  ⟨rfl, rfl, rfl, (categoriesRead_stored hfresh h).symm, (roomsRead_stored hfresh h).symm⟩

theorem readHotel_congr {db' : Database} {row : Int × HotelRow}
    (hcategories : (db'.roomCategory.select fun _ r => r.hotelId == row.1) =
      db.roomCategory.select fun _ r => r.hotelId == row.1)
    (hrooms : (db'.room.select fun _ r => r.hotelId == row.1) =
      db.room.select fun _ r => r.hotelId == row.1) : readHotel db' row = readHotel db row := by
  have hread : categoriesRead db' row.1 = categoriesRead db row.1 := by
    rw [categoriesRead, hcategories, categoriesRead]
  rw [readHotel_eq, readHotel_eq, hread]
  cases hadd : (categoriesRead db row.1).foldlM
    (fun hotel category => hotel.addRoomCategory (some category)) (hotelOfRow row) with
  | error fault => rfl
  | ok hotel =>
    have hid := (readCategories_ok hadd).2.2.2.2.1
    show readRooms db' hotel = readRooms db hotel
    rw [readRooms, readRooms, hid, hrooms]

theorem select_other {ρ : Type} (t : Table ρ) (rows : List ρ) {condition : ρ → Bool}
    (hother : ∀ row ∈ rows, condition row = false) :
    (t.insertAll rows).1.select (fun _ => condition) = t.select fun _ => condition := by
  rw [Table.select_insertAll]
  have hnone : ((t.insertAll rows).2.zip rows).filter (fun r => condition r.2) = [] := by
    apply List.filter_eq_nil_iff.2
    intro row hrow
    rw [hother row.2 (List.of_mem_zip hrow).2]
    exact Bool.false_ne_true
  rw [hnone, List.append_nil]

theorem readHotel_other (db : Database) (h : Hotel) {row : Int × HotelRow}
    (hne : row.1 ≠ db.hotel.nextId) : readHotel (storeNewHotel db h).1 row = readHotel db row := by
  apply readHotel_congr
  · exact select_other db.roomCategory (categoryRows db h) (by simp [categoryRows, Ne.symm hne])
  · exact select_other db.room (roomRows db h) (by simp [roomRows, Ne.symm hne])

/-- All hotels can be loaded exactly if each of them can be read. -/
theorem loadAllHotels_iff (db : Database) :
    (∃ hotels, loadAllHotels db = .ok hotels) ↔ ∀ row ∈ db.hotel.rows, CodesRead db row.1 := by
  constructor
  · intro hall row hrow
    obtain ⟨hotels, hhotels⟩ := hall
    obtain ⟨hotel, hhotel⟩ := Except.of_mapM_ok hhotels row hrow
    exact (readHotel_spec db row).2 hotel hhotel
  · intro hcodes
    apply Except.exists_mapM
    intro row hrow
    obtain ⟨hotel, hhotel, -⟩ := (readHotel_spec db row).1 (hcodes row hrow)
    exact ⟨hotel, hhotel⟩

theorem loadAllHotels_stored {h : Hotel} {loaded : Hotel}
    (hread : readHotel (storeNewHotel db h).1 (db.hotel.nextId, { name := h.name }) = .ok loaded) :
    loadAllHotels (storeNewHotel db h).1 = (do return (← loadAllHotels db) ++ [loaded]) := by
  have hbefore : db.hotel.rows.mapM (readHotel (storeNewHotel db h).1) = db.hotel.rows.mapM (readHotel db) := by
    apply Except.mapM_congr
    intro row hrow
    have hknown := (db.hotel.range row hrow).2
    apply readHotel_other
    rw [Table.nextId]
    omega
  show (db.hotel.rows ++ [(db.hotel.nextId, ({ name := h.name } : HotelRow))]).mapM _ = _
  rw [List.mapM_append, hbefore, loadAllHotels]
  cases db.hotel.rows.mapM (readHotel db) with
  | error fault => rfl
  | ok hotels =>
    have hlast : [(db.hotel.nextId, ({ name := h.name } : HotelRow))].mapM
        (readHotel (storeNewHotel db h).1) = .ok [loaded] := by
      rw [List.mapM_cons, Except.bind_ok hread]
      rfl
    exact Except.bind_ok hlast _

theorem loadHotelById_other (db : Database) (h : Hotel) {id : Int} (hne : id ≠ db.hotel.nextId) :
    loadHotelById (storeNewHotel db h).1 id = loadHotelById db id := by
  rw [loadHotelById, loadHotelById, storeNewHotel_hotel, Table.get?_insert, if_neg hne]
  cases db.hotel.get? id with
  | none => rfl
  | some row =>
    dsimp only
    have hread : readHotel (storeNewHotel db h).1 (id, row) = readHotel db (id, row) :=
      readHotel_other db h hne
    rw [hread]

/-- No text of the hotel has a NUL. -/
structure NoNul (h : Hotel) : Prop where
  name : '\x00' ∉ h.name.toList
  categories : ∀ category ∈ h.categories, '\x00' ∉ category.shortCode.toList ∧ '\x00' ∉ category.name.toList
  rooms : ∀ room ∈ h.rooms, '\x00' ∉ room.name.toList

theorem equals_hotelAsLoaded {h : Hotel} (htext : NoNul h) : (hotelAsLoaded h).equals h = true := by
  apply Hotel.equals_of_content
  · exact readText_of_noNul htext.name
  · show (h.categories.map _).map _ = _
    rw [List.map_map]
    apply List.map_congr_left
    intro category hmem
    obtain ⟨hcode, hname⟩ := htext.categories category hmem
    simp [readText_of_noNul hcode, readText_of_noNul hname]
  · show (h.rooms.map _).map _ = _
    rw [List.map_map]
    apply List.map_congr_left
    intro room hmem
    simp [readText_of_noNul (htext.rooms room hmem)]

theorem equals_stored (db : Database) (h : Hotel) : (storeNewHotel db h).2.equals h = true := by
  apply Hotel.equals_of_content
  · rfl
  · show (h.categories.mapIdx _).map _ = _
    rw [map_mapIdx, List.mapIdx_eq_iff]
    intro i
    simp
  · show (h.rooms.mapIdx _).map _ = _
    rw [map_mapIdx, List.mapIdx_eq_iff]
    intro i
    simp

theorem NoNul.stored {h : Hotel} (htext : NoNul h) (db : Database) : NoNul (storeNewHotel db h).2 := by
  refine ⟨htext.name, fun category hmem => ?_, fun room hmem => ?_⟩
  · obtain ⟨i, hi, rfl⟩ := List.mem_mapIdx.1 hmem
    have hlt : i < h.categories.length := hi
    exact htext.categories h.categories[i] (List.getElem_mem hlt)
  · obtain ⟨i, hi, rfl⟩ := List.mem_mapIdx.1 hmem
    have hlt : i < h.rooms.length := hi
    exact htext.rooms h.rooms[i] (List.getElem_mem hlt)

theorem codes_stored (db : Database) (h : Hotel) :
    (storeNewHotel db h).2.categories.map (·.shortCode) = h.categories.map (·.shortCode) := by
  show (h.categories.mapIdx _).map _ = _
  rw [map_mapIdx, List.mapIdx_eq_iff]
  intro i
  simp

theorem codesRead_stored (hfresh : Fresh db) {h : Hotel} (hdistinct : h.CodesDistinct) (htext : NoNul h) :
    CodesRead (storeNewHotel db h).1 db.hotel.nextId := by
  have hcodes : (hotelAsLoaded (storeNewHotel db h).2).categories.map (·.shortCode) =
      (storeNewHotel db h).2.categories.map (·.shortCode) := by
    show (List.map _ (storeNewHotel db h).2.categories).map _ = _
    rw [List.map_map]
    apply List.map_congr_left
    intro category hmem
    exact readText_of_noNul ((htext.stored db).categories category hmem).1
  rw [CodesRead, categoriesRead_stored hfresh, hcodes, codes_stored]
  exact hdistinct

/-- What is loaded of a hotel that was stored: it is equal to the hotel, with the ids that
    storing wrote into it, and each room with its own category. -/
structure LoadedAs (loaded stored : Hotel) : Prop where
  equals : loaded.equals stored = true
  id : loaded.id = stored.id
  revision : loaded.revision = stored.revision
  categoryIds : loaded.categories.map (·.id) = stored.categories.map (·.id)
  roomIds : loaded.rooms.map (·.id) = stored.rooms.map (·.id)
  attached : loaded.rooms.map (·.category) = stored.rooms.map (·.category)

theorem loadedAs_hotelAsLoaded {h : Hotel} (htext : NoNul h) : LoadedAs (hotelAsLoaded h) h where
  equals := equals_hotelAsLoaded htext
  id := rfl
  revision := rfl
  categoryIds := by simp [hotelAsLoaded]
  roomIds := by simp [hotelAsLoaded]
  attached := by simp [hotelAsLoaded]

/-- A hotel built of categories and rooms whose texts have no NUL is loaded by its id as it
    was stored, and every other id loads what it did before. Loading all hotels returns
    those that were there before, as they were, and the new one, exactly if no two short
    codes of a hotel that was there before read the same; otherwise it throws. -/
theorem hotel_storage_round_trip {build : Build} {boost : BoostDate}
    (hdb : ReachableDatabase build boost db) {h : Hotel} (hbuilt : h.Built) (htext : NoNul h) :
    ∃ loaded, LoadedAs loaded (storeNewHotel db h).2 ∧ (storeNewHotel db h).2.equals h = true ∧
      loadHotelById (storeNewHotel db h).1 (storeNewHotel db h).2.id = .ok (some loaded) ∧
      (∀ id, id ≠ (storeNewHotel db h).2.id →
        loadHotelById (storeNewHotel db h).1 id = loadHotelById db id) ∧
      ((∃ before, loadAllHotels db = .ok before ∧
          loadAllHotels (storeNewHotel db h).1 = .ok (before ++ [loaded])) ↔
        ∀ row ∈ db.hotel.rows, CodesRead db row.1) := by
  have hfresh := hdb.fresh
  have hread : readHotel (storeNewHotel db h).1 (db.hotel.nextId, { name := h.name }) =
      .ok (hotelAsLoaded (storeNewHotel db h).2) :=
    readHotel_of_readAs (codesRead_stored hfresh hbuilt.distinct htext) (readAs_stored hfresh h)
  refine ⟨_, loadedAs_hotelAsLoaded (htext.stored db), equals_stored db h, ?_,
    fun id hne => loadHotelById_other db h hne, ?_⟩
  · show loadHotelById _ db.hotel.nextId = _
    rw [loadHotelById, storeNewHotel_hotel, Table.get?_insert, if_pos rfl]
    exact Except.bind_ok hread _
  · rw [← loadAllHotels_iff]
    constructor
    · intro hall
      obtain ⟨before, hbefore, -⟩ := hall
      exact ⟨before, hbefore⟩
    · intro hall
      obtain ⟨before, hbefore⟩ := hall
      refine ⟨before, hbefore, ?_⟩
      rw [loadAllHotels_stored hread, Except.bind_ok hbefore]
      rfl

/-- A hotel with one category and one room, stored in an empty database. -/
theorem hotel_storage_round_trip_oneRoom : ∃ h loaded : Hotel, h.rooms.length = 1 ∧
    LoadedAs loaded (storeNewHotel {} h).2 ∧ loadAllHotels (storeNewHotel {} h).1 = .ok [loaded] := by
  have h₀ := Hotel.Built.empty {} "Hotel 1"
  have h₁ := h₀.addRoomCategory (some ⟨{}, "S", "Single"⟩) rfl
  have h₂ := h₁.addRoom (some ⟨{}, 0, "Room 1"⟩) "S" rfl
  have hempty : ReachableDatabase .debug .gregorian {} := .init rfl
  obtain ⟨loaded, hloaded, -, -, -, hall⟩ :=
    hotel_storage_round_trip hempty h₂ ⟨by decide, by decide, by decide⟩
  obtain ⟨before, hbefore, hhotels⟩ := hall.2 (by simp)
  cases hbefore
  exact ⟨_, loaded, rfl, hloaded, hhotels⟩

/-- A hotel to which another one with a category of the same code was assigned is stored;
    then no hotels can be loaded any more. -/
theorem repeated_code_stops_loading : ∃ (a b twice h : Hotel) (db : Database), a.Built ∧ b.Built ∧
    a.assign b = .ok twice ∧ db = (storeNewHotel {} twice).1 ∧ ReachableDatabase .debug .gregorian db ∧
    h.Built ∧ NoNul h ∧ ∀ hotels, loadAllHotels (storeNewHotel db h).1 ≠ .ok hotels := by
  have ha := (Hotel.Built.empty {} "A").addRoomCategory (some ⟨{}, "S", "Single"⟩) rfl
  have hb := (Hotel.Built.empty {} "B").addRoomCategory (some ⟨{}, "S", "Suite"⟩) rfl
  have hh : (Hotel.empty {} "C").Built := .empty {} "C"
  have hstored : ReachableDatabase .debug .gregorian _ := Reachable.step (.init rfl)
    ⟨.storeNew (.hotel (some { name := "B", categories := [⟨{}, "S", "Single"⟩, ⟨{}, "S", "Suite"⟩] })),
      _, rfl, rfl, rfl⟩
  refine ⟨_, _, _, _, _, ha, hb, rfl, rfl, hstored, hh, ⟨by decide, by simp [Hotel.empty], by simp [Hotel.empty]⟩,
    fun hotels hhotels => ?_⟩
  have hcodes := (loadAllHotels_iff _).1 ⟨hotels, hhotels⟩ (1, { name := "B" }) List.mem_cons_self
  have hrepeated : [readText "S", readText "S"].Nodup := hcodes
  simp at hrepeated

/-! ## Updating -/

/-- What of a hotel its clients see. -/
structure SameContent (a b : Hotel) : Prop where
  id : a.id = b.id
  revision : a.revision = b.revision
  name : a.name = b.name
  categories : (a.categories.map fun c => (c.id, c.shortCode, c.name)) =
    b.categories.map fun c => (c.id, c.shortCode, c.name)
  rooms : (a.rooms.map fun r => (r.id, r.name, r.category)) = b.rooms.map fun r => (r.id, r.name, r.category)

/-- The hotel has the categories and rooms that are stored for its id, and a name without a NUL. -/
structure StoredAs (db : Database) (hotel : Hotel) : Prop where
  name : readText hotel.name = hotel.name
  distinct : hotel.CodesDistinct
  categories : (hotel.categories.map fun c => (c.id, c.shortCode, c.name)) =
    (categoriesRead db hotel.id).map fun c => (c.id, c.shortCode, c.name)
  rooms : (hotel.rooms.map fun r => (r.id, r.name, r.category)) =
    (roomsRead db hotel.id).map fun r => (r.id, r.name, r.category)

theorem codes_of_content {as bs : List RoomCategory}
    (h : (as.map fun c => (c.id, c.shortCode, c.name)) = bs.map fun c => (c.id, c.shortCode, c.name)) :
    as.map (·.shortCode) = bs.map (·.shortCode) := by
  have hcodes := congrArg (List.map fun content : Int × String × String => content.2.1) h
  simpa [List.map_map, Function.comp_def] using hcodes

/-- An update changes what is read of the hotel in its name and its revision. -/
theorem loadHotelById_updated {hotel hotel' : Hotel} {db' : Database}
    (hupdated : updateHotel db hotel = (true, db', hotel')) (loaded : Hotel) :
    loadHotelById db' hotel.id = .ok (some loaded) ↔
      CodesRead db hotel.id ∧
        ReadAs db (hotel.id, { name := hotel.name, revision := hotel.revision + 1 }) loaded := by
  obtain ⟨⟨row, hget, hrevision⟩, rfl, -⟩ := of_updateHotel hupdated
  have hrow : (updatedHotels db hotel).get? hotel.id =
      some { name := hotel.name, revision := hotel.revision + 1 } := by
    rw [updatedHotels, Table.get?_update, hget]
    simp [updatedHotelRow, hrevision]
  -- the categories and rooms that are read do not depend on the hotel rows
  have hsame : ∀ hotel', ReadAs { db with hotel := updatedHotels db hotel }
      (hotel.id, { name := hotel.name, revision := hotel.revision + 1 }) hotel' ↔
        ReadAs db (hotel.id, { name := hotel.name, revision := hotel.revision + 1 }) hotel' :=
    fun _ => ⟨fun h => ⟨h.id, h.revision, h.name, h.categories, h.rooms⟩,
      fun h => ⟨h.id, h.revision, h.name, h.categories, h.rooms⟩⟩
  rw [loadHotelById, hrow]
  constructor
  · intro hloaded
    obtain ⟨read, hread, hsome⟩ := Except.bind_eq_ok.1 hloaded
    cases hsome
    have hcodes := (readHotel_spec _ _).2 loaded hread
    obtain ⟨other, hother, hspec⟩ := (readHotel_spec _ _).1 hcodes
    cases hread.symm.trans hother
    exact ⟨hcodes, (hsame loaded).1 hspec⟩
  · intro hspec
    have hcodes : CodesRead { db with hotel := updatedHotels db hotel } hotel.id := hspec.1
    exact Except.bind_ok (readHotel_of_readAs hcodes ((hsame loaded).2 hspec.2)) _

/-- What is published of an update is what is read of it exactly if the hotel is stored so. -/
theorem published_iff {hotel hotel' : Hotel} {db' : Database}
    (hupdated : updateHotel db hotel = (true, db', hotel')) :
    (∃ loaded, loadHotelById db' hotel.id = .ok (some loaded) ∧ SameContent hotel'.reattach loaded) ↔
      StoredAs db hotel := by
  obtain ⟨-, -, hhotel'⟩ := of_updateHotel hupdated
  have hreattach : hotel.CodesDistinct → hotel'.reattach = hotel' := by
    intro hdistinct
    apply Hotel.reattach_eq
    rw [hhotel']
    exact hdistinct
  constructor
  · intro hpublished
    obtain ⟨loaded, hloaded, hsame⟩ := hpublished
    obtain ⟨hcodes, hread⟩ := (loadHotelById_updated hupdated loaded).1 hloaded
    -- codes that are loaded are distinct, and those published are the same
    have hcategories := hsame.categories
    rw [hread.categories, hhotel'] at hcategories
    have hdistinct : hotel.CodesDistinct := by
      have hequal : hotel.categories.map (·.shortCode) = (categoriesRead db hotel.id).map (·.shortCode) :=
        codes_of_content hcategories
      rw [Hotel.CodesDistinct, hequal]
      exact hcodes
    have hrooms := hsame.rooms
    rw [hreattach hdistinct, hread.rooms, hhotel'] at hrooms
    have hname := hsame.name
    rw [hread.name, hhotel'] at hname
    exact ⟨hname.symm, hdistinct, hcategories, hrooms⟩
  · intro hstored
    have hcodes : CodesRead db hotel.id := by
      rw [CodesRead, ← codes_of_content hstored.categories]
      exact hstored.distinct
    obtain ⟨loaded, -, hread⟩ := (readHotel_spec db
      (hotel.id, { name := hotel.name, revision := hotel.revision + 1 })).1 hcodes
    refine ⟨loaded, (loadHotelById_updated hupdated loaded).2 ⟨hcodes, hread⟩, ?_⟩
    rw [hreattach hstored.distinct, hhotel']
    refine ⟨hread.id.symm, hread.revision.symm, ?_, ?_, ?_⟩
    · rw [hread.name]
      exact hstored.name.symm
    · rw [hread.categories]
      exact hstored.categories
    · rw [hread.rooms]
      exact hstored.rooms

theorem updated_of_executed {build : Build} {boost : BoostDate} {hotel : Hotel} {e : Executed}
    (hexecuted : executeOperation build boost db (.update (.hotel (some hotel))) = .ok e)
    (hsucceeded : e.result.succeeded = true) :
    ∃ hotel', updateHotel db hotel = (true, e.db, hotel') ∧
      e.notices = [⟨.hotel, .itemsUpdated (.hotels [hotel'.reattach])⟩] := by
  have heffect := effect_of_succeeded hexecuted hsucceeded
  obtain ⟨db', result, notices⟩ := e
  cases heffect with
  | updateHotel _ hotel' _ hasId updated => exact ⟨hotel', updated, rfl⟩

/-- An update of a hotel that succeeds publishes one hotel, and this is what its id loads
    afterwards exactly if the categories and rooms submitted are those stored for the id,
    no two of one code, and the name has no NUL. -/
theorem hotel_update_iff {build : Build} {boost : BoostDate} {hotel : Hotel} {e : Executed}
    (hexecuted : executeOperation build boost db (.update (.hotel (some hotel))) = .ok e)
    (hsucceeded : e.result.succeeded = true) :
    ∃ published, e.notices = [⟨.hotel, .itemsUpdated (.hotels [published])⟩] ∧
      ((∃ loaded, loadHotelById e.db hotel.id = .ok (some loaded) ∧ SameContent published loaded) ↔
        StoredAs db hotel) := by
  obtain ⟨hotel', hupdated, hnotices⟩ := updated_of_executed hexecuted hsucceeded
  exact ⟨_, hnotices, published_iff hupdated⟩

/-- A hotel is stored with its category and its room, and then given another name. -/
theorem hotel_update_iff_renamed : ∃ (db : Database) (hotel published loaded : Hotel) (e : Executed),
    db = (storeNewHotel {} .oneRoom).1 ∧ hotel.name = "Inn" ∧ hotel.rooms = Hotel.oneRoom.rooms ∧
    executeOperation .debug .gregorian db (.update (.hotel (some hotel))) = .ok e ∧
    e.notices = [⟨.hotel, .itemsUpdated (.hotels [published])⟩] ∧
    loadHotelById e.db hotel.id = .ok (some loaded) ∧ SameContent published loaded ∧
    loaded.rooms.length = 1 := by
  have hexecuted : executeOperation .debug .gregorian (storeNewHotel {} .oneRoom).1
      (.update (.hotel (some { Hotel.oneRoom with name := "Inn" }))) = .ok _ := rfl
  obtain ⟨published, hnotices, hiff⟩ := hotel_update_iff hexecuted rfl
  obtain ⟨loaded, hloaded, hsame⟩ := hiff.2 ⟨readText_of_noNul (by decide), by decide, rfl, rfl⟩
  refine ⟨_, { Hotel.oneRoom with name := "Inn" }, published, loaded, _, rfl, rfl, rfl, hexecuted, hnotices, hloaded, hsame, ?_⟩
  cases hloaded
  rfl

/-- A category that was not stored is published, but not loaded. -/
theorem new_category_is_published : ∃ (db : Database) (hotel : Hotel) (e : Executed),
    ReachableDatabase .debug .gregorian db ∧ hotel.Built ∧
      executeOperation .debug .gregorian db (.update (.hotel (some hotel))) = .ok e ∧
      e.result.succeeded = true ∧ ∀ published, e.notices = [⟨.hotel, .itemsUpdated (.hotels [published])⟩] →
        ∀ loaded, loadHotelById e.db hotel.id = .ok (some loaded) → ¬ SameContent published loaded := by
  have hstored : ReachableDatabase .debug .gregorian (storeNewHotel {} (.empty {} "A")).1 :=
    Reachable.step (.init rfl) ⟨.storeNew (.hotel (some (.empty {} "A"))), _, rfl, rfl, rfl⟩
  have hbuilt := (Hotel.Built.empty ⟨1, 1⟩ "A").addRoomCategory (some ⟨{}, "S", "Single"⟩) rfl
  have hdiffers : ∀ hotel e, hotel.categories ≠ [] →
      executeOperation .debug .gregorian (storeNewHotel {} (.empty {} "A")).1
        (.update (.hotel (some hotel))) = .ok e →
      e.result.succeeded = true → ∀ published, e.notices = [⟨.hotel, .itemsUpdated (.hotels [published])⟩] →
        ∀ loaded, loadHotelById e.db hotel.id = .ok (some loaded) → ¬ SameContent published loaded := by
    intro hotel e hnonempty hexecuted hsucceeded published hnotices loaded hloaded hsame
    obtain ⟨hotel', hupdated, hcopy⟩ := updated_of_executed hexecuted hsucceeded
    rw [hcopy] at hnotices
    cases hnotices
    have hcategories := ((published_iff hupdated).1 ⟨loaded, hloaded, hsame⟩).categories
    have hnone : categoriesRead (storeNewHotel {} (.empty {} "A")).1 hotel.id = [] := rfl
    rw [hnone] at hcategories
    exact hnonempty (List.map_eq_nil_iff.1 hcategories)
  exact ⟨_, _, _, hstored, hbuilt, rfl, rfl, hdiffers _ _ (List.cons_ne_nil _ _) rfl rfl⟩

end

end HotelPms

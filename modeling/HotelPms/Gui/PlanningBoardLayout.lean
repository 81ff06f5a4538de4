import HotelPms.Hotel.Hotel
import HotelPms.Lib.Keyed
import HotelPms.Lib.Tiling

/- `gui::planningwidget::PlanningBoardLayout`: the rows of the planning board.

   Each row begins where the last one ends. The rows are appended one by one, and where the
   rooms are grouped by their categories, the last row is taken away again before the
   separator of a hotel is appended: it is the separator of a category, or that of the
   hotel before (`appendHotelByCategory_shows`). The rooms of a category are looked for in
   all hotels. `rows_tile_board` says what the two layouts are. -/
namespace HotelPms
open Lib

/-- `PlanningBoardRowGeometry::RowType` -/
inductive RowType where
  | roomRow
  | separatorRow
deriving DecidableEq

structure PlanningBoardRowGeometry where
  rowType : RowType
  top : Int
  height : Int
  isRowEven : Bool := true
  id : Int := 0
deriving DecidableEq

def PlanningBoardRowGeometry.bottom (row : PlanningBoardRowGeometry) : Int := row.top + row.height

/-- The row is that of a room. -/
def PlanningBoardRowGeometry.isRowOf (roomId : Int) (row : PlanningBoardRowGeometry) : Bool :=
  row.rowType == .roomRow && row.id == roomId

/-- `PlanningBoardLayout::LayoutType` -/
inductive LayoutType where
  | groupedByHotel
  | groupedByRoomCategory
deriving DecidableEq

namespace HotelCollection

/-- `HotelCollection::allRoomIDs` -/
def allRoomIDs (hotels : List Hotel) : List Int := hotels.flatMap fun hotel => hotel.rooms.map (·.id)

/-- `HotelCollection::allCategoryIDs` -/
def allCategoryIDs (hotels : List Hotel) : List Int :=
  hotels.flatMap fun hotel => hotel.categories.map (·.id)

end HotelCollection

open HotelCollection

/-- The rows, and the height of the scene. -/
structure PlanningBoardLayout where
  rows : List PlanningBoardRowGeometry := []
  /-- `_sceneRect.height()` -/
  sceneRectHeight : Int := 0

namespace PlanningBoardLayout

/-- `_roomRowHeight`, which the constructor sets -/
def roomRowHeight : Int := 22

def hotelSeparatorHeight : Int := 20

def categorySeparatorHeight : Int := 10

def getHeight (s : PlanningBoardLayout) : Int := (s.rows.getLast?.map (·.bottom)).getD 0

def appendRoomRow (s : PlanningBoardLayout) (isEven : Bool) (roomId : Int) : PlanningBoardLayout :=
  { s with rows := s.rows ++
      [{ rowType := .roomRow, top := s.getHeight, height := roomRowHeight, isRowEven := isEven, id := roomId }] }

def appendSeparatorRow (s : PlanningBoardLayout) (separatorHeight : Int) : PlanningBoardLayout :=
  { s with rows := s.rows ++ [{ rowType := .separatorRow, top := s.getHeight, height := separatorHeight }] }

/-- The loops over rooms in `initializeLayout`, from a value of `isEven` on. -/
def appendRoomRows (s : PlanningBoardLayout) : Bool → List HotelRoom → PlanningBoardLayout
  | _, [] => s
  | isEven, room :: rooms => (s.appendRoomRow isEven room.id).appendRoomRows (!isEven) rooms

/-- `GroupedByHotel`, one turn of the loop over the hotels -/
def appendHotel (s : PlanningBoardLayout) (hotel : Hotel) : PlanningBoardLayout :=
  (s.appendRoomRows true hotel.rooms).appendSeparatorRow hotelSeparatorHeight

/-- The rooms of all hotels whose category has the id of this one. -/
def roomsInCategory (hotels : List Hotel) (category : RoomCategory) : List HotelRoom :=
  hotels.flatMap fun hotelInner => hotelInner.rooms.filter fun room =>
    (hotelInner.categoryOf room).map (·.id) = some category.id

/-- `GroupedByRoomCategory`, one turn of the loop over the categories of a hotel -/
def appendCategory (hotels : List Hotel) (s : PlanningBoardLayout) (category : RoomCategory) :
    PlanningBoardLayout :=
  let s := s.appendRoomRows true (roomsInCategory hotels category)
  if (roomsInCategory hotels category).isEmpty then s else s.appendSeparatorRow categorySeparatorHeight

/-- `_rows.pop_back()`, unless there are no rows -/
def popRow (s : PlanningBoardLayout) : PlanningBoardLayout :=
  if s.rows.isEmpty then s else { s with rows := s.rows.dropLast }

/-- `GroupedByRoomCategory`, one turn of the loop over the hotels -/
def appendHotelByCategory (hotels : List Hotel) (s : PlanningBoardLayout) (hotel : Hotel) :
    PlanningBoardLayout :=
  (hotel.categories.foldl (appendCategory hotels) s).popRow.appendSeparatorRow hotelSeparatorHeight

def initializeLayout (s : PlanningBoardLayout) (hotels : List Hotel) (layoutType : LayoutType) :
    PlanningBoardLayout :=
  let s := ({ s with rows := [] } : PlanningBoardLayout).appendSeparatorRow hotelSeparatorHeight
  let s := match layoutType with
    | .groupedByHotel => hotels.foldl appendHotel s
    | .groupedByRoomCategory => hotels.foldl (appendHotelByCategory hotels) s
  { s with sceneRectHeight := s.getHeight }

def getRowGeometryForRoom (s : PlanningBoardLayout) (roomId : Int) : Option PlanningBoardRowGeometry :=
  s.rows.find? (PlanningBoardRowGeometry.isRowOf roomId)

def getRowGeometryAtPosition (s : PlanningBoardLayout) (posY : Int) : Option PlanningBoardRowGeometry :=
  s.rows.find? fun row => decide (posY ≥ row.top) && decide (posY < row.bottom)

/-! ## What each step appends -/

/-- The rooms that have a row, in the order of the rows. -/
def roomIds (s : PlanningBoardLayout) : List Int := (s.rows.filter (·.rowType == .roomRow)).map (·.id)

/-- The rows are without gaps, and the rooms with a row are these. -/
structure Shows (s : PlanningBoardLayout) (ids : List Int) : Prop where
  tiles : Tiles PlanningBoardRowGeometry.top PlanningBoardRowGeometry.bottom 0 s.rows s.getHeight
  roomIds : s.roomIds = ids

/-- The last row is a separator. -/
def EndsInSeparator (s : PlanningBoardLayout) : Prop :=
  ∃ row, s.rows.getLast? = some row ∧ row.rowType = .separatorRow

variable {s : PlanningBoardLayout} {ids : List Int}

theorem getHeight_concat {rows : List PlanningBoardRowGeometry} {row : PlanningBoardRowGeometry}
    (h : s.rows = rows ++ [row]) : s.getHeight = row.bottom := by
  rw [getHeight, h, List.getLast?_concat]
  rfl

theorem tiles_concat (h : s.Shows ids) {row : PlanningBoardRowGeometry} (htop : row.top = s.getHeight)
    (hheight : 0 < row.height) : Tiles PlanningBoardRowGeometry.top PlanningBoardRowGeometry.bottom 0
      (s.rows ++ [row]) row.bottom := by
  refine Tiles.concat (htop ▸ h.tiles) ?_
  rw [PlanningBoardRowGeometry.bottom]
  omega

theorem appendRoomRow_shows (h : s.Shows ids) (isEven : Bool) (roomId : Int) :
    (s.appendRoomRow isEven roomId).Shows (ids ++ [roomId]) := by
  refine ⟨?_, ?_⟩
  · rw [getHeight_concat rfl]
    exact tiles_concat h rfl (show 0 < roomRowHeight by decide)
  · rw [roomIds, appendRoomRow, List.filter_append, List.map_append, ← h.roomIds]
    rfl

theorem appendSeparatorRow_shows (h : s.Shows ids) {separatorHeight : Int} (hheight : 0 < separatorHeight) :
    (s.appendSeparatorRow separatorHeight).Shows ids := by
  refine ⟨?_, ?_⟩
  · rw [getHeight_concat rfl]
    exact tiles_concat h rfl hheight
  · rw [roomIds, appendSeparatorRow, List.filter_append, List.map_append, ← h.roomIds]
    exact List.append_nil _

theorem appendSeparatorRow_endsInSeparator (s : PlanningBoardLayout) (separatorHeight : Int) :
    (s.appendSeparatorRow separatorHeight).EndsInSeparator := ⟨_, List.getLast?_concat, rfl⟩

theorem appendRoomRows_shows (h : s.Shows ids) (isEven : Bool) (rooms : List HotelRoom) :
    (s.appendRoomRows isEven rooms).Shows (ids ++ rooms.map (·.id)) := by
  induction rooms generalizing s ids isEven with
  | nil =>
    rw [List.map_nil, List.append_nil]
    exact h
  | cons room rooms ih =>
    have hrest := ih (appendRoomRow_shows h isEven room.id) (!isEven)
    rw [List.append_assoc] at hrest
    exact hrest

theorem getHeight_of_tiles {hi : Int} (h : Tiles PlanningBoardRowGeometry.top
    PlanningBoardRowGeometry.bottom 0 s.rows hi) : s.getHeight = hi := by
  cases hrows : s.rows using List.reverseRecOn with
  | nil =>
    rw [hrows] at h
    rw [getHeight, hrows]
    exact h
  | append_singleton rows row =>
    rw [hrows] at h
    rw [getHeight_concat hrows]
    exact h.bottom_last

theorem popRow_shows (h : s.Shows ids) (hlast : s.EndsInSeparator) : s.popRow.Shows ids := by
  obtain ⟨row, hrow, htype⟩ := hlast
  obtain ⟨rows, hrows⟩ := List.getLast?_eq_some_iff.1 hrow
  have hpop : s.popRow.rows = rows := by
    rw [popRow, hrows, if_neg (by simp)]
    exact List.dropLast_concat
  have htiles : Tiles PlanningBoardRowGeometry.top PlanningBoardRowGeometry.bottom 0 s.popRow.rows row.top := by
    have htiles := h.tiles
    rw [hrows] at htiles
    rw [hpop]
    exact htiles.of_concat
  refine ⟨?_, ?_⟩
  · rw [getHeight_of_tiles htiles]
    exact htiles
  · have hids := h.roomIds
    have hseparator : (RowType.separatorRow == RowType.roomRow) = false := rfl
    rw [roomIds, hrows, List.filter_append, List.filter_singleton, htype, hseparator, cond_false,
      List.append_nil] at hids
    rw [roomIds, hpop]
    exact hids

/-! ## What each hotel appends -/

theorem appendHotel_shows (h : s.Shows ids) (hotel : Hotel) :
    (s.appendHotel hotel).Shows (ids ++ hotel.rooms.map (·.id)) ∧ (s.appendHotel hotel).EndsInSeparator :=
  ⟨appendSeparatorRow_shows (appendRoomRows_shows h true hotel.rooms) (by decide),
    appendSeparatorRow_endsInSeparator _ _⟩

theorem appendCategory_shows (hotels : List Hotel) (h : s.Shows ids) (hlast : s.EndsInSeparator)
    (category : RoomCategory) :
    (appendCategory hotels s category).Shows (ids ++ (roomsInCategory hotels category).map (·.id)) ∧
      (appendCategory hotels s category).EndsInSeparator := by
  have hrooms := appendRoomRows_shows h true (roomsInCategory hotels category)
  rw [appendCategory]
  cases hcategory : roomsInCategory hotels category with
  | nil =>
    rw [hcategory] at hrooms
    exact ⟨hrooms, hlast⟩
  | cons room rooms =>
    rw [hcategory] at hrooms
    exact ⟨appendSeparatorRow_shows hrooms (by decide), appendSeparatorRow_endsInSeparator _ _⟩

theorem foldl_shows {α : Type} {append : PlanningBoardLayout → α → PlanningBoardLayout} {shown : α → List Int}
    (happend : ∀ {s : PlanningBoardLayout} {ids : List Int}, s.Shows ids → s.EndsInSeparator → ∀ x,
      (append s x).Shows (ids ++ shown x) ∧ (append s x).EndsInSeparator)
    (h : s.Shows ids) (hlast : s.EndsInSeparator) (xs : List α) :
    (xs.foldl append s).Shows (ids ++ xs.flatMap shown) ∧ (xs.foldl append s).EndsInSeparator := by
  induction xs generalizing s ids with
  | nil =>
    rw [List.flatMap_nil, List.append_nil]
    exact ⟨h, hlast⟩
  | cons x xs ih =>
    obtain ⟨hx, hxlast⟩ := happend h hlast x
    rw [List.flatMap_cons, ← List.append_assoc]
    exact ih hx hxlast

/-- The row that is taken away after the categories of a hotel is a separator. -/
theorem appendHotelByCategory_shows (hotels : List Hotel) (h : s.Shows ids) (hlast : s.EndsInSeparator)
    (hotel : Hotel) :
    (appendHotelByCategory hotels s hotel).Shows
        (ids ++ hotel.categories.flatMap fun category => (roomsInCategory hotels category).map (·.id)) ∧
      (appendHotelByCategory hotels s hotel).EndsInSeparator := by
  obtain ⟨hcategories, hcategorylast⟩ :=
    foldl_shows (appendCategory_shows hotels) h hlast hotel.categories
  exact ⟨appendSeparatorRow_shows (popRow_shows hcategories hcategorylast) (by decide),
    appendSeparatorRow_endsInSeparator _ _⟩

/-! ## The rooms by their categories -/

/-- The rooms of all hotels, each with the id of its category. -/
def roomsWithCategory (hotels : List Hotel) : List (Option Int × HotelRoom) :=
  hotels.flatMap fun hotel => hotel.rooms.map fun room => ((hotel.categoryOf room).map (·.id), room)

theorem map_roomsWithCategory (hotels : List Hotel) :
    (roomsWithCategory hotels).map (·.2.id) = allRoomIDs hotels := by
  rw [roomsWithCategory, allRoomIDs, List.map_flatMap]
  simp only [List.map_map, Function.comp_def]

theorem roomsInCategory_eq (hotels : List Hotel) (category : RoomCategory) :
    roomsInCategory hotels category =
      ((roomsWithCategory hotels).filter fun room => room.1 = some category.id).map (·.2) := by
  rw [roomsInCategory, roomsWithCategory, List.filter_flatMap, List.map_flatMap]
  simp only [List.filter_map, List.map_map, Function.comp_def, List.map_id']

theorem category_mem {hotels : List Hotel} {room : Option Int × HotelRoom}
    (hroom : room ∈ roomsWithCategory hotels) : room.1 ∈ (allCategoryIDs hotels).map some := by
  obtain ⟨hotel, hhotel, hroom⟩ := List.mem_flatMap.1 hroom
  obtain ⟨r, hr, rfl⟩ := List.mem_map.1 hroom
  have hlt := hotel.owned r hr
  have hcategory : hotel.categories[r.category] ∈ hotel.categories := List.getElem_mem hlt
  rw [Hotel.categoryOf, List.getElem?_eq_getElem hlt, Option.map_some]
  exact List.mem_map_of_mem (List.mem_flatMap.2 ⟨hotel, hhotel, List.mem_map_of_mem hcategory⟩)

theorem perm_roomsInCategory {hotels : List Hotel} (hcategories : (allCategoryIDs hotels).Nodup) :
    (hotels.flatMap fun hotel => hotel.categories.flatMap fun category =>
      (roomsInCategory hotels category).map (·.id)).Perm (allRoomIDs hotels) := by
  have hgroups := perm_flatMap_filter (fun room : Option Int × HotelRoom => room.1)
    (hcategories.map (Option.some_injective Int)) fun room hroom => category_mem hroom
  have hids := hgroups.map (·.2.id)
  rw [map_roomsWithCategory] at hids
  refine (List.Perm.of_eq ?_).trans hids
  simp only [allCategoryIDs, roomsInCategory_eq, List.map_flatMap, List.flatMap_map, List.map_map,
    List.flatMap_assoc]
  rfl

/-! ## The whole board -/

theorem firstSeparator_shows (s : PlanningBoardLayout) :
    (({ s with rows := [] } : PlanningBoardLayout).appendSeparatorRow hotelSeparatorHeight).Shows [] := by
  have hnone : ({ s with rows := [] } : PlanningBoardLayout).Shows [] := ⟨rfl, rfl⟩
  exact appendSeparatorRow_shows hnone (by decide)

theorem initializeLayout_shows (s : PlanningBoardLayout) {hotels : List Hotel}
    (hcategories : (allCategoryIDs hotels).Nodup) (layoutType : LayoutType) :
    ∃ ids, ids.Perm (allRoomIDs hotels) ∧ (s.initializeLayout hotels layoutType).Shows ids ∧
      (s.initializeLayout hotels layoutType).EndsInSeparator := by
  have hfirst := firstSeparator_shows s
  have hlast := appendSeparatorRow_endsInSeparator { s with rows := [] } hotelSeparatorHeight
  cases layoutType with
  | groupedByHotel =>
    obtain ⟨⟨htiles, hids⟩, hend⟩ := foldl_shows (fun h _ => appendHotel_shows h) hfirst hlast hotels
    exact ⟨_, .refl _, ⟨htiles, hids⟩, hend⟩
  | groupedByRoomCategory =>
    obtain ⟨⟨htiles, hids⟩, hend⟩ := foldl_shows (appendHotelByCategory_shows hotels) hfirst hlast hotels
    exact ⟨_, perm_roomsInCategory hcategories, ⟨htiles, hids⟩, hend⟩

theorem filter_isRowOf (hids : s.roomIds.Nodup) {roomId : Int} (hroom : roomId ∈ s.roomIds) :
    ∃ row, s.rows.filter (PlanningBoardRowGeometry.isRowOf roomId) = [row] := by
  have hone : (s.roomIds.filter (· == roomId)).length = 1 := by
    rw [← List.countP_eq_length_filter]
    exact List.count_eq_one_of_mem hids hroom
  rw [roomIds, List.filter_map, List.length_map, List.filter_filter] at hone
  refine List.length_eq_one_iff.1 (hone ▸ congrArg List.length (List.filter_congr fun row _ => ?_))
  exact Bool.and_comm _ _

/-- What the board is to the rest of the program: each room has one row, the rows are
    without gaps and without overlaps, and a position is in one of them. -/
structure TilesBoard (s : PlanningBoardLayout) (hotels : List Hotel) : Prop where
  rooms : s.roomIds.Perm (allRoomIDs hotels)
  /-- A room has exactly one row, which `getRowGeometryForRoom` returns. -/
  rowOfRoom : ∀ hotel ∈ hotels, ∀ room ∈ hotel.rooms, ∃ row,
    s.rows.filter (PlanningBoardRowGeometry.isRowOf room.id) = [row] ∧
      s.getRowGeometryForRoom room.id = some row
  tiles : Tiles PlanningBoardRowGeometry.top PlanningBoardRowGeometry.bottom 0 s.rows s.getHeight
  endsInSeparator : s.EndsInSeparator
  /-- A position is in exactly one row, which `getRowGeometryAtPosition` returns. -/
  rowAtPosition : ∀ y, 0 ≤ y → y < s.getHeight → ∃ row,
    s.rows.filter (covers PlanningBoardRowGeometry.top PlanningBoardRowGeometry.bottom y) = [row] ∧
      s.getRowGeometryAtPosition y = some row
  sceneRect : s.sceneRectHeight = s.getHeight

/-- For all hotels in which no two rooms and no two categories have one id, and for both
    layouts: the rows tile the board, with one row for each room, so both layouts show the
    same rooms. -/
theorem rows_tile_board (s : PlanningBoardLayout) {hotels : List Hotel}
    (hrooms : (allRoomIDs hotels).Nodup) (hcategories : (allCategoryIDs hotels).Nodup) :
    (∀ layoutType, (s.initializeLayout hotels layoutType).TilesBoard hotels) ∧
    (s.initializeLayout hotels .groupedByHotel).roomIds.Perm
      (s.initializeLayout hotels .groupedByRoomCategory).roomIds := by
  have hboard : ∀ layoutType, (s.initializeLayout hotels layoutType).TilesBoard hotels := by
    intro layoutType
    obtain ⟨ids, hperm, hshows, hlast⟩ := initializeLayout_shows s hcategories layoutType
    have hids : (s.initializeLayout hotels layoutType).roomIds.Perm (allRoomIDs hotels) :=
      hshows.roomIds ▸ hperm
    refine ⟨hids, fun hotel hhotel room hroom => ?_, hshows.tiles, hlast, fun y hlo hhi => ?_, rfl⟩
    · have hmem : room.id ∈ allRoomIDs hotels :=
        List.mem_flatMap.2 ⟨hotel, hhotel, List.mem_map_of_mem hroom⟩
      obtain ⟨row, hrow⟩ := filter_isRowOf (hids.nodup_iff.2 hrooms) (hids.mem_iff.2 hmem)
      refine ⟨row, hrow, ?_⟩
      rw [getRowGeometryForRoom, ← List.head?_filter, hrow]
      rfl
    · obtain ⟨row, hfind, hrow⟩ := hshows.tiles.find?_eq hlo hhi
      exact ⟨row, hrow, hfind⟩
  exact ⟨hboard, (hboard _).rooms.trans (hboard _).rooms.symm⟩

/-- A hotel without rooms, and one with two rooms of its second category. -/
theorem rows_tile_board_two : ∃ hotels : List Hotel, allRoomIDs hotels = [8, 9] ∧
    (({} : PlanningBoardLayout).initializeLayout hotels .groupedByRoomCategory).TilesBoard hotels := by
  have hboard := @rows_tile_board {} [{ name := "Closed" }, {
    name := "Open"
    categories := [{ id := 3, shortCode := "S", name := "Single" }, { id := 4, shortCode := "D", name := "Double" }]
    rooms := [{ id := 8, category := 1, name := "101" }, { id := 9, category := 1, name := "102" }]
    owned := by decide }] (by decide) (by decide)
  exact ⟨_, rfl, hboard.1 .groupedByRoomCategory⟩

end PlanningBoardLayout

end HotelPms

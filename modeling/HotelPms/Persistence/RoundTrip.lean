import HotelPms.Hotel.Assignment
import HotelPms.Persistence.JsonSerializer

/- Items that are serialized and deserialized again.

   A hotel comes back whole: its rooms are written with the short code of their
   category, and the codes of a hotel that was built of categories and rooms are
   distinct (`hotel_json_round_trip`). A reservation does not always come back. Its
   owner is not written, and the atoms, which are written with their ids and
   revisions, are read into new ones by `addAtom` (`reservation_json_round_trip`). -/
namespace HotelPms
open JsonSerializer

/-- A hotel that was built of categories and rooms comes back as it was, each room with
    the category it had. -/
theorem hotel_json_round_trip {h : Hotel} (hbuilt : h.Built) :
    ∃ copy, deserializeHotel (serializeHotel h) = .ok copy ∧ copy.equals h = true ∧ copy.id = h.id ∧
      copy.revision = h.revision ∧ copy.categories = h.categories ∧
      copy.rooms.map (·.toPersistentObject) = h.rooms.map (·.toPersistentObject) ∧
      copy.rooms.map (·.name) = h.rooms.map (·.name) ∧
      copy.rooms.map (·.category) = h.rooms.map (·.category) ∧
      ∀ room ∈ copy.rooms, ∃ category ∈ copy.categories, copy.categoryOf room = some category :=
  ⟨h, deserializeHotel_serialize hbuilt.distinct, h.equals_refl, rfl, rfl, rfl, rfl, rfl, rfl,
    fun _ hroom => Hotel.categoryOf_mem hroom⟩

theorem hotel_json_round_trip_oneRoom : ∃ h copy : Hotel, h.rooms.length = 1 ∧
    deserializeHotel (serializeHotel h) = .ok copy ∧ copy.equals h = true := by
  have h₀ := Hotel.Built.empty { id := 42, revision := 4200 } "hello"
  have h₁ := h₀.addRoomCategory (some ⟨{ id := 7 }, "S", "Single"⟩) rfl
  have h₂ := h₁.addRoom (some ⟨{ id := 9 }, 0, "1"⟩) "S" rfl
  obtain ⟨copy, hcopy, hequals, -⟩ := hotel_json_round_trip h₂
  exact ⟨_, copy, rfl, hcopy, hequals⟩

/-- A reservation with contiguous atoms comes back equal, with the ids and revisions of
    its atoms, exactly if it has no owner and its atoms have no ids and revisions yet. -/
theorem reservation_json_round_trip (build : Build) (boost : BoostDate) {r : Reservation}
    (h : Contiguous r.atoms) :
    ∃ copy, deserializeReservation build boost (serializeReservation boost r) = .ok copy ∧
      copy.id = r.id ∧ copy.revision = r.revision ∧
      ((copy.equals r = true ∧
          copy.atoms.map (·.toPersistentObject) = r.atoms.map (·.toPersistentObject)) ↔
        r.reservationOwnerPersonId = none ∧ ∀ a ∈ r.atoms, a.id = 0 ∧ a.revision = 0) := by
  refine ⟨sent r, deserializeReservation_serialize build boost h, rfl, rfl, fun hsame => ?_, fun hcond => ?_⟩
  · obtain ⟨hequals, hatoms⟩ := hsame
    have howner := (Reservation.equals_iff.1 hequals).2.2.1
    refine ⟨howner.symm, fun a ha => ?_⟩
    rw [sent, List.map_map] at hatoms
    have hobject := List.map_inj_left.1 hatoms a ha
    simp only [Function.comp_apply, Reservation.unstored] at hobject
    simp [← hobject]
  · rw [sent_eq_iff.2 hcond]
    exact ⟨(Reservation.Same.refl r).equals, rfl⟩

theorem reservation_json_round_trip_oneNight : ∃ copy, deserializeReservation .debug .gregorian
    (serializeReservation .gregorian Reservation.oneNight) = .ok copy ∧
      copy.equals Reservation.oneNight = true := by
  have hcontiguous := ((Reservation.isValid_iff (r := Reservation.oneNight)).1 rfl).2
  obtain ⟨copy, hcopy, -, -, hiff⟩ := reservation_json_round_trip .debug .gregorian hcontiguous
  exact ⟨copy, hcopy, (hiff.2 (by simp [Reservation.oneNight, Reservation.ofRoom])).1⟩

/-- A stored reservation comes back with an atom that has no id. -/
theorem atom_id_is_lost : ∃ r copy : Reservation, Contiguous r.atoms ∧
    deserializeReservation .debug .gregorian (serializeReservation .gregorian r) = .ok copy ∧
    r.atoms.map (·.id) = [7] ∧ copy.atoms.map (·.id) = [0] := by
  let stored : Reservation :=
    { Reservation.oneNight with atoms := Reservation.oneNight.atoms.map fun a => { a with id := 7 } }
  have hcontiguous : Contiguous stored.atoms := ((Reservation.isValid_iff (r := stored)).1 rfl).2
  exact ⟨stored, _, hcontiguous, deserializeReservation_serialize .debug .gregorian hcontiguous, rfl, rfl⟩

end HotelPms

import HotelPms.Gui.EditReservation

/- `gui::dialogs::Resolver<T>::merge`, for values of any type at any number of positions.

   The loop goes over the positions of the base version. It starts with `merged` as
   the base version, so a position that it leaves alone, which is one in conflict,
   keeps the base value. `Merged` says what holds after some turns of the loop, and
   determines the result. The dialog merges the four values of its form
   (`merge_fields`). -/
namespace HotelPms

/-- `Resolver<T>::Resolution` -/
structure ListResolution (α : Type) where
  merged : List α
  conflicts : List Nat := []

namespace ListResolver

variable {α : Type} [DecidableEq α]

/-- `values.at(i)` -/
def valueAt (values : List α) (i : Nat) : Except Fault α :=
  match values[i]? with
  | some value => .ok value
  | none => .error (.logicError "at")

/-- One turn of the loop. -/
def mergeAt (base ours theirs : List α) (resolution : ListResolution α) (i : Nat) :
    Except Fault (ListResolution α) := do
  let oursChanged := decide ((← valueAt base i) ≠ (← valueAt ours i))
  let theirsChanged := decide ((← valueAt base i) ≠ (← valueAt theirs i))
  if (← valueAt ours i) = (← valueAt theirs i) then
    return { resolution with merged := resolution.merged.set i (← valueAt ours i) }
  else if oursChanged && !theirsChanged then
    return { resolution with merged := resolution.merged.set i (← valueAt ours i) }
  else if !oursChanged && theirsChanged then
    return { resolution with merged := resolution.merged.set i (← valueAt theirs i) }
  else if oursChanged && theirsChanged then
    return { resolution with conflicts := resolution.conflicts ++ [i] }
  else
    return resolution

def merge (base ours theirs : List α) : Except Fault (ListResolution α) :=
  (List.range base.length).foldlM (mergeAt base ours theirs) { merged := base }

/-! ## One position -/

/-- The value of a position, which is none for a conflict. -/
def mergeValue (base ours theirs : α) : Option α :=
  if ours = theirs then some ours
  else if theirs = base then some ours
  else if ours = base then some theirs
  else none

/-- What a turn of the loop does with the value of its position. -/
def putValue (resolution : ListResolution α) (i : Nat) : Option α → ListResolution α
  | some value => { resolution with merged := resolution.merged.set i value }
  | none => { resolution with conflicts := resolution.conflicts ++ [i] }

theorem mergeValue_comm (base ours theirs : α) :
    mergeValue base ours theirs = mergeValue base theirs ours := by
  unfold mergeValue
  by_cases h : ours = theirs
  · simp [h]
  · by_cases hours : ours = base
    · by_cases htheirs : theirs = base
      · exact absurd (hours.trans htheirs.symm) h
      · have hne : base ≠ theirs := Ne.symm htheirs
        simp [hours, htheirs, hne]
    · simp [h, Ne.symm h, hours]

@[simp] theorem mergeValue_self (base ours : α) : mergeValue base ours base = some ours := by
  by_cases h : ours = base <;> simp [mergeValue, h]

theorem mergeValue_none {base ours theirs : α} :
    mergeValue base ours theirs = none ↔ ours ≠ base ∧ theirs ≠ base ∧ ours ≠ theirs := by
  unfold mergeValue
  split_ifs with hsame htheirs hours
  · simp [hsame]
  · simp [htheirs]
  · simp [hours]
  · simp [hsame, htheirs, hours]

/-- A turn of the loop, at a position that all three lists have. -/
theorem mergeAt_eq {base ours theirs : List α} {i : Nat} {b o t : α} (hb : base[i]? = some b)
    (ho : ours[i]? = some o) (ht : theirs[i]? = some t) (resolution : ListResolution α) :
    mergeAt base ours theirs resolution i = .ok (putValue resolution i (mergeValue b o t)) := by
  have hbase : valueAt base i = .ok b := by simp [valueAt, hb]
  have hours : valueAt ours i = .ok o := by simp [valueAt, ho]
  have htheirs : valueAt theirs i = .ok t := by simp [valueAt, ht]
  have hturn : mergeAt base ours theirs resolution i = .ok (
      if o = t then { resolution with merged := resolution.merged.set i o }
      else if decide (b ≠ o) && !decide (b ≠ t) then
        { resolution with merged := resolution.merged.set i o }
      else if !decide (b ≠ o) && decide (b ≠ t) then
        { resolution with merged := resolution.merged.set i t }
      else if decide (b ≠ o) && decide (b ≠ t) then
        { resolution with conflicts := resolution.conflicts ++ [i] }
      else resolution) := by
    rw [mergeAt, hbase, hours, htheirs]
    simp only [bind, Except.bind, pure, Except.pure]
    split_ifs <;> rfl
  rw [hturn, mergeValue]
  by_cases hot : o = t
  · simp [hot, putValue]
  · by_cases htb : t = b
    · have hob : b ≠ o := fun h => hot (h.symm.trans htb.symm)
      simp [htb, hob, putValue]
    · by_cases hob : o = b
      · simp [htb, hob, Ne.symm htb, putValue]
      · simp [hot, htb, hob, Ne.symm htb, Ne.symm hob, putValue]

/-! ## The loop -/

/-- Whether a position is in conflict. -/
def inConflict (base ours theirs : List α) (i : Nat) : Bool :=
  match base[i]?, ours[i]?, theirs[i]? with
  | some b, some o, some t => (mergeValue b o t).isNone
  | _, _, _ => false

/-- The positions up to some index are merged. -/
structure Merged (base ours theirs : List α) (k : Nat) (resolution : ListResolution α) : Prop where
  length : resolution.merged.length = base.length
  merged : ∀ i < k, ∀ b o t, base[i]? = some b → ours[i]? = some o → theirs[i]? = some t →
    resolution.merged[i]? = some ((mergeValue b o t).getD b)
  later : ∀ i, k ≤ i → resolution.merged[i]? = base[i]?
  conflicts : resolution.conflicts = (List.range k).filter (inConflict base ours theirs)

section
variable {base ours theirs : List α}

theorem Merged.unique {r r' : ListResolution α} (h : Merged base ours theirs base.length r)
    (h' : Merged base ours theirs base.length r') (ho : ours.length = base.length)
    (ht : theirs.length = base.length) : r = r' := by
  have hmerged : r.merged = r'.merged := by
    apply List.ext_getElem?
    intro i
    by_cases hi : i < base.length
    · have hours : i < ours.length := by omega
      have htheirs : i < theirs.length := by omega
      rw [h.merged i hi _ _ _ (List.getElem?_eq_getElem hi) (List.getElem?_eq_getElem hours)
          (List.getElem?_eq_getElem htheirs),
        h'.merged i hi _ _ _ (List.getElem?_eq_getElem hi) (List.getElem?_eq_getElem hours)
          (List.getElem?_eq_getElem htheirs)]
    · rw [h.later i (by omega), h'.later i (by omega)]
  obtain ⟨merged, conflicts⟩ := r
  obtain ⟨merged', conflicts'⟩ := r'
  have hconflicts : conflicts = conflicts' := h.conflicts.trans h'.conflicts.symm
  rw [show merged = merged' from hmerged, hconflicts]

theorem inConflict_comm (base ours theirs : List α) (i : Nat) :
    inConflict base ours theirs i = inConflict base theirs ours i := by
  unfold inConflict
  cases base[i]? <;> cases ours[i]? <;> cases theirs[i]? <;> simp [mergeValue_comm]

theorem Merged.comm {k : Nat} {r : ListResolution α} (h : Merged base ours theirs k r) :
    Merged base theirs ours k r where
  length := h.length
  merged i hi b t o hb ht ho := by
    rw [mergeValue_comm]
    exact h.merged i hi b o t hb ho ht
  later := h.later
  conflicts := by
    rw [h.conflicts]
    congr 1
    funext i
    exact inConflict_comm base ours theirs i

theorem merged_base (ho : ours.length = base.length) :
    Merged base ours base base.length { merged := ours } where
  length := ho
  merged i hi b o t hb hours ht := by
    rw [hb] at ht
    cases ht
    simp [hours]
  later i hi := by
    have hbase : base[i]? = none := List.getElem?_eq_none hi
    have hours : ours[i]? = none := List.getElem?_eq_none (by omega)
    rw [hours, hbase]
  conflicts := by
    symm
    apply List.filter_eq_nil_iff.2
    intro i _
    unfold inConflict
    cases base[i]? <;> cases ours[i]? <;> simp

theorem merged_zero : Merged base ours theirs 0 { merged := base } :=
  ⟨rfl, by simp, fun _ _ => rfl, rfl⟩

/-- One more position is merged. -/
theorem Merged.next {k : Nat} {resolution : ListResolution α}
    (h : Merged base ours theirs k resolution) {b o t : α} (hb : base[k]? = some b)
    (ho : ours[k]? = some o) (ht : theirs[k]? = some t) :
    Merged base ours theirs (k + 1) (putValue resolution k (mergeValue b o t)) := by
  have hlt : k < resolution.merged.length := by
    rw [h.length]
    exact (List.getElem?_eq_some_iff.1 hb).1
  have hconflict : inConflict base ours theirs k = (mergeValue b o t).isNone := by
    simp [inConflict, hb, ho, ht]
  have hkeeps : resolution.merged[k]? = some b := (h.later k le_rfl).trans hb
  have hunique : ∀ {b' o' t' : α}, base[k]? = some b' → ours[k]? = some o' → theirs[k]? = some t' →
      b' = b ∧ o' = o ∧ t' = t := by
    intro b' o' t' hb' ho' ht'
    exact ⟨Option.some.inj (hb'.symm.trans hb), Option.some.inj (ho'.symm.trans ho),
      Option.some.inj (ht'.symm.trans ht)⟩
  cases hvalue : mergeValue b o t with
  | some value =>
    rw [hvalue] at hconflict
    refine ⟨by simp [putValue, h.length], fun i hi b' o' t' hb' ho' ht' => ?_, fun i hi => ?_, ?_⟩
    · by_cases hik : i = k
      · subst hik
        obtain ⟨rfl, rfl, rfl⟩ := hunique hb' ho' ht'
        simp [putValue, hlt, hvalue]
      · rw [putValue, List.getElem?_set_ne (Ne.symm hik)]
        exact h.merged i (by omega) b' o' t' hb' ho' ht'
    · rw [putValue, List.getElem?_set_ne (by omega)]
      exact h.later i (by omega)
    · rw [putValue, List.range_succ, List.filter_append, h.conflicts]
      simp [hconflict]
  | none =>
    rw [hvalue] at hconflict
    refine ⟨h.length, fun i hi b' o' t' hb' ho' ht' => ?_, fun i hi => h.later i (by omega), ?_⟩
    · by_cases hik : i = k
      · -- the position keeps what it started with
        subst hik
        obtain ⟨rfl, rfl, rfl⟩ := hunique hb' ho' ht'
        rw [hvalue]
        exact hkeeps
      · exact h.merged i (by omega) b' o' t' hb' ho' ht'
    · rw [putValue, List.range_succ, List.filter_append, h.conflicts]
      simp [hconflict]

theorem merge_loop (ho : ours.length = base.length) (ht : theirs.length = base.length) {k : Nat}
    (hk : k ≤ base.length) : ∃ resolution, Merged base ours theirs k resolution ∧
      (List.range k).foldlM (mergeAt base ours theirs) { merged := base } = .ok resolution := by
  induction k with
  | zero => exact ⟨_, merged_zero, rfl⟩
  | succ k ih =>
    obtain ⟨resolution, hmerged, hloop⟩ := ih (by omega)
    have hbase : k < base.length := hk
    have hours : k < ours.length := by omega
    have htheirs : k < theirs.length := by omega
    -- the last turn of the loop is at position `k`
    have hturn := mergeAt_eq (List.getElem?_eq_getElem hbase) (List.getElem?_eq_getElem hours)
      (List.getElem?_eq_getElem htheirs) resolution
    refine ⟨_, hmerged.next (List.getElem?_eq_getElem hbase) (List.getElem?_eq_getElem hours)
      (List.getElem?_eq_getElem htheirs), ?_⟩
    rw [List.range_succ, List.foldlM_append, Except.bind_ok hloop, List.foldlM_cons,
      Except.bind_ok hturn]
    rfl

theorem merge_spec (ho : ours.length = base.length) (ht : theirs.length = base.length) :
    ∃ resolution, Merged base ours theirs base.length resolution ∧
      merge base ours theirs = .ok resolution :=
  merge_loop ho ht le_rfl

theorem merge_of_merged (ho : ours.length = base.length) (ht : theirs.length = base.length)
    {resolution : ListResolution α} (h : Merged base ours theirs base.length resolution) :
    merge base ours theirs = .ok resolution := by
  obtain ⟨other, hother, hmerge⟩ := merge_spec ho ht
  rw [hmerge, hother.unique h ho ht]

/-- The merge takes what both sides agree on, else the value of the only side that
    changed, and keeps the base value where both did, which are the conflicts, in
    ascending order. It does not matter which side is which, and the base version
    merged into one side changes nothing. -/
theorem three_way_merge (ho : ours.length = base.length) (ht : theirs.length = base.length) :
    ∃ resolution, merge base ours theirs = .ok resolution ∧
      resolution.merged.length = base.length ∧
      (∀ i b o t, base[i]? = some b → ours[i]? = some o → theirs[i]? = some t →
        (o = t → resolution.merged[i]? = some o) ∧
        (o ≠ b → t = b → resolution.merged[i]? = some o) ∧
        (o = b → t ≠ b → resolution.merged[i]? = some t) ∧
        (i ∈ resolution.conflicts ↔ o ≠ b ∧ t ≠ b ∧ o ≠ t) ∧
        (i ∈ resolution.conflicts → resolution.merged[i]? = some b)) ∧
      (∀ i ∈ resolution.conflicts, i < base.length) ∧
      resolution.conflicts.Pairwise (· < ·) ∧
      merge base theirs ours = .ok resolution ∧
      merge base ours base = .ok { merged := ours } := by
  obtain ⟨resolution, hmerged, hmerge⟩ := merge_spec ho ht
  refine ⟨resolution, hmerge, hmerged.length, fun i b o t hb hours htheirs => ?_, fun i hi => ?_, ?_,
    merge_of_merged ht ho hmerged.comm, merge_of_merged ho rfl (merged_base ho)⟩
  · have hi : i < base.length := (List.getElem?_eq_some_iff.1 hb).1
    have hvalue := hmerged.merged i hi b o t hb hours htheirs
    have hconflict : i ∈ resolution.conflicts ↔ mergeValue b o t = none := by
      rw [hmerged.conflicts, List.mem_filter, List.mem_range, inConflict, hb, hours, htheirs]
      simp [hi]
    refine ⟨fun hot => ?_, fun hob htb => ?_, fun hob htb => ?_, hconflict.trans mergeValue_none,
      fun hmem => ?_⟩
    · simpa [mergeValue, hot] using hvalue
    · have hot : o ≠ t := fun h => hob (h.trans htb)
      simpa [mergeValue, hot, htb, hob] using hvalue
    · have hot : o ≠ t := fun h => htb (h.symm.trans hob)
      simpa [mergeValue, hot, htb, hob, Ne.symm htb] using hvalue
    · rw [hvalue, hconflict.1 hmem, Option.getD_none]
  · rw [hmerged.conflicts] at hi
    exact List.mem_range.1 (List.mem_filter.1 hi).1
  · rw [hmerged.conflicts]
    exact List.pairwise_lt_range.sublist List.filter_sublist

end

/-- Each side changed one of three values, and both changed the last. -/
theorem three_way_merge_threeValues : ∃ resolution,
    merge [1, 2, 3] [4, 2, 5] [1, 6, 7] = .ok resolution ∧ resolution.merged.length = 3 := by
  have hours : ([4, 2, 5] : List Nat).length = [1, 2, 3].length := rfl
  have htheirs : ([1, 6, 7] : List Nat).length = [1, 2, 3].length := rfl
  obtain ⟨resolution, hmerge, hlength, -⟩ := three_way_merge hours htheirs
  exact ⟨resolution, hmerge, hlength⟩

end ListResolver

/-! ## The values of the form -/

/-- `Form::Value` -/
inductive FormValue where
  | int (value : Int)
  | string (value : String)
  | status (value : ReservationStatus)
  deriving DecidableEq

/-- The alternative that a field has. -/
def FormField.wrap : (field : FormField) → field.Value → FormValue
  | .status, value => .status value
  | .description, value => .string value
  | .numberOfAdults, value => .int value
  | .numberOfChildren, value => .int value

theorem FormField.wrap_inj {field : FormField} {v w : field.Value} :
    field.wrap v = field.wrap w ↔ v = w := by
  cases field with
  | status => exact FormValue.status.injEq v w ▸ Iff.rfl
  | description => exact FormValue.string.injEq v w ▸ Iff.rfl
  | numberOfAdults => exact FormValue.int.injEq v w ▸ Iff.rfl
  | numberOfChildren => exact FormValue.int.injEq v w ▸ Iff.rfl

/-- The position of a field in `Form::Tuple`. -/
def FormField.index : FormField → Nat
  | .status => 0
  | .description => 1
  | .numberOfAdults => 2
  | .numberOfChildren => 3

/-- `Form::Tuple`, as the array it is. -/
def FormTuple.values (tuple : FormTuple) : List FormValue :=
  Resolver.fields.map fun field => field.wrap (tuple field)

theorem FormTuple.getElem?_values (tuple : FormTuple) (field : FormField) :
    tuple.values[field.index]? = some (field.wrap (tuple field)) := by
  cases field <;> rfl

theorem mergeValue_wrap (base ours theirs : FormTuple) (field : FormField) :
    ListResolver.mergeValue (field.wrap (base field)) (field.wrap (ours field)) (field.wrap (theirs field)) =
      (Resolver.mergeField base ours theirs field).map field.wrap := by
  simp only [ListResolver.mergeValue, Resolver.mergeField, FormField.wrap_inj]
  by_cases hot : ours field = theirs field
  · simp [hot]
  · by_cases htb : theirs field = base field
    · have hob : base field ≠ ours field := fun h => hot (h.symm.trans htb.symm)
      simp [htb, hob]
    · by_cases hob : ours field = base field
      · simp [htb, hob, Ne.symm htb]
      · simp [hot, htb, hob, Ne.symm htb, Ne.symm hob]

/-- The dialog merges its fields as the positions of arrays. -/
theorem merge_fields (base ours theirs : FormTuple) :
    ListResolver.merge base.values ours.values theirs.values = .ok
      { merged := (Resolver.merge base ours theirs).merged.values
        conflicts := (Resolver.merge base ours theirs).conflicts.map FormField.index } := by
  have hours : ours.values.length = base.values.length := rfl
  have htheirs : theirs.values.length = base.values.length := rfl
  apply ListResolver.merge_of_merged hours htheirs
  have hindex : ∀ i < 4, ∃ field : FormField, field.index = i := by
    intro i hi
    interval_cases i
    · exact ⟨.status, rfl⟩
    · exact ⟨.description, rfl⟩
    · exact ⟨.numberOfAdults, rfl⟩
    · exact ⟨.numberOfChildren, rfl⟩
  refine ⟨rfl, fun i hi b o t hb ho ht => ?_, fun i hi => ?_, ?_⟩
  · obtain ⟨field, rfl⟩ := hindex i hi
    rw [FormTuple.getElem?_values] at hb ho ht ⊢
    cases hb
    cases ho
    cases ht
    rw [mergeValue_wrap]
    cases h : Resolver.mergeField base ours theirs field <;> simp [Resolver.merge, h]
  · have hlength : ∀ tuple : FormTuple, tuple.values[i]? = none :=
      fun tuple => List.getElem?_eq_none hi
    rw [hlength, hlength]
  · have hrange : List.range base.values.length = Resolver.fields.map FormField.index := rfl
    rw [hrange, List.filter_map]
    apply congrArg (List.map FormField.index)
    apply List.filter_congr
    intro field _
    rw [Function.comp_apply, ListResolver.inConflict]
    simp [FormTuple.getElem?_values, mergeValue_wrap]

end HotelPms

import HotelPms.Sqlite.ResultCodes

/- When a batch that reports no error was executed.

   A batch that is not stopped takes one answer for each of its statements, for each of
   the two steps of `executeSQL` and for each statement that is prepared again; a list of
   slots says which answer is whose (`slots`). Before each slot the state of the prepared
   statements and the number of changed rows can be read off the answers given so far
   (`Follows`).

   `no_false_success_iff` says in these terms when a batch that reports no error was
   executed: one of its operations is refused whatever SQLite answers, or all its
   statements are answered with DONE and COMMIT with OK, or an update counts the rows
   that were changed by the last statement to complete, and these are not one. -/
namespace HotelPms
open SqliteStorage DataStreamManager

namespace ResultCodes

/-! ## What the answers decide -/

/-- What a batch has an answer for. -/
inductive Slot where
  /-- `executeSQL` has two of them -/
  | sql
  | prepare (query : Query)
  | statement (query : Query)
  deriving DecidableEq

/-- The slots of an operation that is not refused. -/
def slotsOf (operation : Operation) : List Slot :=
  if operation = .eraseAllData then List.replicate 20 .sql ++ Storage.queries.map .prepare
  else (statementsOf operation).map .statement

/-- The slots of a batch, after that of BEGIN and before that of COMMIT. -/
def slots (operations : Operations) : List Slot := operations.flatMap slotsOf

/-- The operation is refused whatever SQLite answers. -/
def IsRefused : Operation → Prop
  | .storeNew (.person (some _)) => True
  | .update (.hotel (some hotel)) => hotel.id = 0
  | .update (.reservation (some r)) => r.id = 0
  | .update _ => True
  | .delete .reservation _ => False
  | .delete _ _ => True
  | _ => False

/-- The first statement of the operation is an UPDATE, after which the changed rows are counted. -/
def CountsRows : Operation → Prop
  | .update (.hotel (some _)) => True
  | .update (.reservation (some _)) => True
  | _ => False

namespace Storage

section
variable (s : Storage) (all : List Slot)

/-- The answer for a slot of a batch that is begun now. -/
def answerAt (i : Nat) : Answer := s.answers (s.calls + 1 + i)

/-- Whether statements of a query are stepped in a slot: the query was prepared, and since
    then none of them has failed. -/
def readyAt (query : Query) : Nat → Bool
  | 0 => (s.statements query).prepareForQuery.1
  | i + 1 =>
    if all[i]? = some (.prepare query) then (s.answerAt i).code = .ok
    else if all[i]? = some (.statement query) then
      readyAt query i && ((s.answerAt i).code = .done || (s.answerAt i).code = .ok)
    else readyAt query i

/-- Whether the slot is that of a statement that completes. -/
def doneAt (i : Nat) : Bool :=
  match all[i]? with
  | some (.statement query) => s.readyAt all query i && (s.answerAt i).code = .done
  | _ => false

/-- The rows that the last statement to complete before a slot has changed. -/
def rowsAt : Nat → Int
  | 0 => s.changes
  | i + 1 => if s.doneAt all i then (s.answerAt i).changedRows else rowsAt i

end

/-- Some update of the batch does not find one changed row. -/
def Miscounts (s : Storage) (operations : Operations) : Prop :=
  ∃ before operation after, operations = before ++ operation :: after ∧ CountsRows operation ∧
    s.rowsAt (slots operations) ((slots before).length + 1) ≠ 1

/-- All statements of the batch complete, and COMMIT succeeds. -/
def AllAnswered (s : Storage) (operations : Operations) : Prop :=
  (∀ i query, (slots operations)[i]? = some (.statement query) → s.doneAt (slots operations) i = true) ∧
    (s.answerAt (slots operations).length).code = .ok

end Storage

/-- The slots from one on begin with these. -/
def SlotsAt (all : List Slot) (i : Nat) (first : List Slot) : Prop := first <+: all.drop i

theorem SlotsAt.head {all rest : List Slot} {i : Nat} {slot : Slot} (h : SlotsAt all i (slot :: rest)) :
    all[i]? = some slot ∧ SlotsAt all (i + 1) rest := by
  obtain ⟨later, hdrop⟩ := h
  constructor
  · have hhead := congrArg (·[0]?) hdrop
    rw [List.getElem?_drop, Nat.add_zero] at hhead
    exact hhead.symm
  · exact ⟨later, by rw [← List.drop_drop, ← hdrop]; rfl⟩

theorem SlotsAt.append {all first rest : List Slot} {i : Nat} (h : SlotsAt all i (first ++ rest)) :
    SlotsAt all i first ∧ SlotsAt all (i + first.length) rest := by
  constructor
  · exact (List.prefix_append first rest).trans h
  · obtain ⟨later, hdrop⟩ := h
    refine ⟨later, ?_⟩
    rw [← List.drop_drop, ← hdrop, List.append_assoc, List.drop_left]

theorem SlotsAt.getElem {all first : List Slot} {i : Nat} (h : SlotsAt all i first) (j : Nat)
    (hj : j < first.length) : all[i + j]? = first[j]? := by
  obtain ⟨later, hdrop⟩ := h
  rw [← List.getElem?_drop, ← hdrop, List.getElem?_append_left hj]

/-! A batch follows its slots. -/

theorem SqliteStatement.prepareForQuery_stepped {statement : SqliteStatement}
    (h : statement.prepareForQuery.1 = true) (code : ResultCode) :
    ({ statement.prepareForQuery.2 with lastResult := code }).prepareForQuery.1 =
      (code = .done || code = .ok : Bool) := by
  unfold prepareForQuery at h ⊢
  split at h
  · cases h
  · next hprepared =>
    simp only [hprepared, Bool.false_eq_true, if_false]
    by_cases hdone : code = .done
    · simp [hdone]
    · simp [hdone]

theorem SqliteStatement.prepareForQuery_refused {statement : SqliteStatement}
    (h : statement.prepareForQuery.1 = false) : statement.prepareForQuery.2.prepareForQuery.1 = false := by
  unfold prepareForQuery at h ⊢
  split at h
  · next hprepared => simp [hprepared]
  · next hprepared =>
    rw [decide_eq_false_iff_not] at h
    by_cases hdone : statement.lastResult = .done
    · simp [hdone] at h
    · simpa [hprepared, hdone] using h

namespace Storage

/-- The state before a slot of the batch that was begun at `x`. Of some queries it is not
    known whether they are prepared. -/
structure Follows (x : Storage) (all : List Slot) (unknown : List Query) (i : Nat) (s : Storage) : Prop where
  answers : s.answers = x.answers
  calls : s.calls = x.calls + 1 + i
  ready : ∀ query, query ∉ unknown → (s.statements query).prepareForQuery.1 = x.readyAt all query i
  changes : s.changes = x.rowsAt all i

section
variable {x s : Storage} {all : List Slot} {unknown : List Query} {i : Nat} {query : Query}

theorem follows_begin (x : Storage) (all : List Slot) : Follows x all [] 0 x.beginTransaction :=
  ⟨rfl, rfl, fun _ _ => rfl, rfl⟩

theorem Follows.answer (h : Follows x all unknown i s) : s.answer = x.answerAt i := by
  rw [Storage.answer, h.answers, h.calls]
  rfl

theorem Follows.completes (h : Follows x all [] i s) (hslot : all[i]? = some (.statement query)) :
    s.Completes query ↔ x.doneAt all i = true := by
  rw [Completes, h.ready query List.not_mem_nil, h.answer, doneAt, hslot]
  simp

theorem follows_execute (h : Follows x all [] i s) (hslot : all[i]? = some (.statement query)) :
    Follows x all [] (i + 1) (s.execute query) := by
  have hready := h.ready query List.not_mem_nil
  have hchanges : (s.execute query).changes = x.rowsAt all (i + 1) := by
    rw [execute_changes, rowsAfter, rowsAt, h.changes, h.answer]
    exact if_congr (h.completes hslot) rfl rfl
  have hstatements : ∀ statement : SqliteStatement,
      statement.prepareForQuery.1 = x.readyAt all query (i + 1) → ∀ other, other ∉ ([] : List Query) →
      (Function.update s.statements query statement other).prepareForQuery.1 = x.readyAt all other (i + 1) := by
    intro statement hstatement other _
    by_cases hother : other = query
    · subst hother
      rwa [Function.update_self]
    · rw [Function.update_of_ne hother, h.ready other List.not_mem_nil, readyAt, hslot]
      simp [Ne.symm hother]
  have hnext : x.readyAt all query (i + 1) = (x.readyAt all query i &&
      ((x.answerAt i).code = .done || (x.answerAt i).code = .ok : Bool)) := by
    rw [readyAt, hslot]
    simp
  cases hcase : (s.statements query).prepareForQuery.1 with
  | true =>
    have hstepped := hstatements { (s.statements query).prepareForQuery.2 with lastResult := s.answer.code } (by
      rw [SqliteStatement.prepareForQuery_stepped hcase, hnext, ← hready, hcase, h.answer, Bool.true_and])
    refine ⟨?_, ?_, ?_, hchanges⟩
    · simp [execute, hcase, call, h.answers]
    · simp [execute, hcase, call, h.calls, Nat.add_assoc]
    · simpa [execute, hcase] using hstepped
  | false =>
    have hrefused := hstatements (s.statements query).prepareForQuery.2 (by
      rw [SqliteStatement.prepareForQuery_refused hcase, hnext, ← hready, hcase, Bool.false_and])
    refine ⟨?_, ?_, ?_, hchanges⟩
    · simp [execute, hcase, call, h.answers]
    · simp [execute, hcase, call, h.calls, Nat.add_assoc]
    · simpa [execute, hcase] using hrefused

theorem follows_executeAll {queries : List Query} (h : Follows x all [] i s)
    (hat : SlotsAt all i (queries.map .statement)) :
    Follows x all [] (i + queries.length) (queries.foldl execute s) ∧
      (s.AllComplete queries ↔ ∀ j < queries.length, x.doneAt all (i + j) = true) := by
  induction queries generalizing i s with
  | nil => exact ⟨h, by simp [AllComplete]⟩
  | cons query queries ih =>
    obtain ⟨hslot, hat⟩ := hat.head
    obtain ⟨hfollows, hall⟩ := ih (follows_execute h hslot) hat
    refine ⟨?_, ?_⟩
    · rw [List.length_cons, ← Nat.add_assoc, Nat.add_right_comm]
      exact hfollows
    · rw [AllComplete, h.completes hslot, hall, List.length_cons, Nat.forall_lt_succ_left]
      simp only [Nat.add_zero, Nat.add_assoc, Nat.add_comm 1]

theorem follows_sql (h : Follows x all unknown i s) {n : Nat} (hat : SlotsAt all i (List.replicate n .sql)) :
    Follows x all unknown (i + n) (call^[n] s) := by
  induction n generalizing i s with
  | zero => exact h
  | succ n ih =>
    obtain ⟨hslot, hat⟩ := SlotsAt.head hat
    have hnext : Follows x all unknown (i + 1) s.call := by
      refine ⟨h.answers, ?_, fun query hquery => ?_, ?_⟩
      · rw [call, h.calls, Nat.add_assoc]
      · rw [readyAt, hslot]
        simpa [call] using h.ready query hquery
      · rw [rowsAt, doneAt, hslot]
        simpa [call] using h.changes
    have hrest := ih hnext hat
    rwa [Nat.add_assoc, Nat.add_comm 1] at hrest

theorem follows_prepare {queries : List Query} (h : Follows x all queries i s)
    (hat : SlotsAt all i (queries.map .prepare)) :
    Follows x all [] (i + queries.length) (queries.foldl prepareQuery s) := by
  induction queries generalizing i s with
  | nil => exact h
  | cons query queries ih =>
    obtain ⟨hslot, hat⟩ := hat.head
    have hnext : Follows x all queries (i + 1) (s.prepareQuery query) := by
      refine ⟨h.answers, ?_, fun other hother => ?_, ?_⟩
      · show s.calls + 1 = _
        rw [h.calls, Nat.add_assoc]
      · rw [readyAt, hslot, prepareQuery]
        by_cases hquery : other = query
        · subst hquery
          by_cases hok : (x.answerAt i).code = .ok
          · simp [SqliteStatement.prepareForQuery, h.answer, hok]
          · simp [SqliteStatement.prepareForQuery, h.answer, hok]
        · have hknown := h.ready other fun hmem => (List.mem_cons.1 hmem).elim hquery hother
          simpa [hquery, Ne.symm hquery] using hknown
      · rw [rowsAt, doneAt, hslot]
        simpa [prepareQuery, call] using h.changes
    have hrest := ih hnext hat
    rwa [Nat.add_assoc, Nat.add_comm 1] at hrest

theorem follows_deleteAll (h : Follows x all [] i s)
    (hat : SlotsAt all i (List.replicate 20 .sql ++ queries.map .prepare)) :
    Follows x all [] (i + 35) s.deleteAll := by
  obtain ⟨hsql, hprepare⟩ := hat.append
  rw [List.length_replicate] at hprepare
  have hall : ∀ query, query ∈ queries := by
    intro query
    cases query <;> decide
  have hdropped : Follows x all queries i { s with statements := fun _ => { prepared := false } } :=
    ⟨h.answers, h.calls, fun query hquery => absurd (hall query) hquery, h.changes⟩
  exact follows_prepare (follows_sql hdropped hsql) hprepare

theorem follows_after (h : Follows x all [] i s) {operation : Operation} (hat : SlotsAt all i (slotsOf operation)) :
    Follows x all [] (i + (slotsOf operation).length) (s.after operation) ∧
      (s.AllComplete (statementsOf operation) ↔ ∀ j < (slotsOf operation).length, ∀ query,
        all[i + j]? = some (.statement query) → x.doneAt all (i + j) = true) := by
  have hslots := hat.getElem
  rw [after]
  unfold slotsOf at hat hslots ⊢
  split at hat
  · next herase =>
    subst herase
    rw [if_pos rfl] at hslots ⊢
    refine ⟨by rw [if_pos rfl]; exact follows_deleteAll h hat, fun _ j hj query hslot => ?_, fun _ => trivial⟩
    -- none of the slots is that of a statement
    rw [hslots j hj] at hslot
    have hmem := List.mem_of_getElem? hslot
    simp at hmem
  · next hother =>
    rw [if_neg hother] at hslots ⊢
    rw [if_neg hother, List.length_map]
    obtain ⟨hfollows, hall⟩ := follows_executeAll h hat
    refine ⟨hfollows, hall.trans ⟨fun hdone j hj _ _ => hdone j hj, fun hdone j hj => ?_⟩⟩
    have hslot : all[i + j]? = some (.statement ((statementsOf operation).get ⟨j, hj⟩)) := by
      rw [hslots j (by simpa using hj), List.getElem?_map, List.getElem?_eq_getElem hj]
      rfl
    exact hdone j hj _ hslot

/-! What the answers say of a batch. -/

theorem completesAll_iff {operations : Operations} (h : Follows x all [] i s) (hi : i ≤ all.length)
    (hat : all.drop i = slots operations) : s.CompletesAll operations ↔
      (∀ j, i ≤ j → ∀ query, all[j]? = some (.statement query) → x.doneAt all j = true) ∧
        (x.answerAt all.length).code = .ok := by
  induction operations generalizing i s with
  | nil =>
    obtain rfl : i = all.length := le_antisymm hi (List.drop_eq_nil_iff.1 hat)
    rw [CompletesAll, h.answer]
    refine ⟨fun hcommit => ⟨fun j hj query hslot => ?_, hcommit⟩, And.right⟩
    rw [List.getElem?_eq_none hj] at hslot
    cases hslot
  | cons operation operations ih =>
    have hslots : SlotsAt all i (slotsOf operation) := ⟨slots operations, hat.symm⟩
    obtain ⟨hfollows, hall⟩ := follows_after h hslots
    have hlength := congrArg List.length hat
    rw [List.length_drop, slots, List.flatMap_cons, List.length_append] at hlength
    have hrest : all.drop (i + (slotsOf operation).length) = slots operations := by
      rw [← List.drop_drop, hat, slots, List.flatMap_cons, List.drop_left]
      rfl
    rw [CompletesAll, hall, ih hfollows (by omega) hrest, ← and_assoc]
    refine and_congr_left fun _ => ⟨fun hdone j hj query hslot => ?_, fun hdone =>
      ⟨fun j _ => hdone (i + j) (Nat.le_add_right i j), fun j hj => hdone j (by omega)⟩⟩
    obtain ⟨hfirst, hlater⟩ := hdone
    by_cases hj' : i + (slotsOf operation).length ≤ j
    · exact hlater j hj' query hslot
    · obtain ⟨k, rfl⟩ := Nat.exists_eq_add_of_le hj
      exact hfirst k (by omega) query hslot

theorem refuses_iff (h : Follows x all [] i s) {operation : Operation} (hat : SlotsAt all i (slotsOf operation)) :
    s.Refuses operation ↔ IsRefused operation ∨ CountsRows operation ∧ x.rowsAt all (i + 1) ≠ 1 := by
  have hrows : ∀ query rest, slotsOf operation = .statement query :: rest →
      s.rowsAfter query = x.rowsAt all (i + 1) := by
    intro query rest hslots
    rw [hslots] at hat
    rw [← execute_changes]
    exact (follows_execute h hat.head.1).changes
  cases operation with
  | eraseAllData => simp [Refuses, IsRefused, CountsRows]
  | storeNew item =>
    cases item with
    | hotel item | reservation item | person item =>
      cases item with
      | none | some value => simp [Refuses, IsRefused, CountsRows]
  | update item =>
    cases item with
    | hotel item =>
      cases item with
      | none => simp [Refuses, IsRefused, CountsRows]
      | some hotel =>
        rw [Refuses, hrows .hotelUpdate [] rfl]
        simp [IsRefused, CountsRows]
    | reservation item =>
      cases item with
      | none => simp [Refuses, IsRefused, CountsRows]
      | some r =>
        rw [Refuses, hrows .reservationUpdate _ rfl]
        simp [IsRefused, CountsRows]
    | person item => simp [Refuses, IsRefused, CountsRows]
  | delete type id =>
    cases type with
    | reservation | hotel | person => simp [Refuses, IsRefused, CountsRows]

theorem refusesOne_iff {operations : Operations} (h : Follows x all [] i s) (hat : all.drop i = slots operations) :
    s.RefusesOne operations ↔ (∃ operation ∈ operations, IsRefused operation) ∨
      ∃ before operation after, operations = before ++ operation :: after ∧ CountsRows operation ∧
        x.rowsAt all (i + (slots before).length + 1) ≠ 1 := by
  induction operations generalizing i s with
  | nil => simp [RefusesOne]
  | cons operation operations ih =>
    have hslots : SlotsAt all i (slotsOf operation) := ⟨slots operations, hat.symm⟩
    have hrest : all.drop (i + (slotsOf operation).length) = slots operations := by
      rw [← List.drop_drop, hat, slots, List.flatMap_cons, List.drop_left]
      rfl
    rw [RefusesOne, refuses_iff h hslots, ih (follows_after h hslots).1 hrest]
    constructor
    · rintro ((hrefused | ⟨hcounts, hrows⟩) | ⟨other, hmem, hrefused⟩ | ⟨before, other, after, rfl, hcounts, hrows⟩)
      · exact Or.inl ⟨operation, List.mem_cons_self, hrefused⟩
      · exact Or.inr ⟨[], operation, operations, rfl, hcounts, hrows⟩
      · exact Or.inl ⟨other, List.mem_cons_of_mem _ hmem, hrefused⟩
      · refine Or.inr ⟨operation :: before, other, after, rfl, hcounts, ?_⟩
        rwa [slots, List.flatMap_cons, List.length_append, ← Nat.add_assoc]
    · rintro (⟨other, hmem, hrefused⟩ | ⟨before, other, after, heq, hcounts, hrows⟩)
      · rcases List.mem_cons.1 hmem with rfl | hmem
        · exact Or.inl (Or.inl hrefused)
        · exact Or.inr (Or.inl ⟨other, hmem, hrefused⟩)
      · cases before with
        | nil =>
          obtain ⟨rfl, rfl⟩ := List.cons.inj heq
          exact Or.inl (Or.inr ⟨hcounts, hrows⟩)
        | cons first before =>
          obtain ⟨rfl, rfl⟩ := List.cons.inj heq
          rw [slots, List.flatMap_cons, List.length_append, ← Nat.add_assoc] at hrows
          exact Or.inr (Or.inr ⟨before, other, after, rfl, hcounts, hrows⟩)

/-- The answers decide what becomes of a batch. -/
theorem condition_iff (s : Storage) (operations : Operations) :
    (∃ operation ∈ operations, IsRefused operation) ∨ s.Miscounts operations ∨ s.AllAnswered operations ↔
      s.beginTransaction.RefusesOne operations ∨ s.beginTransaction.CompletesAll operations := by
  have hfollows := follows_begin s (slots operations)
  rw [refusesOne_iff hfollows rfl, completesAll_iff hfollows (Nat.zero_le _) rfl, ← or_assoc]
  simp only [Nat.zero_le, true_implies, Nat.zero_add]
  rfl

end

end Storage

section
variable {build : Build} {s : Storage}

/-- A batch that reports no error is what its clients take it for. -/
def NoFalseSuccess (out : TaskOutcome) : Prop :=
  (∀ r ∈ out.results, r.status ≠ .error) → out.published = true → Completed out.storage.issued

/-- An update says yes only if its own UPDATE changed one row. -/
def NoFalseUpdate (s : Storage) (query : Query) (updated : Bool) : Prop :=
  updated = true → s.Completes query ∧ s.answer.changedRows = 1

theorem noFalseUpdate_iff (s : Storage) (query : Query) :
    NoFalseUpdate s query (decide (s.rowsAfter query = 1)) ↔ s.Completes query ∨ s.changes ≠ 1 := by
  rw [NoFalseUpdate, decide_eq_true_eq, Storage.rowsAfter]
  by_cases hcompletes : s.Completes query
  · simp [hcompletes]
  · simp [hcompletes]

/-- For every batch and every assignment of result codes: success is true exactly if an
    operation of the batch is refused in any case, or an update does not count one changed row
    of the last statement to complete, or all statements are answered with DONE and COMMIT
    with OK. And an update is true exactly if its UPDATE completes or the statement that
    completed last did not change just one row. -/
theorem no_false_success_iff {streams : List DataStream} {changeList : List DataStreamDifferential}
    {ops : Operations} {out : TaskOutcome}
    (h : processTask build streams s changeList ops = .ok out) :
    (NoFalseSuccess out ↔
        (∃ op ∈ ops, IsRefused op) ∨ s.Miscounts ops ∨ s.AllAnswered ops) ∧
      (∀ (s : Storage) (hotel : Hotel), NoFalseUpdate s .hotelUpdate (s.updateHotel hotel).1 ↔
        s.Completes .hotelUpdate ∨ s.changes ≠ 1) ∧
      ∀ (s : Storage) (r : Reservation) (updated : Bool × Storage × Reservation),
        s.updateReservation build r = .ok updated →
        (NoFalseUpdate s .reservationUpdate updated.1 ↔
          s.Completes .reservationUpdate ∨ s.changes ≠ 1) := by
  refine ⟨?_, fun s hotel => ?_, fun s r updated hupdated => ?_⟩
  · have hcondition := s.condition_iff ops
    obtain ⟨⟨s', changes, results, rollback⟩, hrun, h⟩ := Except.bind_eq_ok.1 h
    rcases runOperations_spec hrun with ⟨rfl, hrefused, r, hr, herror⟩ |
      ⟨rfl, hpassed, herrors, all, hissues, hall⟩
    · cases h
      rw [hcondition]
      exact ⟨fun _ => Or.inl hrefused, fun _ hno => absurd herror (hno r hr)⟩
    · cases h
      obtain ⟨new, hissued, hdone, hcommit⟩ := hissues
      -- the batch issued its statements and then COMMIT
      have hbatch : (s'.commitTransaction).issued = new ++ [.commit s'.answer.code] := by
        show s'.issued ++ [.commit s'.answer.code] = _
        rw [hissued]
        rfl
      have hcompleted : Completed s'.commitTransaction.issued ↔ all ∧ s'.answer.code = .ok := by
        rw [hbatch]
        constructor
        · intro hc
          refine ⟨hdone.1 (allDone_append.1 hc.statements).1, ?_⟩
          rcases List.mem_append.1 hc.commit with hmem | hmem
          · exact absurd hmem (hcommit _)
          · exact (Issue.commit.inj (List.mem_singleton.1 hmem)).symm
        · rintro ⟨hall, hcode⟩
          refine ⟨allDone_append.2 ⟨hdone.2 hall, allDone_commit _⟩, ?_⟩
          rw [hcode]
          exact List.mem_append_right _ List.mem_cons_self
      rw [hcondition, NoFalseSuccess, hall]
      constructor
      · exact fun hsuccess => Or.inr (hcompleted.1 (hsuccess herrors rfl))
      · rintro (hrefused | hcompletes)
        · exact absurd hrefused hpassed
        · exact fun _ _ => hcompleted.2 hcompletes
  · rw [(Storage.updateHotel_eq s hotel).1]
    exact noFalseUpdate_iff s _
  · rw [(Storage.updateReservation_ok hupdated).1]
    exact noFalseUpdate_iff s _

end

/-- A storage whose calls get these answers, and OK after them. -/
def storageOf (answers : List ResultCode) (changes : Int) : Storage :=
  { answers := fun n => { code := answers.getD n .ok, changedRows := 1, insertedId := n }, changes }

def renamed : Hotel := { id := 1, revision := 1, name := "renamed", owned := Hotel.noRooms }

/-- A reservation is stored and a hotel is updated, and each statement they take is answered
    with DONE. -/
theorem no_false_success_stored :
    ∃ out, processTask .debug [] (storageOf [.ok, .done, .done, .done, .ok] 0) []
        [.storeNew (.reservation (some Reservation.oneNight)), .update (.hotel (some renamed))] = .ok out ∧
      out.published = true ∧ (∀ r ∈ out.results, r.status ≠ .error) ∧ Completed out.storage.issued ∧
      out.storage.issued.length = 4 := by
  have hanswered : (storageOf [.ok, .done, .done, .done, .ok] 0).AllAnswered
      [.storeNew (.reservation (some Reservation.oneNight)), .update (.hotel (some renamed))] := by
    refine ⟨fun i query hslot => ?_, rfl⟩
    rcases i with _ | _ | _ | i
    · cases hslot
      rfl
    · cases hslot
      rfl
    · cases hslot
      rfl
    · cases hslot
  obtain ⟨out, hout, hpublished, hresults, hlength⟩ :
      ∃ out, processTask .debug [] (storageOf [.ok, .done, .done, .done, .ok] 0) []
        [.storeNew (.reservation (some Reservation.oneNight)), .update (.hotel (some renamed))] = .ok out ∧
        out.published = true ∧ (∀ r ∈ out.results, r.status ≠ .error) ∧ out.storage.issued.length = 4 :=
    ⟨_, rfl, rfl, by simp [TaskResult.successful], rfl⟩
  have hsuccess := (no_false_success_iff hout).1.2 (Or.inr (Or.inr hanswered))
  exact ⟨out, hout, hpublished, hresults, hsuccess hresults hpublished, hlength⟩

/-- One reservation is stored, and the INSERT of its only atom finds the database
    busy: the batch reports success. An update finds it busy after a statement
    that changed one row: it reports success as well. -/
theorem false_success :
    (∃ out, processTask .debug [] (storageOf [.ok, .done, .busy, .ok] 0) []
      [.storeNew (.reservation (some Reservation.oneNight))] = .ok out ∧ ¬ NoFalseSuccess out) ∧
    ¬ NoFalseUpdate (storageOf [.busy] 1) .hotelUpdate
      ((storageOf [.busy] 1).updateHotel renamed).1 := by
  constructor
  · refine ⟨_, rfl, fun hsuccess => ?_⟩
    have hno : ∀ r ∈ [TaskResult.successful (.obj [("id", .int 1)])], r.status ≠ .error := by
      simp [TaskResult.successful]
    have hcompleted := hsuccess hno rfl
    have hbusy := hcompleted.statements .reservationAtomInsert (some .busy) (by decide)
    cases hbusy
  · intro hupdate
    have hdone := (hupdate rfl).1.2
    cases hdone

end ResultCodes

end HotelPms

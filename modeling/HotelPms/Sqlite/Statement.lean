import HotelPms.Sqlite.ResultCodes

/- `SqliteStatement` and the prepared statement it holds.

   A prepared statement begins a run at the first step after it was prepared or reset,
   and stands on a row after each step that returns `SQLITE_ROW`. A step after the last
   one, or after an error, begins the next run. SQLite takes new arguments only before
   the first step of a run.

   `SqliteStatement` keeps the code of the last step only. It resets the statement if
   this is `SQLITE_DONE`, and refuses to execute it otherwise. So calls do what they
   are for exactly if every execution follows the end of the one before and every row
   is read while there is one (`usable_iff`). After an error, or while rows are left, it
   is never executed again, however often this is tried (`executeAll_refused`). -/
namespace HotelPms

/-- What a step returns. It never returns `SQLITE_OK`. -/
@[ext] structure StepCode where
  code : ResultCodes.ResultCode
  notOk : code ≠ .ok

namespace StepCode

def row : StepCode := ⟨.row, by decide⟩
def done : StepCode := ⟨.done, by decide⟩
def busy : StepCode := ⟨.busy, by decide⟩

instance : DecidableEq StepCode := fun a b => decidable_of_iff (a.code = b.code) StepCode.ext_iff.symm

end StepCode

/-- Where a prepared statement stands. -/
inductive Position where
  /-- it was prepared, or reset -/
  | ready
  /-- on the row with this number of its run -/
  | row (n : Nat)
  /-- its last step returned no row -/
  | halted
  deriving DecidableEq

variable {α : Type}

/-- `sqlite3_stmt`: the arguments that are bound, if any, and the runs so far with the
    arguments of each. -/
structure PreparedStatement (α : Type) where
  bound : Option α := none
  runs : List (Option α) := []
  position : Position := .ready

namespace PreparedStatement

/-- `sqlite3_reset` -/
def reset (statement : PreparedStatement α) : PreparedStatement α :=
  { statement with position := .ready }

/-- The calls of `sqlite3_bind`: a statement that is not ready keeps its arguments. -/
def bind (statement : PreparedStatement α) (args : α) : PreparedStatement α :=
  match statement.position with
  | .ready => { statement with bound := some args }
  | _ => statement

/-- `sqlite3_step`, with the code it returns. -/
def step (statement : PreparedStatement α) (code : StepCode) : PreparedStatement α :=
  match statement.position with
  | .row n => { statement with position := if code = .row then .row (n + 1) else .halted }
  | _ => { statement with
      runs := statement.runs ++ [statement.bound]
      position := if code = .row then .row 0 else .halted }

/-- The row that `sqlite3_column` reads: the number of its run, and its number in it. -/
def currentRow (statement : PreparedStatement α) : Option (Nat × Nat) :=
  match statement.position with
  | .row n => some (statement.runs.length - 1, n)
  | _ => none

end PreparedStatement

/-- `SqliteStatement`, with the statement it holds. -/
structure SqliteStatement (α : Type) extends ResultCodes.SqliteStatement where
  /-- `_statement` -/
  statement : PreparedStatement α := {}

namespace SqliteStatement

/-- `prepareForQuery`, with the reset of a statement that is done. -/
def prepareForQuery (s : SqliteStatement α) : Bool × SqliteStatement α :=
  let (ready, kept) := s.toSqliteStatement.prepareForQuery
  (ready, { toSqliteStatement := kept
            statement := if s.prepared ∧ s.lastResult = .done then s.statement.reset else s.statement })

/-- `execute`: whether it was executed. -/
def execute (s : SqliteStatement α) (args : α) (code : StepCode) : Bool × SqliteStatement α :=
  let (ready, s) := s.prepareForQuery
  if !ready then (false, s)
  else (true, { s with lastResult := code.code, statement := (s.statement.bind args).step code })

def hasResultRow (s : SqliteStatement α) : Bool := s.lastResult = .row

/-- `readRow` after the columns are read. A statement that is null cannot be stepped:
    `sqlite3_step` returns `SQLITE_MISUSE`. -/
def readRow (s : SqliteStatement α) (code : StepCode) : SqliteStatement α :=
  if s.prepared then { s with lastResult := code.code, statement := s.statement.step code }
  else { s with lastResult := .other 21 }

/-- A call, with the code its step returns. -/
inductive Call (α : Type) where
  | execute (args : α) (code : StepCode)
  | readRow (code : StepCode)
  /-- `readRow` that throws while it reads a column: there is no step -/
  | readRowThrows

def after (s : SqliteStatement α) : Call α → SqliteStatement α
  | .execute args code => (s.execute args code).2
  | .readRow code => s.readRow code
  | .readRowThrows => s

/-! ## What the calls are for -/

/-- The call does what it is for: an execution begins a run with its arguments, and the
    row that is read is one of the run that the last execution began. -/
def Faithful (s : SqliteStatement α) (last : Option Nat) : Call α → Prop
  | .execute args code => (s.execute args code).1 = true ∧
      (s.execute args code).2.statement.runs = s.statement.runs ++ [some args]
  | .readRow _ | .readRowThrows => ∃ run n, last = some run ∧ s.statement.currentRow = some (run, n)

/-- The run that the last execution began, if it began one. -/
def lastRun (s : SqliteStatement α) (last : Option Nat) : Call α → Option Nat
  | .execute args code =>
    if (s.execute args code).2.statement.runs.length = s.statement.runs.length then none
    else some s.statement.runs.length
  | .readRow _ | .readRowThrows => last

/-- Every call of a sequence does what it is for. -/
def Usable (s : SqliteStatement α) (last : Option Nat) : List (Call α) → Prop
  | [] => True
  | call :: calls => s.Faithful last call ∧ (s.after call).Usable (s.lastRun last call) calls

/-- Every execution follows the end of the one before it, and every row is read while
    there is one. `previous` is what the last step returned. -/
def Orderly (previous : Option StepCode) : List (Call α) → Prop
  | [] => True
  | .execute _ code :: calls => (∀ c ∈ previous, c = .done) ∧ Orderly (some code) calls
  | .readRow code :: calls => previous = some .row ∧ Orderly (some code) calls
  | .readRowThrows :: calls => previous = some .row ∧ Orderly previous calls

/-- What holds of a statement while the calls are orderly. -/
structure Follows (s : SqliteStatement α) (last : Option Nat) (previous : Option StepCode) : Prop where
  prepared : s.prepared = true
  result : s.lastResult = (previous.map (·.code)).getD .ok
  fresh : previous = none → s.statement.position = .ready
  onRow : previous = some .row →
    ∃ n, s.statement.position = .row n ∧ last = some (s.statement.runs.length - 1)
  offRow : previous ≠ some .row → ∀ n, s.statement.position ≠ .row n

variable {s : SqliteStatement α} {last : Option Nat} {previous : Option StepCode}

theorem step_begins {statement : PreparedStatement α} (hoff : ∀ n, statement.position ≠ .row n) (code : StepCode) :
    (statement.step code).runs = statement.runs ++ [statement.bound] ∧
      (statement.step code).position = if code = .row then .row 0 else .halted := by
  rw [PreparedStatement.step]
  cases hposition : statement.position with
  | ready => exact ⟨rfl, rfl⟩
  | row n => exact absurd hposition (hoff n)
  | halted => exact ⟨rfl, rfl⟩

theorem step_continues {statement : PreparedStatement α} {n : Nat} (hon : statement.position = .row n)
    (code : StepCode) : (statement.step code).runs = statement.runs ∧
      (statement.step code).position = if code = .row then .row (n + 1) else .halted := by
  rw [PreparedStatement.step, hon]
  exact ⟨rfl, rfl⟩

theorem prepareForQuery_ready (hprepared : s.prepared = true) (hready : s.lastResult = .ok ∨ s.lastResult = .done) :
    s.prepareForQuery = (true, { s with
      lastResult := .ok
      statement := if s.lastResult = .done then s.statement.reset else s.statement }) := by
  rw [prepareForQuery, ResultCodes.SqliteStatement.prepareForQuery, hprepared]
  rcases hready with hready | hready <;> simp [hready]

theorem execute_refused (hok : s.lastResult ≠ .ok) (hdone : s.lastResult ≠ .done) (args : α) (code : StepCode) :
    s.execute args code = (false, s) := by
  obtain ⟨⟨prepared, lastResult⟩, statement⟩ := s
  dsimp only at hok hdone
  cases prepared with
  | false => simp [execute, prepareForQuery, ResultCodes.SqliteStatement.prepareForQuery]
  | true => simp [execute, prepareForQuery, ResultCodes.SqliteStatement.prepareForQuery, hok, hdone]

theorem execute_unprepared (hprepared : s.prepared = false) (args : α) (code : StepCode) :
    s.execute args code = (false, s) := by
  simp [execute, prepareForQuery, ResultCodes.SqliteStatement.prepareForQuery, hprepared]

theorem execute_begins (hprepared : s.prepared = true)
    (hready : s.lastResult = .ok ∧ s.statement.position = .ready ∨ s.lastResult = .done) (args : α)
    (code : StepCode) : ∃ after, s.execute args code = (true, after) ∧ after.prepared = true ∧
      after.lastResult = code.code ∧ after.statement.runs = s.statement.runs ++ [some args] ∧
      after.statement.position = if code = .row then .row 0 else .halted := by
  have hprepare := prepareForQuery_ready hprepared (hready.imp_left And.left)
  -- the statement that is stepped, which was never stepped or is reset
  obtain ⟨begun, hbegun, hposition, hruns⟩ : ∃ begun : PreparedStatement α,
      (if s.lastResult = .done then s.statement.reset else s.statement) = begun ∧
        begun.position = .ready ∧ begun.runs = s.statement.runs := by
    rcases hready with ⟨hok, hposition⟩ | hdone
    · exact ⟨s.statement, by simp [hok], hposition, rfl⟩
    · exact ⟨s.statement.reset, if_pos hdone, rfl, rfl⟩
  have hbound : begun.bind args = { begun with bound := some args } := by
    rw [PreparedStatement.bind, hposition]
  have hoff : ∀ n, (begun.bind args).position ≠ .row n := by
    intro n
    rw [hbound, hposition]
    exact Position.noConfusion
  obtain ⟨hstepRuns, hstepPosition⟩ := step_begins hoff code
  rw [hbegun] at hprepare
  rw [execute, hprepare]
  refine ⟨_, rfl, hprepared, rfl, ?_, hstepPosition⟩
  refine hstepRuns.trans ?_
  rw [hbound, hruns]

/-! ## Orderly calls -/

theorem follows_new (prepared : Bool) (hprepared : prepared = true) :
    Follows ({ prepared } : SqliteStatement α) none none where
  prepared := hprepared
  result := rfl
  fresh := fun _ => rfl
  onRow := fun h => by cases h
  offRow := fun _ n h => by cases h

/-- An orderly execution begins a run with its arguments; another one is refused. -/
theorem faithful_execute (h : Follows s last previous) (args : α) (code : StepCode) :
    (s.Faithful last (.execute args code) ↔ ∀ c ∈ previous, c = .done) ∧
      ((∀ c ∈ previous, c = .done) →
        Follows (s.after (.execute args code)) (s.lastRun last (.execute args code)) (some code)) := by
  have hbegins : (∀ c ∈ previous, c = .done) → ∃ after, s.execute args code = (true, after) ∧
      after.prepared = true ∧ after.lastResult = code.code ∧
      after.statement.runs = s.statement.runs ++ [some args] ∧
      after.statement.position = if code = .row then .row 0 else .halted := by
    intro hdone
    apply execute_begins h.prepared
    cases previous with
    | none => exact .inl ⟨h.result, h.fresh rfl⟩
    | some c =>
      rw [hdone c rfl] at h
      exact .inr h.result
  constructor
  · constructor
    · intro hfaithful c hc
      by_contra hne
      have hresult := h.result
      rw [hc] at hresult
      -- the step before returned a row or an error
      have hrefused := execute_refused (s := s) (hresult ▸ c.notOk)
        (fun hdone => hne (StepCode.ext (hresult.symm.trans hdone))) args code
      have htrue := hfaithful.1
      rw [hrefused] at htrue
      cases htrue
    · intro hdone
      obtain ⟨after, hexecute, -, -, hruns, -⟩ := hbegins hdone
      rw [Faithful, hexecute]
      exact ⟨rfl, hruns⟩
  · intro hdone
    obtain ⟨after, hexecute, hprepared, hresult, hruns, hposition⟩ := hbegins hdone
    rw [SqliteStatement.after, lastRun, hexecute]
    refine ⟨hprepared, hresult, (fun h => by cases h), fun hrow => ?_, fun hne n hn => ?_⟩
    · rw [if_pos (Option.some.inj hrow)] at hposition
      refine ⟨0, hposition, ?_⟩
      simp [hruns]
    · rw [if_neg fun hrow => hne (congrArg some hrow)] at hposition
      rw [hposition] at hn
      cases hn

theorem faithful_row (h : Follows s last previous) :
    (∃ run n, last = some run ∧ s.statement.currentRow = some (run, n)) ↔ previous = some .row := by
  constructor
  · rintro ⟨run, n, -, hrow⟩
    by_contra hne
    rw [PreparedStatement.currentRow] at hrow
    split at hrow
    · next n hn => exact h.offRow hne n hn
    · cases hrow
  · intro hprevious
    obtain ⟨n, hposition, hlast⟩ := h.onRow hprevious
    refine ⟨_, n, hlast, ?_⟩
    rw [PreparedStatement.currentRow, hposition]

theorem follows_readRow (h : Follows s last (some .row)) (code : StepCode) :
    Follows (s.readRow code) last (some code) := by
  obtain ⟨n, hposition, hlast⟩ := h.onRow rfl
  obtain ⟨hruns, hnext⟩ := step_continues hposition code
  rw [readRow, if_pos h.prepared]
  refine ⟨h.prepared, rfl, (fun h => by cases h), fun hrow => ?_, fun hne m hm => ?_⟩
  · rw [if_pos (Option.some.inj hrow)] at hnext
    refine ⟨n + 1, hnext, ?_⟩
    rw [hlast]
    exact congrArg (fun runs => some (List.length runs - 1)) hruns.symm
  · rw [if_neg fun hrow => hne (congrArg some hrow)] at hnext
    rw [hnext] at hm
    cases hm

theorem usable_iff_orderly (calls : List (Call α)) (h : Follows s last previous) :
    s.Usable last calls ↔ Orderly previous calls := by
  induction calls generalizing s last previous with
  | nil => exact Iff.rfl
  | cons call calls ih =>
    cases call with
    | execute args code =>
      obtain ⟨hfaithful, hfollows⟩ := faithful_execute h args code
      rw [Usable, Orderly, hfaithful]
      apply and_congr_right
      intro hdone
      exact ih (hfollows hdone)
    | readRow code =>
      rw [Usable, Orderly]
      refine Iff.trans (and_congr_left fun _ => faithful_row h) (and_congr_right fun hrow => ?_)
      rw [hrow] at h
      exact ih (follows_readRow h code)
    | readRowThrows =>
      rw [Usable, Orderly]
      refine Iff.trans (and_congr_left fun _ => faithful_row h) (and_congr_right fun _ => ?_)
      exact ih h

/-- Of all sequences of calls and all codes that the steps return, every call does what
    it is for exactly if the statement was prepared, every execution is the first call or
    follows a step that returned `SQLITE_DONE`, and every row is read after a step that
    returned `SQLITE_ROW`. -/
theorem usable_iff (prepared : Bool) (calls : List (Call α)) :
    Usable ({ prepared } : SqliteStatement α) none calls ↔
      (prepared = true ∨ calls = []) ∧ Orderly none calls := by
  cases prepared with
  | true =>
    rw [usable_iff_orderly calls (follows_new true rfl)]
    simp
  | false =>
    cases calls with
    | nil => simp [Usable, Orderly]
    | cons call calls =>
      -- the first call is refused, or reads a row though there is none
      have hfirst : ¬ Faithful ({ prepared := false } : SqliteStatement α) none call := by
        cases call with
        | execute args code =>
          rw [Faithful, execute_unprepared rfl]
          exact fun h => Bool.false_ne_true h.1
        | readRow code =>
          rintro ⟨run, n, hlast, -⟩
          cases hlast
        | readRowThrows =>
          rintro ⟨run, n, hlast, -⟩
          cases hlast
      rw [Usable]
      simp [hfirst]

/-- A statement after an error, or with rows left, is executed no more: tried any number
    of times it is refused, and has the rows it had. -/
theorem executeAll_refused (hok : s.lastResult ≠ .ok) (hdone : s.lastResult ≠ .done)
    (calls : List (α × StepCode)) :
    calls.foldl (fun s call => (s.execute call.1 call.2).2) s = s ∧
      ∀ call ∈ calls, (s.execute call.1 call.2).1 = false := by
  constructor
  · induction calls with
    | nil => rfl
    | cons call calls ih =>
      rw [List.foldl_cons, execute_refused hok hdone]
      exact ih
  · intro call _
    rw [execute_refused hok hdone]

/-- A query whose rows are all read. -/
def query (args : α) : Nat → List (Call α)
  | 0 => [.execute args .done]
  | rows + 1 => .execute args .row :: (List.replicate rows (.readRow .row) ++ [.readRow .done])

theorem orderly_query (args : α) (rows : Nat) (calls : List (Call α)) (hprevious : ∀ c ∈ previous, c = .done) :
    Orderly previous (query args rows ++ calls) ↔ Orderly (some .done) calls := by
  cases rows with
  | zero => exact and_iff_right hprevious
  | succ rows =>
    have hcalls : query args (rows + 1) ++ calls =
        .execute args .row :: (List.replicate rows (.readRow .row) ++ .readRow .done :: calls) := by
      simp [query]
    rw [hcalls]
    refine (and_iff_right hprevious).trans ?_
    induction rows with
    | zero => exact and_iff_right rfl
    | succ rows ih => exact (and_iff_right rfl).trans (ih (by simp [query]))

theorem usable_queries (queries : List (α × Nat)) :
    Usable ({ prepared := true } : SqliteStatement α) none (queries.flatMap fun q => query q.1 q.2) := by
  have horderly : ∀ previous : Option StepCode, (∀ c ∈ previous, c = .done) →
      Orderly previous (queries.flatMap fun q => query q.1 q.2) := by
    induction queries with
    | nil => exact fun _ _ => trivial
    | cons q queries ih =>
      intro previous hprevious
      rw [List.flatMap_cons, orderly_query q.1 q.2 _ hprevious]
      exact ih (some .done) fun c hc => (Option.some.inj hc).symm
  rw [usable_iff_orderly _ (follows_new true rfl)]
  exact horderly none fun c hc => absurd hc (Option.not_mem_none c)

/-- The loop over the first of two rows throws. The next execution is refused, and the row
    that is read then is one of the first. After an error executions are refused, too. -/
theorem old_row_is_read : ∃ first refused afterError : SqliteStatement Int,
    first = ((({ prepared := true } : SqliteStatement Int).after (.execute 1 .row)).after (.readRow .row)).after
      .readRowThrows ∧
    first.execute 2 .done = (false, refused) ∧ refused.hasResultRow = true ∧
    refused.statement.currentRow = some (0, 1) ∧ refused.statement.runs = [some 1] ∧
    afterError = ({ prepared := true } : SqliteStatement Int).after (.execute 1 .busy) ∧
    afterError.execute 2 .done = (false, afterError) ∧
    ¬ Usable ({ prepared := true } : SqliteStatement Int) none [.execute 1 .busy, .execute 2 .done] := by
  refine ⟨_, _, _, rfl, rfl, rfl, rfl, rfl, rfl, rfl, ?_⟩
  rw [usable_iff_orderly _ (follows_new true rfl)]
  intro horderly
  exact absurd (horderly.2.1 .busy rfl) (by decide)

/-! ## The statements of a batch -/

/-- What a batch keeps of its statements is what is kept here: the arguments and the
    position are not looked at. -/
theorem execute_eq_storage (storage : ResultCodes.Storage) (key : ResultCodes.Query) (args : α)
    (hanswer : storage.answer.code ≠ .ok) (hs : s.toSqliteStatement = storage.statements key) :
    (storage.execute key).statements key = (s.execute args ⟨storage.answer.code, hanswer⟩).2.toSqliteStatement := by
  simp only [ResultCodes.Storage.execute, execute, prepareForQuery, hs]
  cases hready : (storage.statements key).prepareForQuery.1 with
  | true => simp
  | false => simp

end SqliteStatement

end HotelPms

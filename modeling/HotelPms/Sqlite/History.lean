import HotelPms.Sqlite.Backend

/- Batches executed one after another on a database.

   `History` is any sequence of batches, each committed or rolled back, as the
   transaction of `processTask` leaves them. `History.induction` is the induction
   rule that every invariant of the storage is proved with: what holds of the
   database at the start, and is kept by the effect of each operation of a
   committed batch, holds at the end. A condition on the operations is a condition
   on each of them and the database it is executed on (`Along`). -/
namespace HotelPms
open Lib SqliteStorage DataStreamManager SqliteBackend

/-- A batch the worker executed. -/
structure BatchRecord where
  before : Database
  operations : Operations
  results : List TaskResult
  committed : Bool
  after : Database

/-- The calls a batch makes on the data stream manager. -/
def noticesOf (build : Build) (boost : BoostDate) (db : Database) : Operations → List Notice
  | [] => []
  | op :: ops =>
    match executeOperation build boost db op with
    | .ok e => e.notices ++ noticesOf build boost e.db ops
    | .error _ => []

/-- What a batch announces: nothing if it was rolled back. -/
def BatchRecord.notices (build : Build) (boost : BoostDate) (r : BatchRecord) : List Notice :=
  if r.committed then noticesOf build boost r.before r.operations else []

/-- Batches executed on a database, each committed or rolled back. -/
inductive History (build : Build) (boost : BoostDate) (db₀ : Database) :
    List BatchRecord → Database → Prop where
  | nil : History build boost db₀ [] db₀
  | commit {rs : List BatchRecord} {db db' : Database} {streams : List DataStream}
      {ops : Operations} {results : List TaskResult} {changes : List DataStreamDifferential}
      (past : History build boost db₀ rs db)
      (succeed : Succeed build boost streams db ops db' results changes) :
    History build boost db₀ (rs ++ [⟨db, ops, results, true, db'⟩]) db'
  | rollback {rs : List BatchRecord} {db : Database} {streams : List DataStream}
      {ops : Operations} {results : List TaskResult} (past : History build boost db₀ rs db)
      (fails : FailsAt build boost streams db ops results) :
    History build boost db₀ (rs ++ [⟨db, ops, results, false, db⟩]) db

/-- The database after some of the executed batches. -/
def databaseAfter (db₀ : Database) (executed : List BatchRecord) (k : Nat) : Database :=
  (((executed.take k).getLast?).map (·.after)).getD db₀

theorem databaseAfter_append {db₀ : Database} {rs : List BatchRecord} {k : Nat} (h : k ≤ rs.length)
    (r : BatchRecord) : databaseAfter db₀ (rs ++ [r]) k = databaseAfter db₀ rs k := by
  rw [databaseAfter, databaseAfter, List.take_append_of_le_length h]

theorem databaseAfter_length {build : Build} {boost : BoostDate} {db₀ db : Database}
    {rs : List BatchRecord} (h : History build boost db₀ rs db) :
    databaseAfter db₀ rs rs.length = db := by
  rw [databaseAfter, List.take_length]
  cases h <;> simp

section
variable {build : Build} {boost : BoostDate} {db₀ db₁ db : Database} {earlier rs : List BatchRecord}

theorem History.append (hearlier : History build boost db₀ earlier db₁)
    (h : History build boost db₁ rs db) : History build boost db₀ (earlier ++ rs) db := by
  induction h with
  | nil => rw [List.append_nil]; exact hearlier
  | commit _ succeed ih => rw [← List.append_assoc]; exact .commit ih succeed
  | rollback _ fails ih => rw [← List.append_assoc]; exact .rollback ih fails

/-- The first batches of a history, and those after them. -/
theorem History.split (h : History build boost db₀ rs db) {k : Nat} (hk : k ≤ rs.length) :
    History build boost db₀ (rs.take k) (databaseAfter db₀ rs k) ∧
      History build boost (databaseAfter db₀ rs k) (rs.drop k) db := by
  have hwhole : ∀ {rs db}, History build boost db₀ rs db →
      History build boost db₀ (rs.take rs.length) (databaseAfter db₀ rs rs.length) ∧
        History build boost (databaseAfter db₀ rs rs.length) (rs.drop rs.length) db := by
    intro rs db h
    rw [databaseAfter_length h, List.take_length, List.drop_length]
    exact ⟨h, .nil⟩
  induction h with
  | nil =>
    obtain rfl : k = 0 := Nat.le_zero.1 hk
    exact ⟨.nil, .nil⟩
  | commit past succeed ih =>
    rcases Nat.lt_or_eq_of_le hk with hlt | rfl
    · have hk' := Nat.le_of_lt_succ (List.length_append ▸ hlt)
      rw [databaseAfter_append hk', List.take_append_of_le_length hk',
        List.drop_append_of_le_length hk']
      exact ⟨(ih hk').1, .commit (ih hk').2 succeed⟩
    · exact hwhole (.commit past succeed)
  | rollback past fails ih =>
    rcases Nat.lt_or_eq_of_le hk with hlt | rfl
    · have hk' := Nat.le_of_lt_succ (List.length_append ▸ hlt)
      rw [databaseAfter_append hk', List.take_append_of_le_length hk',
        List.drop_append_of_le_length hk']
      exact ⟨(ih hk').1, .rollback (ih hk').2 fails⟩
    · exact hwhole (.rollback past fails)

end

/-- The changes a stream gets from executed batches. -/
def batchChanges (build : Build) (boost : BoostDate) (stream : DataStream)
    (rs : List BatchRecord) : List DataStreamChange :=
  rs.flatMap fun r => receivedAll stream (r.notices build boost)

theorem announce_append {build : Build} {streams : List DataStream} {ns ms : List Notice}
    {cs ds : List DataStreamDifferential} (hn : announce build streams ns = .ok cs)
    (hm : announce build streams ms = .ok ds) : announce build streams (ns ++ ms) = .ok (cs ++ ds) := by
  induction ns generalizing cs with
  | nil => cases hn; exact hm
  | cons n ns ih =>
    obtain ⟨here, hhere, hn⟩ := Except.bind_eq_ok.1 hn
    obtain ⟨rest, hrest, hn⟩ := Except.bind_eq_ok.1 hn
    cases hn
    rw [List.append_assoc]
    exact (Except.bind_ok hhere _).trans (Except.bind_ok (ih hrest) _)

theorem announce_noticesOf {build : Build} {boost : BoostDate} {streams : List DataStream}
    {db db' : Database} {ops : Operations} {rs : List TaskResult} {cs : List DataStreamDifferential}
    (h : Succeed build boost streams db ops db' rs cs) :
    announce build streams (noticesOf build boost db ops) = .ok cs := by
  induction h with
  | nil => rfl
  | cons executed _ announced _ ih =>
    rw [noticesOf, executed]
    exact announce_append announced ih

/-! ## Induction over the operations of committed batches -/

/-- The operations of the committed batches, in order. -/
def committedOps (rs : List BatchRecord) : Operations :=
  rs.flatMap fun r => if r.committed then r.operations else []

/-- A condition on each operation of a batch and the database it is executed on. -/
def Along (build : Build) (boost : BoostDate) (condition : Database → Operation → Prop)
    (db : Database) : Operations → Prop
  | [] => True
  | op :: ops => condition db op ∧
    ∀ e, executeOperation build boost db op = .ok e → Along build boost condition e.db ops

/-- The condition on every operation of every committed batch. -/
def AlongHistory (build : Build) (boost : BoostDate) (condition : Database → Operation → Prop)
    (rs : List BatchRecord) : Prop :=
  ∀ r ∈ rs, r.committed = true → Along build boost condition r.before r.operations

section
variable {build : Build} {boost : BoostDate} {condition : Database → Operation → Prop}

theorem Along.of_forall {ops : Operations} (h : ∀ db op, op ∈ ops → condition db op) (db : Database) :
    Along build boost condition db ops := by
  induction ops generalizing db with
  | nil => trivial
  | cons op ops ih =>
    exact ⟨h db op List.mem_cons_self, fun e _ => ih (fun db' op' hop => h db' op'
      (List.mem_cons_of_mem _ hop)) e.db⟩

/-- The operations of a batch that succeeds, one effect after another. -/
theorem Succeed.induction {P : Operations → Database → Prop} {streams : List DataStream}
    (step : ∀ past db op db' notices, condition db op → P past db →
      Effect build boost db op db' notices → P (past ++ [op]) db')
    {db db' : Database} {ops : Operations} {rs : List TaskResult}
    {cs : List DataStreamDifferential} (h : Succeed build boost streams db ops db' rs cs)
    (hcondition : Along build boost condition db ops) (past : Operations) (hpast : P past db) :
    P (past ++ ops) db' := by
  induction h generalizing past with
  | nil db => rw [List.append_nil]; exact hpast
  | cons executed succeeded announced rest ih =>
    have hnext := step past _ _ _ _ hcondition.1 hpast (effect_of_succeeded executed succeeded)
    have hrest := ih (hcondition.2 _ executed) _ hnext
    rw [List.append_assoc] at hrest
    exact hrest

/-- What holds at the start, and is kept by each operation of a committed batch, holds at the end. -/
theorem History.induction {P : Operations → Database → Prop} {db₀ : Database}
    (start : P [] db₀)
    (step : ∀ past db op db' notices, condition db op → P past db →
      Effect build boost db op db' notices → P (past ++ [op]) db')
    {rs : List BatchRecord} {db : Database} (h : History build boost db₀ rs db)
    (hcondition : AlongHistory build boost condition rs) : P (committedOps rs) db := by
  induction h with
  | nil => exact start
  | commit past succeed ih =>
    have hpast := ih fun r hr => hcondition r (List.mem_append_left _ hr)
    have hlast := hcondition _ (List.mem_append_right _ List.mem_cons_self) rfl
    have hall := Succeed.induction step succeed hlast _ hpast
    rw [committedOps, List.flatMap_append]
    simpa [committedOps] using hall
  | rollback past fails ih =>
    have hpast := ih fun r hr => hcondition r (List.mem_append_left _ hr)
    rw [committedOps, List.flatMap_append]
    simpa [committedOps] using hpast

end

end HotelPms

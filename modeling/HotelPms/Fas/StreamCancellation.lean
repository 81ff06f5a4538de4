import HotelPms.Fas.StreamPipeline

/- Pipelines whose last stream is reset.

   A job that finds its pipeline canceled returns at once: it neither calls its function
   nor says that it has finished with its value, so its stage takes no value any more.
   For all the other stages that is as if an executor had the job and never began it.
   `Shadow` makes this exact: a run with a reset is a run without one in which some jobs
   wait forever, and its stages are the same. A job looks only when it begins: one that has
   begun calls its function, also when the reset comes before the call. `stream_cancel` says
   what follows. -/
namespace HotelPms
open Lib
open FutureChain (compose)

/-- A job that an executor has not begun. -/
def StreamActivity.IsJob {α : Nat → Type} (a : StreamActivity α) : Prop :=
  ∃ i cont val, a = .job i cont val

namespace StreamPipeline

variable {α : Nat → Type} {build : Build} {g : ∀ i, α i → α (i + 1)} {s s' t : StreamPipeline α}
  {a : StreamActivity α} {new : List (StreamActivity α)}

/-- The pipeline with another flag, and other activities. -/
def withFlag (s : StreamPipeline α) (canceled : Bool) (activities : List (StreamActivity α)) :
    StreamPipeline α :=
  { s with canceled, activities }

/-- What an activity does depends on the flag only where a job begins. -/
theorem run_withFlag (canceled : Bool) (activities : List (StreamActivity α))
    (h : a.IsJob → canceled = s.canceled) (ran : s.run build a = .ok (s', new)) :
    (s.withFlag canceled activities).run build a = .ok (s'.withFlag canceled activities, new) := by
  cases a with
  | getContinuation i | resetContinuation i | invoke i | finish i | get i =>
    cases ran
    rfl
  | continueWith i cont =>
    obtain ⟨⟨val, state⟩, hpop, ran⟩ := Except.bind_eq_ok.1 ran
    refine Except.bind_eq_ok.2 ⟨_, hpop, ?_⟩
    cases val with
    | none =>
      obtain ⟨u, hassert, ran⟩ := Except.bind_eq_ok.1 ran
      cases ran
      exact Except.bind_eq_ok.2 ⟨u, hassert, rfl⟩
    | some item =>
      cases item with
      | endOfStream | value =>
        cases ran
        rfl
  | closeNext i =>
    obtain ⟨out, hclose, ran⟩ := Except.bind_eq_ok.1 ran
    cases ran
    exact Except.bind_eq_ok.2 ⟨out, hclose, rfl⟩
  | job i cont val =>
    obtain rfl := h ⟨i, cont, val, rfl⟩
    cases ran
    rfl
  | pushValue i cont value =>
    obtain ⟨out, hpush, ran⟩ := Except.bind_eq_ok.1 ran
    cases ran
    exact Except.bind_eq_ok.2 ⟨out, hpush, rfl⟩

theorem run_job_canceled (hcanceled : s.canceled = true) (ha : a.IsJob)
    (ran : s.run build a = .ok (s', new)) : s' = s ∧ new = [] := by
  obtain ⟨i, cont, val, rfl⟩ := ha
  rw [run, if_pos hcanceled] at ran
  cases ran
  exact ⟨rfl, rfl⟩

/-! ## The run without the reset -/

/-- `t` is the pipeline in a run in which nothing was canceled, and `stuck` are the jobs that
    have returned here, and wait there. -/
structure Shadow (s t : StreamPipeline α) (stuck : List (StreamActivity α)) : Prop where
  awake : t = s.withFlag false t.activities
  activities : t.activities.Perm (s.activities ++ stuck)
  jobs : ∀ b ∈ stuck, b.IsJob
  none : s.canceled = false → stuck = []

theorem Shadow.self (hcanceled : s.canceled = false) : Shadow s s [] where
  awake := by
    cases s
    cases hcanceled
    rfl
  activities := by rw [List.append_nil]
  jobs := by simp
  none _ := rfl

theorem Shadow.perm {stuck : List (StreamActivity α)} (h : Shadow s t stuck)
    (hcanceled : s.canceled = false) : t.activities.Perm s.activities := by
  have hperm := h.activities
  rwa [h.none hcanceled, List.append_nil] at hperm

theorem Shadow.call {stuck : List (StreamActivity α)} (h : Shadow s t stuck) (s' : StreamPipeline α)
    (hcanceled : s'.canceled = s.canceled) (hactivities : s'.activities = s.activities ++ new) :
    Shadow s' (s'.withFlag false (t.activities ++ new)) stuck where
  awake := rfl
  activities := by
    show (t.activities ++ new).Perm (s'.activities ++ stuck)
    rw [hactivities, List.append_assoc]
    calc List.Perm (t.activities ++ new) (s.activities ++ stuck ++ new) := h.activities.append_right new
      List.Perm _ (s.activities ++ (new ++ stuck)) := by
        rw [List.append_assoc]
        exact List.perm_append_comm.append_left s.activities
  jobs := h.jobs
  none hs := h.none (hcanceled.symm.trans hs)

/-- Each step is one of the run without the reset, or none. -/
theorem shadow_step {stuck : List (StreamActivity α)} (h : Shadow s t stuck) (hs : Step build g s s') :
    ∃ t', (t' = t ∨ Step build g t t') ∧ ∃ stuck', Shadow s' t' stuck' := by
  have hawake := h.awake
  cases hs with
  | send v valid exec state pushed =>
    refine ⟨_, Or.inr ?_, stuck, h.call _ (by rfl) (by rfl)⟩
    rw [hawake]
    exact .send (s.withFlag false t.activities) v valid exec state pushed
  | close valid exec state closing =>
    refine ⟨_, Or.inr ?_, stuck, h.call _ (by rfl) (by rfl)⟩
    rw [hawake]
    exact .close (s.withFlag false t.activities) valid exec state closing
  | attach valid untouched idle cont state chained =>
    refine ⟨_, Or.inr ?_, stuck, h.call _ (by rfl) (by rfl)⟩
    have hidle : ∀ value, StreamActivity.get s.length value ∉ t.activities :=
      fun value hmem => idle value ((h.perm valid).mem_iff.1 hmem)
    rw [hawake]
    exact .attach (s.withFlag false t.activities) rfl untouched hidle cont state chained
  | get valid idle ready value state popped =>
    refine ⟨_, Or.inr ?_, stuck, h.call _ (by rfl) (by rfl)⟩
    have hidle : ∀ value, StreamActivity.get s.length value ∉ t.activities :=
      fun value hmem => idle value ((h.perm valid).mem_iff.1 hmem)
    rw [hawake]
    exact .get (s.withFlag false t.activities) rfl hidle ready value state popped
  | reset => exact ⟨t, Or.inl rfl, stuck, ⟨hawake, h.activities, h.jobs, fun hs => by cases hs⟩⟩
  | act s₁ a new activities replaces ran =>
    have hcanceled := run_canceled ran
    have hflag : ¬(s.canceled = true ∧ a.IsJob) → a.IsJob → false = s.canceled := by
      intro hjob ha
      by_contra hcanceled
      exact hjob ⟨by simpa using Ne.symm hcanceled, ha⟩
    by_cases hjob : s.canceled = true ∧ a.IsJob
    · -- the job returns at once: in the other run it is not begun
      obtain ⟨rfl, rfl⟩ := run_job_canceled hjob.1 hjob.2 ran
      refine ⟨t, Or.inl rfl, a :: stuck, ⟨hawake, ?_, ?_, fun hs => ?_⟩⟩
      · obtain ⟨before, after, hbefore, rfl⟩ := replaces
        have hperm := h.activities
        rw [hbefore] at hperm
        refine hperm.trans ?_
        simpa using List.perm_middle.symm.append_left before
      · rintro b (_ | ⟨_, hb⟩)
        · exact hjob.2
        · exact h.jobs b hb
      · exact absurd hjob.1 (by simp [show s₁.canceled = false from hs])
    · obtain ⟨activities', hreplaces, hperm⟩ := replaces.perm h.activities
      have hran := run_withFlag false t.activities (hflag hjob) ran
      refine ⟨s₁.withFlag false activities', Or.inr ?_, stuck, ⟨rfl, hperm, h.jobs, fun hs => ?_⟩⟩
      · rw [← hawake] at hran
        exact .act t _ a new activities' hreplaces hran
      · exact h.none (hcanceled.symm.trans hs)

/-- Whatever was canceled, the stages are those of a run in which nothing was. -/
theorem reached_shadow (h : Reached build g s) :
    ∃ t, Reached build g t ∧ ∃ stuck, Shadow s t stuck := by
  refine Reachable.simulate (R := fun s t => ∃ stuck, Shadow s t stuck) ?_
    (fun s s' t _ ⟨stuck, hshadow⟩ hs => shadow_step hshadow hs) h
  rintro _ rfl
  exact ⟨{}, rfl, [], .self rfl⟩

/-! ## What follows -/

theorem StageSound.length_applied {i : Nat} {fn : α i → α (i + 1)} {stage : StreamStage (α i) (α (i + 1))}
    {passed : List (α (i + 1))} {finished attached : Bool} {work : List (StreamActivity α)}
    (h : StageSound fn stage passed finished attached work) :
    stage.applied.length ≤ passed.length + 1 := by
  have hattached : ∀ {cont : StreamContinuationThen (α i) (α (i + 1))} {taken : List (α i)}
      {pushing : List (α (i + 1))} {processing : Bool},
      Attached fn stage cont taken passed pushing processing → pushing.length ≤ 1 →
      stage.applied.length ≤ passed.length + 1 := by
    intro cont taken pushing processing hattached hpushing
    have hlength := congrArg List.length hattached.passed
    rw [List.length_map, List.length_append] at hlength
    omega
  have hended : stage.applied.map fn = passed → stage.applied.length ≤ passed.length + 1 := by
    rintro rfl
    rw [List.length_map]
    exact Nat.le_succ _
  cases h with
  | last last | getting value last =>
    rw [last.applied]
    exact Nat.zero_le _
  | idle cont attached | due cont attached | job cont val attached | invoke cont val attached
  | finish cont attached =>
    exact hattached attached (Nat.zero_le 1)
  | pushValue cont value attached => exact hattached attached le_rfl
  | closeNext ended applied | resetContinuation ended applied | done ended applied => exact hended applied

theorem applied_setStage {i : Nat} {stage : StreamStage (α i) (α (i + 1))}
    (h : stage.applied = (s.stages i).applied) (j : Nat) :
    ((s.setStage i stage).stages j).applied = (s.stages j).applied := by
  by_cases hj : j = i
  · subst hj
    rw [stages_setStage, h]
  · rw [stages_setStage_of_ne s hj]

/-- A function is being called. -/
def Invokes (s : StreamPipeline α) (i : Nat) (val : α i) : Prop := ∃ cont, .invoke i cont val ∈ s.activities

/-- An activity that does not call a function. -/
theorem applied_run (hinvoke : ∀ i cont val, a ≠ .invoke i cont val) (ran : s.run build a = .ok (s', new)) :
    s'.length = s.length ∧ ∀ j, (s'.stages j).applied = (s.stages j).applied := by
  cases a with
  | getContinuation i | job i =>
    cases ran
    exact ⟨rfl, fun _ => rfl⟩
  | continueWith i cont =>
    obtain ⟨⟨val, state⟩, -, ran⟩ := Except.bind_eq_ok.1 ran
    cases val with
    | none =>
      obtain ⟨_, -, ran⟩ := Except.bind_eq_ok.1 ran
      cases ran
      exact ⟨rfl, fun _ => rfl⟩
    | some item =>
      cases item with
      | endOfStream | value =>
        cases ran
        exact ⟨rfl, applied_setStage rfl⟩
  | closeNext i | pushValue i =>
    obtain ⟨⟨exec, state⟩, -, ran⟩ := Except.bind_eq_ok.1 ran
    cases ran
    exact ⟨rfl, applied_setStage rfl⟩
  | invoke i cont val => exact absurd rfl (hinvoke i cont val)
  | resetContinuation i | finish i | get i =>
    cases ran
    exact ⟨rfl, applied_setStage rfl⟩

/-- In a canceled pipeline no job goes on to call its function. -/
theorem new_run (hcanceled : s.canceled = true) (ran : s.run build a = .ok (s', new)) {i : Nat}
    {cont : StreamContinuationThen (α i) (α (i + 1))} {val : α i} : .invoke i cont val ∉ new := by
  cases a with
  | getContinuation j =>
    cases ran
    simp
  | continueWith j =>
    obtain ⟨⟨item, state⟩, -, ran⟩ := Except.bind_eq_ok.1 ran
    cases item with
    | none =>
      obtain ⟨_, -, ran⟩ := Except.bind_eq_ok.1 ran
      cases ran
      exact List.not_mem_nil
    | some item =>
      cases item with
      | endOfStream | value =>
        cases ran
        simp
  | closeNext j | pushValue j =>
    obtain ⟨⟨exec, state⟩, -, ran⟩ := Except.bind_eq_ok.1 ran
    cases ran
    cases exec with
    | false | true => simp [executeStream]
  | job j =>
    obtain ⟨-, rfl⟩ := run_job_canceled hcanceled ⟨_, _, _, rfl⟩ ran
    exact List.not_mem_nil
  | finish j =>
    cases ran
    split
    · simp
    · simp
  | resetContinuation j | invoke j | get j =>
    cases ran
    simp

theorem Shadow.stages {stuck : List (StreamActivity α)} (h : Shadow s t stuck) : t.stages = s.stages := by
  rw [h.awake]
  rfl

/-- Of two runs in which nothing is canceled, and in one of them some jobs wait forever, the
    pipeline of the other has fewer activities at a stage. -/
theorem Shadow.length_work {stuck : List (StreamActivity α)} (h : Shadow s t stuck) (i : Nat) :
    (s.work i).length ≤ (t.work i).length := by
  have hlength := (h.activities.filter fun b => b.stage == i).length_eq
  rw [List.filter_append, List.length_append] at hlength
  exact hlength ▸ Nat.le_add_right _ _

/-- The pipeline of every run has the stages of a sound one. -/
theorem reached_stages (h : Reached build g s) : ∃ t stuck, Shadow s t stuck ∧ Reached build g t ∧
    t.canceled = false ∧ Sound g t := by
  obtain ⟨t, ht, stuck, hshadow⟩ := reached_shadow h
  have hcanceled : t.canceled = false := by
    rw [hshadow.awake]
    rfl
  exact ⟨t, stuck, hshadow, ht, hcanceled, reached_sound ht hcanceled⟩

theorem passed_of_reached (h : Reached build g s) (i : Nat) :
    (s.stages (i + 1)).arrived <+: (s.stages i).applied.map (g i) ∧
      (s.stages i).applied.length ≤ (s.stages (i + 1)).arrived.length + 1 := by
  obtain ⟨t, stuck, hshadow, -, -, hsound⟩ := reached_stages h
  rw [← hshadow.stages]
  exact ⟨(hsound.stages i).applied_isPrefix.2, StageSound.length_applied (hsound.stages i)⟩

theorem goes_of_reached (h : Reached build g s) (ha : a ∈ s.activities) :
    ∃ s' new, s.run build a = .ok (s', new) := by
  obtain ⟨t, stuck, hshadow, -, hcanceled, hsound⟩ := reached_stages h
  by_cases hjob : s.canceled = true ∧ a.IsJob
  · obtain ⟨hs, i, cont, val, rfl⟩ := hjob
    exact ⟨s, _, rfl⟩
  · have hmem : a ∈ t.activities := hshadow.activities.mem_iff.2 (List.mem_append_left _ ha)
    obtain ⟨t', new, hran, -⟩ := goes_of_mem build hsound hcanceled hmem
    have hback := run_withFlag s.canceled s.activities (fun ha => ?_) hran
    · rw [hshadow.awake] at hback
      exact ⟨_, new, hback⟩
    · rw [hcanceled]
      by_contra hs
      exact hjob ⟨by simpa using hs, ha⟩

theorem length_work_of_reached (h : Reached build g s) (i : Nat) : (s.work i).length ≤ 1 := by
  obtain ⟨t, stuck, hshadow, -, -, hsound⟩ := reached_stages h
  exact (hshadow.length_work i).trans (hsound.stages i).length_le

theorem Invokes.length_applied (h : Reached build g s) {i : Nat} {val : α i} (hinvokes : s.Invokes i val) :
    (s.stages i).applied.length ≤ (s.stages (i + 1)).arrived.length := by
  obtain ⟨t, stuck, hshadow, -, -, hsound⟩ := reached_stages h
  obtain ⟨cont, hmem⟩ := hinvokes
  obtain ⟨attached, -, hstage⟩ := hsound.at_stage (i := i)
    (hshadow.activities.mem_iff.2 (List.mem_append_left _ hmem)) rfl
  rw [hshadow.stages] at hstage
  cases hstage with
  | due cont att queue unfinished activity at_ => simp at at_
  | invoke cont val att unfinished =>
    have hlength := congrArg List.length att.passed
    rw [List.length_map, List.append_nil] at hlength
    exact hlength.le

/-! ## After the reset -/

/-- The function of a stage was not called since, or it was once, with the value of a job
    that had begun. -/
def CalledSince (s s' : StreamPipeline α) (i : Nat) : Prop :=
  (s'.stages i).applied = (s.stages i).applied ∧ (∀ val, s'.Invokes i val → s.Invokes i val) ∨
    ∃ val, s.Invokes i val ∧ (s'.stages i).applied = (s.stages i).applied ++ [val] ∧ ∀ val, ¬s'.Invokes i val

theorem CalledSince.refl (s : StreamPipeline α) (i : Nat) : CalledSince s s i := Or.inl ⟨rfl, fun _ => id⟩

theorem CalledSince.trans {s'' : StreamPipeline α} {i : Nat} (h : CalledSince s s' i)
    (h' : CalledSince s' s'' i) : CalledSince s s'' i := by
  rcases h with ⟨hsame, hsub⟩ | ⟨val, hval, hcalled, hnone⟩
  · rcases h' with ⟨hsame', hsub'⟩ | ⟨val, hval, hcalled, hnone⟩
    · exact Or.inl ⟨hsame'.trans hsame, fun val hval => hsub val (hsub' val hval)⟩
    · exact Or.inr ⟨val, hsub val hval, hsame ▸ hcalled, hnone⟩
  · rcases h' with ⟨hsame', hsub'⟩ | ⟨val', hval', -, -⟩
    · exact Or.inr ⟨val, hval, hsame'.trans hcalled, fun val hval => hnone val (hsub' val hval)⟩
    · exact absurd hval' (hnone val')

theorem CalledSince.of_call (happlied : ∀ j, (s'.stages j).applied = (s.stages j).applied)
    (hnew : ∀ i cont val, .invoke i cont val ∈ s'.activities → .invoke i cont val ∈ s.activities) (i : Nat) :
    CalledSince s s' i :=
  Or.inl ⟨happlied i, fun val ⟨cont, hmem⟩ => ⟨cont, hnew i cont val hmem⟩⟩

theorem mem_of_executeStream {exec : Bool} {n i : Nat} {cont : StreamContinuationThen (α i) (α (i + 1))}
    {val : α i} {as : List (StreamActivity α)} (h : .invoke i cont val ∈ as ++ executeStream exec n) :
    .invoke i cont val ∈ as := by
  cases exec with
  | false | true => simpa [executeStream] using h

theorem calledSince_act (h : Reached build g s) (hcanceled : s.canceled = true)
    {activities : List (StreamActivity α)} (replaces : Replaces a new s.activities activities)
    (ran : s.run build a = .ok (s', new)) :
    s'.length = s.length ∧ ∀ i, CalledSince s { s' with activities } i := by
  have hkept : ∀ i cont val, .invoke i cont val ∈ activities → .invoke i cont val ∈ s.activities :=
    fun i cont val hmem => (replaces.mem_or hmem).resolve_left (new_run hcanceled ran)
  by_cases hinvoke : ∀ i cont val, a ≠ .invoke i cont val
  · obtain ⟨hlength, happlied⟩ := applied_run hinvoke ran
    exact ⟨hlength, .of_call happlied hkept⟩
  · push Not at hinvoke
    obtain ⟨j, cont, val, rfl⟩ := hinvoke
    cases ran
    refine ⟨rfl, fun i => ?_⟩
    by_cases hi : i = j
    · -- the job was the only activity at its stage
      subst hi
      refine Or.inr ⟨val, ⟨cont, replaces.mem⟩, ?_, ?_⟩
      · show ((s.setStage i _).stages i).applied = _
        rw [stages_setStage]
      · rintro val' ⟨cont', hmem⟩
        have hwork : s.work i = [.invoke i cont val] := by
          have hmem : .invoke i cont val ∈ s.work i :=
            List.mem_filter.2 ⟨replaces.mem, beq_self_eq_true i⟩
          obtain ⟨b, hb⟩ := List.length_eq_one_iff.1
            (le_antisymm (length_work_of_reached h i) (List.length_pos_of_mem hmem))
          rw [hb, List.mem_singleton] at hmem
          rw [hb, hmem]
        have hfilter := replaces.filter_self (p := fun b => b.stage == i) (beq_self_eq_true i) hwork
        have hleft : .invoke i cont' val' ∈ activities.filter fun b => b.stage == i :=
          List.mem_filter.2 ⟨hmem, beq_self_eq_true i⟩
        rw [hfilter] at hleft
        simpa using (List.mem_filter.1 hleft).1
    · refine Or.inl ⟨?_, fun val' ⟨cont', hmem⟩ => ⟨cont', hkept i cont' val' hmem⟩⟩
      show ((s.setStage j _).stages i).applied = _
      rw [stages_setStage_of_ne s hi]

/-- A canceled pipeline stays canceled, nothing is attached to it, and of its functions only
    those are called whose job had begun. -/
theorem canceled_step (h : Reached build g s) (hcanceled : s.canceled = true) (hs : Step build g s s') :
    s'.canceled = true ∧ s'.length = s.length ∧ ∀ i, CalledSince s s' i := by
  cases hs with
  | send v valid exec state pushed =>
    exact ⟨hcanceled, rfl, .of_call (applied_setStage rfl) fun _ _ _ => mem_of_executeStream⟩
  | close valid exec state closing =>
    exact ⟨hcanceled, rfl, .of_call (applied_setStage rfl) fun _ _ _ => mem_of_executeStream⟩
  | attach valid untouched idle cont state chained => simp [hcanceled] at valid
  | get valid idle ready value state popped => simp [hcanceled] at valid
  | reset => exact ⟨rfl, rfl, .of_call (fun _ => rfl) fun _ _ _ hmem => hmem⟩
  | act s₁ activity new activities replaces ran =>
    obtain ⟨hlength, hcalled⟩ := calledSince_act h hcanceled replaces ran
    exact ⟨(run_canceled ran).trans hcanceled, hlength, hcalled⟩

theorem canceled_run (h : Reached build g s) (hcanceled : s.canceled = true)
    (hrun : Relation.ReflTransGen (Step build g) s s') :
    s'.canceled = true ∧ s'.length = s.length ∧ ∀ i, CalledSince s s' i := by
  induction hrun with
  | refl => exact ⟨hcanceled, rfl, .refl s⟩
  | tail hrun hs ih =>
    obtain ⟨hcanceled', hlength, hcalled⟩ := canceled_step (h.run hrun) ih.1 hs
    exact ⟨hcanceled', hlength.trans ih.2.1, fun i => (ih.2.2 i).trans (hcalled i)⟩

/-- In every run, whenever the last stream is reset: the stages are those of a run in which
    nothing was canceled, and the activities too, but for jobs that wait there forever. So at
    each stage there is at most one activity, and none fails an assertion. What has arrived
    anywhere is the beginning of what the functions before make of the values sent, and all of
    it where the end has arrived. After the reset only those functions are called whose job
    has begun before, each of them once and with the value of that job, nothing is attached,
    and in each state at most one more value arrives. -/
theorem stream_cancel (build : Build) (g : ∀ i, α i → α (i + 1)) {s : StreamPipeline α}
    (h : Reached build g s) :
    (∃ t, Reached build g t ∧ ∃ stuck, Shadow s t stuck) ∧
    (∀ i, (s.work i).length ≤ 1) ∧
    (∀ activity ∈ s.activities, ∃ s' new, s.run build activity = .ok (s', new)) ∧
    (∀ i, (s.stages i).applied <+: s.sent.map (compose g i) ∧
      (s.stages (i + 1)).arrived <+: (s.stages i).applied.map (g i)) ∧
    (∀ i, (s.stages i).state.isFinished = true →
      s.closed = true ∧ (s.stages i).arrived = s.sent.map (compose g i)) ∧
    (s.canceled = true → ∀ s', Relation.ReflTransGen (Step build g) s s' →
      s'.canceled = true ∧ s'.length = s.length ∧
      ∀ i, ((s'.stages i).applied = (s.stages i).applied ∨
          ∃ cont val, .invoke i cont val ∈ s.activities ∧
            (s'.stages i).applied = (s.stages i).applied ++ [val]) ∧
        (s'.stages (i + 1)).arrived.length ≤ (s.stages (i + 1)).arrived.length + 1) := by
  obtain ⟨t, stuck, hshadow, ht, hcanceled, hsound⟩ := reached_stages h
  have hstages := hshadow.stages
  have hsent : t.sent = s.sent := by rw [sent, sent, hstages]
  have harrived := hsound.arrived_isPrefix
  have hfinished := hsound.of_finished
  refine ⟨⟨t, ht, stuck, hshadow⟩, length_work_of_reached h, fun activity hmem => goes_of_reached h hmem,
    fun i => ⟨?_, (passed_of_reached h i).1⟩, fun i hi => ?_, fun hs s' hrun => ?_⟩
  · have happlied := (hsound.stages i).applied_isPrefix.1.trans (harrived i)
    rw [expected, hsent, hstages] at happlied
    exact happlied
  · have hall := hfinished i (by rw [hstages]; exact hi)
    rw [expected, hsent, hstages] at hall
    have hclosed : t.closed = s.closed := by
      rw [hshadow.awake]
      rfl
    exact ⟨hclosed.symm.trans hall.1, hall.2⟩
  · obtain ⟨hs', hlength, hcalled⟩ := canceled_run h hs hrun
    refine ⟨hs', hlength, fun i => ?_⟩
    -- what arrives is what the function was called with
    have hpassed := (passed_of_reached (h.run hrun) i).1.length_le
    rw [List.length_map] at hpassed
    rcases hcalled i with ⟨hsame, -⟩ | ⟨val, ⟨cont, hmem⟩, hcall, -⟩
    · rw [hsame] at hpassed
      exact ⟨Or.inl hsame, hpassed.trans (passed_of_reached h i).2⟩
    · rw [hcall, List.length_append, List.length_singleton] at hpassed
      have hlength := Invokes.length_applied h ⟨cont, hmem⟩
      exact ⟨Or.inr ⟨cont, val, hmem, hcall⟩, hpassed.trans (Nat.succ_le_succ hlength)⟩

/-- Two numbers are sent to a stage, and when the job of the first is about to call the
    function the last stream is reset: the first arrives, and for the second the function is
    not called. -/
theorem stream_cancel_two : ∃ s s' : StreamPipeline fun _ => Nat, s.sent = [5, 8] ∧ s.canceled = true ∧
    (s.stages 0).applied = [] ∧ (s.stages 1).arrived = [] ∧ s'.activities = [] ∧
    (s'.stages 0).applied = [5] ∧ (s'.stages 1).arrived = [6] ∧
    (∃ cont val, .invoke 0 cont val ∈ s.activities ∧ (s'.stages 0).applied = [val]) ∧
    (s'.stages 1).arrived.length ≤ (s.stages 1).arrived.length + 1 := by
  have h₀ : Reached .debug (fun _ n => n + 1) ({} : StreamPipeline fun _ => Nat) := .init rfl
  have h₁ := h₀.step (.attach _ rfl rfl (by simp) _ _ rfl)
  have h₂ := h₁.step (.send _ 5 rfl _ _ rfl)
  have h₃ := h₂.step (.act _ _ _ _ _ ⟨[], [], rfl, rfl⟩ rfl)
  have h₄ := h₃.step (.act _ _ _ _ _ ⟨[], [], rfl, rfl⟩ rfl)
  have h₅ := h₄.step (.act _ _ _ _ _ ⟨[], [], rfl, rfl⟩ rfl)
  have h₆ := h₅.step (.send _ 8 rfl _ _ rfl)
  have h₇ := h₆.step (.reset _)
  obtain ⟨-, -, -, -, -, hafter⟩ := stream_cancel .debug (fun _ n => n + 1) h₇
  obtain ⟨-, -, hstages⟩ := hafter rfl _ (.tail (.tail (.tail (.tail (.tail .refl
    (.act _ _ _ _ _ ⟨[], [], rfl, rfl⟩ rfl)) (.act _ _ _ _ _ ⟨[], [], rfl, rfl⟩ rfl))
    (.act _ _ _ _ _ ⟨[], [], rfl, rfl⟩ rfl)) (.act _ _ _ _ _ ⟨[], [], rfl, rfl⟩ rfl))
    (.act _ _ _ _ _ ⟨[], [], rfl, rfl⟩ rfl))
  obtain ⟨hcalled, harrived⟩ := hstages 0
  refine ⟨_, _, rfl, rfl, rfl, rfl, rfl, rfl, rfl, hcalled.resolve_left ?_, harrived⟩
  exact List.cons_ne_nil 5 []

end StreamPipeline

end HotelPms

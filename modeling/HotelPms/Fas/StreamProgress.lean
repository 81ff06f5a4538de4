import HotelPms.Fas.StreamPipeline
import HotelPms.Lib.PoolProgress

/- Every value that is sent into a pipeline arrives, and so does the end.

   As for chains of futures, an activity that can take a step is trusted not to be put off for
   ever. The end counts as one more item of a stream. If a stage has got more items than it
   has passed on, there is an activity at it. The rank counts the items that the stage has
   to pass on first, and the steps that the activity takes for each. `stream_progress` follows
   the stages. -/
namespace HotelPms
open Lib
open FutureChain (compose)

/-- How many steps an activity takes until the next item is passed on, at most. -/
def StreamActivity.phase {α : Nat → Type} : StreamActivity α → Nat
  | .getContinuation _ => 5
  | .continueWith _ _ => 4
  | .closeNext _ => 1
  | .resetContinuation _ => 0
  | .job _ _ _ => 3
  | .invoke _ _ _ => 2
  | .pushValue _ _ _ => 1
  | .finish _ _ => 6
  | .get _ _ => 0

theorem StreamState.popValue_isFinished {T κ : Type} {build : Build} {s s' : StreamState T κ}
    {value : Option (StreamItem T)} (h : s.popValue build = .ok (value, s')) :
    s'.isFinished = s.isFinished := by
  obtain ⟨_, -, h⟩ := Except.bind_eq_ok.1 h
  cases hqueue : s.queue with
  | nil =>
    rw [hqueue] at h
    cases h
    rfl
  | cons item queue =>
    rw [hqueue] at h
    cases h
    rfl

namespace StreamPipeline

variable {α : Nat → Type} {build : Build} {g : ∀ i, α i → α (i + 1)} {s s' : StreamPipeline α}
  {a : StreamActivity α} {new : List (StreamActivity α)} {i j k : Nat}

/-- The activities of a pipeline, and what they do. -/
def pool (α : Nat → Type) (build : Build) : Pool (StreamPipeline α) (StreamActivity α) where
  activities := StreamPipeline.activities
  withActivities s activities := { s with activities }
  runs a s s₁ new := s.run build a = .ok (s₁, new)
  activities_with _ _ := rfl

/-- The step of one activity. -/
def Acts (build : Build) (a : StreamActivity α) : StreamPipeline α → StreamPipeline α → Prop :=
  (pool α build).Acts a

theorem Acts.ran (h : Acts build a s s') : ∃ s₁ new activities, Replaces a new s.activities activities ∧
    s.run build a = .ok (s₁, new) ∧ s' = { s₁ with activities } := h

/-- The values that a state has got, and its end. -/
def itemCount (s : StreamPipeline α) (i : Nat) : Nat :=
  (s.stages i).arrived.length + (s.stages i).state.isFinished.toNat

theorem Sound.exists_work (h : Sound g s) (hi : i < s.length) (hcount : s.itemCount (i + 1) < s.itemCount i) :
    ∃ a, s.work i = [a] := by
  have hstage := h.stages i
  rw [decide_eq_true hi] at hstage
  unfold itemCount at hcount
  generalize s.work i = work at hstage ⊢
  generalize (s.stages (i + 1)).arrived = passed, (s.stages (i + 1)).state.isFinished = finished at hstage hcount
  cases hstage with
  | due _ _ _ _ activity => exact ⟨activity, rfl⟩
  | job cont val | invoke cont val => exact ⟨_, rfl⟩
  | pushValue cont value => exact ⟨_, rfl⟩
  | finish cont => exact ⟨_, rfl⟩
  | closeNext | resetContinuation => exact ⟨_, rfl⟩
  | idle cont att queue unfinished =>
    obtain ⟨harrived, hopen⟩ := att.waiting.of_queue_nil queue
    have hpassed := congrArg List.length att.passed
    rw [List.length_map, List.append_nil] at hpassed
    rw [harrived, hopen, hpassed] at hcount
    simp at hcount
  | done ended applied next =>
    rw [ended.arrived, ended.finished, next, ← applied, List.length_map] at hcount
    exact absurd hcount (lt_irrefl _)

/-! ## One step -/

theorem itemCount_setStage {stage : StreamStage (α i) (α (i + 1))} {n : Nat}
    (hcount : stage.arrived.length + stage.state.isFinished.toNat = s.itemCount i + n) (j : Nat) :
    (s.setStage i stage).itemCount j = s.itemCount j + if j = i then n else 0 := by
  by_cases hj : j = i
  · subst hj
    rw [if_pos rfl, ← hcount, itemCount, stages_setStage]
  · rw [if_neg hj, itemCount, stages_setStage_of_ne s hj]
    rfl

theorem itemCount_setStage_self {stage : StreamStage (α i) (α (i + 1))}
    (harrived : stage.arrived = (s.stages i).arrived)
    (hfinished : stage.state.isFinished = (s.stages i).state.isFinished) (j : Nat) :
    (s.setStage i stage).itemCount j = s.itemCount j := by
  rw [itemCount_setStage (n := 0) (by rw [harrived, hfinished]; rfl) j, ite_self]
  rfl

/-- What an activity passes on, and how far it gets: to the next item at most if it has
    passed one on, and else nearer to passing one on. -/
theorem of_run {s₁ : StreamPipeline α} (ran : s.run build a = .ok (s₁, new)) :
    s₁.length = s.length ∧ ∃ n, (∀ j, s₁.itemCount j = s.itemCount j + if j = a.stage + 1 then n else 0) ∧
      ∀ b ∈ new, b.stage = a.stage → b.phase < a.phase + 7 * n := by
  have hnone : ∀ {s₁ : StreamPipeline α}, (∀ j, s₁.itemCount j = s.itemCount j) →
      ∀ j, s₁.itemCount j = s.itemCount j + if j = a.stage + 1 then 0 else 0 := by
    intro s₁ hsame j
    rw [hsame j, ite_self]
    rfl
  cases a with
  | getContinuation i =>
    cases ran
    refine ⟨rfl, 0, hnone fun _ => rfl, fun b hb _ => ?_⟩
    obtain ⟨cont, -, rfl⟩ := List.mem_map.1 hb
    simp [StreamActivity.phase]
  | continueWith i cont =>
    obtain ⟨⟨val, state⟩, hpop, ran⟩ := Except.bind_eq_ok.1 ran
    have hfinished := StreamState.popValue_isFinished hpop
    have hsame : ∀ j, (s.setStage i { s.stages i with state }).itemCount j = s.itemCount j :=
      itemCount_setStage_self rfl hfinished
    cases val with
    | none =>
      obtain ⟨_, -, ran⟩ := Except.bind_eq_ok.1 ran
      cases ran
      exact ⟨rfl, 0, hnone fun _ => rfl, by simp⟩
    | some item =>
      cases item with
      | endOfStream | value =>
        cases ran
        exact ⟨rfl, 0, hnone hsame, by simp [StreamActivity.phase]⟩
  | closeNext i =>
    obtain ⟨⟨exec, state⟩, hclose, ran⟩ := Except.bind_eq_ok.1 ran
    obtain ⟨rfl, rfl⟩ := StreamState.of_close hclose
    cases ran
    refine ⟨rfl, 1 - (s.stages (i + 1)).state.isFinished.toNat, itemCount_setStage ?_, fun b hb hstage => ?_⟩
    · rw [itemCount]
      cases (s.stages (i + 1)).state.isFinished <;> rfl
    · rcases List.mem_append.1 hb with hb | hb
      · rw [mem_executeStream hb] at hstage
        exact absurd hstage (Nat.succ_ne_self i)
      · rw [List.mem_singleton.1 hb]
        simp [StreamActivity.phase]
  | resetContinuation i =>
    cases ran
    exact ⟨rfl, 0, hnone (itemCount_setStage_self rfl rfl), by simp⟩
  | job i cont val =>
    cases ran
    refine ⟨rfl, 0, hnone fun _ => rfl, fun b hb _ => ?_⟩
    split at hb
    · cases hb
    · rw [List.mem_singleton.1 hb]
      simp [StreamActivity.phase]
  | invoke i cont val =>
    cases ran
    exact ⟨rfl, 0, hnone (itemCount_setStage_self rfl rfl), by simp [StreamActivity.phase]⟩
  | pushValue i cont value =>
    obtain ⟨⟨exec, state⟩, hpush, ran⟩ := Except.bind_eq_ok.1 ran
    obtain ⟨rfl, rfl⟩ := StreamState.of_pushValue hpush
    cases ran
    refine ⟨rfl, 1, itemCount_setStage ?_, fun b hb hstage => ?_⟩
    · rw [itemCount, List.length_append, List.length_singleton]
      exact Nat.add_right_comm _ 1 _
    · rcases List.mem_append.1 hb with hb | hb
      · rw [mem_executeStream hb] at hstage
        exact absurd hstage (Nat.succ_ne_self i)
      · rw [List.mem_singleton.1 hb]
        simp [StreamActivity.phase]
  | finish i cont =>
    cases ran
    refine ⟨rfl, 0, hnone (itemCount_setStage_self rfl rfl), fun b hb _ => ?_⟩
    split at hb
    · rw [List.mem_singleton.1 hb]
      simp [StreamActivity.phase]
    · cases hb
  | get i value =>
    cases ran
    exact ⟨rfl, 0, hnone (itemCount_setStage_self rfl rfl), by simp⟩

theorem sent_setStage_succ (i : Nat) (stage : StreamStage (α (i + 1)) (α (i + 1 + 1))) :
    (s.setStage (i + 1) stage).sent = s.sent := by
  unfold sent
  rw [stages_setStage_of_ne s (Nat.succ_ne_zero i).symm]

theorem sent_setStage {stage : StreamStage (α i) (α (i + 1))} (harrived : stage.arrived = (s.stages i).arrived) :
    (s.setStage i stage).sent = s.sent := by
  cases i with
  | zero => exact (congrArg _ (stages_setStage s 0 stage)).trans harrived
  | succ i => exact sent_setStage_succ i stage

/-- Only the producer sends, and ends the stream. -/
theorem sent_run {s₁ : StreamPipeline α} (ran : s.run build a = .ok (s₁, new)) :
    s₁.sent = s.sent ∧ s₁.closed = s.closed := by
  cases a with
  | getContinuation i | job i =>
    cases ran
    exact ⟨rfl, rfl⟩
  | continueWith i cont =>
    obtain ⟨⟨val, state⟩, -, ran⟩ := Except.bind_eq_ok.1 ran
    cases val with
    | none =>
      obtain ⟨_, -, ran⟩ := Except.bind_eq_ok.1 ran
      cases ran
      exact ⟨rfl, rfl⟩
    | some item =>
      cases item with
      | endOfStream | value =>
        cases ran
        exact ⟨sent_setStage rfl, rfl⟩
  | closeNext i | pushValue i =>
    obtain ⟨⟨exec, state⟩, -, ran⟩ := Except.bind_eq_ok.1 ran
    cases ran
    exact ⟨sent_setStage_succ i _, rfl⟩
  | resetContinuation i | invoke i | finish i | get i =>
    cases ran
    exact ⟨sent_setStage rfl, rfl⟩

theorem sent_step (hs : Step build g s s') :
    s.sent <+: s'.sent ∧ (s.closed = true → s'.closed = true ∧ s'.sent = s.sent) := by
  have hkept : s'.sent = s.sent ∧ s'.closed = s.closed →
      s.sent <+: s'.sent ∧ (s.closed = true → s'.closed = true ∧ s'.sent = s.sent) :=
    fun h => ⟨h.1 ▸ List.prefix_rfl, fun hclosed => ⟨h.2.trans hclosed, h.1⟩⟩
  cases hs with
  | send v valid exec state pushed =>
    refine ⟨?_, fun hclosed => by simp [hclosed] at valid⟩
    unfold sent
    dsimp only
    rw [stages_setStage]
    exact List.prefix_append _ _
  | close valid exec state closing =>
    have hsent : (s.setStage 0 { s.stages 0 with state }).sent = s.sent := sent_setStage rfl
    exact ⟨hsent.symm ▸ List.prefix_rfl, fun _ => ⟨rfl, hsent⟩⟩
  | attach valid untouched idle cont state chained => exact hkept ⟨sent_setStage rfl, rfl⟩
  | get valid idle ready value state popped => exact hkept ⟨sent_setStage rfl, rfl⟩
  | reset => exact hkept ⟨rfl, rfl⟩
  | act s₁ activity new activities replaces ran =>
    obtain ⟨hsent, hclosed⟩ := sent_run ran
    exact hkept ⟨hsent, hclosed⟩

/-- Stages are attached and items come in; none is taken back. -/
theorem grows_step (hs : Step build g s s') : s.length ≤ s'.length ∧ ∀ j, s.itemCount j ≤ s'.itemCount j := by
  cases hs with
  | send v valid exec state pushed =>
    obtain ⟨-, rfl⟩ := StreamState.of_pushValue pushed
    refine ⟨le_rfl, fun j => ?_⟩
    refine (Nat.le_add_right _ _).trans (itemCount_setStage (n := 1) ?_ j).ge
    rw [itemCount, List.length_append, List.length_singleton]
    exact Nat.add_right_comm _ 1 _
  | close valid exec state closing =>
    obtain ⟨-, rfl⟩ := StreamState.of_close closing
    refine ⟨le_rfl, fun j => ?_⟩
    refine (Nat.le_add_right _ _).trans
      (itemCount_setStage (n := 1 - (s.stages 0).state.isFinished.toNat) ?_ j).ge
    rw [itemCount]
    cases (s.stages 0).state.isFinished <;> rfl
  | attach valid untouched idle cont state chained =>
    obtain ⟨-, rfl⟩ := StreamState.of_chain chained
    exact ⟨Nat.le_succ _, fun j => (itemCount_setStage_self (by rfl) (by rfl) j).ge⟩
  | get valid idle ready value state popped =>
    exact ⟨le_rfl, fun j => (itemCount_setStage_self (by rfl) (StreamState.popValue_isFinished popped) j).ge⟩
  | reset => exact ⟨le_rfl, fun _ => le_rfl⟩
  | act s₁ activity new activities replaces ran =>
    obtain ⟨hlength, n, hcount, -⟩ := of_run ran
    exact ⟨hlength.ge, fun j => (Nat.le_add_right _ _).trans (hcount j).ge⟩

/-! ## The next item -/

/-- A stage has got an item, and has not passed it on. -/
structure Awaited (i k : Nat) (s : StreamPipeline α) : Prop where
  canceled : s.canceled = false
  attached : i < s.length
  got : k < s.itemCount i
  unpassed : s.itemCount (i + 1) ≤ k

/-- How far a stage is from passing an item on. -/
def workRank (i k : Nat) (s : StreamPipeline α) : Nat :=
  7 * (k + 1 - s.itemCount (i + 1)) + ((s.work i).map StreamActivity.phase).sum

theorem Awaited.exists_work (hp : Awaited i k s) (h : Sound g s) : ∃ a, s.work i = [a] :=
  h.exists_work hp.attached (hp.unpassed.trans_lt hp.got)

theorem mem_work (h : s.work i = [a]) : a ∈ s.activities ∧ a.stage = i := by
  have hmem : a ∈ s.work i := h ▸ List.mem_cons_self
  exact ⟨(List.mem_filter.1 hmem).1, beq_iff_eq.1 (List.mem_filter.1 hmem).2⟩

theorem Awaited.nearer (hp' : Awaited i k s') (h' : Sound g s') (hwork : s.work i = [a])
    (acts : Acts build a s s') : s'.workRank i k < s.workRank i k := by
  obtain ⟨s₁, new, activities, replaces, ran, rfl⟩ := acts.ran
  obtain ⟨-, hstage⟩ := mem_work hwork
  obtain ⟨b, hb⟩ := hp'.exists_work h'
  have hnew : b ∈ new := by
    have hfilter := replaces.filter_self (p := fun a => a.stage == i) (by simp [hstage]) hwork
    have hmem : b ∈ new.filter fun a => a.stage == i := by
      rw [show new.filter (fun a => a.stage == i) = [b] from hfilter.symm.trans hb]
      exact List.mem_singleton_self b
    exact (List.mem_filter.1 hmem).1
  obtain ⟨-, n, hcount, hphase⟩ := of_run ran
  have hlower := hphase b hnew ((mem_work hb).2.trans hstage.symm)
  have hpassed := hcount (i + 1)
  rw [hstage, if_pos rfl] at hpassed
  have hopen : s₁.itemCount (i + 1) ≤ k := hp'.unpassed
  unfold workRank
  rw [hwork, hb, List.map_singleton, List.sum_singleton, List.map_singleton, List.sum_singleton]
  change 7 * (k + 1 - s₁.itemCount (i + 1)) + _ < _
  omega

theorem Awaited.others (hp : Awaited i k s) (h' : Sound g s') (hwork : s.work i = [a])
    (hgrows : s.itemCount (i + 1) ≤ s'.itemCount (i + 1)) (hmem : a ∈ s'.activities) :
    s'.workRank i k < s.workRank i k ∨ s'.workRank i k = s.workRank i k ∧ s'.work i = s.work i := by
  obtain ⟨-, rfl⟩ := mem_work hwork
  have hwork' := (h'.work_eq hmem).trans hwork.symm
  unfold workRank
  rw [hwork']
  by_cases hsame : s'.itemCount (a.stage + 1) = s.itemCount (a.stage + 1)
  · rw [hsame]
    exact Or.inr ⟨rfl, rfl⟩
  · have hopen := hp.unpassed
    left
    omega

theorem acts_or_grows (hs : Step build g s s') :
    (∃ a, Acts build a s s') ∨ s.activities ⊆ s'.activities := by
  cases hs with
  | send | close | attach | get => exact Or.inr (List.subset_append_left _ _)
  | reset => exact Or.inr (List.Subset.refl _)
  | act s₁ activity new activities replaces ran =>
    exact Or.inl ⟨activity, s₁, new, activities, replaces, ran, rfl⟩

theorem Acts.step (h : Acts build a s s') : Step build g s s' := by
  obtain ⟨s₁, new, activities, replaces, ran, rfl⟩ := h.ran
  exact .act s s₁ a new activities replaces ran

/-! ## Runs without an end -/

/-- An item that a stage has got is passed on. -/
theorem item_leadsTo {run : InfiniteRun (fun s : StreamPipeline α => s = {}) (Step build g)}
    (fair : ∀ activity, run.WeaklyFair (Acts build activity)) (i k : Nat) :
    run.LeadsTo (fun s => i < s.length ∧ k < s.itemCount i)
      fun s => s.canceled = true ∨ k < s.itemCount (i + 1) := by
  have hcases : ∀ s : StreamPipeline α, i < s.length → k < s.itemCount i →
      (s.canceled = true ∨ k < s.itemCount (i + 1)) ∨ Awaited i k s := by
    intro s hattached hgot
    by_cases hdone : s.canceled = true ∨ k < s.itemCount (i + 1)
    · exact Or.inl hdone
    · rw [not_or, Bool.not_eq_true, not_lt] at hdone
      exact Or.inr ⟨hdone.1, hattached, hgot, hdone.2⟩
  -- a step leads to the goal, or the item is still awaited
  have hnext : ∀ s s' : StreamPipeline α, Reached build g s → Awaited i k s → Step build g s s' →
      (s'.canceled = true ∨ k < s'.itemCount (i + 1)) ∨ Awaited i k s' ∧ Sound g s' := by
    intro s s' hs hp hstep
    obtain ⟨hlength, hgrows⟩ := grows_step hstep
    refine (hcases s' (hp.attached.trans_le hlength) (hp.got.trans_le (hgrows i))).imp_right fun hp' => ?_
    exact ⟨hp', reached_sound (hs.step hstep) hp'.canceled⟩
  have hawaited : run.LeadsTo (Awaited i k) fun s => s.canceled = true ∨ k < s.itemCount (i + 1) := by
    refine (pool α build).leadsTo fair (work · i) (workRank i k) (fun _ _ => acts_or_grows)
      (fun s hs hp => ?_) (fun a s s' hs hp hwork hacts => ?_)
      (fun a s s' hs hp hwork hstep _ hmem => ?_)
    · have h := reached_sound hs hp.canceled
      obtain ⟨a, hwork⟩ := hp.exists_work h
      obtain ⟨hmem, -⟩ := mem_work hwork
      obtain ⟨s₁, new, hran, -⟩ := goes_of_mem build h hp.canceled hmem
      exact ⟨a, hmem, hwork, s₁, new, hran⟩
    · exact (hnext s s' hs hp (Acts.step hacts)).imp_right fun hp' =>
        ⟨hp'.1, hp'.1.nearer hp'.2 hwork hacts⟩
    · exact (hnext s s' hs hp hstep).imp_right fun hp' =>
        ⟨hp'.1, hp.others hp'.2 hwork ((grows_step hstep).2 (i + 1)) hmem⟩
  rintro n ⟨hattached, hgot⟩
  rcases hcases _ hattached hgot with hdone | hp
  · exact ⟨n, le_rfl, hdone⟩
  · exact hawaited n hp

/-- So what the producer has brought in arrives at every stage. -/
theorem items_leadsTo {run : InfiniteRun (fun s : StreamPipeline α => s = {}) (Step build g)}
    (fair : ∀ activity, run.WeaklyFair (Acts build activity)) (k : Nat) : ∀ i,
    run.LeadsTo (fun s => i ≤ s.length ∧ k < s.itemCount 0) fun s => s.canceled = true ∨ k < s.itemCount i
  | 0 => .of_imp fun s _ h => Or.inr h.2
  | i + 1 => by
    rintro n ⟨hattached, hgot⟩
    obtain ⟨m, hnm, hcanceled | hm⟩ := items_leadsTo fair k i n ⟨Nat.le_of_succ_le hattached, hgot⟩
    · exact ⟨m, hnm, Or.inl hcanceled⟩
    · have hattached' := run.stable (P := fun s => i < s.length)
        (fun s s' _ h hs => h.trans_le (grows_step hs).1) hnm hattached
      obtain ⟨l, hml, hl⟩ := item_leadsTo fair i k m ⟨hattached', hm⟩
      exact ⟨l, hnm.trans hml, hl⟩

/-- In every run without an end in which no activity that can take a step is put off for
    ever, unless the last stream is reset before: each value that was sent arrives at every
    stage that was attached, at its place, as what the functions before it make of it; and
    when the producer was reset, the end arrives too, after all values. -/
theorem stream_progress (build : Build) (g : ∀ i, α i → α (i + 1))
    (run : InfiniteRun (fun s : StreamPipeline α => s = {}) (Step build g))
    (fair : ∀ activity, run.WeaklyFair (Acts build activity)) (i : Nat) :
    (∀ k, run.LeadsTo (fun s => i ≤ s.length ∧ k < s.sent.length)
      fun s => s.canceled = true ∨ ∃ v, s.sent[k]? = some v ∧
        (s.stages i).arrived[k]? = some (compose g i v)) ∧
    run.LeadsTo (fun s => i ≤ s.length ∧ s.closed = true)
      fun s => s.canceled = true ∨ ((s.stages i).state.isFinished = true ∧
        (s.stages i).arrived = s.sent.map (compose g i)) := by
  refine ⟨fun k => ?_, ?_⟩
  · rintro n ⟨hattached, hsent⟩
    obtain ⟨m, hnm, hcanceled | hm⟩ := items_leadsTo fair k i n ⟨hattached, Nat.lt_add_right _ hsent⟩
    · exact ⟨m, hnm, Or.inl hcanceled⟩
    have hsent' := run.stable (P := fun s => k < s.sent.length)
      (fun s s' _ h hs => h.trans_le (sent_step hs).1.length_le) hnm hsent
    refine ⟨m, hnm, ?_⟩
    by_cases hcanceled : (run.state m).canceled = true
    · exact Or.inl hcanceled
    have hsound := reached_sound (run.reachable m) (by simpa using hcanceled)
    -- the values that have arrived are the first of what is expected, and the end comes after all
    have hlength : k < ((run.state m).stages i).arrived.length := by
      cases hfinished : ((run.state m).stages i).state.isFinished with
      | false =>
        rw [itemCount, hfinished] at hm
        exact hm
      | true =>
        rw [(hsound.of_finished i hfinished).2, expected, List.length_map]
        exact hsent'
    obtain ⟨rest, hrest⟩ := hsound.arrived_isPrefix i
    have harrived := congrArg (fun vs => vs[k]?) hrest
    simp only [expected, List.getElem?_append_left hlength, List.getElem?_map] at harrived
    rw [List.getElem?_eq_getElem hsent'] at harrived
    exact Or.inr ⟨_, List.getElem?_eq_getElem hsent', harrived⟩
  · rintro n ⟨hattached, hclosed⟩
    by_cases hcanceled : (run.state n).canceled = true
    · exact ⟨n, le_rfl, Or.inl hcanceled⟩
    have hend : (run.state n).sent.length < (run.state n).itemCount 0 := by
      have hsound := reached_sound (run.reachable n) (by simpa using hcanceled)
      rw [itemCount, hsound.closed, hclosed]
      exact Nat.lt_succ_self _
    obtain ⟨m, hnm, hcanceled | hm⟩ := items_leadsTo fair _ i n ⟨hattached, hend⟩
    · exact ⟨m, hnm, Or.inl hcanceled⟩
    obtain ⟨hclosed', hsent⟩ := run.stable
      (P := fun s => s.closed = true ∧ s.sent = (run.state n).sent)
      (fun s s' _ h hs => ⟨((sent_step hs).2 h.1).1, ((sent_step hs).2 h.1).2.trans h.2⟩) hnm
      ⟨hclosed, rfl⟩
    refine ⟨m, hnm, ?_⟩
    by_cases hcanceled : (run.state m).canceled = true
    · exact Or.inl hcanceled
    have hsound := reached_sound (run.reachable m) (by simpa using hcanceled)
    -- so many items can have arrived only if the end has
    have hfinished : ((run.state m).stages i).state.isFinished = true := by
      cases hopen : ((run.state m).stages i).state.isFinished with
      | true => rfl
      | false =>
        have hlength := (hsound.arrived_isPrefix i).length_le
        rw [expected, List.length_map, hsent] at hlength
        rw [itemCount, hopen] at hm
        exact absurd hm (Nat.not_lt.2 hlength)
    exact Or.inr ⟨hfinished, (hsound.of_finished i hfinished).2⟩

/-- A stage is attached to a stream of numbers, and one is sent. Nothing has left the first
    state by then. -/
theorem stream_progress_one : ∃ (run : InfiniteRun (fun s : StreamPipeline fun _ => Nat => s = {})
    (Step .debug fun _ n => n + 1)) (n : Nat), ((run.state n).stages 1).arrived = [] ∧
    ∃ m ≥ n, (run.state m).canceled = true ∨ ∃ v, (run.state m).sent[0]? = some v ∧
      ((run.state m).stages 1).arrived[0]? = some (v + 1) := by
  have h₀ : Reached .debug (fun _ n => n + 1) ({} : StreamPipeline fun _ => Nat) := .init rfl
  have h₁ := h₀.step (.attach _ rfl rfl (by simp) _ _ rfl)
  have h₂ := h₁.step (.send _ 5 rfl _ _ rfl)
  obtain ⟨run₂, n, hn⟩ := InfiniteRun.exists_rests h₂
  obtain ⟨run, m, hsame, hnm, hm⟩ := hn.goOn (.tail (.tail (.tail (.tail (.tail (.tail .refl
    (.act _ _ _ _ _ ⟨[], [], rfl, rfl⟩ rfl)) (.act _ _ _ _ _ ⟨[], [], rfl, rfl⟩ rfl)) (.act _ _ _ _ _ ⟨[], [], rfl, rfl⟩ rfl))
    (.act _ _ _ _ _ ⟨[], [], rfl, rfl⟩ rfl)) (.act _ _ _ _ _ ⟨[], [], rfl, rfl⟩ rfl))
    (.act _ _ _ _ _ ⟨[], [], rfl, rfl⟩ rfl))
  have hfair : ∀ activity, run.WeaklyFair (Acts .debug activity) :=
    fun activity => hm.weaklyFair (Pool.not_acts rfl activity)
  have hstate := (hsame n le_rfl).trans (hn n le_rfl)
  obtain ⟨hvalues, -⟩ := stream_progress .debug (fun _ n => n + 1) run hfair 1
  exact ⟨run, n, by rw [hstate]; rfl, hvalues 0 n (by rw [hstate]; exact ⟨le_rfl, Nat.one_pos⟩)⟩

end StreamPipeline

end HotelPms

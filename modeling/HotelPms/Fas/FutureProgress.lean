import HotelPms.Fas.FutureChain
import HotelPms.Lib.PoolProgress

/- Every future of a chain becomes ready.

   Activities are scheduled as `Lib/PoolProgress.lean` has them. Below a state that is set, a continuation is on its way to setting the
   next one: it is stored, and some activity is about to take it, or one activity is at its
   stage. The rank of that activity counts the steps that are left to it, whatever the others
   do meanwhile. `future_progress` follows the states of the chain. -/
namespace HotelPms
open Lib

/-- How many steps an activity takes until its stage is done, at most. -/
def Activity.rank {α : Nat → Type} : Activity α → Nat
  | .executeNext _ => 6
  | .continueWith _ _ => 5
  | .extract _ _ => 4
  | .job _ _ _ => 3
  | .invoke _ _ _ => 2
  | .cancelNext _ => 1
  | .setValue _ _ => 1

namespace FutureChain

variable {α : Nat → Type} {build : Build} {g : ∀ i, α i → α (i + 1)} {s s' : FutureChain α}
  {a b : Activity α} {new : List (Activity α)} {i : Nat}

/-- The activities of a chain, and what they do. -/
def pool (α : Nat → Type) (build : Build) : Pool (FutureChain α) (Activity α) where
  activities := FutureChain.activities
  withActivities s activities := { s with activities }
  runs a s s₁ new := s.run build a = .ok (s₁, new)
  activities_with _ _ := rfl

/-- The step of one activity. -/
def Acts (build : Build) (a : Activity α) : FutureChain α → FutureChain α → Prop :=
  (pool α build).Acts a

theorem Acts.ran (h : Acts build a s s') : ∃ s₁ new activities, Replaces a new s.activities activities ∧
    s.run build a = .ok (s₁, new) ∧ s' = { s₁ with activities } := h

/-- Who leads to the state after `i` being set: who takes the continuation if it is stored,
    and who is at its stage. -/
def stageWork (s : FutureChain α) (i : Nat) : List (Activity α) :=
  (s.states i).cont.toList.map (fun _ => .executeNext i) ++ s.activities.filter fun a => a.stage == some i

/-- One activity leads to the state after `i` being set. -/
def Awaited (i : Nat) (s : FutureChain α) : Prop := ∃ a ∈ s.activities, s.stageWork i = [a]

def workRank (i : Nat) (s : FutureChain α) : Nat := ((s.stageWork i).map Activity.rank).sum

theorem Sound.awaited (h : Sound g s) (hlt : i < s.length) (hready : (s.states i).isReady = true)
    (hnext : (s.states (i + 1)).isReady = false) : s.Awaited i := by
  have honce := h.once i
  rw [if_pos hlt, hnext, Bool.toNat_false, Nat.add_zero, atStage, List.countP_eq_length_filter] at honce
  cases hcont : (s.states i).cont with
  | some cont =>
    have hnone : s.activities.filter (fun a => a.stage == some i) = [] := by
      rw [hcont, Option.toList_some, List.length_singleton] at honce
      exact List.eq_nil_of_length_eq_zero (by omega)
    exact ⟨_, h.taken i hready (by simp [hcont]), by simp [stageWork, hcont, hnone]⟩
  | none =>
    rw [hcont, Option.toList_none, List.length_nil, Nat.add_zero] at honce
    obtain ⟨a, ha⟩ := List.length_eq_one_iff.1 honce
    have hmem : a ∈ s.activities.filter fun a => a.stage == some i := by simp [ha]
    exact ⟨a, (List.mem_filter.1 hmem).1, by simp [stageWork, hcont, ha]⟩

/-! ## One step -/

theorem of_run_executeNext {s₁ : FutureChain α} (ran : s.run build (.executeNext i) = .ok (s₁, new)) :
    s₁ = s.setState i { s.states i with cont := none } ∧
      new = (s.states i).cont.toList.map (.continueWith i) := by
  obtain ⟨⟨cont, state⟩, hnext, ran⟩ := Except.bind_eq_ok.1 ran
  obtain ⟨rfl, rfl⟩ := FutureState.of_next hnext
  cases ran
  exact ⟨rfl, rfl⟩

/-- An activity at a stage goes on there, with less to do, or sets the next state. -/
theorem of_run_stage {s₁ : FutureChain α} (hstage : a.stage = some i)
    (ran : s.run build a = .ok (s₁, new)) : s₁.length = s.length ∧
      (∀ k, (s₁.states k).cont = (s.states k).cont) ∧
      ((∃ next, new = [next] ∧ next.stage = some i ∧ next.rank < a.rank) ∨
        new = [.executeNext (i + 1)] ∧ (s₁.states (i + 1)).isReady = true) := by
  cases a with
  | executeNext j => cases hstage
  | continueWith j cont =>
    cases hstage
    cases ran
    refine ⟨rfl, fun _ => rfl, Or.inl ⟨_, rfl, ?_, ?_⟩⟩ <;> split <;> simp [Activity.stage, Activity.rank]
  | extract j cont =>
    cases hstage
    obtain ⟨val, -, ran⟩ := Except.bind_eq_ok.1 ran
    cases ran
    exact ⟨rfl, fun _ => rfl, Or.inl ⟨_, rfl, rfl, by simp [Activity.rank]⟩⟩
  | job j cont val =>
    cases hstage
    cases ran
    refine ⟨rfl, fun _ => rfl, Or.inl ⟨_, rfl, ?_, ?_⟩⟩ <;> split <;> simp [Activity.stage, Activity.rank]
  | invoke j cont val =>
    cases hstage
    cases ran
    exact ⟨rfl, fun _ => rfl, Or.inl ⟨_, rfl, rfl, by simp [Activity.rank]⟩⟩
  | cancelNext j =>
    cases hstage
    obtain ⟨state, hset, ran⟩ := Except.bind_eq_ok.1 ran
    obtain rfl := FutureState.of_setCanceled hset
    cases ran
    exact ⟨rfl, setState_value s _ _, Or.inr ⟨rfl, by rw [states_setState]; rfl⟩⟩
  | setValue j value =>
    cases hstage
    obtain ⟨state, hset, ran⟩ := Except.bind_eq_ok.1 ran
    obtain rfl := FutureState.of_setValue hset
    cases ran
    exact ⟨rfl, setState_value s _ _, Or.inr ⟨rfl, by rw [states_setState]; rfl⟩⟩

theorem stageWork_congr (hcont : (s'.states i).cont.isSome = (s.states i).cont.isSome)
    (hfilter : s'.activities.filter (fun a => a.stage == some i) =
      s.activities.filter fun a => a.stage == some i) : s'.stageWork i = s.stageWork i := by
  unfold stageWork
  rw [hfilter]
  congr 1
  cases hcont' : (s'.states i).cont <;> cases hcont'' : (s.states i).cont <;> simp_all

theorem acts_worker (hwork : s.stageWork i = [a]) (acts : Acts build a s s') :
    (s'.states (i + 1)).isReady = true ∨ ∃ a' ∈ s'.activities, s'.stageWork i = [a'] ∧ a'.rank < a.rank := by
  obtain ⟨s₁, new, activities, replaces, ran, rfl⟩ := acts.ran
  cases hcont : (s.states i).cont with
  | some cont =>
    rw [stageWork, hcont, Option.toList_some, List.map_singleton, List.singleton_append] at hwork
    obtain ⟨rfl, hnone⟩ := List.cons.inj hwork
    obtain ⟨rfl, rfl⟩ := of_run_executeNext ran
    have hfilter := replaces.filter_of_not (p := fun a => a.stage == some i) rfl (Or.inl hnone)
    rw [hnone, hcont] at hfilter
    refine Or.inr ⟨.continueWith i cont, replaces.mem_new (by simp [hcont]), ?_, by simp [Activity.rank]⟩
    simpa [stageWork, Activity.stage] using hfilter
  | none =>
    rw [stageWork, hcont, Option.toList_none, List.map_nil, List.nil_append] at hwork
    have hstage : (a.stage == some i) = true := by
      have hmem : a ∈ s.activities.filter fun a => a.stage == some i := by simp [hwork]
      exact (List.mem_filter.1 hmem).2
    obtain ⟨-, hconts, ⟨next, rfl, hnext, hrank⟩ | ⟨-, hready⟩⟩ :=
      of_run_stage (by simpa using hstage) ran
    · have hfilter := replaces.filter_self (p := fun a => a.stage == some i) hstage hwork
      refine Or.inr ⟨next, replaces.mem_new List.mem_cons_self, ?_, hrank⟩
      simpa [stageWork, (hconts i).trans hcont, hnext] using hfilter
    · exact Or.inl hready

theorem mem_stageWork_of_stage (ha : a ∈ s.activities) (hstage : a.stage = some i) : a ∈ s.stageWork i :=
  List.mem_append_right _ (List.mem_filter.2 ⟨ha, by simp [hstage]⟩)

/-- The steps of all other activities leave it alone. -/
theorem acts_other (hwork : s.stageWork i = [a]) (acts : Acts build b s s') (hne : b ≠ a) :
    s'.stageWork i = [a] := by
  obtain ⟨s₁, new, activities, replaces, ran, rfl⟩ := acts.ran
  have hnot : b ∉ s.stageWork i := by
    rw [hwork, List.mem_singleton]
    exact hne
  have hb : (b.stage == some i) = false := by
    rw [beq_eq_false_iff_ne]
    exact fun hstage => hnot (mem_stageWork_of_stage replaces.mem hstage)
  have hfilter : (∀ c ∈ new, c.stage ≠ some i) → activities.filter (fun a => a.stage == some i) =
      s.activities.filter fun a => a.stage == some i := by
    intro hnew
    have hnone : new.filter (fun a => a.stage == some i) = [] :=
      List.filter_eq_nil_iff.2 fun c hc => by simpa using hnew c hc
    rw [replaces.filter_of_not hb (Or.inr hnone), hnone, List.append_nil]
  rw [← hwork]
  cases hstage : b.stage with
  | some j =>
    have hji : j ≠ i := by
      rintro rfl
      simp [hstage] at hb
    obtain ⟨-, hconts, ⟨next, rfl, hnext, -⟩ | ⟨rfl, -⟩⟩ := of_run_stage hstage ran
    · exact stageWork_congr (congrArg _ (hconts i)) (hfilter (by simp [hnext, hji]))
    · exact stageWork_congr (congrArg _ (hconts i)) (hfilter (by simp [Activity.stage]))
  | none =>
    cases b with
    | executeNext j =>
      obtain ⟨rfl, rfl⟩ := of_run_executeNext ran
      by_cases hji : j = i
      · -- nothing is stored, or this activity would lead on
        subst hji
        have hcont : (s.states j).cont = none := by
          by_contra hcont
          obtain ⟨cont, hcont⟩ := Option.ne_none_iff_exists'.1 hcont
          exact hnot (by simp [stageWork, hcont])
        exact stageWork_congr (by simp [hcont]) (hfilter (by simp [hcont]))
      · refine stageWork_congr ?_ (hfilter fun c hc => ?_)
        · dsimp only
          rw [states_setState_of_ne s (Ne.symm hji)]
        · obtain ⟨cont, -, rfl⟩ := List.mem_map.1 hc
          simpa [Activity.stage] using hji
    | _ => cases hstage

theorem stageWork_call (hlt : i < s.length) (hs : Step build g s s') (hno : ∀ b, ¬Acts build b s s') :
    s'.stageWork i = s.stageWork i := by
  cases hs with
  | resolve v unresolved state set =>
    obtain rfl := FutureState.of_setValue set
    exact stageWork_congr (congrArg _ (setState_value s 0 _ i)) (by simp [Activity.stage])
  | attach valid cont state chained =>
    refine stageWork_congr ?_ ?_
    · dsimp only
      rw [states_setState_of_ne s hlt.ne]
    · rw [List.filter_append, List.append_right_eq_self, List.filter_eq_nil_iff]
      intro c hc
      obtain ⟨cont, -, rfl⟩ := List.mem_map.1 hc
      simpa [Activity.stage] using hlt.ne'
  | reset => rfl
  | act s₁ b new activities replaces ran => exact absurd ⟨s₁, new, activities, replaces, ran, rfl⟩ (hno b)

theorem acts_or_grows (hs : Step build g s s') :
    (∃ a, Acts build a s s') ∨ s.activities ⊆ s'.activities := by
  cases hs with
  | resolve | attach => exact Or.inr (List.subset_append_left _ _)
  | reset => exact Or.inr (List.Subset.refl _)
  | act s₁ activity new activities replaces ran =>
    exact Or.inl ⟨activity, s₁, new, activities, replaces, ran, rfl⟩

theorem stageWork_others (hlt : i < s.length) (hwork : s.stageWork i = [a]) (hs : Step build g s s')
    (hacts : ¬Acts build a s s') : s'.stageWork i = [a] := by
  by_cases hother : ∃ b, Acts build b s s'
  · obtain ⟨b, hb⟩ := hother
    refine acts_other hwork hb ?_
    rintro rfl
    exact hacts hb
  · exact (stageWork_call hlt hs fun b hb => hother ⟨b, hb⟩).trans hwork

theorem Acts.step (h : Acts build a s s') : Step build g s s' := by
  obtain ⟨s₁, new, activities, replaces, ran, rfl⟩ := h.ran
  exact .act s s₁ a new activities replaces ran

/-! ## Runs without an end -/

theorem length_step (hs : Step build g s s') : s.length ≤ s'.length := by
  cases hs with
  | resolve | reset => exact le_rfl
  | attach => exact Nat.le_succ _
  | act s₁ activity new activities replaces ran =>
    refine le_of_eq ?_
    cases hstage : activity.stage with
    | none =>
      cases activity with
      | executeNext j =>
        obtain ⟨rfl, -⟩ := of_run_executeNext ran
        rfl
      | _ => cases hstage
    | some j => exact (of_run_stage hstage ran).1.symm

/-- A continuation that was attached at a state that is set sets the next one. -/
theorem ready_leadsTo {run : InfiniteRun (fun s : FutureChain α => s = {}) (Step build g)}
    (fair : ∀ activity, run.WeaklyFair (Acts build activity)) (i : Nat) :
    run.LeadsTo (fun s => i < s.length ∧ (s.states i).isReady = true)
      fun s => (s.states (i + 1)).isReady = true := by
  have hawaited : run.LeadsTo (fun s => i < s.length ∧ s.Awaited i)
      fun s => (s.states (i + 1)).isReady = true := by
    refine (pool α build).leadsTo fair (stageWork · i) (workRank i) (fun _ _ => acts_or_grows) ?_ ?_ ?_
    · rintro s hs ⟨-, a, hmem, hwork⟩
      obtain ⟨s₁, new, hran, -⟩ := sound_act build (reached_sound hs) hmem
      exact ⟨a, hmem, hwork, s₁, new, hran⟩
    · rintro a s s' - ⟨hlt, -⟩ hwork hacts
      refine (acts_worker hwork hacts).imp_right fun ⟨a', hmem', hwork', hless⟩ => ?_
      refine ⟨⟨lt_of_lt_of_le hlt (length_step (Acts.step (g := g) hacts)), a', hmem', hwork'⟩, ?_⟩
      simpa [workRank, hwork, hwork'] using hless
    · rintro a s s' - ⟨hlt, -⟩ hwork hs hacts hmem
      have hwork' := stageWork_others hlt hwork hs hacts
      refine Or.inr ⟨⟨lt_of_lt_of_le hlt (length_step hs), a, hmem, hwork'⟩, Or.inr ?_⟩
      rw [workRank, workRank, hwork', hwork]
      exact ⟨rfl, rfl⟩
  rintro n ⟨hlt, hready⟩
  cases hnext : ((run.state n).states (i + 1)).isReady with
  | true => exact ⟨n, le_rfl, hnext⟩
  | false => exact hawaited n ⟨hlt, (reached_sound (run.reachable n)).awaited hlt hready hnext⟩

/-- In every run without an end in which no activity that can take a step is put off for
    ever: once the promise was resolved, every future of the chain becomes ready, whenever its
    continuation was attached. It holds what the functions before it make of the value of the
    promise, unless the last future was reset by then. -/
theorem future_progress (build : Build) (g : ∀ i, α i → α (i + 1))
    (run : InfiniteRun (fun s : FutureChain α => s = {}) (Step build g))
    (fair : ∀ activity, run.WeaklyFair (Acts build activity)) (i : Nat) :
    run.LeadsTo (fun s => s.resolved.isSome = true ∧ i ≤ s.length)
      fun s => (s.states i).isReady = true ∧ (s.canceled = false →
        ∃ v, s.resolved = some v ∧ (s.states i).value = .value (compose g i v)) := by
  have hready : run.LeadsTo (fun s => s.resolved.isSome = true ∧ i ≤ s.length)
      fun s => (s.states i).isReady = true := by
    induction i with
    | zero => exact .of_imp fun s hs hp => (reached_sound hs).promise.trans hp.1
    | succ i ih =>
      rintro n ⟨hresolved, hlt⟩
      obtain ⟨m, hnm, hm⟩ := ih n ⟨hresolved, Nat.le_of_succ_le hlt⟩
      have hlt' : i < (run.state m).length :=
        run.stable (P := fun s => i < s.length) (fun s s' _ h hs => lt_of_lt_of_le h (length_step hs)) hnm hlt
      obtain ⟨k, hmk, hk⟩ := ready_leadsTo fair i m ⟨hlt', hm⟩
      exact ⟨k, hnm.trans hmk, hk⟩
  refine hready.trans (.of_imp fun s hs hp => ⟨hp, fun hcanceled => ?_⟩)
  have hsound := reached_sound hs
  cases hvalue : (s.states i).value with
  | empty => simp [FutureState.isReady, hvalue] at hp
  | canceled => simp [hsound.canceled i hvalue] at hcanceled
  | value a =>
    obtain ⟨v, hv, rfl⟩ := hsound.values i a hvalue
    exact ⟨v, hv, rfl⟩

/-- A function is attached to the future of a number, and the promise is resolved. Nothing has
    become ready by then but the state of the promise. -/
theorem future_progress_one : ∃ (run : InfiniteRun (fun s : FutureChain fun _ => Nat => s = {})
    (Step .debug fun _ n => n + 1)) (n : Nat), ((run.state n).states 1).isReady = false ∧
    ∃ m ≥ n, ((run.state m).states 1).isReady = true := by
  have h₀ : Reached .debug (fun _ n => n + 1) ({} : FutureChain fun _ => Nat) := .init rfl
  have h₁ := h₀.step (.attach _ rfl _ _ rfl)
  have h₂ := h₁.step (.resolve _ 5 rfl _ rfl)
  obtain ⟨run₂, n, hn⟩ := InfiniteRun.exists_rests h₂
  obtain ⟨run, m, hsame, hnm, hm⟩ := hn.goOn (.tail (.tail (.tail (.tail (.tail (.tail (.tail .refl
    (.act _ _ _ _ _ ⟨[], [], rfl, rfl⟩ rfl)) (.act _ _ _ _ _ ⟨[], [], rfl, rfl⟩ rfl))
    (.act _ _ _ _ _ ⟨[], [], rfl, rfl⟩ rfl)) (.act _ _ _ _ _ ⟨[], [], rfl, rfl⟩ rfl))
    (.act _ _ _ _ _ ⟨[], [], rfl, rfl⟩ rfl)) (.act _ _ _ _ _ ⟨[], [], rfl, rfl⟩ rfl))
    (.act _ _ _ _ _ ⟨[], [], rfl, rfl⟩ rfl))
  have hfair : ∀ activity, run.WeaklyFair (Acts .debug activity) :=
    fun activity => hm.weaklyFair (Pool.not_acts rfl activity)
  have hstate := (hsame n le_rfl).trans (hn n le_rfl)
  obtain ⟨k, hnk, hready, -⟩ := future_progress .debug (fun _ n => n + 1) run hfair 1 n
    (by rw [hstate]; exact ⟨rfl, le_rfl⟩)
  exact ⟨run, n, by rw [hstate]; rfl, k, hnk, hready⟩

end FutureChain

end HotelPms

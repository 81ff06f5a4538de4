import HotelPms.Lib.Fair
import HotelPms.Lib.Pool

/- Progress of a system of activities.

   A `Pool` says which activities a state holds and what the step of one of them does.
   Threads and executors are trusted with one thing: an activity that can take a step is not
   put off for ever. Often a goal waits for one activity, whoever it is at the moment, and
   other steps only get between its own. `Pool.leadsTo` is the rule for such goals. -/
namespace HotelPms.Lib

/-- The activities of a state, the state with others, and the steps of an activity: the
    state it leaves, in which it is still there, and what it goes on as. -/
structure Pool (σ A : Type*) where
  activities : σ → List A
  withActivities : σ → List A → σ
  runs : A → σ → σ → List A → Prop
  activities_with : ∀ s as, activities (withActivities s as) = as

namespace Pool

variable {σ A : Type*}

/-- The step of one activity. -/
def Acts (pool : Pool σ A) (a : A) (s s' : σ) : Prop :=
  ∃ s₁ new activities, Replaces a new (pool.activities s) activities ∧ pool.runs a s s₁ new ∧
    s' = pool.withActivities s₁ activities

variable {pool : Pool σ A} {a b : A} {s s' : σ}

theorem exists_acts (hmem : a ∈ pool.activities s) {s₁ : σ} {new : List A} (ran : pool.runs a s s₁ new) :
    ∃ s', pool.Acts a s s' := by
  obtain ⟨before, after, hsplit⟩ := List.append_of_mem hmem
  exact ⟨_, s₁, new, before ++ new ++ after, ⟨before, after, hsplit, rfl⟩, ran, rfl⟩

theorem not_acts (h : pool.activities s = []) (a : A) (s' : σ) : ¬pool.Acts a s s' := by
  rintro ⟨s₁, new, activities, replaces, -⟩
  exact absurd replaces.mem (h ▸ List.not_mem_nil)

theorem Acts.mem_of_ne (h : pool.Acts b s s') (hmem : a ∈ pool.activities s) (hne : b ≠ a) :
    a ∈ pool.activities s' := by
  obtain ⟨s₁, new, activities, replaces, -, rfl⟩ := h
  rw [pool.activities_with]
  exact (replaces.eq_or_mem hmem).resolve_left (Ne.symm hne)

variable {init : σ → Prop} {step : σ → σ → Prop} {run : InfiniteRun init step} {P Q : σ → Prop}

/-- The rule for a goal that one activity works on: its steps lead to the goal or nearer to
    it, and no other step leads away or has another activity work. -/
theorem leadsTo {ρ : Type*} [LT ρ] [WellFoundedLT ρ] (fair : ∀ a, run.WeaklyFair (pool.Acts a))
    (work : σ → List A) (rank : σ → ρ)
    (steps : ∀ s s', step s s' → (∃ a, pool.Acts a s s') ∨ pool.activities s ⊆ pool.activities s')
    (goes : ∀ s, Reachable init step s → P s →
      ∃ a ∈ pool.activities s, work s = [a] ∧ ∃ s₁ new, pool.runs a s s₁ new)
    (nearer : ∀ a s s', Reachable init step s → P s → work s = [a] → pool.Acts a s s' →
      Q s' ∨ P s' ∧ rank s' < rank s)
    (others : ∀ a s s', Reachable init step s → P s → work s = [a] → step s s' → ¬pool.Acts a s s' →
      a ∈ pool.activities s' → Q s' ∨ P s' ∧ (rank s' < rank s ∨ rank s' = rank s ∧ work s' = work s)) :
    run.LeadsTo P Q := by
  have hfair : ∀ as : List A, run.WeaklyFair fun s s' => ∃ a, as = [a] ∧ pool.Acts a s s' := by
    intro as n hn
    obtain ⟨-, a, rfl, -⟩ := hn n le_rfl
    obtain ⟨m, hnm, hm⟩ := fair a n fun m hnm => by
      obtain ⟨s', b, hb, hacts⟩ := hn m hnm
      cases hb
      exact ⟨s', hacts⟩
    exact ⟨m, hnm, a, rfl, hm⟩
  refine .of_rank hfair rank work ?_ ?_ ?_
  · intro s s' hs hp hstep
    obtain ⟨a, hmem, hwork, -⟩ := goes s hs hp
    by_cases hacts : pool.Acts a s s'
    · exact (nearer a s s' hs hp hwork hacts).imp_right fun hp' => ⟨hp'.1, Or.inl hp'.2⟩
    · refine others a s s' hs hp hwork hstep hacts ?_
      rcases steps s s' hstep with ⟨b, hb⟩ | hsub
      · refine hb.mem_of_ne hmem ?_
        rintro rfl
        exact hacts hb
      · exact hsub hmem
  · intro s hs hp
    obtain ⟨a, hmem, hwork, s₁, new, ran⟩ := goes s hs hp
    obtain ⟨s', hacts⟩ := exists_acts hmem ran
    exact ⟨s', a, hwork, hacts⟩
  · rintro s s' hs hp ⟨a, hwork, hacts⟩
    exact (nearer a s s' hs hp hwork hacts).imp_right And.right

end Pool

end HotelPms.Lib

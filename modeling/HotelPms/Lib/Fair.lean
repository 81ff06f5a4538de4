import HotelPms.Lib.Run

/- Runs without an end, and what happens in them sooner or later.

   At each time a run takes a step, or nothing happens. An action is weakly fair in a run if
   it is not put off for ever while it stays possible, and strongly fair if it is not put off
   for ever while it is possible again and again. `LeadsTo.of_rank` is the rule that proofs
   of progress use: from every state on the way some fair action is possible and brings the
   goal nearer, and no other step takes it further away. `LeadsTo.of_strong` is the rule for
   an action that is possible from time to time only. -/
namespace HotelPms.Lib

variable {σ : Type*}

structure InfiniteRun (init : σ → Prop) (step : σ → σ → Prop) where
  state : Nat → σ
  starts : init (state 0)
  goes : ∀ n, state (n + 1) = state n ∨ step (state n) (state (n + 1))

namespace InfiniteRun

variable {init : σ → Prop} {step : σ → σ → Prop}

/-- An action that stays possible is taken. -/
def WeaklyFair (run : InfiniteRun init step) (action : σ → σ → Prop) : Prop :=
  ∀ n, (∀ m ≥ n, ∃ s', action (run.state m) s') → ∃ m ≥ n, action (run.state m) (run.state (m + 1))

/-- An action that is possible again and again is taken. -/
def StronglyFair (run : InfiniteRun init step) (action : σ → σ → Prop) : Prop :=
  ∀ n, (∀ m ≥ n, ∃ k ≥ m, ∃ s', action (run.state k) s') →
    ∃ m ≥ n, action (run.state m) (run.state (m + 1))

/-- Whenever `P` holds, `Q` holds then or later. -/
def LeadsTo (run : InfiniteRun init step) (P Q : σ → Prop) : Prop :=
  ∀ n, P (run.state n) → ∃ m ≥ n, Q (run.state m)

variable {run : InfiniteRun init step} {P Q R : σ → Prop}

theorem reachable (run : InfiniteRun init step) (n : Nat) : Reachable init step (run.state n) := by
  induction n with
  | zero => exact .init run.starts
  | succ n ih =>
    rcases run.goes n with hrests | hstep
    · rw [hrests]
      exact ih
    · exact ih.step hstep

theorem stable (run : InfiniteRun init step)
    (hkeep : ∀ s s', Reachable init step s → P s → step s s' → P s') {n m : Nat} (hnm : n ≤ m)
    (hn : P (run.state n)) : P (run.state m) := by
  induction hnm with
  | refl => exact hn
  | step _ ih =>
    rcases run.goes _ with hrests | hstep
    · rw [hrests]
      exact ih
    · exact hkeep _ _ (run.reachable _) ih hstep

theorem LeadsTo.of_imp (h : ∀ s, Reachable init step s → P s → Q s) : run.LeadsTo P Q :=
  fun n hn => ⟨n, le_rfl, h _ (run.reachable n) hn⟩

theorem LeadsTo.trans (hPQ : run.LeadsTo P Q) (hQR : run.LeadsTo Q R) : run.LeadsTo P R := by
  intro n hn
  obtain ⟨m, hnm, hm⟩ := hPQ n hn
  obtain ⟨k, hmk, hk⟩ := hQR m hm
  exact ⟨k, hnm.trans hmk, hk⟩

theorem ended_or_stable (run : InfiniteRun init step)
    (hkeep : ∀ s s', Reachable init step s → P s → step s s' → Q s' ∨ P s') {n : Nat}
    (hn : P (run.state n)) : (∃ m ≥ n, Q (run.state m)) ∨ ∀ m ≥ n, P (run.state m) := by
  by_cases hended : ∃ m ≥ n, Q (run.state m)
  · exact Or.inl hended
  · right
    intro m hnm
    induction hnm with
    | refl => exact hn
    | @step m hnm ih =>
      rcases run.goes m with hrests | hstep
      · rw [hrests]
        exact ih
      · rcases hkeep _ _ (run.reachable m) ih hstep with hQ | hP
        · exact absurd ⟨m + 1, Nat.le_succ_of_le hnm, hQ⟩ hended
        · exact hP

theorem LeadsTo.while_stable (h : run.LeadsTo P R)
    (hkeep : ∀ s s', Reachable init step s → P s → step s s' → Q s' ∨ P s') :
    run.LeadsTo P fun s => Q s ∨ P s ∧ R s := by
  intro n hn
  rcases run.ended_or_stable hkeep hn with ⟨m, hnm, hQ⟩ | hP
  · exact ⟨m, hnm, Or.inl hQ⟩
  · obtain ⟨m, hnm, hR⟩ := h n hn
    exact ⟨m, hnm, Or.inr ⟨hP m hnm, hR⟩⟩

/-- It is enough to come nearer and nearer. -/
theorem LeadsTo.of_nearer {ρ : Type*} [LT ρ] [WellFoundedLT ρ] (rank : σ → ρ)
    (h : ∀ n, P (run.state n) →
      ∃ m ≥ n, Q (run.state m) ∨ P (run.state m) ∧ rank (run.state m) < rank (run.state n)) :
    run.LeadsTo P Q := by
  intro n hn
  induction hrank : rank (run.state n) using WellFoundedLT.induction generalizing n with
  | ind r ih =>
    subst hrank
    obtain ⟨m, hnm, hQ | ⟨hP, hlt⟩⟩ := h n hn
    · exact ⟨m, hnm, hQ⟩
    · obtain ⟨k, hmk, hQ⟩ := ih _ hlt m hP rfl
      exact ⟨k, hnm.trans hmk, hQ⟩

/-- The rule of progress. In each state on the way one action is the helpful one: it is
    possible, and lowers the rank. Any other step lowers the rank too, or leaves it and
    the helpful action as they are. -/
theorem LeadsTo.of_rank {ι ρ : Type*} [LT ρ] [WellFoundedLT ρ] {action : ι → σ → σ → Prop}
    (fair : ∀ i, run.WeaklyFair (action i)) (rank : σ → ρ) (helpful : σ → ι)
    (keeps : ∀ s s', Reachable init step s → P s → step s s' →
      Q s' ∨ P s' ∧ (rank s' < rank s ∨ rank s' = rank s ∧ helpful s' = helpful s))
    (enabled : ∀ s, Reachable init step s → P s → ∃ s', action (helpful s) s s')
    (nearer : ∀ s s', Reachable init step s → P s → action (helpful s) s s' →
      Q s' ∨ rank s' < rank s) : run.LeadsTo P Q := by
  refine .of_nearer rank fun n hn => ?_
  have hkeep : ∀ s s', Reachable init step s →
      (P s ∧ rank s = rank (run.state n) ∧ helpful s = helpful (run.state n)) → step s s' →
      (Q s' ∨ P s' ∧ rank s' < rank (run.state n)) ∨
        (P s' ∧ rank s' = rank (run.state n) ∧ helpful s' = helpful (run.state n)) := by
    rintro s s' hs ⟨hp, hrank, hhelpful⟩ hstep
    rw [← hrank, ← hhelpful]
    rcases keeps s s' hs hp hstep with hQ | ⟨hp', hlt | ⟨hrank', hhelpful'⟩⟩
    · exact Or.inl (Or.inl hQ)
    · exact Or.inl (Or.inr ⟨hp', hlt⟩)
    · exact Or.inr ⟨hp', hrank', hhelpful'⟩
  rcases run.ended_or_stable hkeep ⟨hn, rfl, rfl⟩ with hdone | hsame
  · exact hdone
  · -- nothing changes, so the helpful action stays possible
    have henabled : ∀ m ≥ n, ∃ s', action (helpful (run.state n)) (run.state m) s' := by
      intro m hnm
      obtain ⟨hm, -, hhelpful⟩ := hsame m hnm
      exact hhelpful ▸ enabled _ (run.reachable m) hm
    obtain ⟨m, hnm, htaken⟩ := fair _ n henabled
    obtain ⟨hm, hrank, hhelpful⟩ := hsame m hnm
    have hnm' := Nat.le_succ_of_le hnm
    refine ⟨m + 1, hnm', ?_⟩
    exact (nearer _ _ (run.reachable m) hm (hhelpful ▸ htaken)).imp id
      fun hlt => ⟨(hsame _ hnm').1, hrank ▸ hlt⟩

/-- The rule for one action that stays possible until the goal is reached. -/
theorem LeadsTo.of_weak {ρ : Type*} [LT ρ] [WellFoundedLT ρ] {action : σ → σ → Prop}
    (fair : run.WeaklyFair action) (rank : σ → ρ)
    (keeps : ∀ s s', Reachable init step s → P s → ¬Q s → step s s' →
      Q s' ∨ P s' ∧ (rank s' < rank s ∨ rank s' = rank s))
    (enabled : ∀ s, Reachable init step s → P s → ¬Q s → ∃ s', action s s')
    (nearer : ∀ s s', Reachable init step s → P s → ¬Q s → action s s' → Q s' ∨ rank s' < rank s) :
    run.LeadsTo P Q := by
  have hrest : run.LeadsTo (fun s => P s ∧ ¬Q s) Q := by
    refine .of_rank (fun _ : Unit => fair) rank (fun _ => ()) ?_ ?_ ?_
    · rintro s s' hs ⟨hP, hQ⟩ hstep
      by_cases hQ' : Q s'
      · exact Or.inl hQ'
      · rcases keeps s s' hs hP hQ hstep with hdone | ⟨hP', hrank⟩
        · exact Or.inl hdone
        · exact Or.inr ⟨⟨hP', hQ'⟩, hrank.imp_right fun hsame => ⟨hsame, rfl⟩⟩
    · exact fun s hs hP => enabled s hs hP.1 hP.2
    · exact fun s s' hs hP => nearer s s' hs hP.1 hP.2
  intro n hn
  by_cases hQ : Q (run.state n)
  · exact ⟨n, le_rfl, hQ⟩
  · exact hrest n ⟨hn, hQ⟩

/-- The rule for one action that becomes possible from time to time, until the goal is reached. -/
theorem LeadsTo.of_strong {ρ : Type*} [LT ρ] [WellFoundedLT ρ] {action : σ → σ → Prop}
    (fair : run.StronglyFair action) (rank : σ → ρ)
    (keeps : ∀ s s', Reachable init step s → P s → step s s' →
      Q s' ∨ P s' ∧ (rank s' < rank s ∨ rank s' = rank s))
    (enabled : run.LeadsTo P fun s => Q s ∨ ∃ s', action s s')
    (nearer : ∀ s s', Reachable init step s → P s → action s s' → Q s' ∨ rank s' < rank s) :
    run.LeadsTo P Q := by
  refine .of_nearer rank fun n hn => ?_
  have hkeep : ∀ s s', Reachable init step s → (P s ∧ rank s = rank (run.state n)) → step s s' →
      (Q s' ∨ P s' ∧ rank s' < rank (run.state n)) ∨ (P s' ∧ rank s' = rank (run.state n)) := by
    rintro s s' hs ⟨hp, hrank⟩ hstep
    rw [← hrank]
    rcases keeps s s' hs hp hstep with hQ | ⟨hp', hlt | hrank'⟩
    · exact Or.inl (Or.inl hQ)
    · exact Or.inl (Or.inr ⟨hp', hlt⟩)
    · exact Or.inr ⟨hp', hrank'⟩
  by_contra hnever
  have hnot : ∀ m ≥ n, ¬Q (run.state m) := fun m hnm hQ => hnever ⟨m, hnm, Or.inl hQ⟩
  have hsame := (run.ended_or_stable hkeep ⟨hn, rfl⟩).resolve_left hnever
  obtain ⟨m, hnm, htaken⟩ := fair n fun m hnm => by
    obtain ⟨k, hmk, hQ | henabled⟩ := enabled m (hsame m hnm).1
    · exact absurd hQ (hnot k (hnm.trans hmk))
    · exact ⟨k, hmk, henabled⟩
  obtain ⟨hm, hrank⟩ := hsame m hnm
  have hnm' := Nat.le_succ_of_le hnm
  rcases nearer _ _ (run.reachable m) hm htaken with hQ | hlt
  · exact hnot _ hnm' hQ
  · exact hnever ⟨m + 1, hnm', Or.inr ⟨(hsame _ hnm').1, hrank ▸ hlt⟩⟩

/-- The rule for labelled steps: one fact about each of them. -/
theorem LeadsTo.of_labels {Λ ρ : Type*} [LT ρ] [WellFoundedLT ρ] {step : σ → Λ → σ → Prop}
    {run : InfiniteRun init fun s s' => ∃ label, step s label s'} {IsFair : Λ → Prop}
    (fair : ∀ label, IsFair label → run.WeaklyFair fun s s' => step s label s')
    (rank : σ → ρ) (helpful : σ → Λ) (hfair : ∀ s, IsFair (helpful s))
    (keeps : ∀ s label s', Reachable init (fun s s' => ∃ label, step s label s') s → P s →
      step s label s' → Q s' ∨ P s' ∧ (rank s' < rank s ∨
        rank s' = rank s ∧ helpful s' = helpful s ∧ label ≠ helpful s))
    (enabled : ∀ s, Reachable init (fun s s' => ∃ label, step s label s') s → P s →
      ∃ s', step s (helpful s) s') : run.LeadsTo P Q := by
  refine .of_rank (fun label : {label // IsFair label} => fair label label.2) rank
    (fun s => ⟨helpful s, hfair s⟩) ?_ enabled ?_
  · rintro s s' hs hp ⟨label, hstep⟩
    rcases keeps s label s' hs hp hstep with hQ | ⟨hp', hlt | ⟨hrank, hhelpful, -⟩⟩
    · exact Or.inl hQ
    · exact Or.inr ⟨hp', Or.inl hlt⟩
    · exact Or.inr ⟨hp', Or.inr ⟨hrank, Subtype.ext hhelpful⟩⟩
  · intro s s' hs hp hstep
    rcases keeps s _ s' hs hp hstep with hQ | ⟨-, hlt | ⟨-, -, hne⟩⟩
    · exact Or.inl hQ
    · exact Or.inr hlt
    · exact absurd rfl hne

/-! ## Runs that come to rest -/

/-- From then on nothing happens. -/
def Rests (run : InfiniteRun init step) (n : Nat) (s : σ) : Prop := ∀ m ≥ n, run.state m = s

variable {n : Nat} {s t : σ}

theorem Rests.oneMore (h : run.Rests n s) (hs : step s t) :
    ∃ run' : InfiniteRun init step, (∀ k ≤ n, run'.state k = run.state k) ∧ run'.Rests (n + 1) t := by
  refine ⟨⟨fun k => if k ≤ n then run.state k else t, ?_, fun k => ?_⟩, fun k hk => if_pos hk,
    fun k hk => if_neg (by omega)⟩
  · rw [if_pos (Nat.zero_le n)]
    exact run.starts
  · rcases Nat.lt_trichotomy k n with hlt | rfl | hgt
    · rw [if_pos hlt.le, if_pos (Nat.succ_le_of_lt hlt)]
      exact run.goes k
    · rw [if_pos le_rfl, if_neg (by omega), h k le_rfl]
      exact Or.inr hs
    · rw [if_neg (by omega), if_neg (by omega)]
      exact Or.inl rfl

theorem Rests.goOn (h : run.Rests n s) (hrun : Relation.ReflTransGen step s t) :
    ∃ (run' : InfiniteRun init step) (m : Nat), (∀ k ≤ n, run'.state k = run.state k) ∧ n ≤ m ∧
      run'.Rests m t := by
  induction hrun with
  | refl => exact ⟨run, n, fun _ _ => rfl, le_rfl, h⟩
  | tail _ hs ih =>
    obtain ⟨run', m, hsame, hnm, hrests⟩ := ih
    obtain ⟨run'', hsame', hrests'⟩ := hrests.oneMore hs
    exact ⟨run'', m + 1, fun k hk => (hsame' k (hk.trans hnm)).trans (hsame k hk),
      Nat.le_succ_of_le hnm, hrests'⟩

theorem exists_rests (h : Reachable init step s) :
    ∃ (run : InfiniteRun init step) (n : Nat), run.Rests n s := by
  induction h with
  | init h => exact ⟨⟨fun _ => _, h, fun _ => Or.inl rfl⟩, 0, fun _ _ => rfl⟩
  | step _ hs ih =>
    obtain ⟨run, n, hrests⟩ := ih
    obtain ⟨run', -, hrests'⟩ := hrests.oneMore hs
    exact ⟨run', n + 1, hrests'⟩

theorem Rests.weaklyFair (h : run.Rests n s) {action : σ → σ → Prop} (hnot : ∀ s', ¬action s s') :
    run.WeaklyFair action := by
  intro k hk
  obtain ⟨s', hs'⟩ := hk _ (le_max_left k n)
  rw [h _ (le_max_right k n)] at hs'
  exact absurd hs' (hnot s')

theorem Rests.stronglyFair (h : run.Rests n s) {action : σ → σ → Prop} (hnot : ∀ s', ¬action s s') :
    run.StronglyFair action := by
  intro k hk
  obtain ⟨m, hm, s', hs'⟩ := hk _ (le_max_left k n)
  rw [h m ((le_max_right k n).trans hm)] at hs'
  exact absurd hs' (hnot s')

end InfiniteRun

end HotelPms.Lib

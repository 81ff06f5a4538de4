import Mathlib

/- Runs of a step relation, and the induction every safety proof uses: what
   holds initially and is kept by each step holds in every reachable state. A
   simulation that is kept by each step relates every reachable state to one.
   `Trace` is a run of labelled steps. A history is a list that grows at its end. -/
namespace HotelPms.Lib

variable {σ : Type*}

/-- `s` can be reached from an initial state in finitely many steps. -/
inductive Reachable (init : σ → Prop) (step : σ → σ → Prop) : σ → Prop where
  | init {s : σ} : init s → Reachable init step s
  | step {s s' : σ} : Reachable init step s → step s s' → Reachable init step s'

variable {init : σ → Prop} {step : σ → σ → Prop}

theorem Reachable.invariant {I : σ → Prop} (hinit : ∀ s, init s → I s)
    (hstep : ∀ s s', I s → step s s' → I s') {s : σ} (h : Reachable init step s) : I s := by
  induction h with
  | init h => exact hinit _ h
  | step _ hs ih => exact hstep _ _ ih hs

/-- What a reachable state can go on to is reachable. -/
theorem Reachable.run {s s' : σ} (h : Reachable init step s) (hrun : Relation.ReflTransGen step s s') :
    Reachable init step s' := by
  induction hrun with
  | refl => exact h
  | tail _ hs ih => exact ih.step hs

/-- If every step is matched by one on the other side, or by none, every reachable state
    is related to a reachable one. -/
theorem Reachable.simulate {τ : Type*} {init' : τ → Prop} {step' : τ → τ → Prop} {R : σ → τ → Prop}
    (hinit : ∀ s, init s → ∃ t, init' t ∧ R s t)
    (hstep : ∀ s s' t, Reachable init step s → R s t → step s s' → ∃ t', (t' = t ∨ step' t t') ∧ R s' t')
    {s : σ} (h : Reachable init step s) : ∃ t, Reachable init' step' t ∧ R s t := by
  induction h with
  | init h =>
    obtain ⟨t, ht, hrelated⟩ := hinit _ h
    exact ⟨t, .init ht, hrelated⟩
  | step hs step ih =>
    obtain ⟨t, ht, hrelated⟩ := ih
    obtain ⟨t', hmatched, hrelated'⟩ := hstep _ _ t hs hrelated step
    rcases hmatched with rfl | hmatched
    · exact ⟨_, ht, hrelated'⟩
    · exact ⟨t', ht.step hmatched, hrelated'⟩

/-- Steps with the given labels, one after another. -/
inductive Trace {α : Type*} (step : σ → α → σ → Prop) : σ → List α → σ → Prop where
  | nil (s : σ) : Trace step s [] s
  | cons {s s' s'' : σ} {a : α} {as : List α} (first : step s a s') (rest : Trace step s' as s'') :
    Trace step s (a :: as) s''

namespace Trace

variable {α : Type*} {step : σ → α → σ → Prop} {s s' s'' : σ} {a : α} {as bs : List α}

theorem single (h : step s a s') : Trace step s [a] s' := .cons h (.nil s')

theorem append (h : Trace step s as s') (h' : Trace step s' bs s'') : Trace step s (as ++ bs) s'' := by
  induction h with
  | nil => exact h'
  | cons first _ ih => exact .cons first (ih h')

theorem split (h : Trace step s (as ++ bs) s'') : ∃ s', Trace step s as s' ∧ Trace step s' bs s'' := by
  induction as generalizing s with
  | nil => exact ⟨s, .nil s, h⟩
  | cons a as ih =>
    cases h with
    | cons first rest =>
      obtain ⟨s', hfirst, hrest⟩ := ih rest
      exact ⟨s', .cons first hfirst, hrest⟩

end Trace

/-! ## Histories -/

section
variable {α : Type*} {xs : List α} {x y : α} {n : Nat}

theorem getElem?_append_of_eq_some (h : xs[n]? = some x) (ys : List α) : (xs ++ ys)[n]? = some x :=
  (List.getElem?_append_left (List.getElem?_eq_some_iff.1 h).1).trans h

theorem eq_some_or_of_concat (h : (xs ++ [y])[n]? = some x) :
    xs[n]? = some x ∨ (n = xs.length ∧ x = y) := by
  rcases lt_or_ge n xs.length with hn | hn
  · exact Or.inl ((List.getElem?_append_left hn).symm.trans h)
  · have hnew := (List.getElem?_append_right hn).symm.trans h
    have hzero := (List.getElem?_eq_some_iff.1 hnew).1
    rw [List.length_singleton] at hzero
    exact Or.inr ⟨by omega, List.mem_singleton.1 (List.mem_of_getElem? hnew)⟩

end

end HotelPms.Lib

import Mathlib.Logic.Relation

/-!
  EncointerWorker.Lib.Transition — reachability in a transition system over an ARBITRARY
  state type, and the invariant rule every safety theorem of the development is an
  instance of.

  Reachability is Mathlib's reflexive–transitive closure from an initial predicate; the rule
  `Reach.invariant` turns "holds initially, and one step preserves it" into "holds on every
  reachable state", and `Reach.invariant_of_reach` lets the step use reachability of the
  pre-state (for invariants proved in layers).  `Reach.run_rel` is the same rule for a
  relation between the two ends of a run ("only grows", "is extended by").
-/

namespace EncointerWorker.Lib

variable {σ : Type}

/-- `s` is reachable from a state satisfying `init` by finitely many `step`s. -/
def Reach (init : σ → Prop) (step : σ → σ → Prop) (s : σ) : Prop :=
  ∃ s₀, init s₀ ∧ Relation.ReflTransGen step s₀ s

section Reach

variable {init : σ → Prop} {step : σ → σ → Prop}

theorem Reach.base {s : σ} (h : init s) : Reach init step s := ⟨s, h, .refl⟩

theorem Reach.tail {s s' : σ} (h : Reach init step s) (hs : step s s') : Reach init step s' := by
  obtain ⟨s₀, h₀, hrun⟩ := h
  exact ⟨s₀, h₀, hrun.tail hs⟩

/-- A run from a reachable state ends in a reachable state. -/
theorem Reach.of_run {s s' : σ} (h : Reach init step s) (hrun : Relation.ReflTransGen step s s') :
    Reach init step s' := by
  obtain ⟨s₀, h₀, hrun₀⟩ := h
  exact ⟨s₀, h₀, hrun₀.trans hrun⟩

/-- **The invariant rule, with the pre-state known reachable.** -/
theorem Reach.invariant_of_reach {P : σ → Prop} (h₀ : ∀ s, init s → P s)
    (hstep : ∀ s s', Reach init step s → P s → step s s' → P s') {s : σ}
    (h : Reach init step s) : P s := by
  obtain ⟨s₀, hinit, hrun⟩ := h
  -- induction on the run, carrying reachability of each intermediate state
  have key : Reach init step s ∧ P s := by
    induction hrun with
    | refl => exact ⟨Reach.base hinit, h₀ s₀ hinit⟩
    | tail _ hs ih => exact ⟨ih.1.tail hs, hstep _ _ ih.1 ih.2 hs⟩
  exact key.2

/-- **The invariant rule.**  Holds initially and preserved by every step: holds on every
    reachable state. -/
theorem Reach.invariant {P : σ → Prop} (h₀ : ∀ s, init s → P s)
    (hstep : ∀ s s', P s → step s s' → P s') {s : σ} (h : Reach init step s) : P s :=
  Reach.invariant_of_reach h₀ (fun s s' _ hP hs => hstep s s' hP hs) h

/-- **The run rule.**  A reflexive and transitive relation that every step from a reachable
    state satisfies relates the two ends of every run from a reachable state. -/
theorem Reach.run_rel {R : σ → σ → Prop} (hrefl : ∀ s, R s s)
    (htrans : ∀ s₁ s₂ s₃, R s₁ s₂ → R s₂ s₃ → R s₁ s₃)
    (hstep : ∀ s s', Reach init step s → step s s' → R s s') {s s' : σ}
    (h : Reach init step s) (hrun : Relation.ReflTransGen step s s') : R s s' := by
  induction hrun with
  | refl => exact hrefl s
  | tail hrun' hs ih => exact htrans _ _ _ ih (hstep _ _ (h.of_run hrun') hs)

end Reach

end EncointerWorker.Lib

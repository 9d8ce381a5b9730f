import Mathlib.Order.Defs.Unbundled

/-!
  EncointerWorker.Lib.Moves — a frame rule for programs of the state-and-exception monad
  `EStateM ε σ`, over an ARBITRARY state type.

  `Moves R x` says that every run of `x`, whether it returns or fails, ends in a state
  `R`-related to the state it started from.  For a reflexive and transitive `R` the property
  is closed under `pure`, `throw`, `get` and `bind`; so a program built from primitives that
  each keep `R` keeps it, and a frame fact ("this field is never written", "the log only
  grows, by entries of this kind") is proved once per primitive and composed.

  Main results:
    * `moves_bind` — the composition rule; `moves_mono` — weakening the relation.
    * `run_bind_eq`, `bind_eq_ok`, `bind_eq_error` — how a run of `x >>= f` splits into runs
      of `x` and `f`.
    * `moves_tryCatchLike` — a handler that resumes from the failing run's state keeps `R`.
    * `Stable P` — an invariant `P` as a relation, so that the rules above carry it.
-/

namespace EncointerWorker.Lib

variable {ε σ α β : Type}

/-- The state a run ends in, returned or failed. -/
def resultState : EStateM.Result ε σ α → σ
  | .ok _ s => s
  | .error _ s => s

@[simp] theorem resultState_ok (a : α) (s : σ) :
    resultState (.ok a s : EStateM.Result ε σ α) = s := rfl

@[simp] theorem resultState_error (e : ε) (s : σ) :
    resultState (.error e s : EStateM.Result ε σ α) = s := rfl

/-- The fault a run ended with, if it failed. -/
def resultError : EStateM.Result ε σ α → Option ε
  | .ok _ _ => none
  | .error e _ => some e

/-- The value a run returned, if it returned. -/
def resultValue : EStateM.Result ε σ α → Option α
  | .ok a _ => some a
  | .error _ _ => none

theorem exists_ok_of_resultError_eq_none {r : EStateM.Result ε σ α} (h : resultError r = none) :
    ∃ a s, r = .ok a s := by
  cases r with
  | ok a s => exact ⟨a, s, rfl⟩
  | error e s => cases h

/-- A returned run of `x >>= f` is a returned run of `x` followed by one of `f`. -/
theorem bind_eq_ok {x : EStateM ε σ α} {f : α → EStateM ε σ β} {s s' : σ} {b : β}
    (h : (x >>= f) s = .ok b s') : ∃ a s₁, x s = .ok a s₁ ∧ f a s₁ = .ok b s' := by
  change EStateM.bind x f s = _ at h
  unfold EStateM.bind at h
  cases hx : x s with
  | ok a s₁ =>
    rw [hx] at h
    exact ⟨a, s₁, rfl, h⟩
  | error e s₁ =>
    rw [hx] at h
    cases h

/-- A run of `x >>= f`: `f` runs from where `x` returned; a failure of `x` ends it there. -/
theorem run_bind_eq (x : EStateM ε σ α) (f : α → EStateM ε σ β) (s : σ) :
    (x >>= f) s = match x s with
      | .ok a s' => f a s'
      | .error e s' => .error e s' := by
  change EStateM.bind x f s = _
  unfold EStateM.bind
  cases x s <;> rfl

/-- A failed run of `x >>= f` failed in `x`, or in `f` after `x` returned. -/
theorem bind_eq_error {x : EStateM ε σ α} {f : α → EStateM ε σ β} {s s' : σ} {e : ε}
    (h : (x >>= f) s = .error e s') :
    x s = .error e s' ∨ ∃ a s₁, x s = .ok a s₁ ∧ f a s₁ = .error e s' := by
  change EStateM.bind x f s = _ at h
  unfold EStateM.bind at h
  cases hx : x s with
  | ok a s₁ =>
    rw [hx] at h
    exact .inr ⟨a, s₁, rfl, h⟩
  | error e' s₁ =>
    rw [hx] at h
    cases h
    exact .inl rfl

/-- Every run of `x` ends in a state `R`-related to its start. -/
def Moves (R : σ → σ → Prop) (x : EStateM ε σ α) : Prop := ∀ s, R s (resultState (x s))

/-- `P` holds after whenever it held before: the relation an invariant is kept by. -/
def Stable (P : σ → Prop) (s s' : σ) : Prop := P s → P s'

instance (P : σ → Prop) : IsPreorder σ (Stable P) where
  refl _ h := h
  trans _ _ _ h₁ h₂ h := h₂ (h₁ h)

/-- A weaker relation is kept too. -/
theorem moves_mono {R R' : σ → σ → Prop} {x : EStateM ε σ α} (hx : Moves R x)
    (h : ∀ s s', R s s' → R' s s') : Moves R' x :=
  fun s => h _ _ (hx s)

section Rules

variable {R : σ → σ → Prop}

theorem moves_modify {f : σ → σ} (h : ∀ s, R s (f s)) : Moves R (modify f : EStateM ε σ PUnit) := h

theorem moves_ite {c : Prop} [Decidable c] {x y : EStateM ε σ α} (hx : Moves R x) (hy : Moves R y) :
    Moves R (if c then x else y) := by
  split
  · exact hx
  · exact hy

/-- A program that runs `x` and, on some failures, resumes from the state `x` left. -/
theorem moves_tryCatchLike {x : EStateM ε σ α} (k : EStateM.Result ε σ α → EStateM.Result ε σ α)
    (hk : ∀ r, resultState (k r) = resultState r) (hx : Moves R x) :
    Moves R (fun s => k (x s)) := by
  intro s
  rw [hk]
  exact hx s

variable [IsPreorder σ R]

theorem moves_pure (a : α) : Moves R (pure a : EStateM ε σ α) := fun s => refl_of R s

theorem moves_throw (e : ε) : Moves R (throw e : EStateM ε σ α) := fun s => refl_of R s

theorem moves_get : Moves R (get : EStateM ε σ σ) := fun s => refl_of R s

/-- **Composition.** -/
theorem moves_bind {x : EStateM ε σ α} {f : α → EStateM ε σ β} (hx : Moves R x)
    (hf : ∀ a, Moves R (f a)) : Moves R (x >>= f) := by
  intro s
  have h := hx s
  show R s (resultState (EStateM.bind x f s))
  unfold EStateM.bind
  -- a failure of `x` ends the run where `x` ended it; a value runs `f` from there
  cases hxs : x s with
  | ok a s' =>
    rw [hxs] at h
    exact trans_of R h (hf a s')
  | error e s' =>
    rw [hxs] at h
    exact h

end Rules

end EncointerWorker.Lib

import Mathlib.Logic.Basic

/-!
# Simulation

Systems that take labelled steps, and the rule that a simulation between two of them holds of whole runs: what the one
does, the other can do.
-/

namespace PDS

/-- A system on the states `σ` whose steps are labelled with the events `ε`. -/
structure Lts (σ ε : Type) where
  init : σ → Prop
  step : σ → ε → σ → Prop

variable {σ τ ε : Type} {M : Lts σ ε} {A : Lts τ ε} {R : σ → τ → Prop} {es : List ε} {s : σ}

/-- The runs of a system, with the events in their order. -/
inductive Lts.Run (M : Lts σ ε) : List ε → σ → Prop
  | init {s : σ} : M.init s → M.Run [] s
  | step {es : List ε} {s s' : σ} {e : ε} : M.Run es s → M.step s e s' → M.Run (es ++ [e]) s'

/-- The paths from a state `s` whose steps all satisfy `P`. -/
inductive Lts.Path (M : Lts σ ε) (P : σ → ε → Prop) (s : σ) : List ε → σ → Prop
  | refl : M.Path P s [] s
  | step {es : List ε} {s₁ s₂ : σ} {e : ε} : M.Path P s es s₁ → P s₁ e → M.step s₁ e s₂ → M.Path P s (es ++ [e]) s₂

/-- Each step of `M` is a step of `A` with the same event, between states that `R` relates. -/
structure Simulation (M : Lts σ ε) (A : Lts τ ε) (R : σ → τ → Prop) : Prop where
  init : ∀ {s}, M.init s → ∃ t, A.init t ∧ R s t
  step : ∀ {s t e s'}, R s t → M.step s e s' → ∃ t', A.step t e t' ∧ R s' t'

/-- The events of a run of `M` are those of a run of `A`. -/
theorem Simulation.run (sim : Simulation M A R) (run : M.Run es s) : ∃ t, A.Run es t ∧ R s t := by
  induction run with
  | init start =>
    obtain ⟨t, start', rel⟩ := sim.init start
    exact ⟨t, .init start', rel⟩
  | step _ step ih =>
    obtain ⟨t, run, rel⟩ := ih
    obtain ⟨t', step', rel'⟩ := sim.step rel step
    exact ⟨t', .step run step', rel'⟩

/-- What a simulation keeps along a path, when the steps of `A` keep it. -/
theorem Simulation.path (sim : Simulation M A R) {P : σ → ε → Prop} {I : τ → Prop} {s' : σ} {t : τ} (rel : R s t)
    (path : M.Path P s es s') (start : I t)
    (keep : ∀ {s t e s' t'}, R s t → I t → P s e → M.step s e s' → A.step t e t' → I t') : ∃ t', R s' t' ∧ I t' := by
  induction path with
  | refl => exact ⟨t, rel, start⟩
  | step _ allowed step ih =>
    obtain ⟨t₁, rel₁, kept⟩ := ih
    obtain ⟨t₂, step', rel₂⟩ := sim.step rel₁ step
    exact ⟨t₂, rel₂, keep rel₁ kept allowed step step'⟩

end PDS

import Mathlib.Data.List.Forall2

/-! # Runs of a machine

A machine takes inputs one at a time, and each of its steps yields an output and the next state. A
run is described by the state it ends in and by its transcript. What one step preserves, a run
preserves (`finalState_invariant`), and what relates the steps of two machines relates the
transcripts of their runs on the same inputs (`transcript_forall₂`). -/

namespace Machine

variable {σ τ ι ο ο' : Type*}

/-- The state after a list of inputs. -/
def finalState (step : σ → ι → ο × σ) (s : σ) (inputs : List ι) : σ :=
  inputs.foldl (fun s i => (step s i).2) s

/-- The inputs of a run, each with the output it got. -/
def transcript (step : σ → ι → ο × σ) : σ → List ι → List (ι × ο)
  | _, [] => []
  | s, i :: inputs => (i, (step s i).1) :: transcript step (step s i).2 inputs

/-- What an observer of the steps of a run writes down. -/
def record {β : Type*} (step : σ → ι → ο × σ) (observe : σ → ι → List β) : σ → List ι → List β
  | _, [] => []
  | s, i :: inputs => observe s i ++ record step observe (step s i).2 inputs

section Run

variable {step : σ → ι → ο × σ} {s : σ}

@[simp] theorem finalState_nil (step : σ → ι → ο × σ) (s : σ) : finalState step s [] = s := rfl

@[simp] theorem finalState_cons (step : σ → ι → ο × σ) (s : σ) (i : ι) (inputs : List ι) :
    finalState step s (i :: inputs) = finalState step (step s i).2 inputs := rfl

theorem finalState_append (step : σ → ι → ο × σ) (s : σ) (inputs inputs' : List ι) :
    finalState step s (inputs ++ inputs') = finalState step (finalState step s inputs) inputs' :=
  List.foldl_append

theorem record_append {β : Type*} (step : σ → ι → ο × σ) (observe : σ → ι → List β) (s : σ)
    (inputs inputs' : List ι) :
    record step observe s (inputs ++ inputs') =
      record step observe s inputs ++ record step observe (finalState step s inputs) inputs' := by
  induction inputs generalizing s with
  | nil => rfl
  | cons i inputs ih =>
    rw [List.cons_append, record, ih, record, finalState_cons, List.append_assoc]

/-- A line of a transcript is the output of a step on an input of the run. -/
theorem mem_transcript {inputs : List ι} {x : ι × ο} (h : x ∈ transcript step s inputs) :
    x.1 ∈ inputs ∧ ∃ s', x.2 = (step s' x.1).1 := by
  induction inputs generalizing s with
  | nil => exact absurd h List.not_mem_nil
  | cons i inputs ih =>
    rcases List.mem_cons.mp h with rfl | h
    · exact ⟨List.mem_cons_self, s, rfl⟩
    · exact ⟨List.mem_cons_of_mem _ (ih h).1, (ih h).2⟩

/-- **Run lemma.** A property of states that every step of a run preserves holds after the run. -/
theorem finalState_invariant {P : σ → Prop} {inputs : List ι}
    (hstep : ∀ s, ∀ i ∈ inputs, P s → P (step s i).2) (h : P s) : P (finalState step s inputs) := by
  induction inputs generalizing s with
  | nil => exact h
  | cons i inputs ih =>
    rw [finalState_cons]
    exact ih (fun s j hj => hstep s j (List.mem_cons_of_mem _ hj)) (hstep s i List.mem_cons_self h)

end Run

/-! ## Guarded runs -/

/-- Every input of a run comes in a state that allows it. -/
def EveryStep (step : σ → ι → ο × σ) (allowed : σ → ι → Prop) : σ → List ι → Prop
  | _, [] => True
  | s, i :: inputs => allowed s i ∧ EveryStep step allowed (step s i).2 inputs

/-- **Guarded run lemma.** A property that every allowed step preserves holds after a run of allowed
steps. -/
theorem EveryStep.invariant {step : σ → ι → ο × σ} {allowed : σ → ι → Prop} {P : σ → Prop}
    {inputs : List ι} {s : σ} (hrun : EveryStep step allowed s inputs)
    (hstep : ∀ s i, allowed s i → P s → P (step s i).2) (h : P s) :
    P (finalState step s inputs) := by
  induction inputs generalizing s with
  | nil => exact h
  | cons i inputs ih => exact ih hrun.2 (hstep s i hrun.1 h)

/-- **Exact guards.** Among the runs whose steps are all `possible`: if allowed steps keep an
invariant `P` that implies `Q`, and every other step from it leaves a state without `Q`, then the
runs all of whose states have `Q` are exactly those of allowed steps. -/
theorem everyStep_iff_forall_prefix {step : σ → ι → ο × σ} {possible allowed : σ → ι → Prop}
    {P Q : σ → Prop} {inputs : List ι} {s : σ} (hrun : EveryStep step possible s inputs)
    (hkeep : ∀ s i, P s → possible s i → allowed s i → P (step s i).2)
    (hbreak : ∀ s i, P s → possible s i → ¬ allowed s i → ¬ Q (step s i).2)
    (hQ : ∀ s, P s → Q s) (h : P s) :
    (∀ pre, pre <+: inputs → Q (finalState step s pre)) ↔ EveryStep step allowed s inputs := by
  induction inputs generalizing s with
  | nil =>
    refine iff_of_true ?_ trivial
    intro pre hpre
    rw [List.prefix_nil.mp hpre]
    exact hQ s h
  | cons i inputs ih =>
    by_cases hi : allowed s i
    · have ih' := ih hrun.2 (hkeep s i h hrun.1 hi)
      constructor
      · intro hall
        refine ⟨hi, ih'.mp ?_⟩
        intro pre hpre
        exact hall (i :: pre) (List.cons_prefix_cons.mpr ⟨rfl, hpre⟩)
      · rintro ⟨-, hall⟩ pre hpre
        cases pre with
        | nil => exact hQ s h
        | cons j pre =>
          obtain ⟨rfl, htail⟩ := List.cons_prefix_cons.mp hpre
          exact ih'.mpr hall pre htail
    · -- the step that is not allowed shows in the state after it
      refine iff_of_false ?_ fun hall => hi hall.1
      intro hall
      exact hbreak s i h hrun.1 hi (hall [i] (List.cons_prefix_cons.mpr ⟨rfl, List.nil_prefix⟩))

/-- Every run is one of unrestricted steps. -/
theorem everyStep_true (step : σ → ι → ο × σ) (s : σ) (inputs : List ι) :
    EveryStep step (fun _ _ => True) s inputs := by
  induction inputs generalizing s with
  | nil => trivial
  | cons i inputs ih => exact ⟨trivial, ih _⟩

/-! ## Simulation -/

/-- **Simulation.** When related states answer an input of the run by related outputs and stay
related, the transcripts agree on the inputs and are related in the outputs. -/
theorem transcript_forall₂ {step : σ → ι → ο × σ} {step' : τ → ι → ο' × τ} {R : σ → τ → Prop}
    {Q : ι → ο → ο' → Prop} {inputs : List ι} {s : σ} {t : τ}
    (hstep : ∀ s t, ∀ i ∈ inputs, R s t →
      Q i (step s i).1 (step' t i).1 ∧ R (step s i).2 (step' t i).2) (h : R s t) :
    List.Forall₂ (fun x y => x.1 = y.1 ∧ Q x.1 x.2 y.2) (transcript step s inputs)
      (transcript step' t inputs) := by
  induction inputs generalizing s t with
  | nil => exact List.Forall₂.nil
  | cons i inputs ih =>
    obtain ⟨hout, hnext⟩ := hstep s t i List.mem_cons_self h
    exact List.Forall₂.cons ⟨rfl, hout⟩
      (ih (fun s t j hj => hstep s t j (List.mem_cons_of_mem _ hj)) hnext)

end Machine

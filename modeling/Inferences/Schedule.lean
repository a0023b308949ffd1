import Mathlib

/-!
# Runs of a step function

A component is a type of states and a step function: the state after one act
of the component or of its environment, in any order the environment chooses.
A run performs a list of acts (`run`). What every step preserves, every run
preserves (`invariant`); when only the steps that meet a condition preserve
it, the runs whose steps all meet the condition do (`Along.invariant`). What
the steps give out on the way is `outputs`, with a rule of its own
(`invariant_outputs`). A run counts down what certain acts lower and none
raises (`countdown`).
-/

namespace Inferences.Schedule

variable {σ α : Type*} (step : σ → α → σ)

/-- The state after the acts of a run. -/
def run (s : σ) (acts : List α) : σ := acts.foldl step s

@[simp] theorem run_nil (s : σ) : run step s [] = s := rfl

@[simp] theorem run_cons (s : σ) (a : α) (acts : List α) :
    run step s (a :: acts) = run step (step s a) acts := rfl

/-- A run in two parts. -/
theorem run_append (s : σ) (as bs : List α) :
    run step s (as ++ bs) = run step (run step s as) bs := List.foldl_append

/-- Every step of a run meets `C`, in the state before it. -/
def Along (C : σ → α → Prop) : σ → List α → Prop
  | _, [] => True
  | s, a :: acts => C s a ∧ Along C (step s a) acts

variable {step}

@[simp] theorem along_nil {C : σ → α → Prop} (s : σ) : Along step C s [] := trivial

@[simp] theorem along_cons {C : σ → α → Prop} {s : σ} {a : α} {acts : List α} :
    Along step C s (a :: acts) ↔ C s a ∧ Along step C (step s a) acts := .rfl

/-- A part of a run meets what the run meets. -/
theorem Along.take {C : σ → α → Prop} {s : σ} {acts : List α} (h : Along step C s acts) (n : Nat) :
    Along step C s (acts.take n) := by
  induction acts generalizing s n with
  | nil => rw [List.take_nil]; trivial
  | cons a acts ih =>
    cases n with
    | zero => trivial
    | succ n => exact ⟨h.1, ih h.2 n⟩

/-- Two conditions met along a run. -/
theorem Along.and {C D : σ → α → Prop} {s : σ} {acts : List α} (hC : Along step C s acts)
    (hD : Along step D s acts) : Along step (fun s a => C s a ∧ D s a) s acts := by
  induction acts generalizing s with
  | nil => trivial
  | cons a acts ih => exact ⟨⟨hC.1, hD.1⟩, ih hC.2 hD.2⟩

/-- What a condition gives for a step in a state that the run can be in, it
    gives for every step of a run. -/
theorem Along.imp {C D : σ → α → Prop} {P : σ → Prop} (hstep : ∀ s a, P s → P (step s a))
    (hD : ∀ s a, P s → C s a → D s a) {s : σ} {acts : List α} (h : Along step C s acts)
    (hs : P s) : Along step D s acts := by
  induction acts generalizing s with
  | nil => trivial
  | cons a acts ih => exact ⟨hD s a hs h.1, ih h.2 (hstep s a hs)⟩

/-- The rule of invariants, under a condition on the steps. -/
theorem Along.invariant {C : σ → α → Prop} {P : σ → Prop}
    (hstep : ∀ s a, C s a → P s → P (step s a)) {s : σ} {acts : List α}
    (h : Along step C s acts) (hs : P s) : P (run step s acts) := by
  induction acts generalizing s with
  | nil => exact hs
  | cons a acts ih => exact ih h.2 (hstep s a h.1 hs)

/-- The rule of invariants. -/
theorem invariant {P : σ → Prop} (hstep : ∀ s a, P s → P (step s a)) {s : σ} (hs : P s)
    (acts : List α) : P (run step s acts) := by
  induction acts generalizing s with
  | nil => exact hs
  | cons a acts ih => exact ih (hstep s a hs)

/-! ## What a run gives out -/

section

variable (step) {β : Type*} (out : σ → α → List β)

/-- What the steps of a run give out, in order. -/
def outputs : σ → List α → List β
  | _, [] => []
  | s, a :: acts => out s a ++ outputs (step s a) acts

variable {step out}

/-- The rule of invariants, about the state and what was given out on the way
    to it. -/
theorem invariant_outputs {P : σ → List β → Prop}
    (hstep : ∀ s a given, P s given → P (step s a) (given ++ out s a)) {s : σ} {given : List β}
    (hs : P s given) (acts : List α) :
    P (run step s acts) (given ++ outputs step out s acts) := by
  induction acts generalizing s given with
  | nil => rwa [outputs, List.append_nil]
  | cons a acts ih =>
    rw [outputs, ← List.append_assoc]
    exact ih (hstep s a given hs)

end

/-! ## Countdowns -/

/-- The rule of countdowns: when no step raises a number and certain acts lower
    it, a run with that many of them takes it to zero. -/
theorem countdown {P : σ → Prop} {rank : σ → ℕ} {moves : α → Bool}
    (hstep : ∀ s a, P s → P (step s a)) (hrank : ∀ s a, P s → rank (step s a) ≤ rank s)
    (hmoves : ∀ s a, P s → moves a = true → rank (step s a) ≤ rank s - 1) {s : σ} (hs : P s)
    (acts : List α) : rank (run step s acts) ≤ rank s - acts.countP moves := by
  induction acts generalizing s with
  | nil => exact le_rfl
  | cons a acts ih =>
    have hrest := ih (hstep s a hs)
    rw [run_cons]
    cases ha : moves a with
    | false =>
      have hle := hrank s a hs
      rw [List.countP_cons_of_neg (by simp [ha])]
      omega
    | true =>
      have hle := hmoves s a hs ha
      rw [List.countP_cons_of_pos ha]
      omega

/-- Where a run first fails a condition: the steps before it, the state it
    reached and the act. -/
theorem exists_first_of_not_along {C : σ → α → Prop} {s : σ} {acts : List α}
    (h : ¬ Along step C s acts) :
    ∃ as a bs, acts = as ++ a :: bs ∧ Along step C s as ∧ ¬ C (run step s as) a := by
  induction acts generalizing s with
  | nil => exact absurd trivial h
  | cons a acts ih =>
    by_cases ha : C s a
    · obtain ⟨as, b, bs, rfl, has, hb⟩ := ih fun hacts => h ⟨ha, hacts⟩
      exact ⟨a :: as, b, bs, rfl, ⟨ha, has⟩, hb⟩
    · exact ⟨[], a, acts, rfl, trivial, ha⟩

end Inferences.Schedule

/-
Machines whose step function is total and which answer each action.  A forward
simulation between two of them is proved one action at a time; the rules here
carry it along whole runs, for the states and for the answers.
-/
import HPActor.Runs
import Mathlib.Data.List.Infix

namespace Machines

open Runs List

universe u v w x

variable {C : Type u} {S : Type v} {A : Type w} {O : Type x}

/-- The state after a list of actions. -/
def final (step : S → A → S) (s : S) (actions : List A) : S :=
  actions.foldl step s

/-- What the machine answers along the way. -/
def answers (step : S → A → S) (answer : S → A → O) : S → List A → List O
  | _, [] => []
  | s, action :: rest =>
    answer s action :: answers step answer (step s action) rest

/-- Every action meets `cond` in the state it is taken in. -/
def Along (step : S → A → S) (cond : S → A → Prop) (s : S) (actions : List A) : Prop :=
  EachStep (fun s action => some (step s action)) cond s actions

instance (step : S → A → S) (cond : S → A → Prop)
    [∀ s action, Decidable (cond s action)] (s : S) (actions : List A) :
    Decidable (Along step cond s actions) :=
  inferInstanceAs (Decidable (EachStep _ _ _ _))

variable {step : S → A → S} {answer : S → A → O} {cond : S → A → Prop} {actions : List A} {s : S}

theorem along_cons {action : A} {rest : List A} :
    Along step cond s (action :: rest) ↔
      cond s action ∧ Along step cond (step s action) rest := Iff.rfl

theorem final_cons (s : S) (action : A) (rest : List A) :
    final step s (action :: rest) = final step (step s action) rest := rfl

theorem along_of_forall_mem {P : A → Prop} (hall : ∀ action ∈ actions, P action) :
    Along step (fun _ action => P action) s actions := by
  induction actions generalizing s with
  | nil => trivial
  | cons action rest ih =>
    refine along_cons.mpr ⟨hall action mem_cons_self, ih ?_⟩
    exact fun later hlater => hall later (mem_cons_of_mem action hlater)

/-- What every step keeps, a run keeps. -/
theorem final_invariant (Inv : S → Prop)
    (hkeep : ∀ s action, Inv s → cond s action → Inv (step s action)) (hinit : Inv s)
    (halong : Along step cond s actions) : Inv (final step s actions) := by
  induction actions generalizing s with
  | nil => exact hinit
  | cons action rest ih =>
    obtain ⟨hcond, hrest⟩ := along_cons.mp halong
    exact ih (hkeep s action hinit hcond) hrest

/-- The unconditional form. -/
theorem final_invariant' (Inv : S → Prop) (hkeep : ∀ s action, Inv s → Inv (step s action))
    (hinit : Inv s) (actions : List A) : Inv (final step s actions) :=
  final_invariant Inv (fun s action hinv _ => hkeep s action hinv) hinit
    (EachStep.of_forall (fun _ _ => trivial : ∀ _ _, True) s actions)

/-- If a property survives a step exactly when the step meets a condition, it
holds throughout a run exactly when all the steps do. -/
theorem throughout_iff {P : S → Prop}
    (hstep : ∀ s action, P s → (P (step s action) ↔ cond s action)) (hinit : P s) :
    (∀ front, front <+: actions → P (final step s front)) ↔ Along step cond s actions := by
  induction actions generalizing s with
  | nil =>
    refine iff_of_true (fun front hfront => ?_) trivial
    rw [prefix_nil.mp hfront]
    exact hinit
  | cons action rest ih =>
    rw [along_cons]
    constructor
    · intro hall
      have hnext : P (step s action) :=
        hall [action] (prefix_append [action] rest)
      refine ⟨(hstep s action hinit).mp hnext, (ih hnext).mp ?_⟩
      intro front hfront
      exact hall (action :: front) ((prefix_cons_inj action).mpr hfront)
    · rintro ⟨hcond, hrest⟩ front hfront
      have hnext := (hstep s action hinit).mpr hcond
      cases front with
      | nil => exact hinit
      | cons first later =>
        obtain ⟨rfl, hlater⟩ := cons_prefix_cons.mp hfront
        exact (ih hnext).mpr hrest later hlater

section

variable {concrete : C → A → C} {reply : C → A → O} {R : C → S → Prop}

section

variable (hstep : ∀ c s action, R c s → cond s action → R (concrete c action) (step s action))
include hstep

/-- Related states stay related along a run. -/
theorem final_simulates {c : C} {s : S} {actions : List A} (hrel : R c s)
    (halong : Along step cond s actions) :
    R (final concrete c actions) (final step s actions) := by
  induction actions generalizing c s with
  | nil => exact hrel
  | cons action rest ih =>
    obtain ⟨hcond, hrest⟩ := along_cons.mp halong
    exact ih (hstep c s action hrel hcond) hrest

/-- Machines that answer alike in related states answer alike along a run. -/
theorem answers_simulates
    (hanswer : ∀ c s action, R c s → cond s action → reply c action = answer s action) {c : C}
    {s : S} {actions : List A} (hrel : R c s) (halong : Along step cond s actions) :
    answers concrete reply c actions = answers step answer s actions := by
  induction actions generalizing c s with
  | nil => rfl
  | cons action rest ih =>
    obtain ⟨hcond, hrest⟩ := along_cons.mp halong
    rw [answers, answers, hanswer c s action hrel hcond, ih (hstep c s action hrel hcond) hrest]

end

end

section

variable {observe : S → A → Option O}

/-- The answers of the actions that have one. -/
def observed (step : S → A → S) (observe : S → A → Option O) (s : S) (actions : List A) : List O :=
  (answers step observe s actions).filterMap id

/-- Actions that change nothing and answer nothing may be left out. -/
theorem observed_filter {shared : A → Bool}
    (hstep : ∀ s action, shared action = false → step s action = s)
    (hanswer : ∀ s action, shared action = false → observe s action = none)
    (s : S) (actions : List A) :
    observed step observe s actions = observed step observe s (actions.filter shared) := by
  induction actions generalizing s with
  | nil => rfl
  | cons action rest ih =>
    cases hshared : shared action with
    | true =>
      rw [filter_cons_of_pos hshared]
      simp only [observed, answers, filterMap_cons] at ih ⊢
      rw [ih]
    | false =>
      rw [filter_cons_of_neg (by simp [hshared]), ← ih]
      simp only [observed, answers, filterMap_cons,
        hanswer s action hshared, hstep s action hshared, id_eq]

end

end Machines

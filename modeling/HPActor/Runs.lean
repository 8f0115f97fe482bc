/-
Runs of a partial step function.  An action that the system cannot take is
refused with `none`; a run is the fold of the step function over a list of
actions, and a run condition is checked on each action in the state the
action is taken in.
-/
import Mathlib.Data.List.Basic

namespace Runs

open List

universe u v

variable {S : Type u} {A : Type v} {step : S → A → Option S}

/-- The state after a list of actions, if none of them is refused. -/
def run (step : S → A → Option S) : S → List A → Option S
  | s, [] => some s
  | s, action :: rest => (step s action).bind fun t => run step t rest

/-- Every action of the run meets `cond` in the state it is taken in. -/
def EachStep (step : S → A → Option S) (cond : S → A → Prop) : S → List A → Prop
  | _, [] => True
  | s, action :: rest =>
    cond s action ∧
      match step s action with
      | none => True
      | some t => EachStep step cond t rest

instance EachStep.decidable (step : S → A → Option S) (cond : S → A → Prop)
    [∀ s action, Decidable (cond s action)] :
    ∀ s actions, Decidable (EachStep step cond s actions)
  | _, [] => inferInstanceAs (Decidable True)
  | s, action :: rest =>
    have : Decidable (match step s action with
        | none => True
        | some t => EachStep step cond t rest) :=
      match step s action with
      | none => inferInstanceAs (Decidable True)
      | some t => EachStep.decidable step cond t rest
    inferInstanceAs (Decidable (_ ∧ _))

@[simp] theorem run_nil (s : S) : run step s [] = some s := rfl

theorem run_cons (s : S) (action : A) (rest : List A) :
    run step s (action :: rest) = (step s action).bind fun t => run step t rest := rfl

theorem run_cons_eq_some {s t : S} {action : A} {rest : List A} :
    run step s (action :: rest) = some t ↔
      ∃ mid, step s action = some mid ∧ run step mid rest = some t := by
  simp [run_cons, Option.bind_eq_some_iff]

theorem run_append (s : S) (first rest : List A) :
    run step s (first ++ rest) = (run step s first).bind fun t => run step t rest := by
  induction first generalizing s with
  | nil => rfl
  | cons action first ih =>
    rw [cons_append, run_cons, run_cons, Option.bind_assoc]
    exact congrArg _ (funext ih)

variable {cond : S → A → Prop} {rest : List A} {action : A} {s : S} {actions : List A}

theorem EachStep.head (hrun : EachStep step cond s (action :: rest)) : cond s action := hrun.1

theorem EachStep.tail {t : S} (hrun : EachStep step cond s (action :: rest))
    (hstep : step s action = some t) : EachStep step cond t rest := by
  have htail := hrun.2
  rwa [hstep] at htail

theorem EachStep.front {first : List A} (hrun : EachStep step cond s (first ++ rest)) :
    EachStep step cond s first := by
  induction first generalizing s with
  | nil => trivial
  | cons action first ih =>
    refine ⟨hrun.head, ?_⟩
    split
    · trivial
    · next t hstep => exact ih (hrun.tail hstep)

/-- One action more meets the condition in the state the others lead to. -/
theorem eachStep_concat :
    EachStep step cond s (actions ++ [action]) ↔ EachStep step cond s actions ∧
        ∀ t, run step s actions = some t → cond t action := by
  constructor
  · intro hrun
    refine ⟨hrun.front, ?_⟩
    induction actions generalizing s with
    | nil =>
      intro t ht
      cases ht
      exact hrun.head
    | cons next rest ih =>
      intro t ht
      obtain ⟨mid, hstep, hrest⟩ := run_cons_eq_some.mp ht
      exact ih (hrun.tail hstep) t hrest
  · rintro ⟨hrun, hlast⟩
    induction actions generalizing s with
    | nil =>
      refine ⟨hlast s rfl, ?_⟩
      split <;> trivial
    | cons next rest ih =>
      refine ⟨hrun.head, ?_⟩
      split
      · trivial
      · next mid hstep =>
          refine ih (hrun.tail hstep) fun t ht => hlast t ?_
          exact run_cons_eq_some.mpr ⟨mid, hstep, ht⟩

theorem EachStep.of_forall (hcond : ∀ s action, cond s action) (s : S)
    (actions : List A) : EachStep step cond s actions := by
  induction actions generalizing s with
  | nil => trivial
  | cons action rest ih =>
    refine ⟨hcond s action, ?_⟩
    split
    · trivial
    · exact ih _

theorem EachStep.and_mem {P : A → Prop} (hcond : EachStep step cond s actions)
    (hP : ∀ action ∈ actions, P action) :
    EachStep step (fun s action => P action ∧ cond s action) s actions := by
  induction actions generalizing s with
  | nil => trivial
  | cons action rest ih =>
    refine ⟨⟨hP action mem_cons_self, hcond.head⟩, ?_⟩
    split
    · trivial
    · next t hstep =>
        exact ih (hcond.tail hstep) fun a ha =>
          hP a (mem_cons_of_mem action ha)

/-- The invariant rule for a state and the actions that led to it: what holds at
the start and is kept by every step that meets the run condition holds in the
state a run ends in. -/
theorem run_history {Inv : List A → S → Prop}
    (hkeep : ∀ done s action t, Inv done s → cond s action → step s action = some t →
      Inv (done ++ [action]) t)
    {s t : S} {done actions : List A} (hinit : Inv done s) (hcond : EachStep step cond s actions)
    (hrun : run step s actions = some t) : Inv (done ++ actions) t := by
  induction actions generalizing s done with
  | nil =>
    rw [run_nil] at hrun
    cases hrun
    rwa [append_nil]
  | cons action rest ih =>
    obtain ⟨mid, hstep, hrest⟩ := run_cons_eq_some.mp hrun
    have hlater := ih (hkeep done s action mid hinit hcond.head hstep) (hcond.tail hstep) hrest
    rwa [append_assoc, singleton_append] at hlater

/-- The rule without the history. -/
theorem run_invariant {Inv : S → Prop}
    (hkeep : ∀ s action t, Inv s → cond s action → step s action = some t →
      Inv t) {s t : S} {actions : List A} (hinit : Inv s)
    (hcond : EachStep step cond s actions) (hrun : run step s actions = some t) : Inv t :=
  @run_history _ _ step cond (fun _ => Inv) (fun _ => hkeep) s t [] actions hinit hcond hrun

/-- The unconditional form of the invariant rule. -/
theorem run_invariant' {Inv : S → Prop}
    (hkeep : ∀ s action t, Inv s → step s action = some t → Inv t)
    {s t : S} {actions : List A} (hinit : Inv s)
    (hrun : run step s actions = some t) : Inv t :=
  run_invariant (fun s action t hinv _ hstep => hkeep s action t hinv hstep) hinit
    (EachStep.of_forall (fun _ _ => trivial : ∀ _ _, True) s actions) hrun

/-- The unconditional form of the rule with a history. -/
theorem run_history' {Inv : List A → S → Prop}
    (hkeep : ∀ done s action t, Inv done s → step s action = some t → Inv (done ++ [action]) t)
    {t : S} (hinit : Inv [] s) (hrun : run step s actions = some t) : Inv actions t :=
  run_history (fun done s action t hinv _ hstep => hkeep done s action t hinv hstep) hinit
    (EachStep.of_forall (fun _ _ => trivial : ∀ _ _, True) s actions) hrun

/-- The rule for two phases: a marked action leads from the first to the
second, which lasts. -/
theorem run_reaches {First Second : S → Prop} {mark : A → Prop}
    (hfirst : ∀ s action t, First s → ¬ mark action → cond s action → step s action = some t →
      First t)
    (hmark : ∀ s action t, First s → mark action → cond s action → step s action = some t →
      Second t)
    (hsecond : ∀ s action t, Second s → cond s action → step s action = some t → Second t) {s t : S}
    {actions : List A} (hinit : First s) (hmarked : ∃ action ∈ actions, mark action)
    (hcond : EachStep step cond s actions) (hrun : run step s actions = some t) : Second t := by
  induction actions generalizing s with
  | nil =>
    obtain ⟨action, haction, -⟩ := hmarked
    cases haction
  | cons action rest ih =>
    obtain ⟨mid, hstep, hrest⟩ := run_cons_eq_some.mp hrun
    by_cases haction : mark action
    · exact run_invariant hsecond (hmark s action mid hinit haction hcond.head hstep)
        (hcond.tail hstep) hrest
    · obtain ⟨later, hlater, hmark'⟩ := hmarked
      have hrestMarked : later ∈ rest := by
        rcases mem_cons.mp hlater with rfl | hmem
        · exact absurd hmark' haction
        · exact hmem
      exact ih (hfirst s action mid hinit haction hcond.head hstep)
        ⟨later, hrestMarked, hmark'⟩ (hcond.tail hstep) hrest

/-- Whatever one step of a fold leaves alone, the fold does. -/
theorem foldl_keeps {β : Type*} (field : S → β) (next : S → A → S)
    (hkeep : ∀ s action, field (next s action) = field s)
    (actions : List A) (s : S) : field (actions.foldl next s) = field s := by
  induction actions generalizing s with
  | nil => rfl
  | cons action rest ih => rw [foldl_cons, ih, hkeep]

end Runs

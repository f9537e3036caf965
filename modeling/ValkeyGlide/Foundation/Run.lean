import Mathlib.Data.Option.Basic

/-!
# Runs of a guarded transition function

A system is a transition function `step : State → Action → Option State`; an
action that is not enabled in a state has no successor.  `run` executes a list
of actions, `Along` says that a condition on the pre-state and the action holds
at every step of such an execution, and `run_invariant` is the induction
principle: what every step meeting the condition preserves, every run whose
steps all meet it preserves.  `along_of_invariant` is its form for properties of
steps, and `along_iff_invariant` for a condition that is also necessary.
-/

namespace ValkeyGlide.Foundation

variable {State Action : Type*}

/-- Execute the actions in order; `none` when one of them is not enabled. -/
def run (step : State → Action → Option State) : State → List Action → Option State
  | state, [] => some state
  | state, action :: rest =>
    match step state action with
    | none => none
    | some next => run step next rest

/-- `holds` is true of every pre-state and action along the execution. -/
def Along (step : State → Action → Option State) (holds : State → Action → Prop) :
    State → List Action → Prop
  | _, [] => True
  | state, action :: rest =>
    holds state action ∧
      match step state action with
      | none => True
      | some next => Along step holds next rest

section Execution

variable {step : State → Action → Option State} {holds : State → Action → Prop}

@[simp] theorem run_nil (state : State) : run step state [] = some state := rfl

theorem run_cons (state : State) (action : Action) (rest : List Action) :
    run step state (action :: rest) =
      (step state action).bind fun next => run step next rest := by
  cases hstep : step state action <;> simp [run, hstep]

theorem run_append (state : State) (first second : List Action) :
    run step state (first ++ second) =
      (run step state first).bind fun passed => run step passed second := by
  induction first generalizing state with
  | nil => rfl
  | cons action rest ih =>
    rw [List.cons_append, run_cons, run_cons]
    cases step state action with
    | none => rfl
    | some next => exact ih next

variable {state next final : State} {action : Action} {actions : List Action}

theorem run_cons_eq_some {rest : List Action} : run step state (action :: rest) = some final ↔
    ∃ next, step state action = some next ∧ run step next rest = some final := by
  rw [run_cons, Option.bind_eq_some_iff]

theorem along_cons (hstep : step state action = some next) {rest : List Action} :
    Along step holds state (action :: rest) ↔ holds state action ∧ Along step holds next rest := by
  simp only [Along, hstep]

theorem along_singleton : Along step holds state [action] ↔ holds state action := by
  cases hstep : step state action <;> simp [Along, hstep]

theorem along_of_forall (hall : ∀ state action, holds state action) (state : State)
    (actions : List Action) : Along step holds state actions := by
  induction actions generalizing state with
  | nil => trivial
  | cons action rest ih =>
    refine ⟨hall state action, ?_⟩
    cases step state action with
    | none => trivial
    | some next => exact ih next

theorem along_of_mem {meets : Action → Prop} (hall : ∀ action ∈ actions, meets action)
    (state : State) :
    Along step (fun _ action => meets action) state actions := by
  induction actions generalizing state with
  | nil => trivial
  | cons action rest ih =>
    obtain ⟨haction, hrest⟩ := List.forall_mem_cons.mp hall
    refine ⟨haction, ?_⟩
    cases step state action with
    | none => trivial
    | some next => exact ih hrest next

theorem run_invariant_counted (Inv : Nat → State → Prop)
    (hpreserved : ∀ count state action next, Inv count state → holds state action →
      step state action = some next → Inv (count + 1) next)
    (count : Nat) (hinit : Inv count state) (halong : Along step holds state actions)
    (hrun : run step state actions = some final) : Inv (count + actions.length) final := by
  induction actions generalizing count state with
  | nil =>
    obtain rfl : state = final := by simpa using hrun
    exact hinit
  | cons action rest ih =>
    obtain ⟨next, hstep, hrest⟩ := run_cons_eq_some.mp hrun
    obtain ⟨hholds, htail⟩ := (along_cons hstep).mp halong
    have hnext := ih (count + 1) (hpreserved count state action next hinit hholds hstep)
      htail hrest
    rwa [Nat.add_assoc, Nat.add_comm 1] at hnext

theorem run_invariant (Inv : State → Prop)
    (hpreserved : ∀ state action next, Inv state → holds state action →
      step state action = some next → Inv next)
    (hinit : Inv state) (halong : Along step holds state actions)
    (hrun : run step state actions = some final) : Inv final :=
  run_invariant_counted (fun _ => Inv) (fun _ => hpreserved) 0 hinit halong hrun

theorem run_invariant_all (Inv : State → Prop)
    (hpreserved : ∀ state action next, Inv state → step state action = some next → Inv next)
    (hinit : Inv state) (hrun : run step state actions = some final) : Inv final :=
  run_invariant Inv
    (fun state action next hstate (_ : True) hstep => hpreserved state action next hstate hstep)
    hinit (along_of_forall (fun _ _ => trivial) state actions) hrun

theorem along_of_invariant {gives : State → Action → Prop} (Inv : State → Prop)
    (hpreserved : ∀ state action next, Inv state → holds state action →
      step state action = some next → Inv next)
    (hgives : ∀ state action, Inv state → holds state action → gives state action)
    (hinit : Inv state) (halong : Along step holds state actions) :
    Along step gives state actions := by
  induction actions generalizing state with
  | nil => trivial
  | cons action rest ih =>
    obtain ⟨hholds, htail⟩ := halong
    refine ⟨hgives state action hinit hholds, ?_⟩
    cases hstep : step state action with
    | none => trivial
    | some next =>
      simp only [hstep] at htail
      exact ih (hpreserved state action next hinit hholds hstep) htail

theorem along_iff_invariant (Inv : State → Prop)
    (hexact : ∀ state action next, Inv state → step state action = some next →
      (Inv next ↔ holds state action))
    (hinit : Inv state) (hrun : run step state actions = some final) :
    Along step holds state actions ↔
      ∀ first second passed, actions = first ++ second → run step state first = some passed →
        Inv passed := by
  induction actions generalizing state with
  | nil =>
    refine ⟨fun _ first second passed hsplit hpassed => ?_, fun _ => trivial⟩
    obtain ⟨rfl, -⟩ := List.append_eq_nil_iff.mp hsplit.symm
    obtain rfl : state = passed := by simpa using hpassed
    exact hinit
  | cons action rest ih =>
    obtain ⟨next, hstep, hrest⟩ := run_cons_eq_some.mp hrun
    rw [along_cons hstep]
    constructor
    · rintro ⟨hholds, htail⟩ first second passed hsplit hpassed
      have hnext : Inv next := (hexact state action next hinit hstep).mpr hholds
      cases first with
      | nil =>
        obtain rfl : state = passed := by simpa using hpassed
        exact hinit
      | cons head first =>
        obtain ⟨rfl, rfl⟩ := List.cons.inj hsplit
        simp only [run, hstep] at hpassed
        exact (ih hnext hrest).mp htail first second passed rfl hpassed
    · intro hpasses
      have hnext : Inv next :=
        hpasses [action] rest next rfl (by simp [run, hstep])
      refine ⟨(hexact state action next hinit hstep).mp hnext, (ih hnext hrest).mpr ?_⟩
      intro first second passed hsplit hpassed
      exact hpasses (action :: first) second passed (by rw [hsplit]; rfl)
        (by simpa [run, hstep] using hpassed)

end Execution

instance Along.decidable (step : State → Action → Option State)
    (holds : State → Action → Prop) [∀ state action, Decidable (holds state action)] :
    (state : State) → (actions : List Action) → Decidable (Along step holds state actions)
  | _, [] => .isTrue trivial
  | state, action :: rest =>
    match hstep : step state action with
    | none => decidable_of_iff (holds state action) (by simp [Along, hstep])
    | some next =>
      have := Along.decidable step holds next rest
      decidable_of_iff (holds state action ∧ Along step holds next rest)
        (by simp [Along, hstep])

end ValkeyGlide.Foundation

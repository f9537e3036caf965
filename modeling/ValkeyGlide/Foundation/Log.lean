import ValkeyGlide.Foundation.Run

/-!
# What a run emits

Each step of a transition system may emit events, which its pre-state and its
action determine.  `logged` lists the events of an execution in order, and
`logged_invariant` is the invariant rule for a state together with all that was
emitted before.
-/

namespace ValkeyGlide.Foundation

variable {State Action Event : Type*}

def logged (step : State → Action → Option State) (emits : State → Action → List Event) :
    State → List Action → List Event
  | _, [] => []
  | state, action :: rest =>
    emits state action ++
      match step state action with
      | none => []
      | some next => logged step emits next rest

section Logged

variable {step : State → Action → Option State} {holds : State → Action → Prop}
  {emits : State → Action → List Event}

variable {state final : State} {actions : List Action}

theorem logged_invariant_from (Inv : List Event → State → Prop)
    (hpreserved : ∀ log state action next, Inv log state → holds state action →
      step state action = some next → Inv (log ++ emits state action) next)
    {log : List Event} (hinit : Inv log state) (halong : Along step holds state actions)
    (hrun : run step state actions = some final) :
    Inv (log ++ logged step emits state actions) final := by
  induction actions generalizing log state with
  | nil =>
    obtain rfl : state = final := by simpa using hrun
    simpa [logged] using hinit
  | cons action rest ih =>
    obtain ⟨next, hstep, hrest⟩ := run_cons_eq_some.mp hrun
    obtain ⟨hholds, htail⟩ := (along_cons hstep).mp halong
    have hnext := ih (hpreserved log state action next hinit hholds hstep) htail hrest
    simpa [logged, hstep, List.append_assoc] using hnext

theorem logged_invariant (Inv : List Event → State → Prop)
    (hpreserved : ∀ log state action next, Inv log state → holds state action →
      step state action = some next → Inv (log ++ emits state action) next)
    (hinit : Inv [] state) (halong : Along step holds state actions)
    (hrun : run step state actions = some final) :
    Inv (logged step emits state actions) final :=
  logged_invariant_from Inv hpreserved hinit halong hrun

theorem logged_eq_flatMap {events : Action → List Event}
    (hrun : run step state actions = some final) :
    logged step (fun _ action => events action) state actions = actions.flatMap events := by
  induction actions generalizing state with
  | nil => rfl
  | cons action rest ih =>
    obtain ⟨next, hstep, hrest⟩ := run_cons_eq_some.mp hrun
    simp [logged, hstep, ih hrest]

theorem logged_invariant_all (Inv : List Event → State → Prop)
    (hpreserved : ∀ log state action next, Inv log state → step state action = some next →
      Inv (log ++ emits state action) next)
    (hinit : Inv [] state) (hrun : run step state actions = some final) :
    Inv (logged step emits state actions) final :=
  logged_invariant Inv
    (fun log state action next hlog (_ : True) hstep =>
      hpreserved log state action next hlog hstep)
    hinit (along_of_forall (fun _ _ => trivial) state actions) hrun

theorem run_invariant_history (Inv : List Action → State → Prop)
    (hpreserved : ∀ history state action next, Inv history state →
      step state action = some next → Inv (history ++ [action]) next)
    (hinit : Inv [] state) (hrun : run step state actions = some final) : Inv actions final := by
  have hlogged := logged_invariant_all Inv hpreserved hinit hrun
  rwa [logged_eq_flatMap hrun, List.flatMap_singleton'] at hlogged

end Logged

end ValkeyGlide.Foundation

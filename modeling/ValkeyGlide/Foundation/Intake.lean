import Mathlib.Data.List.Basic

/-!
# Reading inputs into a machine

Inputs are read one after another.  Each gives some events, and one that is
malformed ends the reading with an error after its own events.  The events go to
a machine as they are read, which may stop for good.  What the machine does with
all the inputs is what it does with the events of the whole reading.
-/

namespace ValkeyGlide.Foundation

variable {ε β ι σ : Type}

structure Reading (ι ε : Type) where
  events : List ι
  error : Option ε

namespace Reading

def readAll (read : β → Reading ι ε) : List β → Reading ι ε
  | [] => ⟨[], none⟩
  | input :: rest =>
    match (read input).error with
    | some error => ⟨(read input).events, some error⟩
    | none => ⟨(read input).events ++ (readAll read rest).events, (readAll read rest).error⟩

/-- `none` when the machine stops. -/
def drive (step : σ → ι → Option σ) (state : σ) (reading : Reading ι ε) : ExceptT ε Option σ :=
  ExceptT.mk ((reading.events.foldlM step state).map fun final =>
    match reading.error with
    | some error => .error error
    | none => .ok final)

variable {read : β → Reading ι ε} {step : σ → ι → Option σ} {state : σ} {inputs : List β}
  {input : β}

theorem readAll_cons_malformed {error : ε} (hread : (read input).error = some error)
    (rest : List β) : readAll read (input :: rest) = ⟨(read input).events, some error⟩ := by
  rw [readAll, hread]

theorem readAll_cons_wellFormed (hread : (read input).error = none) (rest : List β) :
    readAll read (input :: rest) =
      ⟨(read input).events ++ (readAll read rest).events, (readAll read rest).error⟩ := by
  rw [readAll, hread]

theorem foldlM_drive (read : β → Reading ι ε) (step : σ → ι → Option σ) (state : σ)
    (inputs : List β) :
    inputs.foldlM (fun state input => drive step state (read input)) state =
      drive step state (readAll read inputs) := by
  induction inputs generalizing state with
  | nil => rfl
  | cons input rest ih =>
    rw [List.foldlM_cons]
    cases hread : (read input).error with
    | some error =>
      rw [readAll_cons_malformed hread]
      unfold drive
      rw [hread]
      cases (read input).events.foldlM step state <;> rfl
    | none =>
      rw [readAll_cons_wellFormed hread]
      unfold drive at ih ⊢
      rw [hread, List.foldlM_append]
      cases hevents : (read input).events.foldlM step state with
      | none => rfl
      | some next => exact ih next

variable {reading : Reading ι ε}

theorem drive_run_eq_some_iff {outcome : Except ε σ} :
    (drive step state reading).run = some outcome ↔
      ∃ final, reading.events.foldlM step state = some final ∧
        outcome = reading.error.elim (.ok final) .error := by
  unfold drive
  rw [ExceptT.run_mk, Option.map_eq_some_iff]
  cases reading.error <;> simp [Option.elim_none, Option.elim_some, eq_comm]

theorem readAll_of_wellFormed (hinputs : ∀ input ∈ inputs, (read input).error = none) :
    readAll read inputs = ⟨inputs.flatMap fun input => (read input).events, none⟩ := by
  induction inputs with
  | nil => rfl
  | cons input rest ih =>
    obtain ⟨hinput, hrest⟩ := List.forall_mem_cons.mp hinputs
    rw [readAll_cons_wellFormed hinput, ih hrest, List.flatMap_cons]

theorem readAll_append_of_wellFormed (hinputs : ∀ input ∈ inputs, (read input).error = none)
    (rest : List β) :
    (readAll read (inputs ++ rest)).events =
      inputs.flatMap (fun input => (read input).events) ++ (readAll read rest).events := by
  induction inputs with
  | nil => rfl
  | cons input inputs ih =>
    obtain ⟨hinput, hinputs⟩ := List.forall_mem_cons.mp hinputs
    rw [List.cons_append, readAll_cons_wellFormed hinput, ih hinputs, List.flatMap_cons,
      List.append_assoc]

theorem map_drive_run_eq_some_iff {τ : Type} {finish : σ → τ} {outcome : Except ε τ} :
    (finish <$> drive step state reading).run = some outcome ↔
      ∃ final, reading.events.foldlM step state = some final ∧
        outcome = reading.error.elim (.ok (finish final)) .error := by
  rw [ExceptT.run_map, Option.map_eq_map, Option.map_eq_some_iff]
  constructor
  · rintro ⟨fed, hfed, rfl⟩
    obtain ⟨final, hfinal, rfl⟩ := drive_run_eq_some_iff.mp hfed
    refine ⟨final, hfinal, ?_⟩
    cases reading.error <;> rfl
  · rintro ⟨final, hfinal, rfl⟩
    refine ⟨_, drive_run_eq_some_iff.mpr ⟨final, hfinal, rfl⟩, ?_⟩
    cases reading.error <;> rfl

theorem exists_outcome_of_foldlM {κ τ : Type} {steps : κ → σ → ι → Option σ} {finish : σ → τ}
    (hfold : ∃ final, ∀ mode, reading.events.foldlM (steps mode) state = some final) :
    ∃ outcome, ∀ mode, (finish <$> drive (steps mode) state reading).run = some outcome := by
  obtain ⟨final, hfold⟩ := hfold
  exact ⟨reading.error.elim (.ok (finish final)) .error, fun mode =>
    map_drive_run_eq_some_iff.mpr ⟨final, hfold mode, rfl⟩⟩

theorem readAll_events_prefix (read : β → Reading ι ε) (inputs : List β) :
    (readAll read inputs).events <+: inputs.flatMap fun input => (read input).events := by
  induction inputs with
  | nil => exact List.prefix_refl []
  | cons input rest ih =>
    rw [List.flatMap_cons]
    cases hread : (read input).error with
    | some error =>
      rw [readAll_cons_malformed hread]
      exact List.prefix_append _ _
    | none =>
      rw [readAll_cons_wellFormed hread]
      exact List.prefix_append_right_inj _ |>.mpr ih

end Reading

end ValkeyGlide.Foundation

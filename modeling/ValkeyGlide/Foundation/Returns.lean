/-!
# Computations that may fail or not return

A computation in `ExceptT ε Option` ends with a value, ends with an error, or does not
end.  `Returns` says that it ends with a given value; its lemmas take a computation
apart along the monad operations.
-/

namespace ValkeyGlide.Foundation

def Returns {ε α : Type} (computation : ExceptT ε Option α) (value : α) : Prop :=
  computation.run = some (.ok value)

section Returns

variable {ε α β : Type} {computation : ExceptT ε Option α} {value result : α} {final : β}

theorem Returns.unique {other : α} (hvalue : Returns computation value)
    (hother : Returns computation other) : value = other :=
  Except.ok.inj (Option.some.inj (hvalue.symm.trans hother))

@[simp] theorem returns_pure : Returns (pure result : ExceptT ε Option α) value ↔ result = value := by
  simp [Returns]

@[simp] theorem returns_bind {next : α → ExceptT ε Option β} :
    Returns (computation >>= next) final ↔
      ∃ value, Returns computation value ∧ Returns (next value) final := by
  unfold Returns
  rw [ExceptT.run_bind]
  cases hrun : computation.run with
  | none => simp
  | some outcome => cases outcome <;> simp

@[simp] theorem returns_map {map : α → β} :
    Returns (map <$> computation) final ↔ ∃ value, Returns computation value ∧ map value = final := by
  unfold Returns
  rw [ExceptT.run_map]
  cases hrun : computation.run with
  | none => simp
  | some outcome => cases outcome <;> simp [Except.map]

@[simp] theorem returns_lift {option : Option α} :
    Returns (liftM option : ExceptT ε Option α) value ↔ option = some value := by
  cases option <;> simp [Returns, liftM, monadLift, MonadLift.monadLift, ExceptT.lift, ExceptT.run,
    ExceptT.mk]

theorem lift_some_bind (value : α) (next : α → ExceptT ε Option β) :
    (liftM (some value) : ExceptT ε Option α) >>= next = next value := rfl

@[simp] theorem returns_liftExcept {outcome : Except ε α} :
    Returns (liftExcept outcome : ExceptT ε Option α) value ↔ outcome = .ok value := by
  cases outcome <;> simp [Returns, liftExcept, throw, throwThe, MonadExceptOf.throw, ExceptT.run,
    ExceptT.mk, pure, ExceptT.pure]

@[simp] theorem not_returns_throw {error : ε} :
    ¬ Returns (throw error : ExceptT ε Option α) value := by
  simp [Returns]

@[simp] theorem not_returns_none : ¬ Returns (ExceptT.mk none : ExceptT ε Option α) value := by
  simp [Returns, ExceptT.run, ExceptT.mk]

end Returns

end ValkeyGlide.Foundation

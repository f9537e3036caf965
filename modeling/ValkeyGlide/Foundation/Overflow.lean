import Mathlib.Algebra.BigOperators.Group.List.Basic
import Mathlib.Algebra.Order.BigOperators.Group.List
import Mathlib.Algebra.Order.Group.Int
import Mathlib.Algebra.Ring.Int.Defs

/-!
# Machine integers

Arithmetic on a bounded range of integers, in a build that stops on overflow and
in one that wraps.  A sum accumulated from left to right stays in the range when
every running sum does, and then both builds compute the mathematical sum.  It
stays in the range in every order exactly when the positive terms and the
negative terms do, each taken together.
-/

namespace ValkeyGlide.Foundation

/-- What a build does when a result leaves the range. -/
inductive Overflow where
  | panics
  | wraps
  deriving DecidableEq, Repr

structure MachineInt where
  lower : Int
  upper : Int

namespace MachineInt

variable (type : MachineInt)

def Contains (value : Int) : Prop := type.lower ≤ value ∧ value ≤ type.upper

instance (value : Int) : Decidable (type.Contains value) :=
  inferInstanceAs (Decidable (_ ∧ _))

/-- The result of an operation whose exact value is `exact`; `none` is a panic. -/
def result (overflow : Overflow) (exact : Int) : Option Int :=
  if type.Contains exact then some exact
  else
    match overflow with
    | .panics => none
    | .wraps => some (type.lower + (exact - type.lower) % (type.upper - type.lower + 1))

def add (overflow : Overflow) (left right : Int) : Option Int := type.result overflow (left + right)

variable {type} {overflow : Overflow}

variable {exact start : Int} {terms part : List Int}

theorem result_of_contains (hcontains : type.Contains exact) :
    type.result overflow exact = some exact :=
  if_pos hcontains

@[simp] theorem result_panics_eq_some {value : Int} :
    type.result .panics exact = some value ↔ type.Contains exact ∧ exact = value := by
  unfold result
  split_ifs with hcontains <;> simp [hcontains]

/-! ## Running sums -/

def RunsIn (type : MachineInt) (start : Int) (terms : List Int) : Prop :=
  ∀ done, done <+: terms → done ≠ [] → type.Contains (start + done.sum)

theorem runsIn_cons {term : Int} :
    type.RunsIn start (term :: terms) ↔
      type.Contains (start + term) ∧ type.RunsIn (start + term) terms := by
  constructor
  · intro hruns
    refine ⟨?_, fun done hprefix hdone => ?_⟩
    · simpa using hruns [term] (by simp) (by simp)
    · have := hruns (term :: done) (List.cons_prefix_cons.mpr ⟨rfl, hprefix⟩) (by simp)
      rwa [List.sum_cons, ← Int.add_assoc] at this
  · rintro ⟨hfirst, hrest⟩ done hprefix hdone
    cases done with
    | nil => contradiction
    | cons head done =>
      obtain ⟨rfl, htail⟩ := List.cons_prefix_cons.mp hprefix
      rw [List.sum_cons, ← Int.add_assoc]
      by_cases hempty : done = []
      · simpa [hempty] using hfirst
      · exact hrest done htail hempty

theorem foldlM_add_of_runsIn (hruns : type.RunsIn start terms) :
    terms.foldlM (type.add overflow) start = some (start + terms.sum) := by
  induction terms generalizing start with
  | nil => simp
  | cons term terms ih =>
    obtain ⟨hfirst, hrest⟩ := runsIn_cons.mp hruns
    have hadd : type.add overflow start term = some (start + term) := result_of_contains hfirst
    rw [List.foldlM_cons, hadd, Option.bind_eq_bind, Option.bind_some, ih hrest, List.sum_cons,
      Int.add_assoc]

theorem runsIn_of_foldlM_add {total : Int}
    (hfold : terms.foldlM (type.add .panics) start = some total) : type.RunsIn start terms := by
  induction terms generalizing start with
  | nil =>
    intro done hprefix hdone
    exact absurd (List.prefix_nil.mp hprefix) hdone
  | cons term terms ih =>
    obtain ⟨next, hadd, hrest⟩ := Option.bind_eq_some_iff.mp hfold
    obtain ⟨hcontains, rfl⟩ := result_panics_eq_some.mp hadd
    exact runsIn_cons.mpr ⟨hcontains, ih hrest⟩

/-! ## Sums in every order -/

theorem sum_le_sum_positive (hpart : part.Subperm terms) :
    part.sum ≤ (terms.filter (0 < ·)).sum := by
  have hpositive : ∀ list : List Int, list.sum ≤ (list.filter (0 < ·)).sum := by
    intro list
    induction list with
    | nil => simp
    | cons term list ih =>
      rw [List.filter_cons]
      split_ifs with hterm
      · simpa using ih
      · have : ¬ 0 < term := by simpa using hterm
        rw [List.sum_cons]
        omega
  obtain ⟨kept, hperm, hsublist⟩ := hpart.filter (0 < ·)
  calc part.sum ≤ (part.filter (0 < ·)).sum := hpositive part
    _ = kept.sum := hperm.symm.sum_eq
    _ ≤ (terms.filter (0 < ·)).sum := by
        refine hsublist.sum_le_sum fun term hterm => ?_
        have : 0 < term := by simpa using (List.mem_filter.mp hterm).2
        exact this.le

theorem sum_negative_le_sum (hpart : part.Subperm terms) :
    (terms.filter (· < 0)).sum ≤ part.sum := by
  have hneg : ∀ list : List Int, (list.map (- ·)).sum = - list.sum := by
    intro list
    induction list with
    | nil => rfl
    | cons term list ih =>
      rw [List.map_cons, List.sum_cons, List.sum_cons, ih]
      omega
  obtain ⟨kept, hperm, hsublist⟩ := hpart
  have hbound := sum_le_sum_positive
    (⟨kept.map (- ·), hperm.map _, hsublist.map _⟩ : (part.map (- ·)).Subperm (terms.map (- ·)))
  rw [hneg, List.filter_map, hneg] at hbound
  have hfilter : terms.filter ((fun term => decide (0 < term)) ∘ fun term => - term) =
      terms.filter (· < 0) := by
    refine List.filter_congr fun term _ => ?_
    simp
  rw [hfilter] at hbound
  omega

/-- The terms stay in the range in every order, the positive ones together and the negative
ones together. -/
structure FitsAnyOrder (type : MachineInt) (terms : List Int) : Prop where
  positive : (terms.filter (0 < ·)).sum ≤ type.upper
  negative : type.lower ≤ (terms.filter (· < 0)).sum

theorem FitsAnyOrder.runsIn (hfits : type.FitsAnyOrder terms) (hpart : part.Subperm terms) :
    type.RunsIn 0 part := by
  intro done hprefix _
  have hdone : done.Subperm terms := hprefix.sublist.subperm.trans hpart
  rw [Int.zero_add]
  exact ⟨hfits.negative.trans (sum_negative_le_sum hdone),
    (sum_le_sum_positive hdone).trans hfits.positive⟩

theorem fitsAnyOrder_of_runsIn {rest rest' : List Int} (hzero : type.Contains 0)
    (hpositive : type.RunsIn 0 (terms.filter (0 < ·) ++ rest))
    (hnegative : type.RunsIn 0 (terms.filter (· < 0) ++ rest')) : type.FitsAnyOrder terms := by
  have hbound : ∀ first rest : List Int, type.RunsIn 0 (first ++ rest) →
      type.Contains first.sum := by
    intro first rest hruns
    by_cases hfirst : first = []
    · simpa [hfirst] using hzero
    · simpa using hruns first (List.prefix_append _ _) hfirst
  exact ⟨(hbound _ _ hpositive).2, (hbound _ _ hnegative).1⟩

end MachineInt

end ValkeyGlide.Foundation

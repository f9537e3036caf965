import Mathlib.Algebra.Order.Group.Nat
import Mathlib.Data.List.Basic
import Mathlib.Tactic.Common

/-!
# Election in one pass

The candidate with the most votes, and among those the one with the greatest
weight, found in one pass that also notices whether the most votes were shared.
-/

namespace ValkeyGlide.Foundation

section Election

variable {α : Type*} (votes weight : α → Nat)

/-- The flag says that another candidate seen so far has as many votes as the leader. -/
def electStep (leader : α × Bool) (candidate : α) : α × Bool :=
  match compare (votes leader.1) (votes candidate) with
  | .lt => (candidate, false)
  | .gt => leader
  | .eq => (if weight leader.1 < weight candidate then candidate else leader.1, true)

def elect (first : α) (rest : List α) : α × Bool :=
  rest.foldl (electStep votes weight) (first, false)

structure Elected (candidates : List α) (leader : α) (shared : Bool) : Prop where
  mem : leader ∈ candidates
  votes_le : ∀ candidate ∈ candidates, votes candidate ≤ votes leader
  weight_le : ∀ candidate ∈ candidates, votes candidate = votes leader →
    weight candidate ≤ weight leader
  shared_iff : shared = true ↔ 2 ≤ candidates.countP fun other => votes other = votes leader

variable {votes weight} {candidates : List α} {leader : α} {shared : Bool}

namespace Elected

theorem single (candidate : α) : Elected votes weight [candidate] candidate false := by
  refine ⟨by simp, by simp, by simp, ?_⟩
  simp

private theorem forall_mem_concat {holds : α → Prop} {candidate : α}
    (hbefore : ∀ other ∈ candidates, holds other) (hlast : holds candidate) :
    ∀ other ∈ candidates ++ [candidate], holds other := by
  intro other hother
  rcases List.mem_append.mp hother with hother | hother
  · exact hbefore other hother
  · rwa [List.mem_singleton.mp hother]

variable (helected : Elected votes weight candidates leader shared) {candidate : α}

include helected

theorem overtaken (hlt : votes leader < votes candidate) :
    Elected votes weight (candidates ++ [candidate]) candidate false := by
  have hnone : candidates.countP (fun other => votes other = votes candidate) = 0 := by
    refine List.countP_eq_zero.mpr fun other hother => ?_
    have hle := helected.votes_le other hother
    simp only [decide_eq_true_eq]
    omega
  refine ⟨by simp, forall_mem_concat ?_ (Nat.le_refl _), forall_mem_concat ?_ ?_, ?_⟩
  · intro other hother
    have hle := helected.votes_le other hother
    omega
  · intro other hother hsame
    have hle := helected.votes_le other hother
    omega
  · exact fun _ => Nat.le_refl _
  · simp [hnone]

theorem shares (heq : votes leader = votes candidate) :
    Elected votes weight (candidates ++ [candidate])
      (if weight leader < weight candidate then candidate else leader) true := by
  have hvotes : votes (if weight leader < weight candidate then candidate else leader) =
      votes leader := by
    split_ifs
    · exact heq.symm
    · rfl
  have hpos : 0 < candidates.countP fun other => votes other = votes leader :=
    List.countP_pos_iff.mpr ⟨leader, helected.mem, by simp⟩
  have hlast : [candidate].countP (fun other => votes other = votes leader) = 1 := by
    simp [heq]
  constructor
  · split_ifs
    · simp
    · exact List.mem_append_left _ helected.mem
  · rw [hvotes]
    exact forall_mem_concat helected.votes_le heq.symm.le
  · rw [hvotes]
    refine forall_mem_concat (fun other hother hsame => ?_) fun _ => ?_
    · have hle := helected.weight_le other hother hsame
      split_ifs <;> omega
    · split_ifs <;> omega
  · rw [hvotes, List.countP_append]
    simp only [true_iff]
    omega

theorem step (candidate : α) :
    Elected votes weight (candidates ++ [candidate])
      (electStep votes weight (leader, shared) candidate).1
      (electStep votes weight (leader, shared) candidate).2 := by
  unfold electStep
  rcases Nat.lt_trichotomy (votes leader) (votes candidate) with hlt | heq | hgt
  · rw [Nat.compare_eq_lt.mpr hlt]
    exact helected.overtaken hlt
  · rw [Nat.compare_eq_eq.mpr heq]
    exact helected.shares heq
  · rw [Nat.compare_eq_gt.mpr hgt]
    have hlast : [candidate].countP (fun other => votes other = votes leader) = 0 := by
      simp [hgt.ne]
    refine ⟨List.mem_append_left _ helected.mem, forall_mem_concat helected.votes_le hgt.le,
      forall_mem_concat helected.weight_le fun hsame => absurd hsame hgt.ne, ?_⟩
    rw [helected.shared_iff, List.countP_append, hlast, Nat.add_zero]

theorem foldl (rest : List α) :
    Elected votes weight (candidates ++ rest)
      (rest.foldl (electStep votes weight) (leader, shared)).1
      (rest.foldl (electStep votes weight) (leader, shared)).2 := by
  induction rest generalizing candidates leader shared with
  | nil => simpa using helected
  | cons candidate rest ih =>
    have hnext := ih (helected.step candidate)
    rwa [List.append_assoc] at hnext

end Elected

theorem elect_elected (first : α) (rest : List α) :
    Elected votes weight (first :: rest) (elect votes weight first rest).1
      (elect votes weight first rest).2 :=
  (Elected.single first).foldl rest

end Election

end ValkeyGlide.Foundation

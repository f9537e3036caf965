import Mathlib.Data.List.Nodup
import Mathlib.Data.List.Perm.Basic
import Mathlib.Tactic.Common

/-!
# Identifiers in circulation

A system hands identified items from one collection to another.  Identifiers are
allocated from a counter, so that each is in circulation at most once and lies
below the counter.  `Turnover` is what one step does to them: some leave, at most
one new one enters, and the others stay in some order.
-/

namespace ValkeyGlide.Foundation

theorem perm_cons_eraseIdx {α : Type*} {items : List α} {index : Nat} {item : α}
    (hitem : items[index]? = some item) : items.Perm (item :: items.eraseIdx index) := by
  obtain ⟨hlt, rfl⟩ := List.getElem?_eq_some_iff.mp hitem
  exact (List.getElem_cons_eraseIdx_perm hlt).symm

section Taken

variable {α β : Type*} [BEq β] {items : List α} {index : Nat} {item : α}

theorem count_filterMap_eraseIdx (hitem : items[index]? = some item) (f : α → Option β)
    (value : β) :
    (items.filterMap f).count value =
      (f item).toList.count value + ((items.eraseIdx index).filterMap f).count value := by
  have hperm := (perm_cons_eraseIdx hitem).filterMap f
  have htaken : (item :: items.eraseIdx index).filterMap f =
      (f item).toList ++ (items.eraseIdx index).filterMap f := by
    cases hvalue : f item <;> simp [hvalue]
  rw [hperm.count_eq value, htaken, List.count_append]

theorem count_filterMap_set (hitem : items[index]? = some item) (other : α) (f : α → Option β)
    (value : β) :
    ((items.set index other).filterMap f).count value =
      (f other).toList.count value + ((items.eraseIdx index).filterMap f).count value := by
  have hlt : index < items.length := (List.getElem?_eq_some_iff.mp hitem).1
  have hset : (items.set index other)[index]? = some other := List.getElem?_set_self hlt
  rw [count_filterMap_eraseIdx hset, List.eraseIdx_set_eq]

end Taken

/-- No identifier occurs twice, and all have been allocated. -/
structure Circulation (ids : List Nat) (next : Nat) : Prop where
  nodup : ids.Nodup
  allocated : ∀ id ∈ ids, id < next

structure Turnover (ids : List Nat) (next : Nat) (ids' : List Nat) (next' : Nat)
    (dropped added : List Nat) : Prop where
  perm : (dropped ++ ids').Perm (added ++ ids)
  fresh : added = [] ∧ next' = next ∨ added = [next] ∧ next' = next + 1

namespace Turnover

variable {ids ids' dropped added : List Nat} {next next' : Nat}

theorem refl (ids : List Nat) (next : Nat) : Turnover ids next ids next [] [] :=
  ⟨.refl _, .inl ⟨rfl, rfl⟩⟩

theorem of_perm (hperm : (dropped ++ ids').Perm ids) : Turnover ids next ids' next dropped [] :=
  ⟨hperm, .inl ⟨rfl, rfl⟩⟩

variable (hturn : Turnover ids next ids' next' dropped added)
include hturn

theorem next_le : next ≤ next' := by
  rcases hturn.fresh with ⟨-, rfl⟩ | ⟨-, rfl⟩
  · exact Nat.le_refl _
  · exact Nat.le_succ _

theorem circulation_added (hcirc : Circulation ids next) : Circulation (added ++ ids) next' := by
  rcases hturn.fresh with ⟨rfl, rfl⟩ | ⟨rfl, rfl⟩
  · exact hcirc
  · have hnew : next ∉ ids := fun hmem => Nat.lt_irrefl _ (hcirc.allocated _ hmem)
    refine ⟨List.nodup_cons.mpr ⟨hnew, hcirc.nodup⟩, ?_⟩
    intro id hid
    rcases List.mem_cons.mp hid with rfl | hid
    · exact Nat.lt_succ_self _
    · exact Nat.lt_succ_of_lt (hcirc.allocated id hid)

theorem circulation (hcirc : Circulation ids next) : Circulation ids' next' := by
  have hold := hturn.circulation_added hcirc
  exact {
    nodup := (hturn.perm.nodup_iff.mpr hold.nodup).of_append_right
    allocated := fun id hid =>
      hold.allocated id (hturn.perm.mem_iff.mp (List.mem_append.mpr (.inr hid))) }

theorem length : ids'.length + dropped.length = ids.length + added.length := by
  have hlength := hturn.perm.length_eq
  simp only [List.length_append] at hlength
  omega

theorem notMem {id : Nat} (hlt : id < next) (hnot : id ∉ ids) : id ∉ ids' := by
  intro hmem
  rcases List.mem_append.mp (hturn.perm.mem_iff.mp (List.mem_append.mpr (.inr hmem))) with
    hadded | hold
  · rcases hturn.fresh with ⟨rfl, -⟩ | ⟨rfl, -⟩
    · contradiction
    · rw [List.mem_singleton.mp hadded] at hlt
      exact Nat.lt_irrefl _ hlt
  · exact hnot hold

theorem notMem_of_dropped (hcirc : Circulation ids next) {id : Nat} (hdropped : id ∈ dropped) : id ∉ ids' :=
  List.disjoint_of_nodup_append
    (hturn.perm.nodup_iff.mpr (hturn.circulation_added hcirc).nodup) hdropped

end Turnover

end ValkeyGlide.Foundation

import Mathlib.Algebra.BigOperators.Group.List.Basic
import Mathlib.Data.List.AList

/-!
# Totals over finite tables

Every value of a table has a weight in a commutative monoid, a number or a multiset
for instance.  The total of the table is known once it is known for the table without
one key.
-/

namespace ValkeyGlide.Foundation.Table

variable {κ α M : Type*} [DecidableEq κ] [AddCommMonoid M]

def total (weight : α → M) (table : AList fun _ : κ => α) : M :=
  (table.entries.map fun entry => weight entry.2).sum

variable {weight : α → M} {table : AList fun _ : κ => α} {key : κ} {value : α}

omit [DecidableEq κ] in
@[simp] theorem total_empty : total weight (∅ : AList fun _ : κ => α) = 0 := rfl

theorem total_insert :
    total weight (table.insert key value) = weight value + total weight (table.erase key) := by
  rw [total, AList.entries_insert, List.map_cons, List.sum_cons]
  rfl

theorem total_of_lookup (hlookup : table.lookup key = some value) :
    total weight table = weight value + total weight (table.erase key) := by
  have hmem : (⟨key, value⟩ : Sigma fun _ : κ => α) ∈ table.entries :=
    AList.mem_lookup_iff.mp hlookup
  obtain ⟨other, before, after, -, hentries, herase⟩ :=
    List.exists_of_kerase (List.mem_keys_of_mem hmem)
  have hother : other = value := by
    have hfound : table.lookup key = some other := by
      refine AList.mem_lookup_iff.mpr ?_
      rw [hentries]
      simp
    exact Option.some.inj (hfound.symm.trans hlookup)
  have hrest : (table.erase key).entries = before ++ after := herase
  rw [total, total, hentries, hrest]
  simp only [List.map_append, List.map_cons, List.sum_append, List.sum_cons, hother]
  exact add_left_comm _ _ _

theorem total_erase_of_lookup_eq_none (hlookup : table.lookup key = none) :
    total weight (table.erase key) = total weight table := by
  have hentries : (table.erase key).entries = table.entries :=
    List.kerase_of_notMem_keys (AList.lookup_eq_none.mp hlookup)
  rw [total, hentries, total]

end ValkeyGlide.Foundation.Table

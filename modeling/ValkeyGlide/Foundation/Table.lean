import Mathlib.Data.List.AList

/-!
# Keys of finite tables

How inserting and erasing change the list of keys of an association list, up to
order, and that erasing only takes entries away.  With these, counting the
entries of several tables between which entries move is counting lists up to
permutation.
-/

namespace ValkeyGlide.Foundation.Table

variable {κ α : Type*} [DecidableEq κ]

variable {table : AList fun _ : κ => α} {key other : κ} {value : α}

theorem mem_keys_of_lookup (hlookup : table.lookup key = some value) : key ∈ table.keys :=
  AList.mem_keys.mp (AList.lookup_isSome.mp (by simp [hlookup]))

theorem eq_empty_of_lookup (hnone : ∀ key, table.lookup key = none) : table = ∅ := by
  apply AList.ext
  refine List.eq_nil_iff_forall_not_mem.mpr fun entry hmem => ?_
  have hlookup : entry.2 ∈ table.lookup entry.1 := AList.mem_lookup_iff.mpr hmem
  rw [hnone] at hlookup
  contradiction

theorem keys_perm_of_lookup (hlookup : table.lookup key = some value) :
    table.keys.Perm (key :: (table.erase key).keys) := by
  rw [AList.keys_erase]
  exact List.perm_cons_erase (mem_keys_of_lookup hlookup)

theorem keys_insert_perm_of_lookup (hlookup : table.lookup key = some value) (other : α) :
    (table.insert key other).keys.Perm table.keys := by
  rw [AList.keys_insert]
  exact (List.perm_cons_erase (mem_keys_of_lookup hlookup)).symm

theorem keys_insert_of_notMem (value : α) (hkey : key ∉ table.keys) :
    (table.insert key value).keys = key :: table.keys := by
  rw [AList.keys_insert, List.erase_of_not_mem hkey]

theorem keys_erase_of_lookup_eq_none (hlookup : table.lookup key = none) :
    (table.erase key).keys = table.keys := by
  rw [AList.keys_erase, List.erase_of_not_mem]
  exact fun hmem => AList.lookup_eq_none.mp hlookup (AList.mem_keys.mpr hmem)

theorem erase_of_lookup_eq_none (hlookup : table.lookup key = none) : table.erase key = table := by
  apply AList.ext
  exact List.kerase_of_notMem_keys fun hmem => AList.lookup_eq_none.mp hlookup hmem

theorem lookup_of_lookup_erase (hlookup : (table.erase key).lookup other = some value) :
    table.lookup other = some value := by
  by_cases hother : other = key
  · rw [hother, AList.lookup_erase] at hlookup
    contradiction
  · rwa [AList.lookup_erase_ne hother] at hlookup

theorem lookup_of_lookup_foldl_erase {keys : List κ}
    (hlookup : (keys.foldl (fun table key => table.erase key) table).lookup other = some value) :
    table.lookup other = some value := by
  induction keys generalizing table with
  | nil => exact hlookup
  | cons key rest ih => exact lookup_of_lookup_erase (ih hlookup)

end ValkeyGlide.Foundation.Table

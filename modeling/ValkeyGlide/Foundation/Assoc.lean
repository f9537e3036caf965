import Mathlib.Data.List.Nodup
import Mathlib.Data.List.Perm.Basic

/-!
# Entries with distinct keys

A table kept as a list of entries, in whatever order its owner needs.  As long
as the keys are distinct, looking a key up is membership, and an entry can be
moved to the front up to a permutation.
-/

namespace ValkeyGlide.Foundation.Assoc

variable {κ α : Type*} [BEq κ]

def lookup (entries : List (κ × α)) (key : κ) : Option α :=
  (entries.find? fun entry => entry.1 == key).map Prod.snd

def erase (entries : List (κ × α)) (key : κ) : List (κ × α) :=
  entries.filter fun entry => entry.1 != key

def Distinct (entries : List (κ × α)) : Prop := (entries.map Prod.fst).Nodup

variable [LawfulBEq κ] {entries : List (κ × α)} {key : κ} {value : α}

theorem mem_of_lookup (hlookup : lookup entries key = some value) : (key, value) ∈ entries := by
  obtain ⟨entry, hfound, rfl⟩ := Option.map_eq_some_iff.mp hlookup
  have hkey : entry.1 = key := by simpa using List.find?_some hfound
  rw [← hkey]
  exact List.mem_of_find?_eq_some hfound

theorem lookup_eq_none_iff : lookup entries key = none ↔ key ∉ entries.map Prod.fst := by
  simp only [lookup, Option.map_eq_none_iff, List.find?_eq_none, beq_iff_eq, List.mem_map,
    not_exists, not_and]

omit [BEq κ] [LawfulBEq κ] in
theorem Distinct.unique {first second : α} (hdistinct : Distinct entries)
    (hfirst : (key, first) ∈ entries) (hsecond : (key, second) ∈ entries) : first = second :=
  (Prod.mk.inj (List.inj_on_of_nodup_map hdistinct hfirst hsecond rfl)).2

theorem lookup_eq_some_iff (hdistinct : Distinct entries) :
    lookup entries key = some value ↔ (key, value) ∈ entries := by
  refine ⟨mem_of_lookup, fun hmem => ?_⟩
  cases hlookup : lookup entries key with
  | none => exact absurd (List.mem_map_of_mem hmem) (lookup_eq_none_iff.mp hlookup)
  | some found =>
    rw [hdistinct.unique (mem_of_lookup hlookup) hmem]

theorem mem_erase {entry : κ × α} : entry ∈ erase entries key ↔ entry ∈ entries ∧ entry.1 ≠ key := by
  simp [erase]

omit [LawfulBEq κ] in
theorem Distinct.erase (hdistinct : Distinct entries) (key : κ) : Distinct (erase entries key) :=
  hdistinct.sublist (List.filter_sublist.map Prod.fst)

theorem notMem_keys_erase : key ∉ (erase entries key).map Prod.fst := by
  simp [Assoc.erase]

theorem erase_of_lookup_none (hlookup : lookup entries key = none) :
    erase entries key = entries := by
  refine List.filter_eq_self.mpr fun entry hentry => ?_
  have hne : entry.1 ≠ key := fun hkey =>
    lookup_eq_none_iff.mp hlookup (hkey ▸ List.mem_map_of_mem hentry)
  simpa using hne

theorem perm_cons_erase (hdistinct : Distinct entries) (hmem : (key, value) ∈ entries) :
    entries.Perm ((key, value) :: erase entries key) := by
  induction entries with
  | nil => contradiction
  | cons head rest ih =>
    obtain ⟨hfresh, hrest⟩ := List.nodup_cons.mp hdistinct
    rcases List.mem_cons.mp hmem with rfl | hmem
    · have hkept : erase ((key, value) :: rest) key = rest := by
        simpa [Assoc.erase] using erase_of_lookup_none (lookup_eq_none_iff.mpr hfresh)
      rw [hkept]
    · have hne : head.1 ≠ key := fun hkey => hfresh (hkey ▸ List.mem_map_of_mem hmem)
      have hkept : erase (head :: rest) key = head :: erase rest key := by
        simp [Assoc.erase, hne]
      rw [hkept]
      exact ((ih hrest hmem).cons head).trans (.swap _ _ _)

theorem Distinct.cons_erase (hdistinct : Distinct entries) (key : κ) (value : α) :
    Distinct ((key, value) :: Assoc.erase entries key) :=
  List.nodup_cons.mpr ⟨notMem_keys_erase, hdistinct.erase key⟩

end ValkeyGlide.Foundation.Assoc

import Mathlib.Order.Lattice
import Mathlib.Data.List.Nodup
import Mathlib.Order.Basic

/-!
# Ordered maps

A finite map with ordered keys, represented by its entries in increasing key
order.  The strict order of the keys is a field, so a map never holds two
entries for one key.  The two range queries are `lowerBound` (the first entry
at or after a key) and `lastBelow` (the last entry strictly before a key).
Every operation is specified by the entries it leaves in the map.
-/

namespace ValkeyGlide.Foundation

structure OrderedMap (κ : Type*) (α : Type*) [LinearOrder κ] where
  entries : List (κ × α)
  sorted : entries.Pairwise (fun first second => first.1 < second.1)

namespace OrderedMap

variable {κ α : Type*} [LinearOrder κ]

instance : Membership (κ × α) (OrderedMap κ α) :=
  ⟨fun map entry => entry ∈ map.entries⟩

instance [DecidableEq κ] [DecidableEq α] : DecidableEq (OrderedMap κ α) :=
  fun first second =>
    decidable_of_iff (first.entries = second.entries) (by
      cases first; cases second; simp)

variable {map : OrderedMap κ α} {entry : κ × α} {key : κ} {value : α} {change : α → α}

theorem mem_def :
    entry ∈ map ↔ entry ∈ map.entries := Iff.rfl

def empty : OrderedMap κ α := ⟨[], .nil⟩

def find? (map : OrderedMap κ α) (key : κ) : Option α :=
  (map.entries.find? fun entry => decide (entry.1 = key)).map Prod.snd

def insert (map : OrderedMap κ α) (key : κ) (value : α) : OrderedMap κ α where
  entries := map.entries.filter (fun entry => decide (entry.1 < key)) ++
    (key, value) :: map.entries.filter (fun entry => decide (key < entry.1))
  sorted := by
    rw [List.pairwise_append]
    refine ⟨map.sorted.filter _, List.pairwise_cons.mpr ⟨?_, map.sorted.filter _⟩, ?_⟩
    · intro entry hentry
      simpa using (List.mem_filter.mp hentry).2
    · intro below hbelow above habove
      have hlow : below.1 < key := by simpa using (List.mem_filter.mp hbelow).2
      rcases List.mem_cons.mp habove with rfl | habove
      · exact hlow
      · exact hlow.trans (by simpa using (List.mem_filter.mp habove).2)

def erase (map : OrderedMap κ α) (key : κ) : OrderedMap κ α :=
  ⟨map.entries.filter (fun entry => decide (entry.1 ≠ key)), map.sorted.filter _⟩

def modify (map : OrderedMap κ α) (key : κ) (change : α → α) : OrderedMap κ α where
  entries := map.entries.map fun entry =>
    if entry.1 = key then (entry.1, change entry.2) else entry
  sorted := by
    refine map.sorted.map _ fun first second hlt => ?_
    split_ifs <;> exact hlt

def lowerBound (map : OrderedMap κ α) (key : κ) : Option (κ × α) :=
  map.entries.find? fun entry => decide (key ≤ entry.1)

def lastBelow (map : OrderedMap κ α) (key : κ) : Option (κ × α) :=
  (map.entries.filter fun entry => decide (entry.1 < key)).getLast?

/-! ## Entries -/

@[grind →]
theorem eq_of_mem_of_key_eq (map : OrderedMap κ α) {first second : κ × α}
    (hfirst : first ∈ map) (hsecond : second ∈ map) (hkey : first.1 = second.1) :
    first = second := by
  have hnodup : (map.entries.map Prod.fst).Nodup :=
    List.pairwise_map.mpr (map.sorted.imp fun hlt => hlt.ne)
  exact List.inj_on_of_nodup_map hnodup hfirst hsecond hkey

theorem mem_insert :
    entry ∈ map.insert key value ↔
      entry = (key, value) ∨ (entry ∈ map ∧ entry.1 ≠ key) := by
  simp only [mem_def, insert, List.mem_append, List.mem_cons, List.mem_filter,
    decide_eq_true_eq]
  grind

theorem mem_erase :
    entry ∈ map.erase key ↔ entry ∈ map ∧ entry.1 ≠ key := by
  simp [mem_def, erase]

theorem mem_modify :
    entry ∈ map.modify key change ↔
      (entry ∈ map ∧ entry.1 ≠ key) ∨
        ∃ value, (key, value) ∈ map ∧ entry = (key, change value) := by
  simp only [mem_def, modify, List.mem_map]
  grind

theorem mem_modify_of_mem (hmem : (key, value) ∈ map) :
    entry ∈ map.modify key change ↔
      entry = (key, change value) ∨ (entry ∈ map ∧ entry.1 ≠ key) := by
  rw [mem_modify]
  grind

theorem find?_eq_some_iff :
    map.find? key = some value ↔ (key, value) ∈ map := by
  constructor
  · intro hfind
    obtain ⟨entry, hentry, rfl⟩ := Option.map_eq_some_iff.mp hfind
    obtain rfl : entry.1 = key := by simpa using List.find?_some hentry
    exact List.mem_of_find?_eq_some hentry
  · intro hmem
    cases hfind : map.entries.find? fun entry => decide (entry.1 = key) with
    | none =>
      have habsent := List.find?_eq_none.mp hfind (key, value) hmem
      simp at habsent
    | some entry =>
      have hkey : entry.1 = key := by simpa using List.find?_some hfind
      have hsame : entry = (key, value) :=
        eq_of_mem_of_key_eq map (List.mem_of_find?_eq_some hfind) hmem hkey
      simp [find?, hfind, hsame]

/-! ## Range queries -/

theorem lowerBound_eq_some_iff :
    map.lowerBound key = some entry ↔
      entry ∈ map ∧ key ≤ entry.1 ∧ ∀ other ∈ map, key ≤ other.1 → entry.1 ≤ other.1 := by
  have hsound : ∀ found, map.lowerBound key = some found →
      found ∈ map ∧ key ≤ found.1 ∧
        ∀ other ∈ map, key ≤ other.1 → found.1 ≤ other.1 := by
    intro found hfound
    obtain ⟨hkey, before, after, hsplit, hbefore⟩ := List.find?_eq_some_iff_append.mp hfound
    refine ⟨List.mem_of_find?_eq_some hfound, by simpa using hkey, ?_⟩
    intro other hother hle
    rw [mem_def, hsplit, List.mem_append, List.mem_cons] at hother
    have hsorted := map.sorted
    rw [hsplit, List.pairwise_append, List.pairwise_cons] at hsorted
    rcases hother with hother | rfl | hother
    · simpa [hle] using hbefore other hother
    · exact le_rfl
    · exact (hsorted.2.1.1 other hother).le
  refine ⟨hsound entry, ?_⟩
  rintro ⟨hmem, hle, hleast⟩
  cases hfind : map.lowerBound key with
  | none => simpa [hle] using List.find?_eq_none.mp hfind entry hmem
  | some found =>
    obtain ⟨hfoundMem, hfoundLe, hfoundLeast⟩ := hsound found hfind
    have hkey : found.1 = entry.1 :=
      le_antisymm (hfoundLeast entry hmem hle) (hleast found hfoundMem hfoundLe)
    rw [eq_of_mem_of_key_eq map hfoundMem hmem hkey]

theorem lowerBound_eq_none_iff :
    map.lowerBound key = none ↔ ∀ entry ∈ map, entry.1 < key := by
  simp [lowerBound, mem_def]

theorem lastBelow_eq_some (hlast : map.lastBelow key = some entry) :
    entry ∈ map ∧ entry.1 < key := by
  have hmem := List.mem_of_getLast? hlast
  simpa [mem_def] using List.mem_filter.mp hmem

end OrderedMap

end ValkeyGlide.Foundation

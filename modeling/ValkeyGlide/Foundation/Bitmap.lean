import Mathlib.Data.Finset.Card
import Mathlib.Tactic.Common

/-!
# Bitmaps

A set of small numbers as an array of 64-bit words.  Every operation is described by
what it does to membership (`isSet`), so that nothing else depends on the layout.
-/

namespace ValkeyGlide.Foundation

abbrev Bitmap (words : Nat) := Vector (BitVec 64) words

namespace Bitmap

variable {words : Nat}

def zero (words : Nat) : Bitmap words := Vector.replicate words 0

def isSet (bitmap : Bitmap words) (index : Nat) : Bool :=
  (bitmap[index / 64]?.getD 0).getLsbD (index % 64)

def set? (bitmap : Bitmap words) (index : Nat) : Option (Bitmap words) :=
  if hword : index / 64 < words then
    some (bitmap.set (index / 64) (bitmap[index / 64] ||| 1#64 <<< (index % 64)) hword)
  else none

def isFull (bitmap : Bitmap words) : Bool :=
  bitmap.toList.all fun word => word = BitVec.allOnes 64

def firstClear? (bitmap : Bitmap words) : Option Nat :=
  bitmap.toList.zipIdx.findSome? fun (word, index) =>
    ((List.range 64).find? fun bit => !word.getLsbD bit).map fun bit => index * 64 + bit

@[simp] theorem isSet_zero (index : Nat) : isSet (zero words) index = false := by
  unfold isSet zero
  by_cases hword : index / 64 < words
  · simp [hword]
  · simp [Nat.not_lt.mp hword]

variable {bitmap next : Bitmap words} {index : Nat}

theorem set?_isSome (hlt : index < 64 * words) :
    ∃ next, bitmap.set? index = some next := by
  have hword : index / 64 < words := Nat.div_lt_of_lt_mul hlt
  exact ⟨_, dif_pos hword⟩

theorem isSet_set? (hset : bitmap.set? index = some next) (other : Nat) :
    next.isSet other = (decide (other = index) || bitmap.isSet other) := by
  unfold set? at hset
  split_ifs at hset with hword
  cases hset
  unfold isSet
  by_cases hsame : index / 64 = other / 64
  · have hget : (bitmap.set (index / 64) (bitmap[index / 64] ||| 1#64 <<< (index % 64))
        hword)[other / 64]? = some (bitmap[index / 64] ||| 1#64 <<< (index % 64)) := by
      rw [← hsame]
      exact Vector.getElem?_set_self hword
    have hold : bitmap[other / 64]? = some bitmap[index / 64] := by
      rw [← hsame]
      exact Vector.getElem?_eq_getElem hword
    rw [hget, hold]
    have hbit : (1#64 <<< (index % 64)).getLsbD (other % 64) = decide (other = index) := by
      have hlt : other % 64 < 64 := Nat.mod_lt _ (by decide)
      simp only [BitVec.getLsbD_shiftLeft, BitVec.getLsbD_one, hlt, decide_true, Bool.true_and,
        Nat.zero_lt_succ, ← Bool.decide_and, ← decide_not]
      exact decide_eq_decide.mpr (by omega)
    simp [hbit, Bool.or_comm]
  · have hget : (bitmap.set (index / 64) (bitmap[index / 64] ||| 1#64 <<< (index % 64))
        hword)[other / 64]? = bitmap[other / 64]? := Vector.getElem?_set_ne hword hsame
    have hne : other ≠ index := fun heq => hsame (by rw [heq])
    simp [hget, hne]

theorem isSet_word {word bit : Nat} (hword : word < words) (hbit : bit < 64) :
    bitmap.isSet (word * 64 + bit) = bitmap[word].getLsbD bit := by
  have hdiv : (word * 64 + bit) / 64 = word := by omega
  have hmod : (word * 64 + bit) % 64 = bit := by omega
  simp [isSet, hdiv, hmod, hword]

theorem firstClear?_eq_some (hfirst : bitmap.firstClear? = some index) :
    index < 64 * words ∧ bitmap.isSet index = false := by
  obtain ⟨⟨content, word⟩, hmem, hfound⟩ := List.exists_of_findSome?_eq_some hfirst
  obtain ⟨bit, hbit, rfl⟩ := Option.map_eq_some_iff.mp hfound
  have hclear := List.find?_some hbit
  have hlt := List.mem_range.mp (List.mem_of_find?_eq_some hbit)
  obtain ⟨-, hword, hcontent⟩ := List.mem_zipIdx hmem
  simp only [Vector.length_toList, Nat.zero_add] at hword
  refine ⟨by omega, ?_⟩
  rw [isSet_word hword hlt]
  simpa [hcontent] using hclear

private theorem isSet_of_find?_eq_none (hword : index / 64 < words)
    (hfull : ((List.range 64).find? fun bit => !bitmap[index / 64].getLsbD bit) = none) :
    bitmap.isSet index := by
  have hbit : index % 64 < 64 := Nat.mod_lt _ (by decide)
  have hset := List.find?_eq_none.mp hfull (index % 64) (List.mem_range.mpr hbit)
  rw [← Nat.div_add_mod' index 64, isSet_word hword hbit]
  simpa using hset

theorem isSet_of_firstClear?_eq_none (hfirst : bitmap.firstClear? = none)
    (hlt : index < 64 * words) : bitmap.isSet index := by
  have hword : index / 64 < words := Nat.div_lt_of_lt_mul hlt
  have hmem : (bitmap[index / 64], index / 64) ∈ bitmap.toList.zipIdx := by
    refine List.mem_zipIdx_iff_getElem?.mpr ?_
    simp [hword]
  have hfull := Option.map_eq_none_iff.mp (List.findSome?_eq_none_iff.mp hfirst _ hmem)
  exact isSet_of_find?_eq_none hword hfull

private theorem firstClear?_cases (hfirst : bitmap.firstClear? = some index) :
    ∃ word bit, ∃ hword : word < words, index = word * 64 + bit ∧ bit < 64 ∧
      (∀ lower < bit, bitmap[word].getLsbD lower = true) ∧
      ∀ earlier, ∀ hearlier : earlier < word,
        ((List.range 64).find? fun bit => !bitmap[earlier].getLsbD bit) = none := by
  obtain ⟨before, ⟨content, word⟩, after, hsplit, hfound, hnone⟩ :=
    List.findSome?_eq_some_iff.mp hfirst
  obtain ⟨bit, hbit, rfl⟩ := Option.map_eq_some_iff.mp hfound
  obtain ⟨-, hrange, hset⟩ := List.find?_range_eq_some.mp hbit
  have hat : bitmap.toList.zipIdx[before.length]? = some (content, word) := by
    rw [hsplit, List.getElem?_append_right le_rfl, Nat.sub_self]
    rfl
  rw [List.getElem?_zipIdx, Option.map_eq_some_iff] at hat
  obtain ⟨_, hcontent, hpair⟩ := hat
  obtain ⟨rfl, hword⟩ := Prod.mk.inj hpair
  rw [Nat.zero_add] at hword
  subst hword
  obtain ⟨hlength, hget⟩ := List.getElem?_eq_some_iff.mp hcontent
  have hwords : before.length < words := by simpa using hlength
  refine ⟨before.length, bit, hwords, rfl, List.mem_range.mp hrange, fun lower hlower => ?_,
    fun earlier hearlier => ?_⟩
  · rw [Vector.getElem_toList] at hget
    rw [hget]
    simpa using hset lower hlower
  · have hentry : before[earlier]? = some (bitmap[earlier], earlier) := by
      rw [← List.getElem?_append_left hearlier, ← hsplit]
      simp [hearlier.trans hwords]
    have hfull := hnone _ (List.mem_of_getElem? hentry)
    rwa [Option.map_eq_none_iff] at hfull

theorem isSet_of_lt_firstClear? {other : Nat} (hfirst : bitmap.firstClear? = some index)
    (hlt : other < index) : bitmap.isSet other := by
  obtain ⟨word, bit, hword, rfl, hbit, hlower, hearlier⟩ := firstClear?_cases hfirst
  by_cases hsame : other / 64 = word
  · subst hsame
    have hbits : other % 64 < 64 := Nat.mod_lt _ (by decide)
    rw [← Nat.div_add_mod' other 64, isSet_word hword hbits]
    exact hlower (other % 64) (by omega)
  · have hotherWord : other / 64 < word := by omega
    exact isSet_of_find?_eq_none (hotherWord.trans hword) (hearlier _ hotherWord)

theorem isFull_iff :
    bitmap.isFull ↔ ∀ index < 64 * words, bitmap.isSet index := by
  rw [isFull, List.all_eq_true]
  constructor
  · intro hall index hlt
    have hword : index / 64 < words := Nat.div_lt_of_lt_mul hlt
    have hbit : index % 64 < 64 := Nat.mod_lt _ (by decide)
    have hones := hall bitmap[index / 64] (Vector.mem_toList_iff.mpr (Vector.getElem_mem hword))
    rw [← Nat.div_add_mod' index 64, isSet_word hword hbit, of_decide_eq_true hones,
      BitVec.getLsbD_allOnes]
    exact decide_eq_true hbit
  · intro hall content hmem
    obtain ⟨word, hword, rfl⟩ := Vector.mem_iff_getElem.mp (Vector.mem_toList_iff.mp hmem)
    refine decide_eq_true (BitVec.eq_of_getLsbD_eq ?_)
    intro bit hbit
    rw [← isSet_word hword hbit, hall _ (by omega), BitVec.getLsbD_allOnes]
    exact (decide_eq_true hbit).symm

def clear (bitmap : Bitmap words) : Finset Nat :=
  (Finset.range (64 * words)).filter fun index => bitmap.isSet index = false

theorem card_clear_le (bitmap : Bitmap words) : bitmap.clear.card ≤ 64 * words :=
  (Finset.card_filter_le _ _).trans (Finset.card_range _).le

theorem card_clear_lt (hset : bitmap.set? index = some next) (hlt : index < 64 * words)
    (hindex : bitmap.isSet index = false) : next.clear.card < bitmap.clear.card := by
  refine Finset.card_lt_card (Finset.ssubset_iff_subset_ne.mpr ⟨?_, ?_⟩)
  · intro other hother
    obtain ⟨hrange, hclear⟩ := Finset.mem_filter.mp hother
    rw [isSet_set? hset, Bool.or_eq_false_iff] at hclear
    exact Finset.mem_filter.mpr ⟨hrange, hclear.2⟩
  · intro hequal
    have hmem : index ∈ next.clear := by
      rw [hequal]
      exact Finset.mem_filter.mpr ⟨Finset.mem_range.mpr hlt, hindex⟩
    have hclear := (Finset.mem_filter.mp hmem).2
    rw [isSet_set? hset] at hclear
    simp at hclear

end Bitmap

end ValkeyGlide.Foundation

import Mathlib.Data.Nat.Basic
import Mathlib.Tactic.Common
import ValkeyGlide.Foundation.OrderedMap

/-!
# Ranges keyed by their end

An ordered map whose entry at key `end` stands for the closed range from
`start value` to `end`, owned by `owner value`.  A map is valid when its ranges
are nonempty and pairwise disjoint; the owner of a point is then found by one
lower bound query.  `Reassign` says that one map arises from another by giving a
single point a new owner; `valid_iff_separated` states the disjointness of the
ranges by their ends alone, which is how a replacement of a few ranges is checked.
-/

namespace ValkeyGlide.Foundation.RangeMap

variable {α β : Type*} (start : α → Nat) (owner : α → β)

def Covers (entry : Nat × α) (point : Nat) : Prop :=
  start entry.2 ≤ point ∧ point ≤ entry.1

structure Valid (map : OrderedMap Nat α) : Prop where
  nonempty : ∀ entry ∈ map, start entry.2 ≤ entry.1
  disjoint : ∀ first ∈ map, ∀ second ∈ map, ∀ point,
    Covers start first point → Covers start second point → first = second

def containing? (map : OrderedMap Nat α) (point : Nat) : Option (Nat × α) :=
  match map.lowerBound point with
  | none => none
  | some entry => if start entry.2 ≤ point then some entry else none

def Owned (map : OrderedMap Nat α) (point : Nat) (value : β) : Prop :=
  ∃ entry ∈ map, Covers start entry point ∧ owner entry.2 = value

def ownerAt? (map : OrderedMap Nat α) (point : Nat) : Option β :=
  (containing? start map point).map fun entry => owner entry.2

section Lookup

variable {start owner} {map : OrderedMap Nat α} {point : Nat}

variable {entry : Nat × α}

section

variable (hvalid : Valid start map)
include hvalid

theorem containing?_eq_some_iff :
    containing? start map point = some entry ↔
      entry ∈ map ∧ Covers start entry point := by
  constructor
  · intro hfound
    unfold containing? at hfound
    split at hfound
    · contradiction
    · next found hbound =>
        obtain ⟨hmem, hle, -⟩ := OrderedMap.lowerBound_eq_some_iff.mp hbound
        split_ifs at hfound with hstart
        obtain rfl : found = entry := by simpa using hfound
        exact ⟨hmem, hstart, hle⟩
  · rintro ⟨hmem, hstart, hle⟩
    cases hbound : map.lowerBound point with
    | none =>
      have := OrderedMap.lowerBound_eq_none_iff.mp hbound entry hmem
      omega
    | some found =>
      obtain ⟨hfoundMem, hfoundLe, hleast⟩ := OrderedMap.lowerBound_eq_some_iff.mp hbound
      -- the end of `found` lies inside `entry`, so the two ranges are the same
      have hend := hleast entry hmem hle
      have hsame : found = entry :=
        hvalid.disjoint found hfoundMem entry hmem found.1
          ⟨hvalid.nonempty found hfoundMem, le_rfl⟩ ⟨hstart.trans hfoundLe, hend⟩
      subst hsame
      simp [containing?, hbound, hstart]

theorem containing?_eq_none_iff :
    containing? start map point = none ↔ ∀ entry ∈ map, ¬ Covers start entry point := by
  constructor
  · intro hnone entry hmem hcovers
    have hsome := (containing?_eq_some_iff hvalid).mpr ⟨hmem, hcovers⟩
    rw [hnone] at hsome
    contradiction
  · intro hall
    cases hfound : containing? start map point with
    | none => rfl
    | some entry =>
      obtain ⟨hmem, hcovers⟩ := (containing?_eq_some_iff hvalid).mp hfound
      exact absurd hcovers (hall entry hmem)

theorem ownerAt?_eq_some_iff {value : β} :
    ownerAt? start owner map point = some value ↔ Owned start owner map point value := by
  simp only [Owned, ownerAt?, Option.map_eq_some_iff, containing?_eq_some_iff hvalid]
  constructor
  · rintro ⟨entry, ⟨hmem, hcovers⟩, hvalue⟩
    exact ⟨entry, hmem, hcovers, hvalue⟩
  · rintro ⟨entry, hmem, hcovers, hvalue⟩
    exact ⟨entry, ⟨hmem, hcovers⟩, hvalue⟩

theorem Valid.ownerAt?_key (hmem : entry ∈ map) :
    ownerAt? start owner map entry.1 = some (owner entry.2) :=
  (ownerAt?_eq_some_iff hvalid).mpr
    ⟨entry, hmem, ⟨hvalid.nonempty entry hmem, le_rfl⟩, rfl⟩

end

end Lookup

theorem valid_iff_separated {map : OrderedMap Nat α} :
    Valid start map ↔ (∀ entry ∈ map, start entry.2 ≤ entry.1) ∧
      ∀ first ∈ map, ∀ second ∈ map, first.1 < second.1 → first.1 < start second.2 := by
  constructor
  · intro hvalid
    refine ⟨hvalid.nonempty, fun first hfirst second hsecond hlt => ?_⟩
    by_contra hle
    have hsame := hvalid.disjoint first hfirst second hsecond first.1
      ⟨hvalid.nonempty first hfirst, le_rfl⟩ ⟨not_lt.mp hle, hlt.le⟩
    exact hlt.ne (congrArg Prod.fst hsame)
  · rintro ⟨hnonempty, hseparated⟩
    refine ⟨hnonempty, fun first hfirst second hsecond point hin hin' => ?_⟩
    rcases lt_trichotomy first.1 second.1 with hlt | heq | hlt
    · exact absurd (hseparated first hfirst second hsecond hlt) (not_lt.mpr (hin'.1.trans hin.2))
    · exact map.eq_of_mem_of_key_eq hfirst hsecond heq
    · exact absurd (hseparated second hsecond first hfirst hlt) (not_lt.mpr (hin.1.trans hin'.2))

/-- `after` gives `point` to `value` and leaves every other point with its owner. -/
structure Reassign (before after : OrderedMap Nat α) (point : Nat) (value : β) : Prop where
  valid : Valid start after
  owned : ∀ position held, Owned start owner after position held ↔
    if position = point then held = value else Owned start owner before position held

namespace Reassign

variable {start owner} {before after : OrderedMap Nat α} {point : Nat} {value : β}

theorem ownerAt?_point (hreassign : Reassign start owner before after point value) :
    ownerAt? start owner after point = some value := by
  rw [ownerAt?_eq_some_iff hreassign.valid, hreassign.owned, if_pos rfl]

theorem ownerAt?_of_ne (hvalid : Valid start before)
    (hreassign : Reassign start owner before after point value) {other : Nat} (hne : other ≠ point) :
    ownerAt? start owner after other = ownerAt? start owner before other := by
  ext held
  rw [ownerAt?_eq_some_iff hreassign.valid, ownerAt?_eq_some_iff hvalid, hreassign.owned,
    if_neg hne]

end Reassign

end ValkeyGlide.Foundation.RangeMap

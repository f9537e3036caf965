import Mathlib.Data.List.Basic

/-!
# Grouping by a key

A table of lists, one for each key, filled one item at a time.  `Groups` says
which log of pushes a table holds: under each key its items in the order of the
log.
-/

namespace ValkeyGlide.Foundation

variable {Key Item : Type*} [DecidableEq Key] {groups : List (Key × List Item)}

def pushTo : List (Key × List Item) → Key → Item → List (Key × List Item)
  | [], key, item => [(key, [item])]
  | (known, items) :: rest, key, item =>
    if known = key then (known, items ++ [item]) :: rest
    else (known, items) :: pushTo rest key item

def ungroup (groups : List (Key × List Item)) : List (Key × Item) :=
  groups.flatMap fun group => group.2.map fun item => (group.1, item)

structure Groups (groups : List (Key × List Item)) (log : List (Key × Item)) : Prop where
  keys_nodup : (groups.map Prod.fst).Nodup
  items : ∀ group ∈ groups, group.2 = (log.filter (·.1 = group.1)).map Prod.snd
  complete : ∀ entry ∈ log, entry.1 ∈ groups.map Prod.fst
  perm : (ungroup groups).Perm log

theorem ungroup_pushTo_perm (groups : List (Key × List Item)) (key : Key) (item : Item) :
    (ungroup (pushTo groups key item)).Perm (ungroup groups ++ [(key, item)]) := by
  induction groups with
  | nil => exact .refl _
  | cons group rest ih =>
    obtain ⟨known, items⟩ := group
    rw [pushTo]
    split
    · rename_i hknown
      subst hknown
      have hswap : ([(known, item)] ++ ungroup rest).Perm (ungroup rest ++ [(known, item)]) :=
        List.perm_append_comm
      simpa [ungroup] using hswap.append_left (items.map fun item => (known, item))
    · have hrest := ih.append_left (items.map fun item => (known, item))
      simpa [ungroup] using hrest

theorem keys_pushTo (groups : List (Key × List Item)) (key : Key) (item : Item) :
    (pushTo groups key item).map Prod.fst =
      if key ∈ groups.map Prod.fst then groups.map Prod.fst else groups.map Prod.fst ++ [key] := by
  induction groups with
  | nil => rfl
  | cons group rest ih =>
    rw [pushTo]
    grind

theorem mem_pushTo {key : Key} {item : Item} {group : Key × List Item}
    (hnodup : (groups.map Prod.fst).Nodup) (hmem : group ∈ pushTo groups key item) :
    group ∈ groups ∧ group.1 ≠ key ∨
      group.1 = key ∧ ((∃ items, (key, items) ∈ groups ∧ group.2 = items ++ [item]) ∨
        key ∉ groups.map Prod.fst ∧ group.2 = [item]) := by
  induction groups with
  | nil => simp_all [pushTo]
  | cons head rest ih =>
    obtain ⟨hfresh, hrestNodup⟩ := List.nodup_cons.mp hnodup
    have hrest := ih hrestNodup
    rw [pushTo] at hmem
    grind

theorem groups_nil : Groups ([] : List (Key × List Item)) [] :=
  ⟨List.nodup_nil, by simp, by simp, .refl _⟩

theorem Groups.push {log : List (Key × Item)} (hgroups : Groups groups log) (key : Key)
    (item : Item) :
    Groups (pushTo groups key item) (log ++ [(key, item)]) where
  keys_nodup := by
    have hnodup := hgroups.keys_nodup
    rw [keys_pushTo]
    grind
  items := by
    intro group hmem
    rcases mem_pushTo hgroups.keys_nodup hmem with
      ⟨hold, hne⟩ | ⟨hkey, ⟨held, hheld, hitems⟩ | ⟨hnew, hitems⟩⟩
    · rw [hgroups.items group hold]
      simp [Ne.symm hne]
    · have hold : held = (log.filter (·.1 = key)).map Prod.snd := hgroups.items _ hheld
      rw [hitems, hold, hkey]
      simp
    · have hnone : log.filter (·.1 = key) = [] := by
        refine List.filter_eq_nil_iff.mpr fun entry hentry hkey => hnew ?_
        exact of_decide_eq_true hkey ▸ hgroups.complete entry hentry
      rw [hitems, hkey]
      simp [hnone]
  complete := by
    have hcomplete := hgroups.complete
    rw [keys_pushTo]
    grind
  perm := (ungroup_pushTo_perm groups key item).trans (hgroups.perm.append_right _)

end ValkeyGlide.Foundation

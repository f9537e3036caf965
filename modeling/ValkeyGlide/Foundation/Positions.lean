import Mathlib.Data.List.Basic

/-!
# Changing the items at some positions

A loop that changes one item after the other, at positions that are all different, changes
each item by its position alone.
-/

namespace ValkeyGlide.Foundation

variable {α : Type*} {positions : List Nat}

def changeAt (positions : List Nat) (change : α → α) (items : List α) : List α :=
  positions.foldl (fun items position => items.modify position change) items

@[simp] theorem length_changeAt (positions : List Nat) (change : α → α) (items : List α) :
    (changeAt positions change items).length = items.length := by
  induction positions generalizing items with
  | nil => rfl
  | cons position rest ih => exact (ih _).trans (List.length_modify ..)

theorem getElem?_changeAt (hdistinct : positions.Nodup) (change : α → α) (items : List α)
    (index : Nat) :
    (changeAt positions change items)[index]? =
      if index ∈ positions then items[index]?.map change else items[index]? := by
  induction positions generalizing items with
  | nil => rfl
  | cons position rest ih =>
    obtain ⟨hnew, hrest⟩ := List.nodup_cons.mp hdistinct
    show (changeAt rest change (items.modify position change))[index]? = _
    rw [ih hrest, List.getElem?_modify]
    by_cases hsame : position = index
    · subst hsame
      rw [if_neg hnew, if_pos (List.mem_cons_self ..)]
      simp
    · simp [Ne.symm hsame, if_neg hsame]

theorem changeAt_changeAt (hdistinct : positions.Nodup) {change : α → α}
    (hfinal : ∀ item, change (change item) = change item) (items : List α) :
    changeAt positions change (changeAt positions change items) =
      changeAt positions change items := by
  refine List.ext_getElem? fun index => ?_
  rw [getElem?_changeAt hdistinct, getElem?_changeAt hdistinct]
  split_ifs
  · rw [Option.map_map]
    exact congrArg (Option.map · items[index]?) (funext hfinal)
  · rfl

end ValkeyGlide.Foundation

import Mathlib.Data.List.Basic

/-!
# Writing values at positions

`scatter` performs a sequence of indexed writes on a list of cells and fails on
the first position outside of it.  When the writes agree with a table and reach
every position, the cells end up holding that table, whatever the order of the
writes and however often a position is written.
-/

namespace ValkeyGlide.Foundation

variable {α : Type*}

def scatter (cells : List α) : List (Nat × α) → Option (List α)
  | [] => some cells
  | (position, value) :: rest =>
    if position < cells.length then scatter (cells.set position value) rest else none

theorem scatter_append (cells : List α) (first second : List (Nat × α)) :
    scatter cells (first ++ second) = (scatter cells first).bind fun next =>
      scatter next second := by
  induction first generalizing cells with
  | nil => rfl
  | cons write rest ih =>
    simp only [List.cons_append, scatter]
    split_ifs
    · exact ih _
    · rfl

variable {cells : List α} {writes : List (Nat × α)} {table : Nat → α}

theorem scatter_of_lt (hbound : ∀ write ∈ writes, write.1 < cells.length) :
    ∃ final, scatter cells writes = some final ∧ final.length = cells.length := by
  induction writes generalizing cells with
  | nil => exact ⟨cells, rfl, rfl⟩
  | cons write rest ih =>
    obtain ⟨hwrite, hrest⟩ := List.forall_mem_cons.mp hbound
    obtain ⟨final, hfinal, hlength⟩ := ih (cells.length_set ▸ hrest)
    exact ⟨final, by rw [scatter, if_pos hwrite, hfinal], hlength.trans cells.length_set⟩

theorem lt_of_scatter {final : List α} (hscatter : scatter cells writes = some final) :
    ∀ write ∈ writes, write.1 < cells.length := by
  induction writes generalizing cells with
  | nil => simp
  | cons write rest ih =>
    obtain ⟨position, value⟩ := write
    obtain ⟨hlt, hrest⟩ := Option.ite_none_right_eq_some.mp hscatter
    refine List.forall_mem_cons.mpr ⟨hlt, fun write hwrite => ?_⟩
    exact cells.length_set ▸ ih hrest write hwrite

private theorem scatter_eq_table_of_partial (hvalues : ∀ write ∈ writes, write.2 = table write.1)
    (hbound : ∀ write ∈ writes, write.1 < cells.length)
    (hdone : ∀ position, position < cells.length → position ∉ writes.map Prod.fst →
      cells[position]? = some (table position)) :
    scatter cells writes = some ((List.range cells.length).map table) := by
  induction writes generalizing cells with
  | nil =>
    simp only [scatter, Option.some.injEq]
    apply List.ext_getElem?
    intro position
    by_cases hlt : position < cells.length
    · rw [hdone position hlt (by simp)]
      simp [hlt]
    · simp [hlt]
  | cons write rest ih =>
    obtain ⟨target, value⟩ := write
    have htarget : target < cells.length := hbound (target, value) (by simp)
    have hvalue : value = table target := hvalues (target, value) (by simp)
    simp only [scatter, htarget, if_true]
    rw [ih, List.length_set]
    · exact fun write hwrite => hvalues write (by simp [hwrite])
    · intro write hwrite
      simpa using hbound write (by simp [hwrite])
    · intro position hlt hnot
      by_cases heq : target = position
      · subst heq
        simp [htarget, hvalue]
      · rw [List.getElem?_set_ne heq]
        refine hdone position (by simpa using hlt) ?_
        simp only [List.map_cons, List.mem_cons, not_or]
        exact ⟨fun h => heq h.symm, hnot⟩

theorem scatter_eq_table (hvalues : ∀ write ∈ writes, write.2 = table write.1)
    (hpositions : (writes.map Prod.fst).Perm (List.range cells.length)) :
    scatter cells writes = some ((List.range cells.length).map table) := by
  apply scatter_eq_table_of_partial hvalues
  · intro write hwrite
    have hmem : write.1 ∈ writes.map Prod.fst := List.mem_map_of_mem hwrite
    simpa using hpositions.mem_iff.mp hmem
  · intro position hlt hnot
    exact absurd (hpositions.mem_iff.mpr (List.mem_range.mpr hlt)) hnot

end ValkeyGlide.Foundation

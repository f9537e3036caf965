import Mathlib.Data.List.Basic

/-!
# Loops that can fail

A loop over a list with a body that may fail.  The invariant speaks of the items
that are still to come and says that the body does not fail on the next one.
-/

namespace ValkeyGlide.Foundation

variable {Error State Item : Type*}

theorem foldlM_succeeds {body : State → Item → Except Error State} (Inv : List Item → State → Prop)
    (hbody : ∀ item rest state, Inv (item :: rest) state →
      ∃ next, body state item = .ok next ∧ Inv rest next)
    {items : List Item} (state : State) (hinit : Inv items state) :
    ∃ final, items.foldlM body state = .ok final ∧ Inv [] final := by
  induction items generalizing state with
  | nil => exact ⟨state, rfl, hinit⟩
  | cons item rest ih =>
    obtain ⟨next, hnext, hinv⟩ := hbody item rest state hinit
    obtain ⟨final, hfinal, hdone⟩ := ih next hinv
    refine ⟨final, ?_, hdone⟩
    rw [List.foldlM_cons, hnext]
    exact hfinal

section Map

variable {Result : Type*} (body : Item → Except Error Result)

def firstError (items : List Item) : Option Error :=
  items.findSome? fun item =>
    match body item with
    | .error error => some error
    | .ok _ => none

def resultOr (fallback : Item → Result) (item : Item) : Result :=
  match body item with
  | .ok result => result
  | .error _ => fallback item

variable {body} {items : List Item}

theorem firstError_eq_none_iff :
    firstError body items = none ↔ ∀ item ∈ items, ∃ result, body item = .ok result := by
  unfold firstError
  rw [List.findSome?_eq_none_iff]
  refine forall₂_congr fun item _ => ?_
  cases body item <;> simp

theorem firstError_cons_of_ok {item : Item} {result : Result} (hbody : body item = .ok result)
    (rest : List Item) : firstError body (item :: rest) = firstError body rest := by
  simp [firstError, hbody]

theorem firstError_append (first second : List Item) :
    firstError body (first ++ second) = (firstError body first).or (firstError body second) :=
  List.findSome?_append

theorem exists_of_firstError {error : Error} (hfirst : firstError body items = some error) :
    ∃ item ∈ items, body item = .error error := by
  obtain ⟨item, hmem, hitem⟩ := List.exists_of_findSome?_eq_some hfirst
  refine ⟨item, hmem, ?_⟩
  cases hbody : body item with
  | error other =>
    rw [hbody] at hitem
    exact congrArg Except.error (Option.some.inj hitem)
  | ok result =>
    rw [hbody] at hitem
    contradiction

theorem mapM_eq_firstError (fallback : Item → Result) (items : List Item) :
    items.mapM body =
      (firstError body items).elim (.ok (items.map (resultOr body fallback))) .error := by
  induction items with
  | nil => rfl
  | cons item rest ih =>
    rw [List.mapM_cons]
    cases hbody : body item with
    | error error => simp [firstError, hbody, bind, Except.bind]
    | ok result =>
      have hfirst := firstError_cons_of_ok hbody rest
      have hresult : resultOr body fallback item = result := by
        simp [resultOr, hbody]
      rw [ih, hfirst, List.map_cons, hresult]
      cases firstError body rest <;> rfl

end Map

end ValkeyGlide.Foundation

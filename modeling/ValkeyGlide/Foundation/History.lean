import Mathlib.Data.List.DropRight

/-!
# Histories

What a list of past events says about the present.  `Since` is the past-time
operator: a condition has held from some point of the history on, and something
is known about that point and what followed.  `recent` is the part of a history
that a sliding window shows: the items stamped at most `width` before now, and
of those the last `capacity`.  `evict` pops a queue from the front with a running
count; a queue that is pushed to and then evicted by age and by length always
holds the recent part of everything pushed (`recent_push`).
-/

namespace ValkeyGlide.Foundation.History

/-! ## Since -/

section Since

variable {Event : Type*}

def Since (history : List Event) (holds : List Event → Prop)
    (known : List Event → List Event → Prop) : Prop :=
  ∃ earlier later, history = earlier ++ later ∧
    (∀ part, part <+: later → holds (earlier ++ part)) ∧ known earlier later

variable {history : List Event} {holds : List Event → Prop}
  {known known' : List Event → List Event → Prop}

theorem Since.now (hholds : holds history) (hknown : known history []) :
    Since history holds known := by
  refine ⟨history, [], (List.append_nil history).symm, ?_, hknown⟩
  intro part hpart
  rw [List.prefix_nil.mp hpart, List.append_nil]
  exact hholds

theorem Since.next {event : Event} (hsince : Since history holds known)
    (hholds : holds (history ++ [event]))
    (hknown : ∀ earlier later, history = earlier ++ later → known earlier later →
      known' earlier (later ++ [event])) :
    Since (history ++ [event]) holds known' := by
  obtain ⟨earlier, later, rfl, hpart, hlater⟩ := hsince
  refine ⟨earlier, later ++ [event], List.append_assoc .., ?_, hknown earlier later rfl hlater⟩
  intro part hprefix
  rcases List.prefix_concat_iff.mp hprefix with rfl | hprefix
  · rwa [← List.append_assoc]
  · exact hpart part hprefix

theorem Since.mono (hsince : Since history holds known)
    (hknown : ∀ earlier later, known earlier later → known' earlier later) :
    Since history holds known' := by
  obtain ⟨earlier, later, hsplit, hpart, hlater⟩ := hsince
  exact ⟨earlier, later, hsplit, hpart, hknown earlier later hlater⟩

end Since

/-! ## Sliding windows -/

section Window

variable {α : Type*}

def evict (marked : α → Bool) (exceeds : α → List α → Bool) : List α → Nat → List α × Nat
  | [], count => ([], count)
  | item :: rest, count =>
    if exceeds item rest then evict marked exceeds rest (if marked item then count - 1 else count)
    else (item :: rest, count)

theorem evict_zero (marked : α → Bool) (exceeds : α → List α → Bool) (items : List α) :
    (evict marked exceeds items 0).2 = 0 := by
  induction items with
  | nil => rfl
  | cons item rest ih =>
    simp only [evict, Nat.zero_sub, ite_self]
    split_ifs <;> simp [ih]

theorem evict_count (marked : α → Bool) (exceeds : α → List α → Bool) (items : List α) :
    (evict marked exceeds items (items.countP marked)).2 =
      (evict marked exceeds items (items.countP marked)).1.countP marked := by
  induction items with
  | nil => rfl
  | cons item rest ih =>
    have hpopped : (if marked item then (item :: rest).countP marked - 1
        else (item :: rest).countP marked) = rest.countP marked := by
      by_cases hmarked : marked item <;> simp [hmarked]
    simp only [evict]
    split
    · rw [hpopped]
      exact ih
    · rfl

variable (stamp : α → Nat) (width capacity : Nat)

def inWindow (now : Nat) (item : α) : Bool := decide (now - stamp item ≤ width)

variable {now : Nat} {item : α} {marked : α → Bool} {items : List α}

theorem inWindow_iff :
    inWindow stamp width now item = true ↔ now - stamp item ≤ width :=
  decide_eq_true_iff

def recent (now : Nat) (items : List α) : List α :=
  (items.filter (inWindow stamp width now)).rtake capacity

theorem evict_expired (count : Nat)
    (hsorted : items.Pairwise fun first second => stamp first ≤ stamp second) :
    (evict marked (fun item _ => decide (now - stamp item > width)) items count).1 =
      items.filter (inWindow stamp width now) := by
  induction items generalizing count with
  | nil => rfl
  | cons item rest ih =>
    obtain ⟨hfirst, hrest⟩ := List.pairwise_cons.mp hsorted
    simp only [evict, decide_eq_true_eq]
    split
    · rename_i hover
      rw [List.filter_cons_of_neg (by rw [inWindow_iff]; omega)]
      exact ih _ hrest
    · rename_i hover
      refine (List.filter_eq_self.mpr ?_).symm
      intro other hother
      rw [inWindow_iff]
      rcases List.mem_cons.mp hother with rfl | hother
      · omega
      · have := hfirst other hother
        omega

theorem evict_overfull (items : List α) (count : Nat) :
    (evict marked (fun _ rest => decide (rest.length + 1 > capacity)) items count).1 =
      items.rtake capacity := by
  induction items generalizing count with
  | nil => simp [evict]
  | cons item rest ih =>
    simp only [evict, decide_eq_true_eq]
    split
    · rename_i hover
      rw [ih, List.rtake, List.rtake, List.length_cons,
        show rest.length + 1 - capacity = rest.length - capacity + 1 by omega, List.drop_succ_cons]
    · rename_i hover
      rw [List.rtake, List.length_cons, show rest.length + 1 - capacity = 0 by omega,
        List.drop_zero]

private theorem rtake_rtake_succ (items : List α) (n : Nat) :
    (items.rtake (n + 1)).rtake n = items.rtake n := by
  simp only [List.rtake, List.length_drop, List.drop_drop]
  congr 1
  omega

variable {stamp}

private theorem filter_rtake (n : Nat)
    (hsorted : items.Pairwise fun first second => stamp first ≤ stamp second) :
    (items.rtake n).filter (inWindow stamp width now) =
      (items.filter (inWindow stamp width now)).rtake n := by
  induction items using List.reverseRecOn generalizing n with
  | nil => simp
  | append_singleton items last ih =>
    obtain ⟨hitems, -, hlast⟩ := List.pairwise_append.mp hsorted
    cases n with
    | zero => simp
    | succ n =>
      rw [List.rtake_concat_succ, List.filter_append, List.filter_append, ih n hitems]
      by_cases hin : inWindow stamp width now last = true
      · rw [List.filter_cons_of_pos hin, List.filter_nil, List.rtake_concat_succ]
      · have hnone : items.filter (inWindow stamp width now) = [] := by
          rw [List.filter_eq_nil_iff]
          intro item hitem
          have := hlast item hitem last (List.mem_singleton_self last)
          rw [inWindow_iff] at hin ⊢
          omega
        simp [hnone, hin]

theorem recent_sublist (now : Nat) (items : List α) :
    (recent stamp width capacity now items).Sublist items :=
  (List.drop_sublist _ _).trans List.filter_sublist

theorem length_recent_le (now : Nat) (items : List α) :
    (recent stamp width capacity now items).length ≤ capacity := by
  rw [recent, List.rtake, List.length_drop]
  omega

theorem age_le_of_mem_recent (hmem : item ∈ recent stamp width capacity now items) :
    now - stamp item ≤ width :=
  (inWindow_iff stamp width).mp (List.mem_filter.mp (List.mem_of_mem_drop hmem)).2

theorem recent_push {before : Nat}
    (hsorted : (items ++ [item]).Pairwise fun first second => stamp first ≤ stamp second)
    (hlater : before ≤ now) (hstamp : stamp item = now) (count count' : Nat) :
    (evict marked (fun _ rest => decide (rest.length + 1 > capacity))
      (evict marked (fun item _ => decide (now - stamp item > width))
        (recent stamp width capacity before items ++ [item]) count).1 count').1 =
      recent stamp width capacity now (items ++ [item]) := by
  obtain ⟨hitems, -, hlast⟩ := List.pairwise_append.mp hsorted
  have hpushed : (recent stamp width capacity before items ++ [item]).Pairwise
      fun first second => stamp first ≤ stamp second :=
    hsorted.sublist ((recent_sublist width capacity before items).append_right [item])
  have hnewest : inWindow stamp width now item = true :=
    (inWindow_iff stamp width).mpr (by omega)
  have holder : (items.filter (inWindow stamp width before)).filter (inWindow stamp width now) =
      items.filter (inWindow stamp width now) := by
    rw [List.filter_filter]
    apply List.filter_congr
    intro other _
    rw [Bool.eq_iff_iff, Bool.and_eq_true, inWindow_iff, inWindow_iff]
    omega
  rw [evict_overfull, evict_expired stamp width count hpushed, recent, recent,
    List.filter_append, List.filter_append, filter_rtake width capacity (hitems.filter _), holder,
    List.filter_cons_of_pos hnewest, List.filter_nil]
  cases capacity with
  | zero => simp
  | succ n => rw [List.rtake_concat_succ, List.rtake_concat_succ, rtake_rtake_succ]

end Window

end ValkeyGlide.Foundation.History

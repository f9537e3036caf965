import Mathlib.Data.List.TakeDrop
import Mathlib.Tactic.Common

/-!
# Answers on a shared stream

Requests share one stream of frames, on which each is answered by one or more frames,
in the order of the requests.  The reader keeps a queue with one entry for each
request that is not yet answered; a frame is fed to the entry in front, which then
waits for more or has its result.  `Aligned` is the relation between the queue, the
unread frames and the requests they answer that reading and sending preserve.
-/

namespace ValkeyGlide.Foundation

section Demultiplex

variable {Entry Frame Result Request : Type*} (feed : Entry → Frame → Option (Entry ⊕ Result))

def Collects : Entry → List Frame → Result → Prop
  | _, [], _ => False
  | entry, frame :: frames, result =>
    match feed entry frame with
    | some (.inl next) => Collects next frames result
    | some (.inr done) => frames = [] ∧ done = result
    | none => False

variable (start : Request → Entry) (frames : Request → List Frame) (result : Request → Result)

/--
The unread frames answer the requests, one after the other.  Only the request in front
can have been answered in part.
-/
inductive Aligned : List Entry → List Frame → List Request → Prop
  | idle : Aligned [] [] []
  | front {entry : Entry} {remaining : List Frame} {request : Request} {rest : List Request}
      (collects : Collects feed entry remaining (result request))
      (remaining_le : remaining.length ≤ (frames request).length)
      (fresh : ∀ later ∈ rest, Collects feed (start later) (frames later) (result later)) :
      Aligned (entry :: rest.map start) (remaining ++ rest.flatMap frames) (request :: rest)

variable {feed start frames result}

theorem Collects.ne_nil {entry : Entry} {remaining : List Frame} {expected : Result}
    (hcollects : Collects feed entry remaining expected) : remaining ≠ [] := by
  rintro rfl
  exact hcollects

namespace Aligned

variable {queue : List Entry} {unread : List Frame} {requests : List Request} {request : Request}

theorem of_fresh (hfresh : ∀ request ∈ requests,
    Collects feed (start request) (frames request) (result request)) :
    Aligned feed start frames result (requests.map start) (requests.flatMap frames) requests := by
  cases requests with
  | nil => exact .idle
  | cons request rest =>
    obtain ⟨hrequest, hrest⟩ := List.forall_mem_cons.mp hfresh
    exact .front hrequest (Nat.le_refl _) hrest

theorem push (haligned : Aligned feed start frames result queue unread requests)
    (hrequest : Collects feed (start request) (frames request) (result request)) :
    Aligned feed start frames result (queue ++ [start request]) (unread ++ frames request)
      (requests ++ [request]) := by
  cases haligned with
  | idle =>
    have hnew : Aligned feed start frames result ([request].map start)
        ([request].flatMap frames) [request] := of_fresh (by simpa using hrequest)
    simpa using hnew
  | @front entry remaining first rest hcollects hle hfresh =>
    have hmore : ∀ later ∈ rest ++ [request],
        Collects feed (start later) (frames later) (result later) := by
      simpa [or_imp, forall_and] using ⟨hfresh, hrequest⟩
    simpa using front hcollects hle hmore

theorem read {frame : Frame}
    (haligned : Aligned feed start frames result queue (frame :: unread) requests) :
    ∃ entry rest, queue = entry :: rest ∧
      ((∃ next, feed entry frame = some (.inl next) ∧
          Aligned feed start frames result (next :: rest) unread requests) ∨
        ∃ request later, requests = request :: later ∧
          feed entry frame = some (.inr (result request)) ∧
          Aligned feed start frames result rest unread later) := by
  generalize hframes : frame :: unread = all at haligned
  cases haligned with
  | idle => contradiction
  | @front entry remaining request rest hcollects hle hfresh =>
    cases remaining with
    | nil => exact absurd rfl hcollects.ne_nil
    | cons head tail =>
      obtain ⟨rfl, rfl⟩ := List.cons.inj hframes
      refine ⟨entry, rest.map start, rfl, ?_⟩
      simp only [Collects] at hcollects
      split at hcollects
      next next hfeed =>
        exact .inl ⟨next, hfeed, .front hcollects (Nat.le_of_succ_le hle) hfresh⟩
      next done hfeed =>
        obtain ⟨rfl, rfl⟩ := hcollects
        exact .inr ⟨request, rest, rfl, hfeed, by simpa using of_fresh hfresh⟩
      next => contradiction

theorem unread_length_le (haligned : Aligned feed start frames result queue unread requests) :
    unread.length ≤ (requests.flatMap frames).length := by
  cases haligned with
  | idle => exact Nat.le_refl _
  | front hcollects hle hfresh =>
    simp only [List.flatMap_cons, List.length_append]
    exact Nat.add_le_add_right hle _

theorem lt_unread_length {later : List Request}
    (haligned : Aligned feed start frames result queue unread (request :: later)) :
    (later.flatMap frames).length < unread.length := by
  cases haligned with
  | front hcollects hle hfresh =>
    have hpos := List.length_pos_iff.mpr hcollects.ne_nil
    simp only [List.length_append]
    omega

theorem answered_iff {answered : List Request} {seen : List Frame}
    (haligned : Aligned feed start frames result queue unread requests)
    (hframes : (answered ++ requests).flatMap frames = seen ++ unread)
    {index : Nat} (hindex : index < (answered ++ requests).length) :
    index < answered.length ↔
      (((answered ++ requests).take (index + 1)).flatMap frames).length ≤ seen.length := by
  have hlength := congrArg List.length hframes
  simp only [List.flatMap_append, List.length_append] at hlength hindex
  have hmono : ∀ {few many : List Request}, few <+: many →
      (few.flatMap frames).length ≤ (many.flatMap frames).length := by
    rintro few - ⟨more, rfl⟩
    simp
  constructor
  · intro hlt
    have hunread := haligned.unread_length_le
    have htake : (answered ++ requests).take (index + 1) = answered.take (index + 1) :=
      List.take_append_of_le_length hlt
    have hle := hmono ⟨_, List.take_append_drop (index + 1) answered⟩
    rw [htake]
    omega
  · intro hle
    by_contra hge
    cases requests with
    | nil => simp at hindex; omega
    | cons request later =>
      have hunread := haligned.lt_unread_length
      have hreached : answered ++ [request] <+: (answered ++ request :: later).take (index + 1) := by
        refine List.prefix_of_prefix_length_le ⟨later, by simp⟩
          ⟨_, List.take_append_drop _ _⟩ ?_
        simp only [List.length_append, List.length_take, List.length_cons, List.length_nil]
        omega
      have hfirst := hmono hreached
      simp only [List.flatMap_append, List.flatMap_cons, List.flatMap_nil, List.length_append,
        List.length_nil] at hfirst hlength hle
      omega

end Aligned

end Demultiplex

end ValkeyGlide.Foundation

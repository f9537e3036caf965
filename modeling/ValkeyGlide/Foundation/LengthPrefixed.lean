import Mathlib.Data.List.Infix

/-!
# Messages with their length in front

A stream of messages, each after its encoded length.  A length can be told from the start of
one, and a reader that has some first part of the stream either has the next message or can
see that it does not have it yet.
-/

namespace ValkeyGlide.Foundation

variable {Symbol Message Error : Type*}

/-- Lengths are at most `limit`; decoding inverts encoding and refuses an incomplete length. -/
structure Framing (Symbol Message Error : Type*) where
  limit : Nat
  encodeLength : Nat → List Symbol
  decodeLength : List Symbol → Option (Nat × Nat)
  encode : Message → List Symbol
  parse : List Symbol → Except Error Message
  encodeLength_ne_nil : ∀ number ≤ limit, encodeLength number ≠ []
  decodeLength_encodeLength : ∀ number ≤ limit, ∀ rest,
    decodeLength (encodeLength number ++ rest) = some (number, (encodeLength number).length)
  decodeLength_incomplete : ∀ number ≤ limit, ∀ start, start <+: encodeLength number →
    start ≠ encodeLength number → decodeLength start = none
  length_encode : ∀ message, (encode message).length ≤ limit
  parse_encode : ∀ message, parse (encode message) = .ok message

namespace Framing

variable (framing : Framing Symbol Message Error)

def lengthOf (message : Message) : List Symbol :=
  framing.encodeLength (framing.encode message).length

def frame (message : Message) : List Symbol :=
  framing.lengthOf message ++ framing.encode message

def stream (messages : List Message) : List Symbol := messages.flatMap framing.frame

/-- A first part of the stream in which not even one message is complete. -/
structure Incomplete (start : List Symbol) (messages : List Message) : Prop where
  isPrefix : start <+: framing.stream messages
  short : ∀ message ∈ messages.head?, start.length < (framing.frame message).length

variable {framing} {start : List Symbol} {message : Message} {messages : List Message}

theorem length_frame_pos (message : Message) : 0 < (framing.frame message).length := by
  rw [frame, List.length_append]
  exact Nat.add_pos_left (List.length_pos_iff.mpr
    (framing.encodeLength_ne_nil _ (framing.length_encode message))) _

theorem incomplete_nil (messages : List Message) : framing.Incomplete [] messages :=
  ⟨⟨_, rfl⟩, fun message _ => length_frame_pos message⟩

theorem stream_cons (message : Message) (messages : List Message) :
    framing.stream (message :: messages) = framing.frame message ++ framing.stream messages :=
  List.flatMap_cons

theorem stream_append (first second : List Message) :
    framing.stream (first ++ second) = framing.stream first ++ framing.stream second :=
  List.flatMap_append

theorem Incomplete.eq_nil (hincomplete : framing.Incomplete start messages) {done : List Message}
    (hall : framing.stream done ++ start = framing.stream (done ++ messages)) : messages = [] := by
  rw [stream_append, List.append_cancel_left_eq] at hall
  cases messages with
  | nil => rfl
  | cons message rest =>
    have hshort := hincomplete.short message rfl
    rw [hall, stream_cons, List.length_append] at hshort
    omega

section Part

variable (hpart : start <+: framing.stream (message :: messages))
include hpart

theorem prefix_frame_of_short
    (hshort : start.length < (framing.frame message).length) : start <+: framing.frame message :=
  List.prefix_of_prefix_length_le hpart (List.prefix_append _ _) hshort.le

theorem decodeLength_of_short (hshort : start.length < (framing.frame message).length) :
    framing.decodeLength start = none ∨
    ∃ number count, framing.decodeLength start = some (number, count) ∧
      start.length < count + number := by
  have hlimit := framing.length_encode message
  have hframe := prefix_frame_of_short hpart hshort
  rcases Nat.lt_or_ge start.length (framing.lengthOf message).length with hlt | hge
  · left
    refine framing.decodeLength_incomplete _ hlimit start ?_ ?_
    · exact List.prefix_of_prefix_length_le hframe (List.prefix_append _ _) hlt.le
    · exact fun heq => Nat.ne_of_lt hlt (congrArg List.length heq)
  · right
    obtain ⟨rest, rfl⟩ :=
      List.prefix_of_prefix_length_le (List.prefix_append _ _) hframe hge
    have hlength : (framing.frame message).length =
        (framing.lengthOf message).length + (framing.encode message).length := List.length_append
    exact ⟨_, _, framing.decodeLength_encodeLength _ hlimit rest, hlength ▸ hshort⟩

theorem split_of_long (hlong : (framing.frame message).length ≤ start.length) :
    ∃ rest, start = framing.frame message ++ rest ∧ rest <+: framing.stream messages := by
  obtain ⟨rest, rfl⟩ :=
    List.prefix_of_prefix_length_le (List.prefix_append _ _) hpart hlong
  exact ⟨rest, rfl, (List.prefix_append_right_inj _).mp hpart⟩

end Part

theorem decodeLength_frame (message : Message) (rest : List Symbol) :
    framing.decodeLength (framing.frame message ++ rest) =
      some ((framing.encode message).length, (framing.lengthOf message).length) := by
  rw [frame, List.append_assoc]
  exact framing.decodeLength_encodeLength _ (framing.length_encode message) _

end Framing

end ValkeyGlide.Foundation

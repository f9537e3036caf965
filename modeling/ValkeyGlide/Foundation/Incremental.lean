import Mathlib.Data.Option.Basic

/-!
# Incremental decoding

A decoder is called on the unread part of a stream.  It takes an item off the
front, asks for more input, or fails; between calls it may keep a state.  `feed`
appends a chunk to the unread part and decodes until more input is needed.

`Incremental` says that no answer depends on input that has not arrived yet, and
`feedAll_eq_feed` that then the cuts between chunks do not matter.
-/

namespace ValkeyGlide.Foundation

variable {Symbol State Item Error : Type*}

inductive Decoded (Symbol State Item Error : Type*) where
  | item (item : Item) (rest : List Symbol) (state : State)
  | wait (state : State)
  | fail (error : Error)

structure Decoding (Symbol State Item Error : Type*) where
  items : List Item
  unread : Except Error (List Symbol × State)

namespace Decoding

def before (items : List Item) (later : Decoding Symbol State Item Error) :
    Decoding Symbol State Item Error :=
  ⟨items ++ later.items, later.unread⟩

end Decoding

section Stream

variable (decode : List Symbol → State → Decoded Symbol State Item Error)

def drainFrom : Nat → List Symbol → State → Decoding Symbol State Item Error
  | 0, input, state => ⟨[], .ok (input, state)⟩
  | fuel + 1, input, state =>
    match decode input state with
    | .item item rest next => .before [item] (drainFrom fuel rest next)
    | .wait next => ⟨[], .ok (input, next)⟩
    | .fail error => ⟨[], .error error⟩

def drain (input : List Symbol) (state : State) : Decoding Symbol State Item Error :=
  drainFrom decode (input.length + 1) input state

def feed (decoding : Decoding Symbol State Item Error) (chunk : List Symbol) :
    Decoding Symbol State Item Error :=
  match decoding.unread with
  | .error _ => decoding
  | .ok (input, state) => .before decoding.items (drain decode (input ++ chunk) state)

def feedAll (decoding : Decoding Symbol State Item Error) (chunks : List (List Symbol)) :
    Decoding Symbol State Item Error :=
  chunks.foldl (feed decode) decoding

/--
`Valid` are the states the decoder can be left in.  After a wait the decoder may
continue from the state it kept or start over, with the same result.
-/
structure Incremental (Valid : State → Prop) : Prop where
  item : ∀ {input state item rest next}, Valid state →
    decode input state = .item item rest next →
    Valid next ∧ rest.length < input.length ∧
      ∀ more, decode (input ++ more) state = .item item (rest ++ more) next
  wait : ∀ {input state next}, Valid state → decode input state = .wait next →
    Valid next ∧ ∀ more, decode (input ++ more) state = decode (input ++ more) next
  fail : ∀ {input state error}, Valid state → decode input state = .fail error →
    ∀ more, decode (input ++ more) state = .fail error

end Stream

section Laws

variable {decode : List Symbol → State → Decoded Symbol State Item Error} {Valid : State → Prop}

variable {state : State} {decoding : Decoding Symbol State Item Error} {input : List Symbol}

theorem drainFrom_eq_drain (hincremental : Incremental decode Valid) {fuel : Nat}
    (hvalid : Valid state) (hfuel : input.length < fuel) :
    drainFrom decode fuel input state = drain decode input state := by
  suffices hfuels : ∀ other, input.length < other →
      drainFrom decode fuel input state = drainFrom decode other input state from
    hfuels (input.length + 1) (Nat.lt_succ_self _)
  induction fuel generalizing input state with
  | zero => exact absurd hfuel (Nat.not_lt_zero _)
  | succ fuel ih =>
    intro other hother
    cases other with
    | zero => exact absurd hother (Nat.not_lt_zero _)
    | succ other =>
      rw [drainFrom, drainFrom]
      cases hdecode : decode input state with
      | item item rest next =>
        obtain ⟨hnext, hshorter, -⟩ := hincremental.item hvalid hdecode
        dsimp only
        rw [ih hnext (by omega) other (by omega)]
      | wait next => rfl
      | fail error => rfl

theorem drain_append (hincremental : Incremental decode Valid) (hvalid : Valid state)
    (input more : List Symbol) :
    drain decode (input ++ more) state = feed decode (drain decode input state) more := by
  induction hlength : input.length using Nat.strongRecOn generalizing input state with
  | ind length ih =>
    rw [drain, drain, drainFrom, drainFrom]
    cases hdecode : decode input state with
    | item item rest next =>
      obtain ⟨hnext, hshorter, happend⟩ := hincremental.item hvalid hdecode
      rw [happend more]
      dsimp only
      rw [drainFrom_eq_drain hincremental hnext (by simp; omega),
        drainFrom_eq_drain hincremental hnext (by omega),
        ih rest.length (by omega) hnext rest rfl]
      rw [feed, feed]
      cases hunread : (drain decode rest next).unread with
      | error error | ok unread => simp [Decoding.before, hunread]
    | wait next =>
      obtain ⟨hnext, hsame⟩ := hincremental.wait hvalid hdecode
      rw [hsame more]
      rfl
    | fail error =>
      rw [hincremental.fail hvalid hdecode more]
      rfl

def Decoding.Settled (decode : List Symbol → State → Decoded Symbol State Item Error)
    (Valid : State → Prop) (decoding : Decoding Symbol State Item Error) : Prop :=
  ∀ input state, decoding.unread = .ok (input, state) →
    Valid state ∧ decode input state = .wait state

theorem settled_drain (hincremental : Incremental decode Valid) (hvalid : Valid state) :
    (drain decode input state).Settled decode Valid := by
  induction hlength : input.length using Nat.strongRecOn generalizing input state with
  | ind length ih =>
    rw [drain, drainFrom]
    cases hdecode : decode input state with
    | item item rest next =>
      obtain ⟨hnext, hshorter, -⟩ := hincremental.item hvalid hdecode
      dsimp only
      rw [drainFrom_eq_drain hincremental hnext (by omega)]
      exact ih rest.length (by omega) hnext rfl
    | wait next =>
      obtain ⟨hnext, hsame⟩ := hincremental.wait hvalid hdecode
      rintro unread left ⟨⟩
      have hagain := hsame []
      rw [List.append_nil, hdecode] at hagain
      exact ⟨hnext, hagain.symm⟩
    | fail error =>
      intro unread left hunread
      contradiction

theorem settled_feed (hincremental : Incremental decode Valid)
    (hsettled : decoding.Settled decode Valid) (chunk : List Symbol) :
    (feed decode decoding chunk).Settled decode Valid := by
  rw [feed]
  cases hunread : decoding.unread with
  | error error => exact hsettled
  | ok unread =>
    obtain ⟨input, state⟩ := unread
    exact settled_drain hincremental (hsettled input state hunread).1

theorem feed_nil (hsettled : decoding.Settled decode Valid) :
    feed decode decoding [] = decoding := by
  obtain ⟨items, unread⟩ := decoding
  cases unread with
  | error error => rfl
  | ok unread =>
    obtain ⟨input, state⟩ := unread
    obtain ⟨-, hwait⟩ := hsettled input state rfl
    simp [feed, drain, drainFrom, hwait, Decoding.before]

theorem feed_append (hincremental : Incremental decode Valid)
    (hsettled : decoding.Settled decode Valid) (first second : List Symbol) :
    feed decode decoding (first ++ second) =
      feed decode (feed decode decoding first) second := by
  obtain ⟨items, unread⟩ := decoding
  cases unread with
  | error error => rfl
  | ok unread =>
    obtain ⟨input, state⟩ := unread
    obtain ⟨hvalid, -⟩ := hsettled input state rfl
    have happend := drain_append hincremental hvalid (input ++ first) second
    rw [List.append_assoc] at happend
    simp only [feed]
    rw [happend, feed]
    cases hunread : (drain decode (input ++ first) state).unread with
    | error error => simp [Decoding.before, hunread]
    | ok unread => simp [Decoding.before, hunread]

theorem feedAll_eq_feed (hincremental : Incremental decode Valid)
    (hsettled : decoding.Settled decode Valid) (chunks : List (List Symbol)) :
    feedAll decode decoding chunks = feed decode decoding chunks.flatten := by
  induction chunks generalizing decoding with
  | nil => exact (feed_nil hsettled).symm
  | cons chunk rest ih =>
    rw [List.flatten_cons, feed_append hincremental hsettled,
      ← ih (settled_feed hincremental hsettled chunk)]
    rfl

end Laws

end ValkeyGlide.Foundation

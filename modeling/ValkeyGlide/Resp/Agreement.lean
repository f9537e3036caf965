import Mathlib.Algebra.Order.Group.Nat
import ValkeyGlide.Resp.Resume

/-!
# The scan and the parser agree

`Spans` is the grammar that both follow: a number of values at a depth, from one
position to another.  A complete scan has walked such a span, and along a span the
parser moves to its end or stops at contents the scan does not look at.
-/

namespace ValkeyGlide.Resp

open Foundation Protocol

/-! ## Spans -/

inductive Spans (env : TextParsers) (buf : Bytes) : Nat → Nat → Nat → Nat → Prop
  | done {depth pos} : Spans env buf depth 0 pos pos
  | flat {depth count pos next stop} (helement : ElementAt env buf depth pos next none)
      (hrest : Spans env buf depth count next stop) : Spans env buf depth (count + 1) pos stop
  | nested {depth count pos next children inner stop}
      (helement : ElementAt env buf depth pos next (some children))
      (hinner : Spans env buf (depth + 1) children next inner)
      (hrest : Spans env buf depth count inner stop) : Spans env buf depth (count + 1) pos stop

section Spans

variable {env : TextParsers} {buf other : Bytes}

variable {pos stop : Nat}

theorem Spans.count_le {depth count : Nat} (hspans : Spans env buf depth count pos stop) :
    pos + count ≤ stop := by
  induction hspans with
  | done => exact Nat.le_refl _
  | flat helement hrest ih | nested helement hinner hrest ihinner ih =>
    obtain ⟨hlt, -⟩ := helement.bounds
    omega

theorem Spans.congr {depth count last : Nat} (hspans : Spans env buf depth count pos stop)
    (hstop : stop ≤ last) (hagree : other.take last = buf.take last) :
    Spans env other depth count pos stop := by
  induction hspans with
  | done => exact .done
  | flat helement hrest ih =>
    have hle := hrest.count_le
    exact .flat (helement.congr (take_of_agree (by omega) hagree)) (ih hstop)
  | nested helement hinner hrest ihinner ih =>
    have hle := hrest.count_le
    have hinnerLe := hinner.count_le
    exact .nested (helement.congr (take_of_agree (by omega) hagree)) (ihinner (by omega))
      (ih hstop)

def StackSpans (env : TextParsers) (buf : Bytes) : List Nat → Nat → Nat → Prop
  | [], pos, stop => pos = stop
  | count :: below, pos, stop =>
    ∃ next, Spans env buf (below.length + 1) count pos next ∧
      StackSpans env buf below next stop

theorem stackSpans_of_closed {stack : List Nat}
    (hclosed : StackSpans env buf (stack.dropWhile (· == 0)) pos stop) :
    StackSpans env buf stack pos stop := by
  induction stack with
  | nil => exact hclosed
  | cons count below ih =>
    by_cases hzero : count = 0
    · subst hzero
      exact ⟨pos, .done, ih (by simpa using hclosed)⟩
    · rwa [List.dropWhile_cons_of_neg (by simpa using hzero)] at hclosed

theorem Scans.spans {state : ScanState} {scanned : Scanned} (hscans : Scans env buf state scanned)
    (hcomplete : scanned = .complete stop) :
    StackSpans env buf state.stack state.pos stop := by
  induction hscans with
  | complete hclosed =>
    cases hcomplete
    apply stackSpans_of_closed
    rw [hclosed]
    rfl
  | failed hclosed hscan | partly hclosed hscan => contradiction
  | @element state remaining below next count scanned hclosed hscan hrest ih =>
    have helement := elementAt_of_scanElement hscan
    have hleft : remaining - 1 + 1 = remaining :=
      Nat.succ_pred_eq_of_ne_zero (closed_ne_zero hclosed)
    apply stackSpans_of_closed
    rw [hclosed, ← hleft]
    cases count with
    | none =>
      obtain ⟨after, hspans, hbelow⟩ := ih hcomplete
      exact ⟨after, .flat helement hspans, hbelow⟩
    | some children =>
      obtain ⟨inner, hinner, after, hspans, hbelow⟩ := ih hcomplete
      exact ⟨after, .nested helement hinner hspans, hbelow⟩

end Spans

/-! ## Parsing along a span -/

inductive ContentError (env : TextParsers) (frame : Bytes) : ParseError → Prop
  | scalar {pos byte type lineEnd next error} (hbyte : frame[pos]? = some byte)
      (htype : elementType byte = .scalar type)
      (hline : findLine frame (pos + 1) = some (lineEnd, next))
      (hvalue : (lineStr env (slice frame (pos + 1) lineEnd)).bind (scalarValue env type) =
        .error error) :
      ContentError env frame error
  | verbatim {pos payloadStart size stop error}
      (hheader : HeaderAt env frame pos (.blob .verbatim) payloadStart size)
      (hend : blobEnd env size payloadStart = .ok stop)
      (hvalue : blobValue env .verbatim (slice frame payloadStart (stop - 2)) = .error error) :
      ContentError env frame error
  | push {pos next n depth cursor after first error}
      (hheader : HeaderAt env frame pos (.aggregate .push) next n) (hcursor : cursor.pos = next)
      (hfirst : parseValue env frame depth cursor = .ok first after)
      (hkind : pushKind env first = .error error) : ContentError env frame error

def Cursor.Reserves (limit : Nat) (cursor : Cursor) : Prop :=
  ∀ count ∈ cursor.reserved, count ≤ limit

def Parses (env : TextParsers) (frame : Bytes) {α : Type} (pos stop : Nat) (parse : Parse α) :
    Prop :=
  ∀ cursor : Cursor, cursor.pos = pos → cursor.Reserves frame.length →
    match parse cursor with
    | .ok _ after => after.pos = stop ∧ after.Reserves frame.length
    | .error error after => ContentError env frame error ∧ after.Reserves frame.length

section Rules

variable {env : TextParsers} {frame : Bytes} {α β : Type} {pos next stop : Nat}

theorem parses_pure (value : α) : Parses env frame pos pos (pure value) :=
  fun _ hpos hreserves => ⟨hpos, hreserves⟩

variable {error : ParseError} {count after lineEnd : Nat} {result : Except ParseError α}
  {type : AggregateType} {n : Int} {first : Parse α} {second rest : α → Parse β}

theorem parses_throw (herror : ContentError env frame error) :
    Parses env frame pos stop (throw error : Parse α) :=
  fun _ _ hreserves => ⟨herror, hreserves⟩

theorem parses_moveTo : Parses env frame pos next (Parse.moveTo next) :=
  fun _ _ hreserves => ⟨rfl, hreserves⟩

theorem parses_reserve (hcount : count ≤ frame.length) :
    Parses env frame pos pos (Parse.reserve env count) := by
  intro cursor hpos hreserves
  refine ⟨hpos, ?_⟩
  intro reserved hmem
  rcases List.mem_append.mp hmem with hmem | hmem
  · exact hreserves reserved hmem
  · obtain rfl := List.mem_singleton.mp hmem
    exact Nat.le_trans (Nat.mod_le _ _) hcount

theorem parses_bind_result (hfirst : Parses env frame pos next first)
    (hsecond : ∀ cursor value after, cursor.pos = pos → first cursor = .ok value after →
      Parses env frame next stop (second value)) :
    Parses env frame pos stop (first >>= second) := by
  intro cursor hpos hreserves
  have hran := hfirst cursor hpos hreserves
  simp only [bind, EStateM.bind]
  cases hresult : first cursor with
  | error error after =>
    rw [hresult] at hran
    exact hran
  | ok value after =>
    rw [hresult] at hran
    exact hsecond cursor value after hpos hresult after hran.1 hran.2

theorem parses_bind (hfirst : Parses env frame pos next first)
    (hsecond : ∀ value, Parses env frame next stop (second value)) :
    Parses env frame pos stop (first >>= second) :=
  parses_bind_result hfirst fun _ value _ _ _ => hsecond value

theorem parses_liftExcept (herror : ∀ error, result = .error error → ContentError env frame error) :
    Parses env frame pos pos (Parse.liftExcept result) := by
  cases result with
  | ok value => exact parses_pure value
  | error error => exact parses_throw (herror error rfl)

theorem parses_expectLine {start : Nat} {rest : Nat × Nat → Parse β}
    (hline : findLine frame start = some (lineEnd, after))
    (hrest : Parses env frame pos stop (rest (lineEnd, after))) :
    Parses env frame pos stop (expectLine frame start >>= rest) := by
  rw [expectLine, hline]
  exact hrest

theorem parses_liftOk {value : α} (hresult : result = .ok value)
    (hrest : Parses env frame pos stop (rest value)) :
    Parses env frame pos stop (Parse.liftExcept result >>= rest) := by
  rw [hresult]
  exact hrest

theorem parses_liftError (hresult : result = .error error) (herror : ContentError env frame error) :
    Parses env frame pos stop (Parse.liftExcept result >>= rest) := by
  rw [hresult]
  exact fun _ _ hreserves => ⟨herror, hreserves⟩

theorem parses_parseScalar {byte : UInt8} {type : ScalarType} (hbyte : frame[pos]? = some byte)
    (htype : elementType byte = .scalar type)
    (hline : findLine frame (pos + 1) = some (lineEnd, after)) :
    Parses env frame pos after (parseScalar env frame type pos) := by
  refine parses_expectLine hline ?_
  cases htext : lineStr env (slice frame (pos + 1) lineEnd) with
  | error error =>
    exact parses_liftError htext (.scalar hbyte htype hline (by rw [htext]; rfl))
  | ok text =>
    refine parses_liftOk htext (parses_bind parses_moveTo fun _ => ?_)
    refine parses_liftExcept fun error herror => .scalar hbyte htype hline ?_
    rw [htext]
    exact herror

theorem blobValue_error {type : BlobType} {payload : Bytes}
    (hvalue : blobValue env type payload = .error error) : type = .verbatim := by
  cases type with
  | verbatim => rfl
  | bulkString | error => contradiction

theorem parses_parseBlob {type : BlobType} {payloadStart : Nat} {size : Int}
    (hheader : HeaderAt env frame pos (.blob type) payloadStart size) (hsize : ¬ size < 0)
    (hend : blobEnd env size payloadStart = .ok stop) (hstop : stop ≤ frame.length) :
    Parses env frame pos stop (parseBlob env frame type pos) := by
  obtain ⟨lineEnd, hline, hread⟩ := hheader.line
  refine parses_expectLine hline (parses_liftOk hread ?_)
  rw [if_neg hsize]
  refine parses_liftOk hend ?_
  rw [if_neg (Nat.not_lt.mpr hstop)]
  refine parses_bind parses_moveTo fun _ => parses_liftExcept fun error herror => ?_
  obtain rfl := blobValue_error herror
  exact .verbatim hheader hend herror

def Chain (steps : Nat → Nat → Prop) : Nat → Nat → Nat → Prop
  | 0, pos, stop => pos = stop
  | count + 1, pos, stop => ∃ next, steps pos next ∧ Chain steps count next stop

theorem chain_add {steps : Nat → Nat → Prop} {first second : Nat}
    (hchain : Chain steps (first + second) pos stop) :
    ∃ next, Chain steps first pos next ∧ Chain steps second next stop := by
  induction first generalizing pos with
  | zero =>
    rw [Nat.zero_add] at hchain
    exact ⟨pos, rfl, hchain⟩
  | succ first ih =>
    rw [Nat.succ_add] at hchain
    obtain ⟨after, hstep, hrest⟩ := hchain
    obtain ⟨next, hfirst, hsecond⟩ := ih hrest
    exact ⟨next, ⟨after, hstep, hfirst⟩, hsecond⟩

variable {element : Parse Value}

theorem parses_many
    (hchain : Chain (fun pos next => Parses env frame pos next element) count pos stop) :
    Parses env frame pos stop (Parse.many element count) := by
  induction count generalizing pos with
  | zero =>
    obtain rfl : pos = stop := hchain
    exact parses_pure []
  | succ count ih =>
    obtain ⟨next, hvalue, hrest⟩ := hchain
    exact parses_bind hvalue fun _ => parses_bind (ih hrest) fun _ => parses_pure _

theorem parses_pairs
    (hchain : Chain (fun pos next => Parses env frame pos next element) (count * 2) pos stop) :
    Parses env frame pos stop (Parse.pairs element count) := by
  induction count generalizing pos with
  | zero =>
    obtain rfl : pos = stop := by simpa [Chain] using hchain
    exact parses_pure []
  | succ count ih =>
    rw [Nat.succ_mul] at hchain
    obtain ⟨middle, hkey, next, hvalue, hrest⟩ := hchain
    exact parses_bind hkey fun _ => parses_bind hvalue fun _ =>
      parses_bind (ih hrest) fun _ => parses_pure _

theorem childCount_eq (hcount : childCount env type n = .ok count) :
    count = type.children n.toNat := by
  rw [childCount] at hcount
  split at hcount
  · exact (Except.ok.inj hcount).symm
  · contradiction

theorem parses_parseItems {typePos depth : Nat}
    (hheader : HeaderAt env frame typePos (.aggregate type) pos n)
    (hcount : childCount env type n = .ok count) (hroom : count ≤ frame.length)
    (hchain : Chain (fun pos next => Parses env frame pos next (parseValue env frame depth))
      count pos stop) :
    Parses env frame pos stop (parseItems env (parseValue env frame depth) type n.toNat) := by
  have hchildren := childCount_eq hcount
  cases type with
  | array | set =>
    obtain rfl : count = n.toNat := hchildren
    exact parses_bind (parses_reserve hroom) fun _ =>
      parses_bind (parses_many hchain) fun _ => parses_pure _
  | map =>
    obtain rfl : count = n.toNat * 2 := hchildren
    exact parses_bind (parses_reserve (by omega)) fun _ =>
      parses_bind (parses_pairs hchain) fun _ => parses_pure _
  | attributes =>
    obtain rfl : count = n.toNat * 2 + 1 := hchildren
    obtain ⟨middle, hpairs, last, hdata, rfl⟩ := chain_add hchain
    exact parses_bind (parses_reserve (by omega)) fun _ =>
      parses_bind (parses_pairs hpairs) fun _ => parses_bind hdata fun _ => parses_pure _
  | push =>
    obtain rfl : count = n.toNat := hchildren
    cases hn : n.toNat with
    | zero =>
      rw [hn] at hchain
      obtain rfl : pos = stop := hchain
      exact parses_pure _
    | succ rest =>
      rw [hn] at hchain hroom
      obtain ⟨middle, hfirst, hrest⟩ := hchain
      refine parses_bind_result hfirst fun cursor first after hcursor hvalue => ?_
      refine parses_bind (parses_reserve (by omega)) fun _ => ?_
      refine parses_bind (parses_many hrest) fun _ => ?_
      refine parses_bind (parses_liftExcept fun error herror => ?_) fun _ => parses_pure _
      exact .push hheader hcursor hvalue herror

end Rules

/-! ## Frames -/

section Frames

variable {env : TextParsers} {buf frame : Bytes}

variable {pos stop depth count next : Nat} {error : ParseError}

theorem parses_parseElement {byte : UInt8} {aggregate : AggregateType → Nat → Parse Value}
    (hbyte : frame[pos]? = some byte)
    (hparses : Parses env frame pos stop (parseTyped env frame aggregate byte pos)) :
    Parses env frame pos stop (parseElement env frame aggregate) := by
  rintro cursor rfl hreserves
  have hget : (get : Parse Cursor) cursor = .ok cursor cursor := rfl
  have hread : parseElement env frame aggregate cursor =
      parseTyped env frame aggregate byte cursor.pos cursor := by
    simp [parseElement, bind, EStateM.bind, hget, hbyte]
  rw [hread]
  exact hparses cursor rfl hreserves

theorem parseLevels_eq (hdepth : depth ≤ maxRecurseDepth) :
    parseValue env frame depth =
      parseElement env frame (parseAggregate env frame (parseValue env frame (depth + 1))) := by
  have hlevels : maxRecurseDepth + 1 - depth = maxRecurseDepth + 1 - (depth + 1) + 1 := by omega
  rw [parseValue, hlevels, parseLevels]
  rfl

theorem exists_parseValue_eq (env : TextParsers) (frame : Bytes) (depth : Nat) :
    ∃ aggregate, parseValue env frame depth = parseElement env frame aggregate := by
  rw [parseValue]
  cases maxRecurseDepth + 1 - depth with
  | zero => exact ⟨_, rfl⟩
  | succ levels => exact ⟨_, rfl⟩

theorem ElementAt.parses (helement : ElementAt env frame depth pos next none) :
    Parses env frame pos next (parseValue env frame depth) := by
  obtain ⟨aggregate, hvalue⟩ := exists_parseValue_eq env frame depth
  cases helement with
  | scalar hbyte htype hline =>
    rw [hvalue]
    apply parses_parseElement hbyte
    rw [parseTyped, htype]
    exact parses_parseScalar hbyte htype hline
  | noBlob hheader hnegative =>
    obtain ⟨byte, hbyte, htype⟩ := hheader.type
    rw [hvalue]
    apply parses_parseElement hbyte
    rw [parseTyped, htype]
    obtain ⟨lineEnd, hline, hsize⟩ := hheader.line
    refine parses_expectLine hline (parses_liftOk hsize ?_)
    rw [if_pos hnegative]
    exact parses_bind parses_moveTo fun _ => parses_pure _
  | blob hheader hsize hend hstop hcrlf =>
    obtain ⟨byte, hbyte, htype⟩ := hheader.type
    rw [hvalue]
    apply parses_parseElement hbyte
    rw [parseTyped, htype]
    exact parses_parseBlob hheader hsize hend hstop
  | noAggregate hheader hdepth hnegative =>
    obtain ⟨byte, hbyte, htype⟩ := hheader.type
    rw [parseLevels_eq hdepth]
    apply parses_parseElement hbyte
    rw [parseTyped, htype]
    obtain ⟨lineEnd, hline, hread⟩ := hheader.line
    refine parses_expectLine hline (parses_liftOk hread (parses_bind parses_moveTo fun _ => ?_))
    rw [if_pos hnegative]
    exact parses_pure _

theorem ElementAt.parses_nested (helement : ElementAt env frame depth pos next (some count))
    (hroom : count ≤ frame.length)
    (hchain : Chain (fun pos next => Parses env frame pos next (parseValue env frame
      (depth + 1))) count next stop) : Parses env frame pos stop (parseValue env frame depth) := by
  cases helement with
  | aggregate hheader hdepth hn hcount =>
    obtain ⟨byte, hbyte, htype⟩ := hheader.type
    rw [parseLevels_eq hdepth]
    apply parses_parseElement hbyte
    rw [parseTyped, htype]
    obtain ⟨lineEnd, hline, hread⟩ := hheader.line
    refine parses_expectLine hline (parses_liftOk hread (parses_bind parses_moveTo fun _ => ?_))
    rw [if_neg hn]
    exact parses_parseItems hheader hcount hroom hchain

theorem Spans.stop_le (hspans : Spans env buf depth count pos stop) (hpos : pos ≤ buf.length) :
    stop ≤ buf.length := by
  induction hspans with
  | done => exact hpos
  | flat helement hrest ih => exact ih helement.bounds.2
  | nested helement hinner hrest ihinner ih => exact ih (ihinner helement.bounds.2)

theorem Spans.parses (hspans : Spans env frame depth count pos stop) :
    Chain (fun pos next => Parses env frame pos next (parseValue env frame depth))
      count pos stop := by
  induction hspans with
  | done => rfl
  | flat helement hrest ih => exact ⟨_, helement.parses, ih⟩
  | nested helement hinner hrest ihinner ih =>
    have hinside := hinner.stop_le helement.bounds.2
    have hroom := hinner.count_le
    exact ⟨_, helement.parses_nested (by omega) ihinner, ih⟩

theorem lineStr_error {line : Bytes} (htext : lineStr env line = .error error) :
    ∃ message, error = .invalidUtf8 message := by
  revert htext
  fun_cases lineStr env line with
  | case1 => simp
  | case2 message =>
    rintro ⟨⟩
    exact ⟨message, rfl⟩

def ParseError.IsContent : ParseError → Prop
  | .invalidUtf8 _ | .expectedInteger | .expectedDouble _ | .expectedBoolean | .expectedBigInt
  | .verbatim | .invalidPushKind _ | .push => True
  | _ => False

theorem scalarValue_error {type : ScalarType} {text : String}
    (hvalue : scalarValue env type text = .error error) : error.IsContent := by
  revert hvalue
  fun_cases scalarValue env type text with
  | case3 =>
    fun_cases intOf env text with
    | case1 => simp [bind, Except.bind, pure, Except.pure]
    | case2 =>
      rintro ⟨⟩
      trivial
  | case6 | case9 | case11 =>
    rintro ⟨⟩
    trivial
  | _ => simp [pure, Except.pure]

theorem blobValue_verbatim {payload : Bytes}
    (hvalue : blobValue env .verbatim payload = .error error) : error = .verbatim := by
  rw [blobValue] at hvalue
  split at hvalue
  · contradiction
  · exact (Except.error.inj hvalue).symm

theorem pushKind_error {first : Value} (hkind : pushKind env first = .error error) :
    error.IsContent := by
  revert hkind
  fun_cases pushKind env first with
  | case2 | case4 =>
    rintro ⟨⟩
    trivial
  | _ => simp

theorem ContentError.isContent (herror : ContentError env frame error) :
    error.IsContent := by
  cases herror with
  | @scalar pos byte type lineEnd next _ hbyte htype hline hvalue =>
    cases htext : lineStr env (slice frame (pos + 1) lineEnd) with
    | error failure =>
      obtain ⟨message, rfl⟩ := lineStr_error htext
      rw [htext] at hvalue
      cases hvalue
      trivial
    | ok text =>
      rw [htext] at hvalue
      exact scalarValue_error hvalue
  | verbatim hheader hend hvalue =>
    rw [blobValue_verbatim hvalue]
    trivial
  | push hheader hcursor hfirst hkind => exact pushKind_error hkind

end Frames

/-! ## Decoding -/

/-- The scan states that calls on a growing buffer can leave. -/
inductive Resumed (env : TextParsers) : Bytes → ScanState → Prop
  | start (buf : Bytes) : Resumed env buf .default
  | again {buf : Bytes} {state kept : ScanState} (more : Bytes) (hresumed : Resumed env buf state)
      (hscan : scanResume env buf state = .partly kept) : Resumed env (buf ++ more) kept

/-- The parser reads a frame to its end or stops at contents, and reserves no more than it holds. -/
def FrameParsed (env : TextParsers) (frame : Bytes) : Prop :=
  match parseValue env frame 1 ⟨0, []⟩ with
  | .ok _ cursor => cursor.pos = frame.length ∧ cursor.Reserves frame.length
  | .error error cursor =>
    ContentError env frame error ∧
      (error ≠ .unexpectedEndOfFrame ∧ error ≠ .depthExceeded ∧
        ∀ byte, error ≠ .invalidType byte) ∧
      cursor.Reserves frame.length

section Decoding

variable {env : TextParsers} {buf : Bytes}

theorem Resumed.scanResume_eq {state : ScanState} (hresumed : Resumed env buf state)
    (more : Bytes) :
    scanResume env (buf ++ more) state = scanResume env (buf ++ more) .default := by
  induction hresumed generalizing more with
  | start buf => rfl
  | @again buf state kept further hresumed hscan ih =>
    have hlonger := ih (further ++ more)
    rw [scanResume_append, hscan, Scanned.resume] at hlonger
    rw [List.append_assoc]
    exact hlonger

theorem frameParsed_of_scan {stop : Nat} (hscan : scanResume env buf .default = .complete stop) :
    stop ≤ buf.length ∧ FrameParsed env (buf.take stop) := by
  obtain ⟨-, hle⟩ := scanResume_complete expecting_default hscan
  refine ⟨hle, ?_⟩
  have hlength : (buf.take stop).length = stop := by rw [List.length_take]; omega
  obtain ⟨last, hspans, hlast⟩ := (scans_scanResume ScanState.default).spans hscan
  obtain rfl : last = stop := hlast
  have hvalue : Spans env buf 1 1 0 last := hspans
  have hagree : (buf.take last).take last = buf.take last := by rw [List.take_take, Nat.min_self]
  obtain ⟨next, hparses, hnext⟩ := (hvalue.congr (Nat.le_refl _) hagree).parses
  obtain rfl : next = last := hnext
  have hran := hparses ⟨0, []⟩ rfl (fun count hmem => absurd hmem List.not_mem_nil)
  rw [FrameParsed]
  cases hparse : parseValue env (buf.take next) 1 ⟨0, []⟩ with
  | ok value cursor =>
    rw [hparse] at hran
    exact ⟨hran.1.trans hlength.symm, hran.2⟩
  | error error cursor =>
    rw [hparse] at hran
    have hcontent := hran.1.isContent
    refine ⟨hran.1, ⟨?_, ?_, fun byte => ?_⟩, hran.2⟩
    all_goals
      rintro rfl
      exact hcontent

end Decoding

/--
However a stream is cut into chunks, the codec decodes the same values and ends
in the same error.  Whenever the scan reports the end of a frame, on whichever
call, the parser agrees with it.
-/
theorem decoding_independent_of_reads (env : TextParsers) :
    (∀ chunks, decodeChunks env chunks = decodeChunks env [chunks.flatten] ∧
        decodeEof env (decodeChunks env chunks) =
          decodeEof env (decodeChunks env [chunks.flatten])) ∧
      ∀ buf state stop, Resumed env buf state → scanResume env buf state = .complete stop →
        stop ≤ buf.length ∧ FrameParsed env (buf.take stop) := by
  refine ⟨fun chunks => ?_, fun buf state stop hresumed hscan => ?_⟩
  · rw [decodeChunks_eq env chunks]
    exact ⟨rfl, rfl⟩
  · have hstart := hresumed.scanResume_eq []
    rw [List.append_nil, hscan] at hstart
    exact frameParsed_of_scan hstart.symm

private def digitParsers : TextParsers where
  usizeMax := 2 ^ 64 - 1
  fromUtf8 line := .ok (String.ofList (line.map fun byte => Char.ofNat byte.toNat))
  fromUtf8Lossy line := String.ofList (line.map fun byte => Char.ofNat byte.toNat)
  parseInt text := if text = "2" then some 2 else if text = "5" then some 5 else none
  parseDouble _ := .error "invalid float literal"
  parseBigInt _ := none
  errParser text := .extensionError text none
  debugChar _ := ""

theorem split_array_decoded :
    (decodeChunks digitParsers [bytes "*2\r\n:5\r\n:", bytes "2\r\n+"]).items.length = 1 ∧
      decodeChunks digitParsers [bytes "*2\r\n:5\r\n:", bytes "2\r\n+"] =
        decodeChunks digitParsers [bytes "*2\r\n:5\r\n:2\r\n+"] ∧
      FrameParsed digitParsers (bytes "*2\r\n:5\r\n:2\r\n") := by
  have hscan : scanResume digitParsers (bytes "*2\r\n:5\r\n:2\r\n+") ⟨8, [1, 0]⟩ =
      .complete 12 := by
    decide +kernel
  have hpartly : scanResume digitParsers (bytes "*2\r\n:5\r\n:") .default =
      .partly ⟨8, [1, 0]⟩ := by
    decide +kernel
  have hresumed : Resumed digitParsers (bytes "*2\r\n:5\r\n:2\r\n+") ⟨8, [1, 0]⟩ :=
    .again (bytes "2\r\n+") (.start (bytes "*2\r\n:5\r\n:")) hpartly
  obtain ⟨hchunks, hframes⟩ := decoding_independent_of_reads digitParsers
  refine ⟨by decide +kernel, (hchunks _).1, (hframes _ _ _ hresumed hscan).2⟩

end ValkeyGlide.Resp

import ValkeyGlide.Foundation.Incremental
import ValkeyGlide.Protocol.Value

/-!
# The zero-copy parser

The reply parser of the asynchronous codec (`parser.rs`, `zero_copy` and
`ValueCodec`).  A resumable scan looks for the end of one complete value in the
bytes read so far, and only then a recursive parser builds the value from those
bytes.

The text and number parsers of the standard library are the fields of
`TextParsers`; error lines are treated in the same way.
-/

namespace ValkeyGlide.Resp

open Foundation Protocol

/-- `parseInt` and `parseDouble` read a trimmed line. -/
structure TextParsers where
  usizeMax : Nat
  fromUtf8 : Bytes → Except String String
  fromUtf8Lossy : Bytes → String
  parseInt : String → Option Int
  parseDouble : String → Except String UInt64
  parseBigInt : String → Option Int
  errParser : String → ServerError
  debugChar : UInt8 → String

inductive ParseError where
  | invalidUtf8 (error : String)
  | expectedInteger
  | aggregateLimit
  | blobLimit
  | depthExceeded
  | expectedCrlf
  | invalidType (byte : UInt8)
  | unexpectedEndOfFrame
  | expectedDouble (error : String)
  | expectedBoolean
  | expectedBigInt
  | verbatim
  | invalidPushKind (error : String)
  | push
  | unexpectedEndOfInput
  deriving DecidableEq, Repr

def ParseError.detail (env : TextParsers) : ParseError → String
  | invalidUtf8 error => s!"invalid utf-8 in line: {error}"
  | expectedInteger => "Expected integer, got garbage"
  | aggregateLimit => "aggregate length exceeds platform limits"
  | blobLimit => "blob length exceeds platform limits"
  | depthExceeded => "Maximum recursion depth exceeded"
  | expectedCrlf => "expected CRLF after blob payload"
  | invalidType byte => "invalid RESP type byte " ++ env.debugChar byte
  | unexpectedEndOfFrame => "unexpected end of frame"
  | expectedDouble error => s!"Expected double, got garbage: {error}"
  | expectedBoolean => "Expected boolean, got garbage"
  | expectedBigInt => "Expected bigint, got garbage"
  | verbatim => "parse error when decoding verbatim string"
  | invalidPushKind error => s!"invalid push kind: {error}"
  | push => "parse error when decoding push"
  | unexpectedEndOfInput => "unexpected end of input"

def ParseError.toRedisError (env : TextParsers) (error : ParseError) : RedisError :=
  .withDescriptionAndDetail .parseError "parse error" (error.detail env)

/-! ## Type bytes and lines -/

inductive ScalarType where
  | simpleString
  | error
  | int
  | null
  | double
  | boolean
  | bigNumber
  deriving DecidableEq, Repr

inductive BlobType where
  | bulkString
  | error
  | verbatim
  deriving DecidableEq, Repr

inductive AggregateType where
  | array
  | map
  | attributes
  | set
  | push
  deriving DecidableEq, Repr

/-- The values that follow a header; attributes come with the value they are about. -/
def AggregateType.children (n : Nat) : AggregateType → Nat
  | .map => n * 2
  | .attributes => n * 2 + 1
  | .array | .set | .push => n

inductive ElementType where
  | scalar (type : ScalarType)
  | blob (type : BlobType)
  | aggregate (type : AggregateType)
  | invalid
  deriving DecidableEq, Repr

def elementType (byte : UInt8) : ElementType :=
  if byte = 43 then .scalar .simpleString
  else if byte = 45 then .scalar .error
  else if byte = 58 then .scalar .int
  else if byte = 95 then .scalar .null
  else if byte = 44 then .scalar .double
  else if byte = 35 then .scalar .boolean
  else if byte = 40 then .scalar .bigNumber
  else if byte = 36 then .blob .bulkString
  else if byte = 33 then .blob .error
  else if byte = 61 then .blob .verbatim
  else if byte = 42 then .aggregate .array
  else if byte = 37 then .aggregate .map
  else if byte = 124 then .aggregate .attributes
  else if byte = 126 then .aggregate .set
  else if byte = 62 then .aggregate .push
  else .invalid

def maxRecurseDepth : Nat := 100

def crlf : Bytes := [13, 10]

def findCrlf : Bytes → Option Nat
  | [] => none
  | byte :: rest =>
    if byte = 13 ∧ rest.head? = some 10 then some 0 else (findCrlf rest).map (· + 1)

def findLine (buf : Bytes) (pos : Nat) : Option (Nat × Nat) :=
  (findCrlf (buf.drop pos)).map fun rel => (pos + rel, pos + rel + 2)

def slice (buf : Bytes) (start stop : Nat) : Bytes := (buf.take stop).drop start

section Lines

variable (env : TextParsers)

def lineStr (line : Bytes) : Except ParseError String :=
  match env.fromUtf8 line with
  | .ok text => .ok text
  | .error error => .error (.invalidUtf8 error)

def intOf (text : String) : Except ParseError Int :=
  match env.parseInt text with
  | some value => .ok value
  | none => .error .expectedInteger

def lineInt (line : Bytes) : Except ParseError Int := do
  let text ← lineStr env line
  intOf env text

def childCount (type : AggregateType) (n : Int) : Except ParseError Nat :=
  if type.children n.toNat ≤ env.usizeMax then .ok (type.children n.toNat)
  else .error .aggregateLimit

def blobEnd (size : Int) (payloadStart : Nat) : Except ParseError Nat :=
  if size.toNat + payloadStart + 2 ≤ env.usizeMax then .ok (size.toNat + payloadStart + 2)
  else .error .blobLimit

end Lines

/-! ## The scan -/

/-- `stack` are the values still expected at each open level, the innermost first. -/
structure ScanState where
  pos : Nat
  stack : List Nat
  deriving DecidableEq, Repr

def ScanState.default : ScanState := ⟨0, [1]⟩

inductive Scanned where
  | complete (stop : Nat)
  | partly (state : ScanState)
  | failed (error : ParseError)
  deriving DecidableEq, Repr

section Scan

variable (env : TextParsers) (buf : Bytes)

/-- A blob whose size was read; `none` when its payload is not completely there. -/
def scanBlob (size : Int) (payloadStart : Nat) : Except ParseError (Option (Nat × Option Nat)) :=
  if size < 0 then .ok (some (payloadStart, none))
  else
    match blobEnd env size payloadStart with
    | .error error => .error error
    | .ok stop =>
      if buf.length < stop then .ok none
      else if slice buf (stop - 2) stop = crlf then .ok (some (stop, none))
      else .error .expectedCrlf

def scanAggregate (type : AggregateType) (n : Int) (next : Nat) :
    Except ParseError (Option (Nat × Option Nat)) :=
  if n < 0 then .ok (some (next, none))
  else
    match childCount env type n with
    | .error error => .error error
    | .ok count => .ok (some (next, some count))

/--
One value at `pos`, or the header of an aggregate: where it ends, and how many
values follow inside it.  `none` when it is not completely there.
-/
def scanElement (depth pos : Nat) : Except ParseError (Option (Nat × Option Nat)) :=
  match buf[pos]? with
  | none => .ok none
  | some byte =>
    match elementType byte with
    | .scalar _ =>
      match findLine buf (pos + 1) with
      | none => .ok none
      | some (_, next) => .ok (some (next, none))
    | .blob _ =>
      match findLine buf (pos + 1) with
      | none => .ok none
      | some (lineEnd, payloadStart) =>
        match lineInt env (slice buf (pos + 1) lineEnd) with
        | .error error => .error error
        | .ok size => scanBlob env buf size payloadStart
    | .aggregate type =>
      if maxRecurseDepth < depth then .error .depthExceeded
      else
        match findLine buf (pos + 1) with
        | none => .ok none
        | some (lineEnd, next) =>
          match lineInt env (slice buf (pos + 1) lineEnd) with
          | .error error => .error error
          | .ok n => scanAggregate env type n next
    | .invalid => .error (.invalidType byte)

def scanLoop : Nat → ScanState → Scanned
  | 0, state => .partly state
  | fuel + 1, state =>
    -- completed aggregates are closed first
    match state.stack.dropWhile (· == 0) with
    | [] => .complete state.pos
    | remaining :: below =>
      match scanElement env buf (below.length + 1) state.pos with
      | .error error => .failed error
      | .ok none => .partly ⟨state.pos, remaining :: below⟩
      | .ok (some (next, none)) => scanLoop fuel ⟨next, (remaining - 1) :: below⟩
      | .ok (some (next, some count)) =>
        scanLoop fuel ⟨next, count :: (remaining - 1) :: below⟩

def scanResume (state : ScanState) : Scanned :=
  scanLoop env buf (buf.length - state.pos + 1) state

end Scan

/-! ## The parser -/

structure Cursor where
  pos : Nat
  reserved : List Nat
  deriving DecidableEq, Repr

abbrev Parse := EStateM ParseError Cursor

namespace Parse

def liftExcept {α : Type} : Except ParseError α → Parse α
  | .ok value => pure value
  | .error error => throw error

def moveTo (pos : Nat) : Parse Unit := modify fun cursor => { cursor with pos := pos }

/-- `Vec::with_capacity`; the count was an `i64`. -/
def reserve (env : TextParsers) (count : Nat) : Parse Unit :=
  modify fun cursor =>
    { cursor with reserved := cursor.reserved ++ [count % (env.usizeMax + 1)] }

def many (element : Parse Value) : Nat → Parse (List Value)
  | 0 => return []
  | n + 1 => do
      let value ← element
      let rest ← many element n
      return value :: rest

def pairs (element : Parse Value) : Nat → Parse (List (Value × Value))
  | 0 => return []
  | n + 1 => do
      let key ← element
      let value ← element
      let rest ← pairs element n
      return (key, value) :: rest

end Parse

def splitOnceColon (text : String) : Option (String × String) :=
  match text.toList.span (· != ':') with
  | (_, []) => none
  | (before, _ :: after) => some (String.ofList before, String.ofList after)

def verbatimFormat (format : String) : VerbatimFormat :=
  if format = "txt" then .text
  else if format = "mkd" then .markdown
  else .unknown format

def getPushKind (kind : String) : PushKind :=
  if kind = "invalidate" then .invalidate
  else if kind = "message" then .message
  else if kind = "pmessage" then .pMessage
  else if kind = "smessage" then .sMessage
  else if kind = "unsubscribe" then .unsubscribe
  else if kind = "punsubscribe" then .pUnsubscribe
  else if kind = "sunsubscribe" then .sUnsubscribe
  else if kind = "subscribe" then .subscribe
  else if kind = "psubscribe" then .pSubscribe
  else if kind = "ssubscribe" then .sSubscribe
  else .other kind

section Parser

variable (env : TextParsers) (frame : Bytes)

def scalarValue (type : ScalarType) (text : String) : Except ParseError Value := do
  match type with
  | .simpleString => return if text = "OK" then .okay else .simpleString text
  | .error => return .serverError (env.errParser text)
  | .int => return .int (← intOf env text)
  | .null => return .nil
  | .double =>
    match env.parseDouble text with
    | .ok bits => return .double bits
    | .error error => throw (.expectedDouble error)
  | .boolean =>
    if text = "t" then return .boolean true
    else if text = "f" then return .boolean false
    else throw .expectedBoolean
  | .bigNumber =>
    match env.parseBigInt text with
    | some value => return .bigNumber value
    | none => throw .expectedBigInt

def blobValue (type : BlobType) (payload : Bytes) : Except ParseError Value :=
  match type with
  | .bulkString => .ok (.bulkString payload)
  | .error => .ok (.serverError (env.errParser (env.fromUtf8Lossy payload)))
  | .verbatim =>
    match splitOnceColon (env.fromUtf8Lossy payload) with
    | some (format, text) => .ok (.verbatimString (verbatimFormat format) text)
    | none => .error .verbatim

def pushKind : Value → Except ParseError PushKind
  | .bulkString kind =>
    match env.fromUtf8 kind with
    | .ok text => .ok (getPushKind text)
    | .error error => .error (.invalidPushKind error)
  | .simpleString kind => .ok (getPushKind kind)
  | _ => .error .push

def expectLine (pos : Nat) : Parse (Nat × Nat) :=
  match findLine frame pos with
  | some line => pure line
  | none => throw .unexpectedEndOfFrame

def parseScalar (type : ScalarType) (typePos : Nat) : Parse Value := do
  let (lineEnd, next) ← expectLine frame (typePos + 1)
  let text ← Parse.liftExcept (lineStr env (slice frame (typePos + 1) lineEnd))
  Parse.moveTo next
  Parse.liftExcept (scalarValue env type text)

def parseBlob (type : BlobType) (typePos : Nat) : Parse Value := do
  let (lineEnd, payloadStart) ← expectLine frame (typePos + 1)
  let size ← Parse.liftExcept (lineInt env (slice frame (typePos + 1) lineEnd))
  if size < 0 then
    Parse.moveTo payloadStart
    return .nil
  let stop ← Parse.liftExcept (blobEnd env size payloadStart)
  if frame.length < stop then throw .unexpectedEndOfFrame
  Parse.moveTo stop
  Parse.liftExcept (blobValue env type (slice frame payloadStart (stop - 2)))

def parseItems (element : Parse Value) (type : AggregateType) (n : Nat) : Parse Value :=
  match type with
  | .array => do
      Parse.reserve env n
      return .array (← Parse.many element n)
  | .set => do
      Parse.reserve env n
      return .set (← Parse.many element n)
  | .map => do
      Parse.reserve env n
      return .map (← Parse.pairs element n)
  | .attributes => do
      Parse.reserve env n
      let attributes ← Parse.pairs element n
      return .attributed (← element) attributes
  | .push =>
    match n with
    | 0 => return .push (.other "") []
    | n + 1 => do
        let first ← element
        Parse.reserve env n
        let data ← Parse.many element n
        let kind ← Parse.liftExcept (pushKind env first)
        return .push kind data

def parseAggregate (element : Parse Value) (type : AggregateType) (typePos : Nat) :
    Parse Value := do
  let (lineEnd, next) ← expectLine frame (typePos + 1)
  let n ← Parse.liftExcept (lineInt env (slice frame (typePos + 1) lineEnd))
  Parse.moveTo next
  if n < 0 then
    return if type = .push then .push (.other "") [] else .nil
  parseItems env element type n.toNat

def parseTyped (aggregate : AggregateType → Nat → Parse Value) (byte : UInt8) (typePos : Nat) :
    Parse Value :=
  match elementType byte with
  | .scalar type => parseScalar env frame type typePos
  | .blob type => parseBlob env frame type typePos
  | .aggregate type => aggregate type typePos
  | .invalid => throw (.invalidType byte)

def parseElement (aggregate : AggregateType → Nat → Parse Value) : Parse Value := do
  let typePos := (← get).pos
  match frame[typePos]? with
  | none => throw .unexpectedEndOfFrame
  | some byte => parseTyped env frame aggregate byte typePos

def parseLevels : Nat → Parse Value
  | 0 => parseElement env frame fun _ _ => throw .depthExceeded
  | levels + 1 => parseElement env frame (parseAggregate env frame (parseLevels levels))

def parseValue (depth : Nat) : Parse Value := parseLevels env frame (maxRecurseDepth + 1 - depth)

end Parser

/-! ## The codec -/

/-- The frame is copied out of the buffer before it is parsed. -/
def decodeScanned (env : TextParsers) (eof : Bool) (buf : Bytes) :
    Scanned → Decoded UInt8 ScanState Value RedisError
  | .failed error => .fail (error.toRedisError env)
  | .partly scan =>
    if eof then .fail (ParseError.unexpectedEndOfInput.toRedisError env) else .wait scan
  | .complete stop =>
    match parseValue env (buf.take stop) 1 ⟨0, []⟩ with
    | .ok value _ => .item value (buf.drop stop) .default
    | .error error _ => .fail (error.toRedisError env)

def decodeStream (env : TextParsers) (eof : Bool) (buf : Bytes) (scan : ScanState) :
    Decoded UInt8 ScanState Value RedisError :=
  if buf = [] then .wait scan else decodeScanned env eof buf (scanResume env buf scan)

def ValueCodec.new : Decoding UInt8 ScanState Value RedisError := ⟨[], .ok ([], .default)⟩

def decodeChunks (env : TextParsers) (chunks : List Bytes) :
    Decoding UInt8 ScanState Value RedisError :=
  feedAll (decodeStream env false) ValueCodec.new chunks

def decodeEof (env : TextParsers) (decoding : Decoding UInt8 ScanState Value RedisError) :
    Decoding UInt8 ScanState Value RedisError :=
  match decoding.unread with
  | .error _ => decoding
  | .ok (buf, scan) => .before decoding.items (drain (decodeStream env true) buf scan)

end ValkeyGlide.Resp

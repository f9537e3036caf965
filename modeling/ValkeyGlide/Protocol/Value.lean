import ValkeyGlide.Protocol.Error

/-!
# Server replies

The reply values of the protocol (`types.rs`).  A floating point reply is kept as
its bit pattern; nothing in the development computes with it.
-/

namespace ValkeyGlide.Protocol

abbrev Bytes := List UInt8

instance : LawfulBEq Bytes := inferInstance

def bytes (text : String) : Bytes := text.toUTF8.data.toList

inductive VerbatimFormat where
  | unknown (name : String)
  | markdown
  | text
  deriving DecidableEq, Repr

inductive PushKind where
  | disconnection
  | other (name : String)
  | invalidate
  | message
  | pMessage
  | sMessage
  | unsubscribe
  | pUnsubscribe
  | sUnsubscribe
  | subscribe
  | pSubscribe
  | sSubscribe
  deriving DecidableEq, Repr

/--
Whether a push of this kind answers a command.  `sUnsubscribe` is left out: it
also arrives unprompted, when the slot of a sharded channel migrates.
-/
def PushKind.hasReply : PushKind → Bool
  | unsubscribe => true
  | pUnsubscribe => true
  | subscribe => true
  | pSubscribe => true
  | sSubscribe => true
  | _ => false

inductive Value where
  | nil
  | int (value : Int)
  | bulkString (data : Bytes)
  | array (values : List Value)
  | simpleString (text : String)
  | okay
  | map (entries : List (Value × Value))
  | attributed (data : Value) (attributes : List (Value × Value))
  | set (values : List Value)
  | double (bits : UInt64)
  | boolean (value : Bool)
  | verbatimString (format : VerbatimFormat) (text : String)
  | bigNumber (value : Int)
  | push (kind : PushKind) (data : List Value)
  | serverError (error : ServerError)

namespace Value

mutual

def extractError : Value → RedisResult Value
  | array values => do return array (← extractErrorVec values)
  | map entries => do return map (← extractErrorMap entries)
  | attributed data attributes => do
      let data ← extractError data
      let attributes ← extractErrorMap attributes
      return attributed data attributes
  | set values => do return set (← extractErrorVec values)
  | push kind data => do return push kind (← extractErrorVec data)
  | serverError error => .error error.toRedisError
  | nil => .ok nil
  | int value => .ok (int value)
  | bulkString data => .ok (bulkString data)
  | simpleString text => .ok (simpleString text)
  | okay => .ok okay
  | double bits => .ok (double bits)
  | boolean value => .ok (boolean value)
  | verbatimString format text => .ok (verbatimString format text)
  | bigNumber value => .ok (bigNumber value)

def extractErrorVec : List Value → RedisResult (List Value)
  | [] => .ok []
  | value :: rest => do
      let value ← extractError value
      return value :: (← extractErrorVec rest)

def extractErrorMap : List (Value × Value) → RedisResult (List (Value × Value))
  | [] => .ok []
  | (key, value) :: rest => do
      let key ← extractError key
      let value ← extractError value
      return (key, value) :: (← extractErrorMap rest)

end

end Value

def isServerError : Value → Bool
  | .serverError _ => true
  | _ => false

end ValkeyGlide.Protocol

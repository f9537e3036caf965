import ValkeyGlide.Protocol.Value

/-!
# Operations on a cluster

The outcome of an attempt at a request (`cluster_async/mod.rs`).
-/

namespace ValkeyGlide.Cluster

open Protocol

inductive OperationTarget where
  | node (address : String)
  | fanOut
  | notFound
  | fatalError
  deriving DecidableEq, Repr

/-- The cursor and the values of a scan are left out. -/
inductive Response where
  | single (value : Value)
  | multiple (values : List Value)
  | clusterScanResult

abbrev OperationResult := Except (OperationTarget × RedisError)

structure RedirectTexts where
  splitAsciiWhitespace : String → List String
  parseSlot : String → Option Nat

def redirectNode (texts : RedirectTexts) (error : RedisError) : Option (String × Nat) :=
  match error.kind, error.detail.map texts.splitAsciiWhitespace with
  | .ask, some (slot :: address :: _) | .moved, some (slot :: address :: _) =>
    (texts.parseSlot slot).map fun slot => (address, slot)
  | _, _ => none

end ValkeyGlide.Cluster

import ValkeyGlide.Protocol.Error

/-!
# Shards

The addresses of one shard (`cluster_routing.rs`): a primary and its replicas.
In the source the two fields sit behind locks and the whole value is shared
between slot ranges; sharing is modelled in `ValkeyGlide.Cluster.SlotMap`, where
ranges refer to shards by identifier.
-/

namespace ValkeyGlide.Cluster

open Protocol

abbrev Address := String

structure ShardAddrs where
  primary : Address
  replicas : List Address
  deriving DecidableEq, Repr

inductive ShardUpdateResult where
  | alreadyPrimary
  | promoted
  | nodeNotFound
  deriving DecidableEq, Repr

def debugChar (char : Char) : String :=
  match char with
  | '"' => "\\\""
  | '\\' => "\\\\"
  | '\n' => "\\n"
  | '\r' => "\\r"
  | '\t' => "\\t"
  | '\x00' => "\\0"
  | other =>
    if other.toNat < 0x20 ∨ other.toNat = 0x7f then
      "\\u\x7b" ++ String.ofList (Nat.toDigits 16 other.toNat) ++ "\x7d"
    else other.toString

def debugString (text : String) : String :=
  "\"" ++ text.toList.foldl (fun shown char => shown ++ debugChar char) "" ++ "\""

namespace ShardAddrs

def newWithPrimary (primary : Address) : ShardAddrs := ⟨primary, []⟩

def replicaIndex (replicas : List Address) (targetReplica : Address) : Option Nat :=
  replicas.findIdx? (· == targetReplica)

/--
A replica found under `newPrimary` changes places with the current primary.  The
entry at the found index is equal to `newPrimary`.
-/
def attemptShardRoleUpdate (shard : ShardAddrs) (newPrimary : Address) :
    ShardUpdateResult × ShardAddrs :=
  if shard.primary = newPrimary then
    (.alreadyPrimary, shard)
  else
    match replicaIndex shard.replicas newPrimary with
    | some index =>
      (.promoted, ⟨newPrimary, shard.replicas.set index shard.primary⟩)
    | none => (.nodeNotFound, shard)

def removeReplica (shard : ShardAddrs) (replicaToRemove : Address) :
    RedisResult ShardAddrs :=
  match replicaIndex shard.replicas replicaToRemove with
  | some index => .ok { shard with replicas := shard.replicas.eraseIdx index }
  | none =>
    .error (.withDescriptionAndDetail .clientError "Couldn't remove replica"
      ("Replica " ++ debugString replicaToRemove ++ " not found"))

/-! ## What the updates do -/

variable {replicas : List Address} {target : Address}

theorem replicaIndex_isSome_iff : (replicaIndex replicas target).isSome ↔ target ∈ replicas := by
  simp [replicaIndex, List.findIdx?_isSome]

theorem replicaIndex_eq_none_iff : replicaIndex replicas target = none ↔ target ∉ replicas := by
  rw [← replicaIndex_isSome_iff, Option.not_isSome_iff_eq_none]

theorem attemptShardRoleUpdate_cases (shard : ShardAddrs) (newPrimary : Address) :
    (shard.primary = newPrimary ∧
      shard.attemptShardRoleUpdate newPrimary = (.alreadyPrimary, shard)) ∨
    (shard.primary ≠ newPrimary ∧ newPrimary ∈ shard.replicas ∧
      ∃ replicas, shard.attemptShardRoleUpdate newPrimary =
        (.promoted, ⟨newPrimary, replicas⟩)) ∨
    (shard.primary ≠ newPrimary ∧ newPrimary ∉ shard.replicas ∧
      shard.attemptShardRoleUpdate newPrimary = (.nodeNotFound, shard)) := by
  by_cases hprimary : shard.primary = newPrimary
  · exact .inl ⟨hprimary, by simp [attemptShardRoleUpdate, hprimary]⟩
  · cases hindex : replicaIndex shard.replicas newPrimary with
    | none =>
      refine .inr (.inr ⟨hprimary, replicaIndex_eq_none_iff.mp hindex, ?_⟩)
      simp [attemptShardRoleUpdate, hprimary, hindex]
    | some index =>
      have hmem : newPrimary ∈ shard.replicas :=
        replicaIndex_isSome_iff.mp (by simp [hindex])
      exact .inr (.inl ⟨hprimary, hmem, shard.replicas.set index shard.primary,
        by simp [attemptShardRoleUpdate, hprimary, hindex]⟩)

theorem removeReplica_eq_ok {shard shard' : ShardAddrs} {replica : Address}
    (hremove : shard.removeReplica replica = .ok shard') :
    shard'.primary = shard.primary ∧ shard'.replicas = shard.replicas.erase replica := by
  unfold removeReplica at hremove
  split at hremove
  · next index hindex =>
      obtain rfl : { shard with replicas := shard.replicas.eraseIdx index } = shard' := by
        simpa using hremove
      refine ⟨rfl, ?_⟩
      have hindex' : shard.replicas.idxOf? replica = some index := hindex
      simp [List.erase_eq_eraseIdx, hindex']
  · simp at hremove

end ShardAddrs

end ValkeyGlide.Cluster

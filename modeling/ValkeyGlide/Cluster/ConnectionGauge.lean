import Mathlib.Algebra.GroupWithZero.Nat
import Mathlib.Algebra.Order.Group.Multiset
import Mathlib.Data.Multiset.UnionInter
import ValkeyGlide.Cluster.ReadRouting
import ValkeyGlide.Foundation.Run
import ValkeyGlide.Foundation.Total

/-!
# The connection gauge

The telemetry of a process counts its connections (`glide-telemetry`).  The containers of
the cluster clients adjust the count when they are created, changed and dropped
(`connections_container.rs`), and so does the disposal of a cluster connection
(`cluster_async/mod.rs`).

To say that a connection is taken off the count twice, every node that is put into a
container gets a number, its placement, and `charged` records the placements for which the
count was lowered.  The source keeps neither.  More connections than a machine word can
count do not exist, so the additions are plain ones; a subtraction that saturates is that
of `Nat`.
-/

namespace ValkeyGlide.Cluster.Gauge

open Foundation Foundation.Table

variable {Connection : Type} {bound : Nat}

structure Placed (Connection : Type) where
  node : ClusterNode Connection
  placement : Nat

abbrev ConnectionsMap (Connection : Type) := AList fun _ : String => Placed Connection

def countConnections (map : ConnectionsMap Connection) : Nat :=
  total (fun placed => placed.node.connectionsCount) map

abbrev Nodes (Connection : Type) := AList fun _ : String => ClusterNode Connection

structure Telemetry where
  totalConnections : Nat
  placements : Nat
  charged : List Nat
  deriving DecidableEq, Repr

namespace Telemetry

def incrTotalConnections (telemetry : Telemetry) (incrBy : Nat) : Telemetry :=
  { telemetry with totalConnections := telemetry.totalConnections + incrBy }

def decrTotalConnections (telemetry : Telemetry) (decrBy : Nat) (placements : List Nat) :
    Telemetry :=
  { telemetry with
    totalConnections := telemetry.totalConnections - decrBy
    charged := placements ++ telemetry.charged }

end Telemetry

/-! ## The container -/

def place (telemetry : Telemetry) (map : ConnectionsMap Connection) (address : String)
    (node : ClusterNode Connection) : Telemetry × ConnectionsMap Connection :=
  ({ telemetry with placements := telemetry.placements + 1 },
    map.insert address ⟨node, telemetry.placements⟩)

def placeAll (telemetry : Telemetry) (map : ConnectionsMap Connection) :
    List ((_ : String) × ClusterNode Connection) → Telemetry × ConnectionsMap Connection
  | [] => (telemetry, map)
  | ⟨address, node⟩ :: rest =>
    let (telemetry, map) := place telemetry map address node
    placeAll telemetry map rest

def placementsOf (map : ConnectionsMap Connection) : List Nat :=
  map.entries.map fun entry => entry.2.placement

def new (telemetry : Telemetry) (nodes : Nodes Connection) :
    Telemetry × ConnectionsMap Connection :=
  let (telemetry, map) := placeAll telemetry ∅ nodes.entries
  (telemetry.incrTotalConnections (countConnections map), map)

def drop (telemetry : Telemetry) (map : ConnectionsMap Connection) : Telemetry :=
  telemetry.decrTotalConnections (countConnections map) (placementsOf map)

/-- The difference is that of machine words that saturates at zero. -/
def extendConnectionMap (telemetry : Telemetry) (map : ConnectionsMap Connection)
    (other : Nodes Connection) : Telemetry × ConnectionsMap Connection :=
  let connCountBefore := countConnections map
  let (telemetry, map) := placeAll telemetry map other.entries
  (telemetry.incrTotalConnections (countConnections map - connCountBefore), map)

def replaceOrAddConnectionForAddress (telemetry : Telemetry) (map : ConnectionsMap Connection)
    (address : String) (node : ClusterNode Connection) :
    Telemetry × ConnectionsMap Connection :=
  let (placed, inserted) :=
    place (telemetry.incrTotalConnections node.connectionsCount) map address node
  match map.lookup address with
  | some old => (placed.decrTotalConnections old.node.connectionsCount [old.placement], inserted)
  | none => (placed, inserted)

def removeNode (telemetry : Telemetry) (map : ConnectionsMap Connection) (address : String) :
    Telemetry × ConnectionsMap Connection :=
  match map.lookup address with
  | some old =>
    (telemetry.decrTotalConnections old.node.connectionsCount [old.placement],
      map.erase address)
  | none => (telemetry, map)

/-- The new container is counted before the old one is dropped. -/
def replaceContainer (telemetry : Telemetry) (map : ConnectionsMap Connection)
    (nodes : Nodes Connection) : Telemetry × ConnectionsMap Connection :=
  let (telemetry, created) := new telemetry nodes
  (drop telemetry map, created)

/-- The loop over the nodes overwrites the count that it should add to. -/
def disposeCount (map : ConnectionsMap Connection) (visited : List String) : Nat × List Nat :=
  visited.foldl (fun last address =>
    match map.lookup address with
    | some placed => (placed.node.connectionsCount, [placed.placement])
    | none => last) (0, [])

/-- `tryRead` says whether the lock of the container is free for reading. -/
def dispose (telemetry : Telemetry) (map : ConnectionsMap Connection) (tryRead : Bool)
    (visited : List String) : Telemetry :=
  if tryRead then
    let (count, placements) := disposeCount map visited
    telemetry.decrTotalConnections count placements
  else telemetry

/-! ## The process -/

structure Container (Connection : Type) where
  connectionMap : ConnectionsMap Connection
  disposed : Bool

structure Process (Connection : Type) where
  telemetry : Telemetry
  containers : AList fun _ : Nat => Container Connection

inductive GaugeAction (Connection : Type) where
  | default (container : Nat)
  | new (container : Nat) (nodes : Nodes Connection)
  | extendConnectionMap (container : Nat) (other : Nodes Connection)
  | replaceOrAdd (container : Nat) (address : String) (node : ClusterNode Connection)
  | removeNode (container : Nat) (address : String)
  | replaceContainer (container : Nat) (nodes : Nodes Connection)
  | dispose (container : Nat) (tryRead : Bool) (visited : List String)
  | drop (container : Nat)

namespace Process

def initial : Process Connection := ⟨⟨0, 0, []⟩, ∅⟩

def setMap (process : Process Connection) (id : Nat) (container : Container Connection)
    (changed : Telemetry × ConnectionsMap Connection) : Process Connection :=
  ⟨changed.1, process.containers.insert id { container with connectionMap := changed.2 }⟩

/-- A cluster connection is disposed of once; its container goes when nobody refers to it. -/
def step (process : Process Connection) : GaugeAction Connection → Option (Process Connection)
  | .default id =>
    match process.containers.lookup id with
    | some _ => none
    | none => some ⟨process.telemetry, process.containers.insert id ⟨∅, false⟩⟩
  | .new id nodes =>
    match process.containers.lookup id with
    | some _ => none
    | none => some (process.setMap id ⟨∅, false⟩ (Gauge.new process.telemetry nodes))
  | .extendConnectionMap id other => do
      let container ← process.containers.lookup id
      return process.setMap id container
        (Gauge.extendConnectionMap process.telemetry container.connectionMap other)
  | .replaceOrAdd id address node => do
      let container ← process.containers.lookup id
      return process.setMap id container
        (replaceOrAddConnectionForAddress process.telemetry container.connectionMap address node)
  | .removeNode id address => do
      let container ← process.containers.lookup id
      return process.setMap id container
        (Gauge.removeNode process.telemetry container.connectionMap address)
  | .replaceContainer id nodes => do
      let container ← process.containers.lookup id
      return process.setMap id container
        (Gauge.replaceContainer process.telemetry container.connectionMap nodes)
  | .dispose id tryRead visited => do
      let container ← process.containers.lookup id
      if container.disposed ∨ ¬ visited.Perm container.connectionMap.keys then none
      else return ⟨Gauge.dispose process.telemetry container.connectionMap tryRead visited,
        process.containers.insert id { container with disposed := true }⟩
  | .drop id => do
      let container ← process.containers.lookup id
      return ⟨Gauge.drop process.telemetry container.connectionMap, process.containers.erase id⟩

def liveConnections (process : Process Connection) : Nat :=
  total (fun container => countConnections container.connectionMap) process.containers

def Counts (process : Process Connection) : Prop :=
  process.telemetry.totalConnections = process.liveConnections

end Process

def connectionsAt (map : ConnectionsMap Connection) (address : String) : Nat :=
  (map.lookup address).elim 0 fun placed => placed.node.connectionsCount

def overwritten (map : ConnectionsMap Connection)
    (other : List ((_ : String) × ClusterNode Connection)) : Nat :=
  (other.map fun entry => connectionsAt map entry.1).sum

def putInPlace (other : List ((_ : String) × ClusterNode Connection)) : Nat :=
  (other.map fun entry => entry.2.connectionsCount).sum

/--
What keeps the count right: an extension overwrites no more connections than it puts in their
place, and a disposal finds its container locked or without nodes.
-/
def KeepsCount (process : Process Connection) : GaugeAction Connection → Prop
  | .extendConnectionMap id other => ∀ container ∈ process.containers.lookup id,
      overwritten container.connectionMap other.entries ≤ putInPlace other.entries
  | .dispose _ tryRead visited => tryRead = true → visited = []
  | _ => True

/-! ## The placements -/

structure GivenOnce (bound : Nat) (placements : Multiset Nat) : Prop where
  nodup : placements.Nodup
  below : ∀ placement ∈ placements, placement < bound

theorem GivenOnce.mono {placements fewer : Multiset Nat} (hgiven : GivenOnce bound placements)
    (hle : fewer ≤ placements) : GivenOnce bound fewer :=
  ⟨Multiset.nodup_of_le hle hgiven.nodup,
    fun placement hmem => hgiven.below placement (Multiset.mem_of_le hle hmem)⟩

theorem GivenOnce.next {placements : Multiset Nat} (hgiven : GivenOnce bound placements) :
    GivenOnce (bound + 1) ({bound} + placements) := by
  rw [Multiset.singleton_add]
  refine ⟨Multiset.nodup_cons.mpr ⟨?_, hgiven.nodup⟩, fun placement hmem => ?_⟩
  · exact fun hmem => absurd (hgiven.below bound hmem) (lt_irrefl bound)
  · rcases Multiset.mem_cons.mp hmem with rfl | hmem
    · exact Nat.lt_succ_self placement
    · exact Nat.lt_succ_of_lt (hgiven.below placement hmem)

def stamps (map : ConnectionsMap Connection) : Multiset Nat :=
  total (fun placed => {placed.placement}) map

def KeepsGiven (before after : Telemetry × ConnectionsMap Connection) : Prop :=
  ∀ rest, GivenOnce before.1.placements (stamps before.2 + (before.1.charged + rest)) →
    GivenOnce after.1.placements (stamps after.2 + (after.1.charged + rest))

/-- A change of a container that adds to the count what it adds to the container. -/
structure Accounts (before after : Telemetry × ConnectionsMap Connection) : Prop where
  counts : countConnections before.2 ≤ before.1.totalConnections →
    after.1.totalConnections + countConnections before.2 =
      before.1.totalConnections + countConnections after.2
  given : KeepsGiven before after

section Container

variable {telemetry : Telemetry} {map : ConnectionsMap Connection} {address : String}
  {placed : Placed Connection}

theorem coe_placementsOf (map : ConnectionsMap Connection) :
    (placementsOf map : Multiset Nat) = stamps map := by
  unfold placementsOf stamps total
  induction map.entries with
  | nil => rfl
  | cons entry rest ih =>
    rw [List.map_cons, List.map_cons, List.sum_cons, ← ih, Multiset.singleton_add]
    rfl

theorem countConnections_of_lookup (hlookup : map.lookup address = some placed) :
    countConnections map =
      placed.node.connectionsCount + countConnections (map.erase address) :=
  total_of_lookup hlookup

theorem stamps_of_lookup (hlookup : map.lookup address = some placed) :
    stamps map = {placed.placement} + stamps (map.erase address) :=
  total_of_lookup hlookup

theorem stamps_insert (map : ConnectionsMap Connection) (address : String)
    (placed : Placed Connection) :
    stamps (map.insert address placed) = {placed.placement} + stamps (map.erase address) :=
  total_insert

theorem stamps_erase_add_cons (hlookup : map.lookup address = some placed) (charged : List Nat)
    (rest : Multiset Nat) :
    stamps (map.erase address) + ((placed.placement :: charged : List Nat) + rest) =
      stamps map + (charged + rest) := by
  rw [stamps_of_lookup hlookup, ← Multiset.cons_coe, ← Multiset.singleton_add]
  ac_rfl

variable {nodes : List ((_ : String) × ClusterNode Connection)}

@[simp] theorem placeAll_totalConnections :
    (placeAll telemetry map nodes).1.totalConnections = telemetry.totalConnections := by
  induction nodes generalizing telemetry map with
  | nil => rfl
  | cons entry rest ih => exact ih

theorem countConnections_insert (map : ConnectionsMap Connection) (address : String)
    (placed : Placed Connection) :
    countConnections (map.insert address placed) + connectionsAt map address =
      placed.node.connectionsCount + countConnections map := by
  have hinsert : countConnections (map.insert address placed) =
      placed.node.connectionsCount + countConnections (map.erase address) := total_insert
  rw [hinsert, connectionsAt]
  cases hlookup : map.lookup address with
  | none =>
    have hsame : countConnections (map.erase address) = countConnections map :=
      total_erase_of_lookup_eq_none hlookup
    rw [hsame, Option.elim_none, add_zero]
  | some old =>
    rw [countConnections_of_lookup hlookup, Option.elim_some]
    omega

theorem overwritten_insert (placed : Placed Connection) (hmem : address ∉ nodes.keys) :
    overwritten (map.insert address placed) nodes = overwritten map nodes := by
  refine congrArg List.sum (List.map_congr_left fun entry hentry => ?_)
  have hne : entry.1 ≠ address := fun heq => hmem (heq ▸ List.mem_keys_of_mem hentry)
  rw [connectionsAt, AList.lookup_insert_ne hne, connectionsAt]

/-- An extension trades the connections that it overwrites for those that it puts in place. -/
theorem countConnections_placeAll (hnodes : nodes.NodupKeys) :
    countConnections (placeAll telemetry map nodes).2 + overwritten map nodes =
      countConnections map + putInPlace nodes := by
  induction nodes generalizing telemetry map with
  | nil => rfl
  | cons entry rest ih =>
    obtain ⟨address, node⟩ := entry
    obtain ⟨hmem, hrest⟩ := List.nodupKeys_cons.mp hnodes
    have hplaced := @ih { telemetry with placements := telemetry.placements + 1 }
      (map.insert address ⟨node, telemetry.placements⟩) hrest
    have hinsert := countConnections_insert map address ⟨node, telemetry.placements⟩
    rw [overwritten_insert _ hmem] at hplaced
    simp only [overwritten, putInPlace, placeAll, place, List.map_cons, List.sum_cons]
      at hplaced hinsert ⊢
    omega

theorem placeAll_keepsGiven :
    KeepsGiven (telemetry, map) (placeAll telemetry map nodes) := by
  induction nodes generalizing telemetry map with
  | nil => exact fun rest hgiven => hgiven
  | cons entry nodes ih =>
    obtain ⟨address, node⟩ := entry
    intro rest hgiven
    refine ih rest ?_
    simp only [stamps_insert, add_assoc]
    refine (hgiven.mono ?_).next
    gcongr
    cases hlookup : map.lookup address with
    | none => exact (total_erase_of_lookup_eq_none hlookup).le
    | some placed =>
      rw [stamps_of_lookup hlookup]
      exact Multiset.le_add_left _ _

theorem new_accounts (nodes : Nodes Connection) :
    Accounts (telemetry, ∅) (new telemetry nodes) := by
  refine ⟨fun _ => ?_, placeAll_keepsGiven⟩
  simp only [new, Telemetry.incrTotalConnections, placeAll_totalConnections]
  rfl

theorem replaceOrAdd_accounts (address : String) (node : ClusterNode Connection) :
    Accounts (telemetry, map) (replaceOrAddConnectionForAddress telemetry map address node) := by
  have hinsert : countConnections (map.insert address ⟨node, telemetry.placements⟩) =
      node.connectionsCount + countConnections (map.erase address) := total_insert
  unfold replaceOrAddConnectionForAddress
  cases hlookup : map.lookup address with
  | none =>
    have hcount : countConnections (map.erase address) = countConnections map :=
      total_erase_of_lookup_eq_none hlookup
    have hstamps : stamps (map.erase address) = stamps map :=
      total_erase_of_lookup_eq_none hlookup
    refine ⟨fun hcounted => ?_, fun rest hgiven => ?_⟩
    · simp only [place, Telemetry.incrTotalConnections, hinsert, hcount]
      omega
    · simp only [place, Telemetry.incrTotalConnections, stamps_insert, add_assoc, hstamps]
      exact hgiven.next
  | some old =>
    have hold := countConnections_of_lookup hlookup
    refine ⟨fun hcounted => ?_, fun rest hgiven => ?_⟩
    · simp only [place, Telemetry.incrTotalConnections, Telemetry.decrTotalConnections,
        hinsert] at hcounted ⊢
      omega
    · simp only [place, Telemetry.incrTotalConnections, Telemetry.decrTotalConnections,
        stamps_insert, add_assoc, List.singleton_append, stamps_erase_add_cons hlookup]
      exact hgiven.next

theorem removeNode_accounts (address : String) :
    Accounts (telemetry, map) (removeNode telemetry map address) := by
  unfold removeNode
  cases hlookup : map.lookup address with
  | none => exact ⟨fun _ => rfl, fun rest hgiven => hgiven⟩
  | some old =>
    have hold := countConnections_of_lookup hlookup
    refine ⟨fun hcounted => ?_, fun rest hgiven => ?_⟩
    · simp only [Telemetry.decrTotalConnections] at hcounted ⊢
      omega
    · simp only [Telemetry.decrTotalConnections, List.singleton_append,
        stamps_erase_add_cons hlookup]
      exact hgiven

theorem coe_charged_drop (telemetry : Telemetry) (map : ConnectionsMap Connection) :
    ((drop telemetry map).charged : Multiset Nat) = stamps map + telemetry.charged := by
  rw [← coe_placementsOf]
  exact (Multiset.coe_add _ _).symm

theorem replaceContainer_accounts (nodes : Nodes Connection) :
    Accounts (telemetry, map) (replaceContainer telemetry map nodes) := by
  refine ⟨fun hcounted => ?_, fun rest hgiven => ?_⟩
  · simp only [replaceContainer, new, drop, Telemetry.incrTotalConnections,
      Telemetry.decrTotalConnections, placeAll_totalConnections] at hcounted ⊢
    omega
  · have hplaced := (new_accounts nodes).given (stamps map + rest) (by
      rw [stamps, total_empty, zero_add, add_left_comm]
      exact hgiven)
    simp only [replaceContainer, coe_charged_drop]
    rw [add_assoc, add_left_comm (stamps map)]
    exact hplaced

theorem connectionsCount_pos (node : ClusterNode Connection) : 0 < node.connectionsCount := by
  unfold ClusterNode.connectionsCount
  split_ifs <;> decide

theorem disposeCount_cases {visited : List String} (hvisited : visited.Perm map.keys) :
    (visited = [] ∧ disposeCount map visited = (0, [])) ∨
    (visited ≠ [] ∧ ∃ address placed, map.lookup address = some placed ∧
      disposeCount map visited = (placed.node.connectionsCount, [placed.placement])) := by
  rcases List.eq_nil_or_concat visited with rfl | ⟨before, last, rfl⟩
  · exact .inl ⟨rfl, rfl⟩
  · have hmem : last ∈ map := AList.mem_keys.mpr (hvisited.subset (by simp))
    obtain ⟨placed, hplaced⟩ := Option.isSome_iff_exists.mp (AList.lookup_isSome.mpr hmem)
    refine .inr ⟨by simp, last, placed, hplaced, ?_⟩
    simp [disposeCount, hplaced]

end Container

/-! ## One step -/

namespace Process

variable {process next : Process Connection} {id : Nat} {container other : Container Connection}
  {telemetry : Telemetry} {changed : Telemetry × ConnectionsMap Connection}
  {action : GaugeAction Connection}

def placements (process : Process Connection) : Multiset Nat :=
  total (fun container => stamps container.connectionMap) process.containers +
    process.telemetry.charged

def GivesOnce (process : Process Connection) : Prop :=
  GivenOnce process.telemetry.placements process.placements

def others {M : Type} [AddCommMonoid M] (weight : ConnectionsMap Connection → M)
    (process : Process Connection) (id : Nat) : M :=
  total (fun container => weight container.connectionMap) (process.containers.erase id)

theorem counts_insert_iff :
    (⟨telemetry, process.containers.insert id other⟩ : Process Connection).Counts ↔
      telemetry.totalConnections =
        countConnections other.connectionMap + process.others countConnections id := by
  have hinsert : liveConnections ⟨telemetry, process.containers.insert id other⟩ =
      countConnections other.connectionMap + process.others countConnections id := total_insert
  rw [Counts, hinsert]

theorem placements_insert :
    (⟨telemetry, process.containers.insert id other⟩ : Process Connection).placements =
      stamps other.connectionMap + (telemetry.charged + process.others stamps id) := by
  have hinsert : total (fun container => stamps container.connectionMap)
      (process.containers.insert id other) =
        stamps other.connectionMap + process.others stamps id := total_insert
  rw [placements, hinsert]
  ac_rfl

/-- What a step does to the count and to the placements. -/
def Accounted (process : Process Connection) (action : GaugeAction Connection)
    (next : Process Connection) : Prop :=
  (process.Counts → (next.Counts ↔ KeepsCount process action)) ∧
    (KeepsCount process action → process.GivesOnce → next.GivesOnce)

section

variable (hlookup : process.containers.lookup id = some container)
include hlookup

theorem Counts.of_lookup (hcounts : process.Counts) :
    process.telemetry.totalConnections =
      countConnections container.connectionMap + process.others countConnections id :=
  hcounts.trans (total_of_lookup hlookup)

theorem placements_of_lookup :
    process.placements = stamps container.connectionMap +
      (process.telemetry.charged + process.others stamps id) := by
  have htotal : total (fun container => stamps container.connectionMap) process.containers =
      stamps container.connectionMap + process.others stamps id := total_of_lookup hlookup
  rw [placements, htotal]
  ac_rfl

theorem GivesOnce.setMap (hgives : process.GivesOnce)
    (hkeeps : KeepsGiven (process.telemetry, container.connectionMap) changed) :
    (process.setMap id container changed).GivesOnce := by
  rw [GivesOnce, placements_of_lookup hlookup] at hgives
  rw [GivesOnce, Process.setMap, placements_insert]
  exact hkeeps _ hgives

theorem accounted_setMap
    (haccounts : Accounts (process.telemetry, container.connectionMap) changed)
    (hkeeps : KeepsCount process action) :
    process.Accounted action (process.setMap id container changed) := by
  refine ⟨fun hcounts => iff_of_true ?_ hkeeps, fun _ hgives =>
    hgives.setMap hlookup haccounts.given⟩
  have htotal := hcounts.of_lookup hlookup
  have hchanged := haccounts.counts (by dsimp only; omega)
  rw [setMap, counts_insert_iff]
  dsimp only at hchanged ⊢
  omega

theorem accounted_extend (other : Nodes Connection) :
    process.Accounted (.extendConnectionMap id other) (process.setMap id container
      (extendConnectionMap process.telemetry container.connectionMap other)) := by
  refine ⟨fun hcounts => ?_, fun _ hgives => hgives.setMap hlookup placeAll_keepsGiven⟩
  have htotal := hcounts.of_lookup hlookup
  have hplaced := @countConnections_placeAll _ process.telemetry container.connectionMap
    other.entries other.nodupKeys
  rw [setMap, counts_insert_iff]
  simp only [Gauge.extendConnectionMap, Telemetry.incrTotalConnections,
    placeAll_totalConnections, KeepsCount, hlookup, Option.mem_def, Option.some.injEq,
    forall_eq']
  omega

theorem accounted_dispose {visited : List String}
    (hvisited : visited.Perm container.connectionMap.keys) (tryRead : Bool) :
    process.Accounted (.dispose id tryRead visited)
      ⟨dispose process.telemetry container.connectionMap tryRead visited,
        process.containers.insert id { container with disposed := true }⟩ := by
  refine ⟨fun hcounts => ?_, fun hkeeps hgives => ?_⟩
  · have htotal := hcounts.of_lookup hlookup
    rw [counts_insert_iff, ← htotal]
    cases tryRead with
    | false => simp [Gauge.dispose, KeepsCount]
    | true =>
      rcases disposeCount_cases hvisited with
        ⟨rfl, hcount⟩ | ⟨hne, address, placed, hplaced, hcount⟩
      · simp [Gauge.dispose, KeepsCount, hcount, Telemetry.decrTotalConnections]
      · have hpos := connectionsCount_pos placed.node
        have hheld := countConnections_of_lookup hplaced
        simp only [Gauge.dispose, KeepsCount, hcount, if_true,
          Telemetry.decrTotalConnections, forall_const]
        refine iff_of_false ?_ hne
        omega
  · have hsame : dispose process.telemetry container.connectionMap tryRead visited =
        process.telemetry := by
      cases tryRead with
      | false => rfl
      | true =>
        obtain rfl : visited = [] := hkeeps rfl
        rfl
    rw [GivesOnce, placements_of_lookup hlookup] at hgives
    rw [GivesOnce, placements_insert, hsame]
    exact hgives

theorem accounted_drop :
    process.Accounted (.drop id)
      ⟨drop process.telemetry container.connectionMap, process.containers.erase id⟩ := by
  refine ⟨fun hcounts => iff_of_true ?_ trivial, fun _ hgives => ?_⟩
  · have htotal := hcounts.of_lookup hlookup
    simp only [Counts, liveConnections, others, Gauge.drop,
      Telemetry.decrTotalConnections] at htotal ⊢
    omega
  · rw [GivesOnce, placements_of_lookup hlookup] at hgives
    rw [GivesOnce, placements, coe_charged_drop]
    rw [← add_assoc, add_comm] at hgives
    exact hgives

end

theorem accounted_create (hlookup : process.containers.lookup id = none)
    (haccounts : Accounts (process.telemetry, ∅) changed) (hkeeps : KeepsCount process action) :
    process.Accounted action (process.setMap id ⟨∅, false⟩ changed) := by
  refine ⟨fun hcounts => iff_of_true ?_ hkeeps, fun _ hgives => ?_⟩
  · have hsame : process.others countConnections id = process.liveConnections :=
      total_erase_of_lookup_eq_none hlookup
    have htotal : process.telemetry.totalConnections = process.liveConnections := hcounts
    have hchanged : changed.1.totalConnections =
        process.telemetry.totalConnections + countConnections changed.2 :=
      haccounts.counts (Nat.zero_le _)
    rw [setMap, counts_insert_iff]
    dsimp only
    omega
  · have hsame : process.others stamps id =
        total (fun container => stamps container.connectionMap) process.containers :=
      total_erase_of_lookup_eq_none hlookup
    rw [GivesOnce, setMap, placements_insert, hsame]
    refine haccounts.given _ ?_
    rw [stamps, total_empty, zero_add, add_comm]
    exact hgives

theorem step_accounted (hstep : process.step action = some next) :
    process.Accounted action next := by
  cases action with
  | default id =>
    simp only [step] at hstep
    split at hstep
    · cases hstep
    next hlookup =>
      cases hstep
      exact accounted_create hlookup ⟨fun _ => rfl, fun rest hgiven => hgiven⟩ trivial
  | new id nodes =>
    simp only [step] at hstep
    split at hstep
    · cases hstep
    next hlookup =>
      cases hstep
      exact accounted_create hlookup (new_accounts nodes) trivial
  | extendConnectionMap id other =>
    obtain ⟨container, hlookup, hnext⟩ := Option.bind_eq_some_iff.mp hstep
    cases hnext
    exact accounted_extend hlookup other
  | replaceOrAdd id address node =>
    obtain ⟨container, hlookup, hnext⟩ := Option.bind_eq_some_iff.mp hstep
    cases hnext
    exact accounted_setMap hlookup (replaceOrAdd_accounts address node) trivial
  | removeNode id address =>
    obtain ⟨container, hlookup, hnext⟩ := Option.bind_eq_some_iff.mp hstep
    cases hnext
    exact accounted_setMap hlookup (removeNode_accounts address) trivial
  | replaceContainer id nodes =>
    obtain ⟨container, hlookup, hnext⟩ := Option.bind_eq_some_iff.mp hstep
    cases hnext
    exact accounted_setMap hlookup (replaceContainer_accounts nodes) trivial
  | dispose id tryRead visited =>
    obtain ⟨container, hlookup, hnext⟩ := Option.bind_eq_some_iff.mp hstep
    split_ifs at hnext with hguard
    obtain ⟨-, hvisited⟩ := not_or.mp hguard
    cases hnext
    exact accounted_dispose hlookup (not_not.mp hvisited) tryRead
  | drop id =>
    obtain ⟨container, hlookup, hnext⟩ := Option.bind_eq_some_iff.mp hstep
    cases hnext
    exact accounted_drop hlookup

end Process

/-! ## Runs -/

/--
The count is that of the live connections in every state of a run, and no placement is
charged twice, exactly if every extension and every disposal of the run keeps the count.
-/
theorem run_counts_iff {actions : List (GaugeAction Connection)} {final : Process Connection}
    (hrun : run Process.step Process.initial actions = some final) :
    ((∀ first second passed, actions = first ++ second →
        run Process.step Process.initial first = some passed → passed.Counts) ∧
      final.telemetry.charged.Nodup) ↔
      Along Process.step KeepsCount Process.initial actions := by
  have hcounts : (Process.initial : Process Connection).Counts := rfl
  have hiff := along_iff_invariant Process.Counts
    (fun _ _ _ hcounts hstep => (Process.step_accounted hstep).1 hcounts) hcounts hrun
  have hinitial : (Process.initial : Process Connection).GivesOnce :=
    ⟨Multiset.nodup_zero, fun placement hmem => absurd hmem (Multiset.notMem_zero placement)⟩
  constructor
  · rintro ⟨hpasses, -⟩
    exact hiff.mpr hpasses
  · intro halong
    refine ⟨hiff.mp halong, ?_⟩
    have hfinal : final.GivesOnce := run_invariant Process.GivesOnce
      (fun _ _ _ hgives hkeeps hstep => (Process.step_accounted hstep).2 hkeeps hgives)
      hinitial halong hrun
    exact Multiset.coe_nodup.mp (Multiset.nodup_of_le (Multiset.le_add_left _ _) hfinal.nodup)

def userOnly (user : Nat) : ClusterNode Nat := ⟨⟨user, none⟩, none⟩

def managed (user management : Nat) : ClusterNode Nat := ⟨⟨user, none⟩, some ⟨management, none⟩⟩

def growingClient : List (GaugeAction Nat) :=
  [.new 0 [⟨"a", userOnly 1⟩, ⟨"b", userOnly 2⟩].toAList,
    .extendConnectionMap 0 [⟨"a", managed 3 4⟩].toAList, .replaceOrAdd 0 "b" (managed 5 6), .removeNode 0 "a", .drop 0]

theorem growing_client_counted :
    ∃ final, run Process.step Process.initial growingClient = some final ∧
      (∀ first second passed, growingClient = first ++ second →
        run Process.step Process.initial first = some passed → passed.Counts) ∧
      final.telemetry.charged.Nodup := by
  refine ⟨_, rfl, (run_counts_iff rfl).mpr ⟨trivial, ?_, trivial, trivial, trivial, trivial⟩⟩
  rintro container ⟨⟩
  decide

def disposedClient : List (GaugeAction Nat) :=
  [.new 0 [⟨"a", managed 1 2⟩, ⟨"b", managed 3 4⟩].toAList, .new 1 [⟨"a", managed 5 6⟩].toAList,
    .dispose 0 true ["a", "b"], .drop 0]

theorem disposed_client_charged_twice :
    ∃ final, run Process.step Process.initial disposedClient = some final ∧
      final.telemetry.totalConnections = 0 ∧ final.liveConnections = 2 ∧
      ¬ final.telemetry.charged.Nodup := by
  refine ⟨_, rfl, rfl, rfl, ?_⟩
  decide

-- a node with two connections makes way for one with a single connection
example : (run Process.step Process.initial
    [GaugeAction.new 0 [⟨"a", managed 1 2⟩].toAList,
      .extendConnectionMap 0 [⟨"a", userOnly 3⟩].toAList]).map
      (fun process => (process.telemetry.totalConnections, process.liveConnections)) =
    some (2, 1) := by
  decide +kernel

end ValkeyGlide.Cluster.Gauge

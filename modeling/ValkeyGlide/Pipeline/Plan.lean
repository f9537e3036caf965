import ValkeyGlide.Cluster.MultiSlot
import ValkeyGlide.Cluster.Operation
import ValkeyGlide.Foundation.Grouping

/-!
# Placing the commands of a pipeline

A non-atomic pipeline is split into one pipeline for each node
(`cluster_async/pipeline_routing.rs`).  Every placed command carries the index of
its command and, when the command goes to several nodes, its place among them.

The connection map may change while commands are placed, and replicas are chosen
in turn, so `ClusterView` answers for each command separately.
-/

namespace ValkeyGlide.Pipeline

open Foundation Protocol Cluster

/-- A response that is ignored is that of the `ASKING` sent before a redirected command. -/
structure PlacedCommand where
  cmd : Cmd
  index : Nat
  innerIndex : Option Nat
  ignore : Bool
  deriving DecidableEq, Repr

abbrev NodePipelineMap := List (String × List PlacedCommand)

abbrev ResponsePolicies := List (Nat × MultipleNodeRoutingInfo × Option ResponsePolicy)

structure ClusterView where
  getConnection : Nat → SingleNodeRoutingInfo → RedisResult String
  chooseNode : Nat → Nat
  allNodeConnections : Nat → List String
  allPrimaryConnections : Nat → List String
  connectionForRoute : Nat → Nat → Route → Option String

def asking : Cmd := .ofBytes [bytes "ASKING"]

def addCommandToNodePipelineMap (map : NodePipelineMap) (address : String) (cmd : Cmd)
    (index : Nat) (innerIndex : Option Nat) (addAsking : Bool) : NodePipelineMap :=
  let map := if addAsking then pushTo map address ⟨asking, index, innerIndex, true⟩ else map
  pushTo map address ⟨cmd, index, innerIndex, false⟩

def slotAddrText : SlotAddr → String
  | .master => "Master"
  | .replicaOptional => "ReplicaOptional"
  | .replicaRequired => "ReplicaRequired"

section Placing

variable (view : ClusterView)

def handlePipelineSingleNodeRouting (map : NodePipelineMap) (cmd : Cmd)
    (routing : SingleNodeRoutingInfo) (index : Nat) : OperationResult NodePipelineMap :=
  let existing :=
    if routing = .random then map[view.chooseNode index % map.length]?.map Prod.fst else none
  match existing with
  | some address => .ok (pushTo map address ⟨cmd, index, none, false⟩)
  | none =>
    match view.getConnection index routing with
    | .ok address => .ok (addCommandToNodePipelineMap map address cmd index none false)
    | .error error => .error (.notFound, error)

def handlePipelineMultiSlotRouting (cmd : Cmd) (index : Nat) :
    Nat → RouteIndices → NodePipelineMap → OperationResult NodePipelineMap
  | _, [], map => .ok map
  | innerIndex, (route, indices) :: rest, map =>
    match view.connectionForRoute index innerIndex route with
    | some address =>
      handlePipelineMultiSlotRouting cmd index (innerIndex + 1) rest
        (addCommandToNodePipelineMap map address (commandForMultiSlotIndices cmd indices)
          index (some innerIndex) false)
    | none =>
      .error (.notFound,
        .withDescriptionAndDetail .connectionNotFoundForRoute
          "No available connections for route: "
          (s!"Slot: {route.slot} Slot Address: " ++ slotAddrText route.slotAddr))

def addToAll (cmd : Cmd) (index : Nat) :
    Nat → List String → NodePipelineMap → NodePipelineMap
  | _, [], map => map
  | innerIndex, address :: rest, map =>
    addToAll cmd index (innerIndex + 1) rest
      (addCommandToNodePipelineMap map address cmd index (some innerIndex) false)

def addToConnections (map : NodePipelineMap) (cmd : Cmd) (index : Nat) (connections : List String)
    (errorMessage : String) : OperationResult NodePipelineMap :=
  if connections = [] then
    .error (.notFound, .withDescription .allConnectionsUnavailable errorMessage)
  else .ok (addToAll cmd index 0 connections map)

def handleMultiNodeRouting (map : NodePipelineMap) (cmd : Cmd) (index : Nat) :
    MultipleNodeRoutingInfo → OperationResult NodePipelineMap
  | .allNodes =>
    addToConnections map cmd index (view.allNodeConnections index)
      "No available connections to any nodes"
  | .allMasters =>
    addToConnections map cmd index (view.allPrimaryConnections index)
      "No available connections to primary nodes"
  | .multiSlot routes _ => handlePipelineMultiSlotRouting view cmd index 0 routes map

variable (crc16 : Bytes → Nat) (orders : Nat → IterationOrder)

def routingOf (index : Nat) (cmd : Cmd) : RoutingInfo :=
  (forRoutable crc16 (orders index) cmd).getD (.singleNode .random)

def placeCommands : Nat → List Cmd → NodePipelineMap → ResponsePolicies →
    OperationResult (NodePipelineMap × ResponsePolicies)
  | _, [], map, policies => .ok (map, policies)
  | index, cmd :: rest, map, policies =>
    match routingOf crc16 orders index cmd with
    | .singleNode routing => do
        let map ← handlePipelineSingleNodeRouting view map cmd routing index
        placeCommands (index + 1) rest map policies
    | .multiNode routing policy => do
        let map ← handleMultiNodeRouting view map cmd index routing
        placeCommands (index + 1) rest map (policies ++ [(index, routing, policy)])

def placeOnRoute (address : String) : Nat → List Cmd → NodePipelineMap → NodePipelineMap
  | _, [], map => map
  | index, cmd :: rest, map =>
    placeOnRoute address (index + 1) rest (pushTo map address ⟨cmd, index, none, false⟩)

/-- With a route of the caller, given as the connection found for it, all commands go there. -/
def mapPipelineToNodes (pipeline : List Cmd) (route : Option (RedisResult String)) :
    OperationResult (NodePipelineMap × ResponsePolicies) :=
  match route with
  | some (.ok address) => .ok (placeOnRoute address 0 pipeline [(address, [])], [])
  | some (.error error) => .error (.notFound, error)
  | none => placeCommands view crc16 orders 0 pipeline [] []

end Placing

/-! ## The plan -/

def aggregation : RoutingInfo → Option (MultipleNodeRoutingInfo × Option ResponsePolicy)
  | .singleNode _ => none
  | .multiNode info policy => some (info, policy)

def plannedRouting (crc16 : Bytes → Nat) (orders : Nat → IterationOrder)
    (route : Option (RedisResult String)) (index : Nat) (cmd : Cmd) : RoutingInfo :=
  match route with
  | none => routingOf crc16 orders index cmd
  | some _ => .singleNode .random

/--
The node of a command that goes to a single one: that of the caller's route, one of the nodes
that have commands already if any will do, and otherwise the one that the client finds.
-/
def SingleTarget (view : ClusterView) (route : Option (RedisResult String))
    (earlier : List String) (index : Nat) (routing : SingleNodeRoutingInfo) (address : String) :
    Prop :=
  match route with
  | some found => found = .ok address
  | none =>
    if routing = .random ∧ earlier ≠ [] then address ∈ earlier
    else view.getConnection index routing = .ok address

def Targets (view : ClusterView) (route : Option (RedisResult String)) (earlier : List String)
    (cmd : Cmd) (index : Nat) (routing : RoutingInfo) (sends : List (String × PlacedCommand)) :
    Prop :=
  match routing with
  | .singleNode routing =>
    ∃ address, SingleTarget view route earlier index routing address ∧
      sends = [(address, ⟨cmd, index, none, false⟩)]
  | .multiNode .allNodes _ =>
    sends = (view.allNodeConnections index).mapIdx fun innerIndex address =>
      (address, ⟨cmd, index, some innerIndex, false⟩)
  | .multiNode .allMasters _ =>
    sends = (view.allPrimaryConnections index).mapIdx fun innerIndex address =>
      (address, ⟨cmd, index, some innerIndex, false⟩)
  | .multiNode (.multiSlot routes _) _ =>
    ∃ addresses : List String, addresses.length = routes.length ∧
      (∀ (innerIndex : Nat) (address : String) (route : Route) (indices : List Nat),
        addresses[innerIndex]? = some address → routes[innerIndex]? = some (route, indices) →
        view.connectionForRoute index innerIndex route = some address) ∧
      sends = (addresses.zip routes).mapIdx fun innerIndex target =>
        (target.1, ⟨commandForMultiSlotIndices cmd target.2.2, index, some innerIndex, false⟩)

section Plan

variable {view : ClusterView} {route : Option (RedisResult String)} {earlier : List String}

structure Adds (map next : NodePipelineMap) (sends : List (String × PlacedCommand)) : Prop where
  groups : ∀ log, Groups map log → Groups next (log ++ sends)
  nodes : ∀ address, address ∈ next.map Prod.fst ↔
    address ∈ map.map Prod.fst ∨ address ∈ sends.map Prod.fst

theorem adds_nil (map : NodePipelineMap) : Adds map map [] where
  groups log hgroups := by rwa [List.append_nil]
  nodes address := by simp

variable {map next : NodePipelineMap} {cmd : Cmd} {index first : Nat} {policies : ResponsePolicies}
  {crc16 : Bytes → Nat} {orders : Nat → IterationOrder} {pipeline : List Cmd}

theorem Adds.trans {middle : NodePipelineMap} {first second : List (String × PlacedCommand)}
    (hfirst : Adds map middle first) (hsecond : Adds middle next second) :
    Adds map next (first ++ second) where
  groups log hgroups := by
    rw [← List.append_assoc]
    exact hsecond.groups _ (hfirst.groups log hgroups)
  nodes address := by
    rw [hsecond.nodes, hfirst.nodes, List.map_append, List.mem_append, or_assoc]

theorem adds_pushTo (map : NodePipelineMap) (address : String) (placed : PlacedCommand) :
    Adds map (pushTo map address placed) [(address, placed)] where
  groups _ hgroups := hgroups.push address placed
  nodes other := by
    rw [keys_pushTo, List.map_singleton, List.mem_singleton]
    split
    next hmem => exact ⟨.inl, fun hor => hor.elim id fun heq => heq ▸ hmem⟩
    next => rw [List.mem_append, List.mem_singleton]

theorem Adds.nodes_append {sends : List (String × PlacedCommand)} (hadds : Adds map next sends)
    (hnodes : ∀ address, address ∈ map.map Prod.fst ↔ address ∈ earlier) (address : String) :
    address ∈ next.map Prod.fst ↔ address ∈ earlier ++ sends.map Prod.fst := by
  rw [hadds.nodes, hnodes, List.mem_append]

theorem adds_addToAll (cmd : Cmd) (index innerIndex : Nat) (connections : List String)
    (map : NodePipelineMap) :
    Adds map (addToAll cmd index innerIndex connections map)
      (connections.mapIdx fun offset address =>
        (address, ⟨cmd, index, some (innerIndex + offset), false⟩)) := by
  induction connections generalizing innerIndex map with
  | nil => exact adds_nil map
  | cons address rest ih =>
    have hrest := ih (innerIndex + 1) (pushTo map address ⟨cmd, index, some innerIndex, false⟩)
    have hboth := (adds_pushTo map address ⟨cmd, index, some innerIndex, false⟩).trans hrest
    rw [List.mapIdx_cons]
    simpa [Nat.add_comm, Nat.add_left_comm, addToAll, addCommandToNodePipelineMap] using hboth

theorem adds_multiSlot {innerIndex : Nat} {routes : RouteIndices}
    (hplace : handlePipelineMultiSlotRouting view cmd index innerIndex routes map = .ok next) :
    ∃ addresses : List String, addresses.length = routes.length ∧
      (∀ (offset : Nat) (address : String) (route : Route) (indices : List Nat),
        addresses[offset]? = some address → routes[offset]? = some (route, indices) →
        view.connectionForRoute index (innerIndex + offset) route = some address) ∧
      Adds map next ((addresses.zip routes).mapIdx fun offset target =>
        (target.1, ⟨commandForMultiSlotIndices cmd target.2.2, index, some (innerIndex + offset),
          false⟩)) := by
  induction routes generalizing innerIndex map with
  | nil =>
    cases hplace
    exact ⟨[], rfl, by simp, adds_nil _⟩
  | cons head rest ih =>
    obtain ⟨route, indices⟩ := head
    rw [handlePipelineMultiSlotRouting] at hplace
    cases hconnection : view.connectionForRoute index innerIndex route with
    | none => simp [hconnection] at hplace
    | some address =>
      simp only [hconnection] at hplace
      obtain ⟨addresses, hlength, hroutes, hadds⟩ := ih hplace
      refine ⟨address :: addresses, by simp [hlength], ?_, ?_⟩
      · intro offset other known known' haddress hroute
        cases offset with
        | zero =>
          cases haddress
          cases hroute
          exact hconnection
        | succ offset =>
          have hnext := hroutes offset other known known' haddress hroute
          rwa [Nat.add_assoc, Nat.add_comm 1] at hnext
      · have hboth := (adds_pushTo map address
          ⟨commandForMultiSlotIndices cmd indices, index, some innerIndex, false⟩).trans hadds
        simpa [List.mapIdx_cons, Nat.add_comm, Nat.add_left_comm] using hboth

theorem adds_singleNode {routing : SingleNodeRoutingInfo}
    (hnodes : ∀ address, address ∈ map.map Prod.fst ↔ address ∈ earlier)
    (hplace : handlePipelineSingleNodeRouting view map cmd routing index = .ok next) :
    ∃ address, SingleTarget view none earlier index routing address ∧
      Adds map next [(address, ⟨cmd, index, none, false⟩)] := by
  unfold handlePipelineSingleNodeRouting at hplace
  by_cases hany : routing = .random ∧ earlier ≠ []
  · obtain ⟨known, hknown⟩ := List.exists_mem_of_ne_nil earlier hany.2
    have hpos : 0 < map.length := by
      rw [← List.length_map Prod.fst]
      exact List.length_pos_of_mem ((hnodes known).mpr hknown)
    have hchosen := List.getElem?_eq_getElem (Nat.mod_lt (view.chooseNode index) hpos)
    simp only [hany.1, if_true, hchosen, Option.map_some] at hplace
    cases hplace
    refine ⟨_, ?_, adds_pushTo map _ _⟩
    rw [SingleTarget, if_pos hany, ← hnodes]
    exact List.mem_map_of_mem (List.getElem_mem _)
  · have hnone : (if routing = .random then
        map[view.chooseNode index % map.length]?.map Prod.fst else none) = none := by
      split
      next hrandom =>
        have hempty : earlier = [] := not_not.mp fun hne => hany ⟨hrandom, hne⟩
        have hmap : map = [] := List.map_eq_nil_iff.mp (List.eq_nil_iff_forall_not_mem.mpr
          fun address hmem => by simpa [hempty] using (hnodes address).mp hmem)
        rw [hmap]
        rfl
      next => rfl
    simp only [hnone] at hplace
    split at hplace
    next address hfound =>
      cases hplace
      refine ⟨address, ?_, adds_pushTo map address _⟩
      rw [SingleTarget, if_neg hany]
      exact hfound
    next => contradiction

theorem adds_connections {connections : List String} {errorMessage : String}
    (hplace : addToConnections map cmd index connections errorMessage = .ok next) :
    Adds map next (connections.mapIdx fun innerIndex address =>
      (address, ⟨cmd, index, some innerIndex, false⟩)) := by
  rw [addToConnections] at hplace
  split at hplace
  · contradiction
  · cases hplace
    simpa using adds_addToAll cmd index 0 connections map

theorem adds_multiNode {routing : MultipleNodeRoutingInfo} (route : Option (RedisResult String))
    (earlier : List String) (policy : Option ResponsePolicy)
    (hplace : handleMultiNodeRouting view map cmd index routing = .ok next) :
    ∃ sends, Targets view route earlier cmd index (.multiNode routing policy) sends ∧
      Adds map next sends := by
  cases routing with
  | allNodes | allMasters => exact ⟨_, rfl, adds_connections hplace⟩
  | multiSlot routes argsPattern =>
    obtain ⟨addresses, hlength, hroutes, hadds⟩ := adds_multiSlot hplace
    simp only [Nat.zero_add] at hroutes hadds
    exact ⟨_, ⟨addresses, hlength, hroutes, rfl⟩, hadds⟩

/--
A plan: what is sent for every command, and how to put its replies together.  `earlier` are
the nodes that have commands before the first one of the plan.
-/
structure Plan (view : ClusterView) (route : Option (RedisResult String))
    (routing : Nat → Cmd → RoutingInfo) (earlier : List String) (first : Nat)
    (pipeline : List Cmd) (sends : List (List (String × PlacedCommand)))
    (policies : ResponsePolicies) : Prop where
  length : sends.length = pipeline.length
  targets : ∀ (offset : Nat) (cmd : Cmd) (targets : List (String × PlacedCommand)),
    pipeline[offset]? = some cmd → sends[offset]? = some targets →
    Targets view route (earlier ++ (sends.take offset).flatten.map Prod.fst) cmd
      (first + offset) (routing (first + offset) cmd) targets
  aggregates : ∀ (offset : Nat) (cmd : Cmd), pipeline[offset]? = some cmd →
    policies.lookup (first + offset) = aggregation (routing (first + offset) cmd)
  later : ∀ entry ∈ policies, first ≤ entry.1

theorem plan_nil (routing : Nat → Cmd → RoutingInfo) (first : Nat) :
    Plan view route routing earlier first [] [] [] :=
  ⟨rfl, by simp, by simp, by simp⟩

theorem lookup_later (hlater : ∀ entry ∈ policies, first + 1 ≤ entry.1) :
    policies.lookup first = none := by
  rw [List.lookup_eq_none_iff]
  intro entry hentry
  have hle := hlater entry hentry
  simp only [bne_iff_ne, ne_eq]
  omega

theorem Plan.cons {routing : Nat → Cmd → RoutingInfo} {rest : List Cmd}
    {targets : List (String × PlacedCommand)} {sends : List (List (String × PlacedCommand))}
    (hplan : Plan view route routing (earlier ++ targets.map Prod.fst) (first + 1) rest sends
      policies)
    (htargets : Targets view route earlier cmd first (routing first cmd) targets) :
    Plan view route routing earlier first (cmd :: rest) (targets :: sends)
      ((aggregation (routing first cmd)).toList.map (fun entry => (first, entry)) ++ policies) where
  length := by simp [hplan.length]
  targets := by
    intro offset other found hcmd hfound
    cases offset with
    | zero =>
      cases hcmd
      cases hfound
      rw [List.take_zero, List.flatten_nil, List.map_nil, List.append_nil]
      exact htargets
    | succ offset =>
      have hnext := hplan.targets offset other found hcmd hfound
      rw [List.take_succ_cons, List.flatten_cons, List.map_append, ← List.append_assoc]
      rwa [Nat.add_assoc, Nat.add_comm 1] at hnext
  aggregates := by
    intro offset other hcmd
    cases offset with
    | zero =>
      cases hcmd
      cases hrouting : aggregation (routing first cmd) with
      | none => simpa [hrouting] using lookup_later hplan.later
      | some entry => simp
    | succ offset =>
      have hnext := hplan.aggregates offset other hcmd
      rw [Nat.add_assoc, Nat.add_comm 1] at hnext
      rw [← hnext]
      have hne : (first + (offset + 1) == first) = false := by simp
      cases aggregation (routing first cmd) with
      | none => rfl
      | some entry => simp [List.lookup_cons, hne]
  later := by
    intro entry hentry
    rcases List.mem_append.mp hentry with hentry | hentry
    · obtain ⟨held, -, rfl⟩ := List.mem_map.mp hentry
      exact Nat.le_refl _
    · exact Nat.le_of_succ_le (hplan.later entry hentry)

theorem placeCommands_plan {final : ResponsePolicies}
    (hnodes : ∀ address, address ∈ map.map Prod.fst ↔ address ∈ earlier)
    (hplace : placeCommands view crc16 orders first pipeline map policies = .ok (next, final)) :
    ∃ sends added, Plan view none (routingOf crc16 orders) earlier first pipeline sends added ∧
      final = policies ++ added ∧ Adds map next sends.flatten := by
  induction pipeline generalizing first map policies earlier with
  | nil =>
    cases hplace
    exact ⟨[], [], plan_nil _ _, by simp, adds_nil _⟩
  | cons cmd rest ih =>
    rw [placeCommands] at hplace
    cases hrouting : routingOf crc16 orders first cmd with
    | singleNode routing =>
      simp only [hrouting] at hplace
      cases hmap : handlePipelineSingleNodeRouting view map cmd routing first with
      | error error => simp [hmap, bind, Except.bind] at hplace
      | ok middle =>
        simp only [hmap, bind, Except.bind] at hplace
        obtain ⟨address, htarget, hsingle⟩ := adds_singleNode hnodes hmap
        obtain ⟨sends, added, hplan, rfl, hadds⟩ := ih (hsingle.nodes_append hnodes) hplace
        have htargets : Targets view none earlier cmd first (routingOf crc16 orders first cmd)
            [(address, ⟨cmd, first, none, false⟩)] := by
          rw [hrouting]
          exact ⟨address, htarget, rfl⟩
        have hcons := hplan.cons htargets
        rw [hrouting] at hcons
        exact ⟨_, _, hcons, rfl, hsingle.trans hadds⟩
    | multiNode routing policy =>
      simp only [hrouting] at hplace
      cases hmap : handleMultiNodeRouting view map cmd first routing with
      | error error => simp [hmap, bind, Except.bind] at hplace
      | ok middle =>
        simp only [hmap, bind, Except.bind] at hplace
        obtain ⟨targets, htargets, hmulti⟩ := adds_multiNode none earlier policy hmap
        obtain ⟨sends, added, hplan, rfl, hadds⟩ := ih (hmulti.nodes_append hnodes) hplace
        rw [← hrouting] at htargets
        have hcons := hplan.cons htargets
        rw [hrouting] at hcons
        exact ⟨_, _, hcons, by simp [aggregation], hmulti.trans hadds⟩

theorem placeOnRoute_plan (address : String) (first : Nat) (pipeline : List Cmd)
    (map : NodePipelineMap) :
    ∃ sends, Plan view (some (.ok address)) (fun _ _ => .singleNode .random) earlier first
        pipeline sends [] ∧
      Adds map (placeOnRoute address first pipeline map) sends.flatten := by
  induction pipeline generalizing first map earlier with
  | nil => exact ⟨[], plan_nil _ _, adds_nil _⟩
  | cons cmd rest ih =>
    obtain ⟨sends, hplan, hadds⟩ := ih (first + 1) (pushTo map address ⟨cmd, first, none, false⟩)
    exact ⟨[(address, ⟨cmd, first, none, false⟩)] :: sends, hplan.cons ⟨address, rfl, rfl⟩,
      (adds_pushTo map address _).trans hadds⟩

theorem mapPipelineToNodes_plan
    (hmap : mapPipelineToNodes view crc16 orders pipeline route = .ok (map, policies)) :
    ∃ sends, Plan view route (plannedRouting crc16 orders route) [] 0 pipeline sends policies ∧
      Groups map sends.flatten := by
  cases route with
  | none =>
    obtain ⟨sends, added, hplan, rfl, hadds⟩ := placeCommands_plan (fun _ => Iff.rfl) hmap
    exact ⟨sends, hplan, hadds.groups [] groups_nil⟩
  | some found =>
    cases found with
    | error error => simp [mapPipelineToNodes] at hmap
    | ok address =>
      cases hmap
      obtain ⟨sends, hplan, hadds⟩ := placeOnRoute_plan address 0 pipeline [(address, [])]
      exact ⟨sends, hplan, hadds.groups [] ⟨by simp, by simp, by simp, .refl _⟩⟩

end Plan

end ValkeyGlide.Pipeline

import Mathlib.Data.List.ReduceOption
import ValkeyGlide.Cluster.PlanPartition

/-!
# The route of an atomic pipeline

A transaction is sent to one node as a whole (`route_for_pipeline` in
`cluster_async/pipeline_routing.rs`).  Every command is routed as if it were alone,
and the routes are folded into one.

What the route should be is said in terms of the keys (`RoutedByKeys`).  Which
arguments of a command are keys is a parameter: the tables of the source only name the
key that a command is routed by.  A command of several keys asks for a slot only if its
keys share one, and a command without a key asks for none, so that the route is the one
of the keys exactly when the remaining commands show it (`KeysDecide`).
-/

namespace ValkeyGlide.Pipeline

open Protocol Cluster

def crossedSlots : RedisError :=
  .withDescription .crossSlot "Received crossed slots in pipeline"

/-- One round of the fold: the first route that is not content with a replica stays. -/
def chooseRoute : Option Route → Option Route → RedisResult (Option Route)
  | none, next => .ok next
  | some chosen, none => .ok (some chosen)
  | some chosen, some next =>
    if chosen.slot ≠ next.slot then .error crossedSlots
    else if chosen.slotAddr = .replicaOptional then .ok (some next)
    else .ok (some chosen)

section Routing

variable (crc16 : Bytes → Nat) (order : IterationOrder) (randomSlot : Nat)

/-- `randomSlot` is the slot that is drawn for a random primary. -/
def routeForCommand (cmd : Cmd) : Option Route :=
  match forRoutable crc16 order cmd with
  | some (.singleNode .random) => none
  | some (.singleNode (.specificNode route)) => some route
  | some (.singleNode .randomPrimary) => some ⟨randomSlot, .master⟩
  | some (.multiNode _ _) => none
  | some (.singleNode (.byAddress _ _)) => none
  | none => none

def routeForPipeline (isAtomic : Bool) (commands : List Cmd) : RedisResult (Option Route) :=
  if isAtomic then
    (commands.map (routeForCommand crc16 order randomSlot)).foldlM chooseRoute none
  else .ok none

def routesOf (commands : List Cmd) : List Route :=
  (commands.map (routeForCommand crc16 order randomSlot)).reduceOption

end Routing

/-! ## Folding the routes -/

def Crossed (slots : List Nat) : Prop := ∃ first ∈ slots, ∃ second ∈ slots, first ≠ second

def Settles (routes : List Route) (result : Option Route) : Prop :=
  match result with
  | none => routes = []
  | some route => route ∈ routes ∧
      (route.slotAddr = .replicaOptional → ∀ other ∈ routes, other.slotAddr = .replicaOptional)

theorem crossed_cons_of_eq {slot : Nat} (slots : List Nat) :
    Crossed (slot :: slot :: slots) ↔ Crossed (slot :: slots) := by
  simp [Crossed]

theorem Settles.cons_cons {chosen next : Route} {routes : List Route} {result : Option Route}
    (hsettles : Settles
      ((if chosen.slotAddr = .replicaOptional then next else chosen) :: routes) result) :
    Settles (chosen :: next :: routes) result := by
  cases result with
  | none => exact absurd hsettles (List.cons_ne_nil _ _)
  | some route =>
    obtain ⟨hmem, hreplica⟩ := hsettles
    split_ifs at hmem hreplica with hchosen
    · refine ⟨List.mem_cons_of_mem _ hmem, fun haddr => ?_⟩
      exact List.forall_mem_cons.mpr ⟨hchosen, hreplica haddr⟩
    · refine ⟨?_, fun haddr => absurd (hreplica haddr chosen List.mem_cons_self) hchosen⟩
      rcases List.mem_cons.mp hmem with rfl | hmem
      · exact List.mem_cons_self
      · exact List.mem_cons_of_mem _ (List.mem_cons_of_mem _ hmem)

theorem foldlM_chooseRoute (chosen : Option Route) (routes : List (Option Route)) :
    let routed := chosen.toList ++ routes.reduceOption
    (Crossed (routed.map Route.slot) ∧ routes.foldlM chooseRoute chosen = .error crossedSlots) ∨
    (¬ Crossed (routed.map Route.slot) ∧
      ∃ result, routes.foldlM chooseRoute chosen = .ok result ∧ Settles routed result) := by
  induction routes generalizing chosen with
  | nil =>
    refine .inr ⟨?_, chosen, rfl, ?_⟩
    · cases chosen <;> simp [Crossed]
    · cases chosen <;> simp [Settles]
  | cons next rest ih =>
    cases chosen with
    | none =>
      have hrest := ih next
      cases next <;> exact hrest
    | some chosen =>
      cases next with
      | none => exact ih (some chosen)
      | some next =>
        by_cases hslot : chosen.slot = next.slot
        · have hround : chooseRoute (some chosen) (some next) =
              .ok (some (if chosen.slotAddr = .replicaOptional then next else chosen)) := by
            simp only [chooseRoute, hslot, ne_eq, not_true_eq_false, if_false]
            split_ifs <;> rfl
          have hkept :
              (if chosen.slotAddr = .replicaOptional then next else chosen).slot =
                next.slot := by
            split_ifs
            · rfl
            · exact hslot
          have hrest := ih (some (if chosen.slotAddr = .replicaOptional then next else chosen))
          simp only [Option.toList_some, List.reduceOption_cons_of_some,
            List.cons_append, List.nil_append, List.map_cons, hkept] at hrest ⊢
          rw [hslot, crossed_cons_of_eq, List.foldlM_cons, hround]
          exact hrest.imp id fun ⟨hagree, result, hresult, hsettles⟩ =>
            ⟨hagree, result, hresult, hsettles.cons_cons⟩
        · refine .inl ⟨⟨chosen.slot, by simp, next.slot, by simp, hslot⟩, ?_⟩
          rw [List.foldlM_cons]
          simp [chooseRoute, hslot, bind, Except.bind]

/-! ## The slot that a command asks for -/

def isReadonly (cmd : Cmd) : Bool := cmd.command.any isReadonlyCmd

def patternOf (cmd : Cmd) : Option MultiSlotArgPattern := do
  match baseRouting (← cmd.command) with
  | .multiShard pattern => some pattern
  | _ => none

def slotNumber (cmd : Cmd) : Option Nat := do
  match baseRouting (← cmd.command) with
  | .secondArgSlot => parseUnsigned (2 ^ 16 - 1) (← cmd.argIdx 2)
  | _ => none

/-- The slot of the key that a command is routed by or the slot that it names by number; of a
command of several keys, the slot of all of them if they have one. -/
def AsksFor (crc16 : Bytes → Nat) (cmd : Cmd) (slot : Nat) : Prop :=
  match patternOf cmd with
  | some pattern => (∃ key, IsPatternKey pattern cmd key) ∧
      ∀ key, IsPatternKey pattern cmd key → getSlot crc16 key = slot
  | none => ((keyForCommand cmd).map (getSlot crc16)).or (slotNumber cmd) = some slot

section Commands

variable {crc16 : Bytes → Nat} {order : IterationOrder} {randomSlot slot : Nat} {cmd : Cmd}
  {route : Route} {pattern : MultiSlotArgPattern} {key : Bytes}

theorem routeForCommand_of_keyAfterCount {name : Bytes} {countIndex : Nat}
    (hinfo : forRoutable crc16 order cmd = keyAfterCount crc16 cmd name countIndex) :
    routeForCommand crc16 order randomSlot cmd =
      (countedKey cmd countIndex).map (getRoute crc16 (isReadonlyCmd name)) := by
  rw [routeForCommand, hinfo, keyAfterCount, countedKey]
  cases hcount : cmd.argIdx countIndex >>= parseUnsigned (2 ^ 64 - 1) with
  | none =>
    cases harg : cmd.argIdx countIndex <;> simp_all
  | some count =>
    cases harg : cmd.argIdx countIndex <;> simp_all
    split_ifs
    · rfl
    · cases cmd.argIdx (countIndex + 1) <;> rfl

theorem routeForCommand_of_patternOf_none (hpattern : patternOf cmd = none) :
    routeForCommand crc16 order randomSlot cmd =
      ((keyForCommand cmd).map (getRoute crc16 (isReadonly cmd))).or
        ((slotNumber cmd).map (⟨·, .master⟩)) := by
  cases hcommand : cmd.command with
  | none => simp [routeForCommand, forRoutable, keyForCommand, slotNumber, hcommand]
  | some name =>
    have hreadonly : isReadonly cmd = isReadonlyCmd name := by simp [isReadonly, hcommand]
    rw [hreadonly]
    cases hbase : baseRouting name with
    | multiShard pattern => simp [patternOf, hcommand, hbase] at hpattern
    | thirdArgAfterKeyCount | secondArgAfterKeyCount =>
      rw [routeForCommand_of_keyAfterCount (by rw [forRoutable, hcommand]; simp [hbase]; rfl)]
      simp [keyForCommand, slotNumber, hcommand, hbase]
    | secondArgSlot =>
      simp only [routeForCommand, forRoutable, keyForCommand, slotNumber, hcommand,
        Option.bind_eq_bind, Option.bind_some, hbase]
      cases cmd.argIdx 2 with
      | none => rfl
      | some arg =>
        rw [Option.bind_some, Option.bind_some]
        cases parseUnsigned (2 ^ 16 - 1) arg <;> rfl
    | streamsIndex =>
      simp only [routeForCommand, forRoutable, keyForCommand, slotNumber, hcommand,
        Option.bind_eq_bind, Option.bind_some, hbase]
      cases cmd.position (bytes "STREAMS") with
      | none => rfl
      | some position => cases harg : cmd.argIdx (position + 1) <;> simp [harg, forKey]
    | firstKey | secondArg | thirdArg =>
      simp only [routeForCommand, forRoutable, keyForCommand, slotNumber, hcommand,
        Option.bind_eq_bind, Option.bind_some, hbase]
      generalize cmd.argIdx _ = arg
      cases arg <;> rfl
    | allNodes | allPrimaries | random | undefined =>
      simp [routeForCommand, forRoutable, keyForCommand, slotNumber, hcommand, hbase]

theorem keyForCommand_of_patternOf (hpattern : patternOf cmd = some pattern) :
    keyForCommand cmd = none ∧ slotNumber cmd = none ∧
      ∃ name, cmd.command = some name ∧ baseRouting name = .multiShard pattern := by
  obtain ⟨name, hcommand, hpattern⟩ := Option.bind_eq_some_iff.mp hpattern
  split at hpattern
  · next hbase =>
      cases hpattern
      simp [keyForCommand, slotNumber, hcommand, hbase]
  · contradiction

theorem slotNumber_of_keyForCommand (hkey : keyForCommand cmd = some key) :
    slotNumber cmd = none := by
  obtain ⟨name, hcommand, hkey⟩ := Option.bind_eq_some_iff.mp hkey
  cases hbase : baseRouting name <;> simp_all [slotNumber]

theorem routeForCommand_of_patternOf (hpattern : patternOf cmd = some pattern)
    (hwhole : FillsPattern pattern cmd) :
    routeForCommand crc16 order randomSlot cmd = some route ↔
      (∃ key, IsPatternKey pattern cmd key) ∧
        ∀ key, IsPatternKey pattern cmd key → getRoute crc16 (isReadonly cmd) key = route := by
  obtain ⟨-, -, name, hcommand, hbase⟩ := keyForCommand_of_patternOf hpattern
  have hreadonly : isReadonly cmd = isReadonlyCmd name := by simp [isReadonly, hcommand]
  have hinfo : forRoutable crc16 order cmd = multiShard crc16 order cmd name 1 pattern := by
    simp [forRoutable, hcommand, hbase]
  rw [hreadonly, ← @multiShard_single_iff crc16 pattern cmd order name route hwhole,
    routeForCommand, hinfo, multiShard]
  cases multiShardLoop crc16 cmd 1 (isReadonlyCmd name) pattern (cmd.args.length + 1) 0 [] with
  | none => simp
  | some found =>
    rw [Option.bind_eq_bind, Option.bind_some]
    rcases order.visit found with _ | ⟨⟨known, indices⟩, _ | ⟨second, rest⟩⟩ <;> simp

theorem asksFor_of_slotNumber (hnumber : slotNumber cmd = some slot) : AsksFor crc16 cmd slot := by
  have hkey : keyForCommand cmd = none := by
    by_contra hkey
    obtain ⟨key, hkey⟩ := Option.ne_none_iff_exists'.mp hkey
    simp [slotNumber_of_keyForCommand hkey] at hnumber
  unfold AsksFor
  split
  · next pattern hpattern => simp [keyForCommand_of_patternOf hpattern] at hnumber
  · rw [hkey, Option.map_none, Option.none_or, hnumber]

/-- Only a command that names its slot by number asks for the primary without writing. -/
def slotAddrOf (cmd : Cmd) : SlotAddr :=
  if isReadonly cmd ∧ slotNumber cmd = none then .replicaOptional else .master

theorem getRoute_eq_slotAddrOf (hnumber : slotNumber cmd = none) (key : Bytes) :
    getRoute crc16 (isReadonly cmd) key = ⟨getSlot crc16 key, slotAddrOf cmd⟩ := by
  cases hreadonly : isReadonly cmd <;> simp [getRoute, slotAddrOf, hreadonly, hnumber]

/-- A command is routed exactly when it asks for a slot. -/
theorem routeForCommand_eq_some_iff
    (hwhole : ∀ pattern, patternOf cmd = some pattern → FillsPattern pattern cmd) :
    routeForCommand crc16 order randomSlot cmd = some route ↔
      AsksFor crc16 cmd route.slot ∧ slotAddrOf cmd = route.slotAddr := by
  obtain ⟨slot, slotAddr⟩ := route
  unfold AsksFor
  cases hpattern : patternOf cmd with
  | some pattern =>
    obtain ⟨-, hnumber, -⟩ := keyForCommand_of_patternOf hpattern
    rw [routeForCommand_of_patternOf hpattern (hwhole pattern hpattern)]
    simp only [getRoute_eq_slotAddrOf hnumber, Route.mk.injEq]
    constructor
    · rintro ⟨⟨key, hkey⟩, hall⟩
      exact ⟨⟨⟨key, hkey⟩, fun other hother => (hall other hother).1⟩, (hall key hkey).2⟩
    · rintro ⟨⟨hsome, hslot⟩, haddr⟩
      exact ⟨hsome, fun key hkey => ⟨hslot key hkey, haddr⟩⟩
  | none =>
    rw [routeForCommand_of_patternOf_none hpattern]
    cases hkey : keyForCommand cmd with
    | some key => simp [getRoute_eq_slotAddrOf (slotNumber_of_keyForCommand hkey)]
    | none => cases hnumber : slotNumber cmd <;> simp [slotAddrOf, hnumber]

variable (crc16 order randomSlot) in
theorem routeForPipeline_atomic (commands : List Cmd) :
    let routes := routesOf crc16 order randomSlot commands
    (Crossed (routes.map Route.slot) ∧
      routeForPipeline crc16 order randomSlot true commands = .error crossedSlots) ∨
    (¬ Crossed (routes.map Route.slot) ∧ ∃ result,
      routeForPipeline crc16 order randomSlot true commands = .ok result ∧
      Settles routes result) :=
  foldlM_chooseRoute none (commands.map (routeForCommand crc16 order randomSlot))

theorem mem_routesOf {commands : List Cmd} (hwhole : ∀ cmd ∈ commands, ∀ pattern,
      patternOf cmd = some pattern → FillsPattern pattern cmd) :
    route ∈ routesOf crc16 order randomSlot commands ↔
      ∃ cmd ∈ commands, AsksFor crc16 cmd route.slot ∧ slotAddrOf cmd = route.slotAddr := by
  rw [routesOf, List.reduceOption_mem_iff, List.mem_map]
  exact exists_congr fun cmd => and_congr_right fun hcmd =>
    routeForCommand_eq_some_iff (hwhole cmd hcmd)

end Commands

/-! ## Routing by keys -/

section Keys

variable (crc16 : Bytes → Nat) (keys : Cmd → List Bytes) (commands : List Cmd)

def keySlots : List Nat := (commands.flatMap keys).map (getSlot crc16)

/--
The result for commands with these keys: an error exactly when the keys are in several
slots, otherwise the slot of the keys, and its primary when some command may write.
-/
structure RoutedByKeys (result : RedisResult (Option Route)) : Prop where
  crossed : (∃ error, result = .error error ∧ error.kind = .crossSlot) ↔
    Crossed (keySlots crc16 keys commands)
  routed : ¬ Crossed (keySlots crc16 keys commands) →
    ∀ key ∈ commands.flatMap keys, ∃ route, result = .ok (some route) ∧
      route.slot = getSlot crc16 key ∧
      ((∃ cmd ∈ commands, ¬ isReadonly cmd) → route.slotAddr = .master)

/-- The keys that the tables know are among the keys of the command, and a command of several
keys has whole groups of arguments. -/
structure NamesKeys (cmd : Cmd) : Prop where
  routed : ∀ key, keyForCommand cmd = some key → key ∈ keys cmd
  whole : ∀ pattern, patternOf cmd = some pattern → FillsPattern pattern cmd
  listed : ∀ pattern, patternOf cmd = some pattern →
    ∀ key, IsPatternKey pattern cmd key → key ∈ keys cmd

/--
Keys in several slots show at two commands that are not split; slot numbers agree with
the keys; and among the commands that ask for a slot, one may write if any command may.
-/
structure KeysDecide : Prop where
  apart : Crossed (keySlots crc16 keys commands) → ∃ first ∈ commands, ∃ second ∈ commands,
    ∃ slot other, slot ≠ other ∧ AsksFor crc16 first slot ∧ AsksFor crc16 second other
  numbers : ¬ Crossed (keySlots crc16 keys commands) →
    ¬ Crossed (keySlots crc16 keys commands ++ commands.filterMap slotNumber)
  asked : ¬ Crossed (keySlots crc16 keys commands) → commands.flatMap keys ≠ [] →
    ∃ cmd ∈ commands, ∃ slot, AsksFor crc16 cmd slot
  written : ¬ Crossed (keySlots crc16 keys commands) → commands.flatMap keys ≠ [] →
    (∃ cmd ∈ commands, ¬ isReadonly cmd) →
      ∃ cmd ∈ commands, ∃ slot, AsksFor crc16 cmd slot ∧
        (¬ isReadonly cmd ∨ (slotNumber cmd).isSome)

end Keys

section Decide

variable {crc16 : Bytes → Nat} {keys : Cmd → List Bytes} {commands : List Cmd} {routes : List Route}
  {slots : List Nat} {cmd : Cmd} {key : Bytes}

theorem eq_of_not_crossed (hagree : ¬ Crossed slots) {first second : Nat} (hfirst : first ∈ slots)
    (hsecond : second ∈ slots) : first = second := by
  by_contra hne
  exact hagree ⟨first, hfirst, second, hsecond, hne⟩

theorem Crossed.mono {others : List Nat} (hcrossed : Crossed slots) (hsub : slots ⊆ others) :
    Crossed others := by
  obtain ⟨first, hfirst, second, hsecond, hne⟩ := hcrossed
  exact ⟨first, hsub hfirst, second, hsub hsecond, hne⟩

theorem mem_keySlots (hcmd : cmd ∈ commands) (hkey : key ∈ keys cmd) :
    getSlot crc16 key ∈ keySlots crc16 keys commands :=
  List.mem_map_of_mem (List.mem_flatMap.mpr ⟨cmd, hcmd, hkey⟩)

theorem AsksFor.mem_slots {slot : Nat} (hcmd : cmd ∈ commands) (hnames : NamesKeys keys cmd)
    (hasks : AsksFor crc16 cmd slot) :
    slot ∈ keySlots crc16 keys commands ++ commands.filterMap slotNumber := by
  rw [List.mem_append]
  unfold AsksFor at hasks
  split at hasks
  · next pattern hpattern =>
      obtain ⟨⟨key, hkey⟩, hslot⟩ := hasks
      exact .inl (hslot key hkey ▸ mem_keySlots hcmd (hnames.listed _ hpattern key hkey))
  · cases hkey : keyForCommand cmd with
    | some key =>
      rw [hkey] at hasks
      cases hasks
      exact .inl (mem_keySlots hcmd (hnames.routed key hkey))
    | none =>
      rw [hkey] at hasks
      exact .inr (List.mem_filterMap.mpr ⟨cmd, hcmd, hasks⟩)

theorem slotAddrOf_eq_master_iff :
    slotAddrOf cmd = .master ↔ ¬ isReadonly cmd ∨ (slotNumber cmd).isSome := by
  rw [slotAddrOf]
  split_ifs with hreplica
  · simp [hreplica]
  · simp only [true_iff]
    by_contra hneither
    simp_all

theorem slotAddrOf_ne_master (haddr : slotAddrOf cmd ≠ .master) :
    slotAddrOf cmd = .replicaOptional := by
  rw [slotAddrOf] at haddr ⊢
  split_ifs at haddr ⊢ <;> first | rfl | contradiction

variable {order : IterationOrder} {randomSlot : Nat} {result : Option Route}

section

variable (hnames : ∀ cmd ∈ commands, NamesKeys keys cmd)
include hnames

theorem mem_routesOf_iff {route : Route} :
    route ∈ routesOf crc16 order randomSlot commands ↔
      ∃ cmd ∈ commands, AsksFor crc16 cmd route.slot ∧ slotAddrOf cmd = route.slotAddr :=
  mem_routesOf fun cmd hcmd => (hnames cmd hcmd).whole

theorem mem_slots_routesOf_iff {slot : Nat} :
    slot ∈ (routesOf crc16 order randomSlot commands).map Route.slot ↔
      ∃ cmd ∈ commands, AsksFor crc16 cmd slot := by
  rw [List.mem_map]
  constructor
  · rintro ⟨route, hroute, rfl⟩
    obtain ⟨cmd, hcmd, hasks, -⟩ := (mem_routesOf_iff hnames).mp hroute
    exact ⟨cmd, hcmd, hasks⟩
  · rintro ⟨cmd, hcmd, hasks⟩
    exact ⟨⟨slot, slotAddrOf cmd⟩, (mem_routesOf_iff hnames).mpr ⟨cmd, hcmd, hasks, rfl⟩, rfl⟩

theorem slots_routesOf_subset :
    (routesOf crc16 order randomSlot commands).map Route.slot ⊆
      keySlots crc16 keys commands ++ commands.filterMap slotNumber := by
  intro slot hslot
  obtain ⟨cmd, hcmd, hasks⟩ := (mem_slots_routesOf_iff hnames).mp hslot
  exact hasks.mem_slots hcmd (hnames cmd hcmd)

theorem KeysDecide.of_refused
    (hcrossed : Crossed ((routesOf crc16 order randomSlot commands).map Route.slot))
    (hkeys : Crossed (keySlots crc16 keys commands)) : KeysDecide crc16 keys commands := by
  refine ⟨fun _ => ?_, fun hagree => absurd hkeys hagree, fun hagree => absurd hkeys hagree,
    fun hagree => absurd hkeys hagree⟩
  obtain ⟨slot, hslot, other, hother, hne⟩ := hcrossed
  obtain ⟨first, hfirst, hasks⟩ := (mem_slots_routesOf_iff hnames).mp hslot
  obtain ⟨second, hsecond, hasks'⟩ := (mem_slots_routesOf_iff hnames).mp hother
  exact ⟨first, hfirst, second, hsecond, slot, other, hne, hasks, hasks'⟩

theorem KeysDecide.of_routed
    (hagree : ¬ Crossed ((routesOf crc16 order randomSlot commands).map Route.slot))
    (hsettles : Settles (routesOf crc16 order randomSlot commands) result)
    (hrouted : RoutedByKeys crc16 keys commands (.ok result)) : KeysDecide crc16 keys commands := by
  have hsame : ¬ Crossed (keySlots crc16 keys commands) := by
    intro hcrossed
    obtain ⟨error, herror, -⟩ := hrouted.crossed.mpr hcrossed
    cases herror
  -- with a key, the result is the route of some command
  have hresult : ∀ key ∈ commands.flatMap keys, ∃ route cmd, result = some route ∧
      cmd ∈ commands ∧ AsksFor crc16 cmd (getSlot crc16 key) ∧
        slotAddrOf cmd = route.slotAddr ∧
        ((∃ cmd ∈ commands, ¬ isReadonly cmd) → route.slotAddr = .master) := by
    intro key hkey
    obtain ⟨route, hresult, hslot, hprimary⟩ := hrouted.routed hsame key hkey
    cases hresult
    obtain ⟨cmd, hcmd, hasks, haddr⟩ := (mem_routesOf_iff hnames).mp hsettles.1
    exact ⟨route, cmd, rfl, hcmd, hslot ▸ hasks, haddr, hprimary⟩
  refine ⟨fun hcrossed => absurd hcrossed hsame, fun _ hcrossed => ?_, fun _ hkeys => ?_,
    fun _ hkeys hwrites => ?_⟩
  · -- the slots of the keys are slots of routes, and so are the slots named by number
    refine hagree (hcrossed.mono fun slot hslot => (mem_slots_routesOf_iff hnames).mpr ?_)
    rcases List.mem_append.mp hslot with hslot | hslot
    · obtain ⟨key, hkey, rfl⟩ := List.mem_map.mp hslot
      obtain ⟨-, cmd, -, hcmd, hasks, -⟩ := hresult key hkey
      exact ⟨cmd, hcmd, hasks⟩
    · obtain ⟨cmd, hcmd, hnumber⟩ := List.mem_filterMap.mp hslot
      exact ⟨cmd, hcmd, asksFor_of_slotNumber hnumber⟩
  · obtain ⟨key, hkey⟩ := List.exists_mem_of_ne_nil _ hkeys
    obtain ⟨-, cmd, -, hcmd, hasks, -⟩ := hresult key hkey
    exact ⟨cmd, hcmd, _, hasks⟩
  · obtain ⟨key, hkey⟩ := List.exists_mem_of_ne_nil _ hkeys
    obtain ⟨route, cmd, -, hcmd, hasks, haddr, hprimary⟩ := hresult key hkey
    exact ⟨cmd, hcmd, _, hasks, slotAddrOf_eq_master_iff.mp (haddr.trans (hprimary hwrites))⟩

theorem RoutedByKeys.of_decided
    (hagree : ¬ Crossed ((routesOf crc16 order randomSlot commands).map Route.slot))
    (hsettles : Settles (routesOf crc16 order randomSlot commands) result)
    (hdecide : KeysDecide crc16 keys commands) : RoutedByKeys crc16 keys commands (.ok result) := by
  have hsame : ¬ Crossed (keySlots crc16 keys commands) := by
    intro hcrossed
    obtain ⟨first, hfirst, second, hsecond, slot, other, hne, hasks, hasks'⟩ :=
      hdecide.apart hcrossed
    exact hagree ⟨slot, (mem_slots_routesOf_iff hnames).mpr ⟨first, hfirst, hasks⟩, other,
      (mem_slots_routesOf_iff hnames).mpr ⟨second, hsecond, hasks'⟩, hne⟩
  constructor
  · refine ⟨fun ⟨error, herror, _⟩ => ?_, fun hcrossed => absurd hcrossed hsame⟩
    cases herror
  intro _ key hkey
  have hkeys : commands.flatMap keys ≠ [] := List.ne_nil_of_mem hkey
  obtain ⟨cmd, hcmd, slot, hasks⟩ := hdecide.asked hsame hkeys
  cases result with
  | none =>
    have hmem : slot ∈ (routesOf crc16 order randomSlot commands).map Route.slot :=
      (mem_slots_routesOf_iff hnames).mpr ⟨cmd, hcmd, hasks⟩
    rw [show routesOf crc16 order randomSlot commands = [] from hsettles] at hmem
    exact absurd hmem List.not_mem_nil
  | some route =>
    obtain ⟨hroute, hreplica⟩ := hsettles
    refine ⟨route, rfl, ?_, fun hwrites => ?_⟩
    · exact eq_of_not_crossed (hdecide.numbers hsame)
        (slots_routesOf_subset hnames (List.mem_map_of_mem hroute))
        (List.mem_append_left _ (List.mem_map_of_mem hkey))
    · obtain ⟨writer, hwriter, slot, hasks, hprimary⟩ := hdecide.written hsame hkeys hwrites
      have hmaster := slotAddrOf_eq_master_iff.mpr hprimary
      obtain ⟨chosen, -, -, haddr⟩ := (mem_routesOf_iff hnames).mp hroute
      rw [← haddr]
      by_contra hnot
      have hoptional := hreplica (haddr ▸ slotAddrOf_ne_master hnot) ⟨slot, slotAddrOf writer⟩
        ((mem_routesOf_iff hnames).mpr ⟨writer, hwriter, hasks, rfl⟩)
      rw [hmaster] at hoptional
      cases hoptional

end

theorem NamesKeys.of_key (hpattern : patternOf cmd = none) (hkey : keyForCommand cmd = some key)
    (hmem : key ∈ keys cmd) : NamesKeys keys cmd :=
  ⟨fun _ hother => Option.some.inj (hkey.symm.trans hother) ▸ hmem,
    fun pattern hsome => by simp [hpattern] at hsome,
    fun pattern hsome => by simp [hpattern] at hsome⟩

end Decide

def twoSlots (key : Bytes) : Nat := if key = bytes "foo" then 12182 else 5061

def getAndSet : List Cmd :=
  [.ofBytes [bytes "GET", bytes "foo"], .ofBytes [bytes "SET", bytes "foo", bytes "1"]]

end ValkeyGlide.Pipeline

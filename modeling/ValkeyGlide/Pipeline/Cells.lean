import ValkeyGlide.Pipeline.Rounds
import ValkeyGlide.Foundation.Loop

/-!
# The cells of a pipeline's responses

A response stands in the row of its command, at its place among the targets of
the command.  Writing a response fills its cell; it changes no other cell, except
that earlier places of the row that were missing are filled up.
-/

namespace ValkeyGlide.Pipeline

open Foundation Protocol Cluster

/-- The index of a command and the place of a target; a single target is at the first place. -/
abbrev Cell := Nat × Nat

def cellOf (index : Nat) (innerIndex : Option Nat) : Cell := (index, innerIndex.getD 0)

def PlacedCommand.cell (placed : PlacedCommand) : Cell := cellOf placed.index placed.innerIndex

def RetryEntry.cell (entry : RetryEntry) : Cell := cellOf entry.index entry.innerIndex

def dispatched (sent : NodePipelineMap) : List PlacedCommand :=
  ((ungroup sent).map Prod.snd).filter fun placed => !placed.ignore

def recorded (responses : PipelineResponses) (cell : Cell) : Option NodeResponse :=
  responses[cell.1]?.bind (·[cell.2]?)

def Replaceable (responses : PipelineResponses) (cell : Cell) : Prop :=
  ∀ response, recorded responses cell = some response → isServerError response.2 = true

variable {response : NodeResponse} {responses before : PipelineResponses} {row : List NodeResponse}

theorem replaceable_of_recorded {cell : Cell} (hrecorded : recorded responses cell = some response)
    (herror : isServerError response.2 = true) : Replaceable responses cell := by
  intro other hother
  obtain rfl : response = other := by simpa [hrecorded] using hother
  exact herror

theorem answerTo_placed (placed : PlacedCommand) (value : Value) :
    (answerTo placed value).placed = placed := by
  cases value <;> rfl

theorem answerTo_value (placed : PlacedCommand) (value : Value) :
    (answerTo placed value).value = value := by
  cases value <;> rfl

/-! ## Writing a response -/

theorem placeResponse_some (row : List NodeResponse) (place : Nat) (response : NodeResponse) :
    ∃ next, placeResponse row (some place) response = .ok next ∧ next[place]? = some response ∧
      ∀ other, other ≠ place → next[other]? = row[other]? ∨
        row[other]? = none ∧ other < place ∧ next[other]? = some noResponse := by
  refine ⟨_, rfl, ?_, ?_⟩
  · rw [List.getElem?_set_self]
    simp only [List.length_append, List.length_replicate]
    omega
  · intro other hother
    rw [List.getElem?_set_ne hother.symm]
    by_cases hshort : other < row.length
    · exact .inl (List.getElem?_append_left hshort)
    · rw [List.getElem?_append_right (by omega), List.getElem?_replicate]
      have hmissing : row[other]? = none := List.getElem?_eq_none (by omega)
      split
      · exact .inr ⟨hmissing, by omega, rfl⟩
      · exact .inl hmissing.symm

theorem placeResponse_none (response : NodeResponse)
    (herror : ∀ first, row[0]? = some first → isServerError first.2 = true) :
    ∃ next, placeResponse row none response = .ok next ∧ next[0]? = some response ∧
      ∀ other, other ≠ 0 → next[other]? = row[other]? := by
  cases row with
  | nil =>
    refine ⟨_, rfl, rfl, fun other hother => ?_⟩
    obtain ⟨other, rfl⟩ := Nat.exists_eq_succ_of_ne_zero hother
    rfl
  | cons first rest =>
    obtain ⟨address, value⟩ := first
    have hvalue := herror _ rfl
    cases value with
    | serverError error =>
      refine ⟨_, rfl, rfl, fun other hother => ?_⟩
      obtain ⟨other, rfl⟩ := Nat.exists_eq_succ_of_ne_zero hother
      rfl
    | _ => simp [isServerError] at hvalue

/-- `after` is `before` with a response in its cell. -/
structure Written (before after : PipelineResponses) (cell : Cell) (response : NodeResponse) :
    Prop where
  length : after.length = before.length
  written : recorded after cell = some response
  others : ∀ other, other ≠ cell → recorded after other = recorded before other ∨
    recorded before other = none ∧ other.1 = cell.1 ∧ other.2 < cell.2 ∧
      recorded after other = some noResponse

theorem written_set {index place : Nat} {next : List NodeResponse}
    (hrow : before[index]? = some row) (hwritten : next[place]? = some response)
    (hothers : ∀ other, other ≠ place →
      next[other]? = row[other]? ∨ row[other]? = none ∧ other < place ∧
      next[other]? = some noResponse) :
    Written before (before.set index next) (index, place) response where
  length := List.length_set
  written := by
    have hindex : index < before.length := (List.getElem?_eq_some_iff.mp hrow).1
    simpa [recorded, hindex] using hwritten
  others := by
    rintro ⟨index', place'⟩ hother
    have hindex : index < before.length := (List.getElem?_eq_some_iff.mp hrow).1
    by_cases hsame : index' = index
    · subst hsame
      have hplace : place' ≠ place := fun h => hother (by rw [h])
      have hset : (before.set index' next)[index']? = some next := List.getElem?_set_self hindex
      simp only [recorded, hset, hrow, Option.bind_some, true_and]
      exact hothers place' hplace
    · left
      have hset : (before.set index next)[index']? = before[index']? :=
        List.getElem?_set_ne fun h => hsame h.symm
      simp [recorded, hset]

theorem addPipelineResult_written {index : Nat} {innerIndex : Option Nat} (value : Value)
    (address : String) (hindex : index < responses.length)
    (hreplaceable : Replaceable responses (cellOf index innerIndex)) :
    ∃ next, addPipelineResult responses index innerIndex value address = .ok next ∧
      Written responses next (cellOf index innerIndex) (some address, value) := by
  obtain ⟨row, hrow⟩ : ∃ row, responses[index]? = some row := ⟨_, List.getElem?_eq_getElem hindex⟩
  simp only [addPipelineResult, hrow]
  cases innerIndex with
  | some place =>
    obtain ⟨next, hplace, hwritten, hothers⟩ := placeResponse_some row place (some address, value)
    simp only [hplace]
    exact ⟨_, rfl, written_set hrow hwritten hothers⟩
  | none =>
    have herror : ∀ first, row[0]? = some first → isServerError first.2 = true := by
      intro first hfirst
      exact hreplaceable first (by simpa [recorded, hrow, cellOf] using hfirst)
    obtain ⟨next, hplace, hwritten, hothers⟩ := placeResponse_none (some address, value) herror
    simp only [hplace]
    exact ⟨_, rfl, written_set hrow hwritten fun other hother => .inl (hothers other hother)⟩

theorem Written.replaceable {after : PipelineResponses} {cell other : Cell}
    (hwritten : Written before after cell response) (hne : other ≠ cell)
    (hreplaceable : Replaceable before other) : Replaceable after other := by
  rcases hwritten.others other hne with hkept | ⟨-, -, -, hfilled⟩
  · intro held hheld
    exact hreplaceable held (hkept ▸ hheld)
  · exact replaceable_of_recorded hfilled rfl

/-! ## Cells that are waited for -/

/-- Responses for different commands or targets can still be written. -/
structure Ready (size : Nat) (cells : List Cell) (responses : PipelineResponses) : Prop where
  length : responses.length = size
  nodup : cells.Nodup
  index_lt : ∀ cell ∈ cells, cell.1 < size
  replaceable : ∀ cell ∈ cells, Replaceable responses cell

section Ready

variable {size : Nat} {cells others : List Cell} {responses : PipelineResponses}

theorem Ready.perm (hready : Ready size cells responses) (hperm : cells.Perm others) :
    Ready size others responses where
  length := hready.length
  nodup := hperm.nodup_iff.mp hready.nodup
  index_lt cell hcell := hready.index_lt cell (hperm.mem_iff.mpr hcell)
  replaceable cell hcell := hready.replaceable cell (hperm.mem_iff.mpr hcell)

theorem Ready.sublist (hready : Ready size cells responses) (hsublist : others.Sublist cells) :
    Ready size others responses where
  length := hready.length
  nodup := hready.nodup.sublist hsublist
  index_lt cell hcell := hready.index_lt cell (hsublist.subset hcell)
  replaceable cell hcell := hready.replaceable cell (hsublist.subset hcell)

theorem Ready.written {next : PipelineResponses} {cell : Cell}
    (hready : Ready size (cell :: cells) responses)
    (hwritten : Written responses next cell response) : Ready size cells next where
  length := hwritten.length.trans hready.length
  nodup := hready.nodup.of_cons
  index_lt other hother := hready.index_lt other (List.mem_cons_of_mem _ hother)
  replaceable other hother := by
    have hfresh : cell ∉ cells := (List.nodup_cons.mp hready.nodup).1
    exact hwritten.replaceable (fun h => hfresh (h ▸ hother))
      (hready.replaceable other (List.mem_cons_of_mem _ hother))

theorem Ready.write {index : Nat} {innerIndex : Option Nat}
    (hready : Ready size (cellOf index innerIndex :: cells) responses) (value : Value)
    (address : String) :
    ∃ next, addPipelineResult responses index innerIndex value address = .ok next ∧
      Written responses next (cellOf index innerIndex) (some address, value) ∧
      Ready size cells next ∧
      (isServerError value = true → Ready size (cellOf index innerIndex :: cells) next) := by
  have hindex : index < responses.length :=
    hready.length ▸ hready.index_lt _ List.mem_cons_self
  obtain ⟨next, hadd, hwritten⟩ := addPipelineResult_written value address hindex
    (hready.replaceable _ List.mem_cons_self)
  have hrest := hready.written hwritten
  refine ⟨next, hadd, hwritten, hrest, fun herror => ?_⟩
  refine ⟨hrest.length, hready.nodup, hready.index_lt, fun cell hcell => ?_⟩
  rcases List.mem_cons.mp hcell with rfl | hcell
  · exact replaceable_of_recorded hwritten.written herror
  · exact hrest.replaceable cell hcell

end Ready

/-! ## The cells of a plan -/

section Plan

variable {view : ClusterView} {route : Option (RedisResult String)}
  {routing : Nat → Cmd → RoutingInfo} {pipeline : List Cmd}
  {sends : List (List (String × PlacedCommand))} {policies : ResponsePolicies}

variable {index : Nat} {targets : List (String × PlacedCommand)} {send : String × PlacedCommand}

theorem Targets.cell {earlier : List String} {cmd : Cmd} {place : Nat} {routing : RoutingInfo}
    (htargets : Targets view route earlier cmd index routing targets)
    (hsend : targets[place]? = some send) :
    send.2.cell = (index, place) ∧ send.2.ignore = false := by
  cases routing with
  | singleNode single =>
    obtain ⟨address, -, rfl⟩ := htargets
    cases place with
    | zero =>
      cases hsend
      exact ⟨rfl, rfl⟩
    | succ place => simp at hsend
  | multiNode info policy =>
    cases info with
    | allNodes | allMasters =>
      obtain rfl := htargets
      obtain ⟨address, -, rfl⟩ := by simpa using hsend
      exact ⟨rfl, rfl⟩
    | multiSlot routes argsPattern =>
      obtain ⟨addresses, -, -, rfl⟩ := htargets
      rw [List.getElem?_mapIdx, Option.map_eq_some_iff] at hsend
      obtain ⟨target, -, rfl⟩ := hsend
      exact ⟨rfl, rfl⟩

section

variable (hplan : Plan view route routing [] 0 pipeline sends policies)
include hplan

theorem Plan.cell {place : Nat}
    (htargets : sends[index]? = some targets) (hsend : targets[place]? = some send) :
    send.2.cell = (index, place) ∧ send.2.ignore = false := by
  have hindex : index < pipeline.length :=
    hplan.length ▸ (List.getElem?_eq_some_iff.mp htargets).1
  have hplanned := hplan.targets index _ targets (List.getElem?_eq_getElem hindex) htargets
  rw [Nat.zero_add] at hplanned
  exact hplanned.cell hsend

theorem Plan.index_lt (hsend : send ∈ sends.flatten) :
    send.2.cell.1 < pipeline.length ∧ send.2.ignore = false := by
  obtain ⟨targets, htargets, hsend⟩ := List.mem_flatten.mp hsend
  obtain ⟨index, hindex⟩ := List.mem_iff_getElem?.mp htargets
  obtain ⟨place, hplace⟩ := List.mem_iff_getElem?.mp hsend
  obtain ⟨hcell, hignore⟩ := hplan.cell hindex hplace
  rw [hcell, ← hplan.length]
  exact ⟨(List.getElem?_eq_some_iff.mp hindex).1, hignore⟩

theorem Plan.row_cells (htargets : sends[index]? = some targets) :
    (targets.map fun send => send.2.cell) =
      (List.range targets.length).map fun place => (index, place) := by
  refine List.ext_getElem (by simp) fun place hplace _ => ?_
  rw [List.length_map] at hplace
  have hcell := (hplan.cell htargets (List.getElem?_eq_getElem hplace)).1
  simpa using hcell

theorem Plan.cells_nodup :
    (sends.flatten.map fun send => send.2.cell).Nodup := by
  rw [List.map_flatten, List.nodup_flatten]
  constructor
  · intro row hrow
    obtain ⟨targets, htargets, rfl⟩ := List.mem_map.mp hrow
    obtain ⟨index, hindex⟩ := List.mem_iff_getElem?.mp htargets
    rw [hplan.row_cells hindex]
    exact List.nodup_range.map fun first second heq => (Prod.mk.inj heq).2
  · rw [List.pairwise_map, List.pairwise_iff_getElem]
    intro first second hfirst hsecond hlt
    rw [hplan.row_cells (List.getElem?_eq_getElem hfirst),
      hplan.row_cells (List.getElem?_eq_getElem hsecond)]
    rintro cell hcell hother
    obtain ⟨place, -, rfl⟩ := List.mem_map.mp hcell
    obtain ⟨place', -, heq⟩ := List.mem_map.mp hother
    have hindex : second = first := congrArg Prod.fst heq
    omega

end

theorem recorded_replicate (size : Nat) (cell : Cell) :
    recorded (List.replicate size []) cell = none := by
  rw [recorded, List.getElem?_replicate]
  split <;> simp

theorem Plan.ready (hplan : Plan view route routing [] 0 pipeline sends policies) :
    Ready pipeline.length (sends.flatten.map fun send => send.2.cell)
      (List.replicate pipeline.length []) where
  length := List.length_replicate
  nodup := hplan.cells_nodup
  index_lt cell hcell := by
    obtain ⟨send, hsend, rfl⟩ := List.mem_map.mp hcell
    exact (hplan.index_lt hsend).1
  replaceable cell _ response hresponse := by
    rw [recorded_replicate] at hresponse
    contradiction

end Plan

/-! ## The cells of node pipelines -/

def commandCells (commands : List PlacedCommand) : List Cell :=
  (commands.filter fun placed => !placed.ignore).map PlacedCommand.cell

def waitingCells (sent : NodePipelineMap) : List Cell := (dispatched sent).map PlacedCommand.cell

theorem waitingCells_eq (sent : NodePipelineMap) :
    waitingCells sent = commandCells ((ungroup sent).map Prod.snd) := rfl

theorem waitingCells_cons (address : String) (commands : List PlacedCommand)
    (rest : NodePipelineMap) :
    waitingCells ((address, commands) :: rest) = commandCells commands ++ waitingCells rest := by
  simp [waitingCells_eq, commandCells, ungroup, Function.comp_def]

theorem commandCells_perm {commands others : List PlacedCommand} (hperm : commands.Perm others) :
    (commandCells commands).Perm (commandCells others) :=
  (hperm.filter _).map _

theorem waitingCells_perm {sent others : NodePipelineMap} (hperm : sent.Perm others) :
    (waitingCells sent).Perm (waitingCells others) :=
  commandCells_perm ((hperm.flatMap_right _).map _)

theorem waitingCells_pushTo (map : NodePipelineMap) (address : String) (placed : PlacedCommand) :
    (waitingCells (pushTo map address placed)).Perm (waitingCells map ++ commandCells [placed]) := by
  have hperm := commandCells_perm ((ungroup_pushTo_perm map address placed).map Prod.snd)
  simpa [waitingCells_eq, commandCells] using hperm

theorem waitingCells_addCommand (map : NodePipelineMap) (address : String) (cmd : Cmd) (index : Nat)
    (innerIndex : Option Nat) (addAsking : Bool) :
    (waitingCells (addCommandToNodePipelineMap map address cmd index innerIndex addAsking)).Perm
      (waitingCells map ++ [cellOf index innerIndex]) := by
  refine (waitingCells_pushTo _ address ⟨cmd, index, innerIndex, false⟩).trans ?_
  refine List.Perm.append_right _ ?_
  cases addAsking with
  | false => exact .refl _
  | true =>
    have hasking := waitingCells_pushTo map address ⟨asking, index, innerIndex, true⟩
    rwa [commandCells, List.filter_cons_of_neg (by simp), List.filter_nil, List.map_nil,
      List.append_nil] at hasking

theorem Plan.waitingCells_perm {view : ClusterView} {route : Option (RedisResult String)}
    {routing : Nat → Cmd → RoutingInfo} {pipeline : List Cmd}
    {sends : List (List (String × PlacedCommand))} {policies : ResponsePolicies}
    {map : NodePipelineMap}
    (hplan : Plan view route routing [] 0 pipeline sends policies) (hgroups : Groups map sends.flatten) :
    (waitingCells map).Perm (sends.flatten.map fun send => send.2.cell) := by
  have hall : (sends.flatten.map Prod.snd).filter (fun placed => !placed.ignore) =
      sends.flatten.map Prod.snd := by
    rw [List.filter_eq_self]
    intro placed hplaced
    obtain ⟨send, hsend, rfl⟩ := List.mem_map.mp hplaced
    simp [(hplan.index_lt hsend).2]
  have hperm := commandCells_perm (hgroups.perm.map Prod.snd)
  rw [commandCells, commandCells, hall, List.map_map] at hperm
  exact hperm

end ValkeyGlide.Pipeline

import Flowfile.FlowHistory
import Flowfile.LinearHistory

/-!
# Diffs of a flow graph

An assistant stages operations on a graph: nodes to add, settings to replace, connections to make
and to cut, nodes to delete. They are bundled into a diff, one bucket for each kind, and the diff is
applied bucket by bucket when the user accepts it: under one snapshot of the history, with the
recording of the single operations switched off. When an operation raises, the last entry of the
history is undone.

Staged operations are checked twice. Before anything is recorded, the ids that the diff refers to
are looked up. The settings and connections themselves are validated when their turn comes.

Settings classes are given: how raw settings are validated, and what stands for the id in them.
-/

namespace Flowfile.Graph

open History

variable {P D S : Type}

/-- What raw settings hold as the id of their node: an integer, or something else, which may still
be read as one. -/
inductive RawId where
  | integer (id : Int)
  | other (asInteger : Option Int)

def RawId.toInt? : RawId → Option Int
  | .integer id => some id
  | .other asInteger => asInteger

structure SettingsClasses (P S : Type) where
  rawNodeId : S → RawId
  modelValidate : String → S → Except FlowError (Int × NodeSetting P)
  modelValidate_nodeId : ∀ {nodeType settings nodeId setting id},
    modelValidate nodeType settings = .ok (nodeId, setting) →
      rawNodeId settings = .integer id → nodeId = id

/-- Where a new node attaches to the graph. -/
structure InsertionContext where
  upstreamNodeIds : List Int
  rightInputNodeId : Option Int

structure StagedAddition (S : Type) where
  nodeType : String
  settings : S
  insertionContext : InsertionContext

structure StagedSettingsUpdate (S : Type) where
  nodeId : Int
  nodeType : String
  newSettings : S

structure NodeConnection where
  fromId : Int
  handle : String
  toId : Int
  connectionClass : Fin 10

/-- A connection as it is staged: the ids of its ends, as far as they are integers, and what
validation makes of it. -/
structure StagedConnection where
  outputNodeId : Option Int
  inputNodeId : Option Int
  connection : Except FlowError NodeConnection

inductive StagedOperation (S : Type) where
  | addition (addition : StagedAddition S)
  | modification (update : StagedSettingsUpdate S)
  | connect (connection : StagedConnection)
  | deleteNode (nodeId : Int)
  | disconnect (connection : StagedConnection)

/-- A bundle of staged operations. -/
structure GraphDiff (S : Type) where
  additions : List (StagedAddition S)
  modifications : List (StagedSettingsUpdate S)
  connectionsAdded : List StagedConnection
  deletions : List Int
  connectionsRemoved : List StagedConnection
  rationale : Option String

def GraphDiff.operations (diff : GraphDiff S) : List (StagedOperation S) :=
  diff.additions.map .addition ++ diff.modifications.map .modification ++
    diff.connectionsAdded.map .connect ++ diff.deletions.map .deleteNode ++
    diff.connectionsRemoved.map .disconnect

/-- Which end of a connection. -/
inductive EndpointRole where
  | output
  | input
deriving DecidableEq

inductive DiffError where
  | drift (missingNodeIds : List Int)
  | inconsistent (missingEndpoints : List (Int × EndpointRole))
  | broke (error : FlowError)
deriving DecidableEq

def FlowGraph.isAvailable (graph : FlowGraph P) (pending : List Int) (nodeId : Int) : Bool :=
  pending.contains nodeId || (graph.getNode nodeId).isSome

def InsertionContext.references (context : InsertionContext) : List Int :=
  context.upstreamNodeIds ++ context.rightInputNodeId.toList

def missingForAdditions (classes : SettingsClasses P S) (graph : FlowGraph P) :
    List Int → List (StagedAddition S) → List Int × List Int
  | pending, [] => ([], pending)
  | pending, addition :: rest =>
    let missing := addition.insertionContext.references.filter fun nodeId =>
      !graph.isAvailable pending nodeId
    let later := missingForAdditions classes graph
      (pending ++ (classes.rawNodeId addition.settings).toInt?.toList) rest
    (missing ++ later.1, later.2)

def validateDiffAgainstFlow (classes : SettingsClasses P S) (graph : FlowGraph P)
    (diff : GraphDiff S) : Option DiffError :=
  let forAdditions := missingForAdditions classes graph [] diff.additions
  let pending := forAdditions.2
  let missing := forAdditions.1 ++ (diff.modifications.map StagedSettingsUpdate.nodeId ++
    diff.deletions).filter fun nodeId => !graph.isAvailable pending nodeId
  let ends (connection : StagedConnection) : List (Int × EndpointRole) :=
    connection.outputNodeId.toList.map (·, .output) ++ connection.inputNodeId.toList.map (·, .input)
  let inconsistent := (diff.connectionsAdded.flatMap ends).filter fun endpoint =>
    !graph.isAvailable pending endpoint.1
  if !missing.isEmpty then some (.drift (missing.dedup.insertionSort (· ≤ ·)))
  else if !inconsistent.isEmpty then some (.inconsistent inconsistent)
  else none

section

variable [DecidableEq P] (environment : Environment P) (classes : SettingsClasses P S) (fuel : Nat)

def InsertionContext.wires (context : InsertionContext) : List (Int × Fin 10) :=
  let mainIds := context.upstreamNodeIds.filter fun nodeId =>
    some nodeId ≠ context.rightInputNodeId
  mainIds.map (·, 0) ++ context.rightInputNodeId.toList.map (·, 1)

variable (world : World P)

def World.applyAddNode (addition : StagedAddition S) : Option (Outcome P) :=
  match classes.modelValidate addition.nodeType addition.settings with
  | .error error => some (world, some error)
  | .ok (nodeId, setting) => do
    let (world, error) ← world.addSettings environment fuel nodeId addition.nodeType setting
    match error with
    | some error => some (world, some error)
    | none =>
      World.forEach (fun world wire =>
        world.addConnection fuel wire.1 defaultOutputHandle nodeId wire.2) world
          addition.insertionContext.wires

def World.applyUpdateNodeSettings (update : StagedSettingsUpdate S) : Option (Outcome P) :=
  match classes.modelValidate update.nodeType update.newSettings with
  | .error error => some (world, some error)
  | .ok (nodeId, setting) => world.addSettings environment fuel nodeId update.nodeType setting

/-- Whether the connection is there already. What raises in looking counts as no. -/
def FlowGraph.alreadyPresent (graph : FlowGraph P) (connection : NodeConnection) : Bool :=
  match graph.getNode connection.fromId, graph.getNode connection.toId,
      nodeInputConnectionType connection.connectionClass with
  | some source, some target, .ok port =>
    match (graph.heap target).inputConnectionExists source.nodeId port with
    | .ok present => present
    | .error _ => false
  | _, _, _ => false

variable (staged : StagedConnection)

def World.applyConnection : Option (Outcome P) :=
  match staged.connection with
  | .error error => some (world, some error)
  | .ok connection =>
    if world.graph.alreadyPresent connection then some (world, none)
    else world.addConnection fuel connection.fromId connection.handle connection.toId
      connection.connectionClass

/-- Cut a staged connection, unless it is gone already. -/
def World.applyRemoval : Option (Outcome P) :=
  match staged.connection with
  | .error error => some (world, some error)
  | .ok connection =>
    (world.deleteConnection fuel connection.fromId connection.toId connection.connectionClass).map
      fun outcome => if outcome.2 = some .connectionDoesNotExist then (outcome.1, none) else outcome

def World.applyOperation : StagedOperation S → Option (Outcome P)
  | .addition addition => world.applyAddNode environment classes fuel addition
  | .modification update => world.applyUpdateNodeSettings environment classes fuel update
  | .connect connection => world.applyConnection fuel connection
  | .deleteNode nodeId => world.deleteNode fuel nodeId
  | .disconnect connection => world.applyRemoval fuel connection

variable (diff : GraphDiff S)

def World.applyOperations : Option (Outcome P) :=
  World.forEach (World.applyOperation environment classes fuel) world diff.operations

def GraphDiff.action : HistoryAction where
  actionType := .batch
  description :=
    let rationale := diff.rationale.getD ""
    if rationale ≠ "" then "AI diff: " ++ rationale
    else s!"AI diff ({diff.operations.length} ops)"
  nodeId := none

/-- `apply_diff`: check the diff, take a snapshot, apply the operations, and undo when one of them
raises. What the undo reports is not looked at. -/
def applyDiff (codec : SettingsCodec P D) (sourceTypes : String)
    (state : State (World P) (FlowfileData D) (SnapshotSignature D)) [DecidableEq D]
    (diff : GraphDiff S) :
    Option (State (World P) (FlowfileData D) (SnapshotSignature D) × Option DiffError) :=
  let host := (flowHost environment codec sourceTypes fuel).toHistoryHost
  match validateDiffAgainstFlow classes state.2.graph diff with
  | some error => some (state, some error)
  | none => do
    let manager := (captureSnapshot host state.1 state.2 diff.action).1
    let (world, error) ← state.2.applyOperations environment classes fuel diff
    match error with
    | none => some ((manager, world), none)
    | some error =>
      let undone := undo host manager world
      some ((undone.1, undone.2.1), some (.broke error))

end

end Flowfile.Graph

import Flowfile.Groups
import Mathlib.Algebra.GroupWithZero.Nat
import Mathlib.Data.List.Dedup

/-!
# Editing a flow graph

Nodes are added as promises and configured by adders, one for each node type. Connections are added
and deleted by the ids of their ends and the class of the input. Every operation works on the
objects in place and may break off with an exception, which leaves the changes made so far: an
outcome is the world afterwards and the exception, if any, or none where fuel ran out.

What the operations do is written as the program does it, slips included: a loop that pops from the
list it runs over skips the next element, deleting a left input compares the right one, and deleting
a node cuts only main inputs of its successors.

Node templates, adders and the reading order of integer sets are given by an environment.
-/

namespace Flowfile.Graph

variable {P : Type}

/-- Why an operation was refused or broke off. -/
inductive FlowError where
  | nodesNotFound (missing : List Int)
  | targetIsSource (nodeId : Int) (nodeType : String)
  | wouldCreateCycle (fromId toId : Int)
  | connectionDoesNotExist
  | nodeDoesNotExist (nodeId : Int)
  | groupDoesNotExist (groupId : Int)
  | templateNotFound (nodeType : String)
  | noDataInitialized
  | unexpectedConnectionClass (connectionClass : Fin 10)
  | noneHasNoAttribute (name : String)
  | noneIsNotIterable
  | noAdder (nodeType : String)
  | unknownNodeType (nodeType : String)
  | invalidSettings (details : String)
deriving DecidableEq

/-- Text of the exception. The list of source types comes from the installation. -/
def FlowError.message (sourceTypes : String) : FlowError → String
  | .nodesNotFound missing => "Node(s) not found: " ++ ", ".intercalate (missing.map toString)
  | .targetIsSource nodeId nodeType =>
    s!"node {nodeId} ({nodeType}) is a source node and has no input port, so it cannot receive a "
      ++ s!"connection. Source nodes ({sourceTypes}) stand alone. To combine two sources, "
      ++ "ADD a join or union node with both sources as its inputs (the join/union "
      ++ "node is the combine step and wires its own inputs — do not connect the "
      ++ "sources directly); otherwise pick a transformation/output node as the "
      ++ "connection target."
  | .wouldCreateCycle fromId toId =>
    s!"Connecting node {fromId} -> {toId} would create a cycle"
  | .connectionDoesNotExist => "Connection does not exist on the input node"
  | .nodeDoesNotExist nodeId => s!"Node with id {nodeId} does not exist"
  | .groupDoesNotExist groupId => s!"Group {groupId} does not exist"
  | .templateNotFound nodeType => s!"Node template {nodeType} not found"
  | .noDataInitialized => "No data initialized"
  | .unexpectedConnectionClass connectionClass =>
    s!"Unexpected connection_class: input-{connectionClass}"
  | .noneHasNoAttribute name => s!"'NoneType' object has no attribute '{name}'"
  | .noneIsNotIterable => "'NoneType' object is not iterable"
  | .noAdder nodeType => s!"'FlowGraph' object has no attribute 'add_{nodeType}'"
  | .unknownNodeType nodeType => s!"Unknown node type: {nodeType}"
  | .invalidSettings details => details

/-- How the adder of a node type works. A step adder replaces a node of another type;
whether it may create a node depends on the settings. An adder in place gives an
existing node its own type and keeps the template. -/
inductive Adder (P : Type) where
  | step (initialised : NodeSetting P → Bool) (starting : Bool)
  | inPlace (starting : Bool)
  | inPlaceThenStep

/-- The installed node types, and the order in which a set is read that was filled in
the order of a list: of integers and of pairs of integers. -/
structure Environment (P : Type) where
  template : String → Option NodeTemplate
  adder : String → Option (Adder P)
  setOrder : List Int → List Int
  setOrder_perm : ∀ members, (setOrder members).Perm members.dedup
  pairOrder : List (Int × Int) → List (Int × Int)
  pairOrder_perm : ∀ members, (pairOrder members).Perm members.dedup

structure World (P : Type) where
  graph : FlowGraph P
  hashes : Hashes P

/-- The world after an operation, and the exception that ended it. -/
abbrev Outcome (P : Type) : Type := World P × Option FlowError

inductive InputPort where
  | main
  | right
  | left
deriving DecidableEq

instance inputClasses : NeZero 10 := ⟨Nat.succ_ne_zero 9⟩

def nodeInputConnectionType (connectionClass : Fin 10) : Except FlowError InputPort :=
  if connectionClass = 0 then .ok .main
  else if connectionClass = 1 then .ok .right
  else if connectionClass = 2 then .ok .left
  else .error (.unexpectedConnectionClass connectionClass)

def World.resetNode [DecidableEq P] (fuel : Nat) (world : World P) (ref : NodeRef) :
    Option (World P) :=
  (reset world.graph fuel world.hashes ref).map fun hashes => { world with hashes }

variable (node : FlowNode P)

/-- Enter a source into the inputs of its target. -/
def FlowNode.connect (source : NodeRef) (port : InputPort) (handle : String) : FlowNode P :=
  let node :=
    match port with
    | .main =>
      { node with
        mainInputs :=
          match node.mainInputs with
          | none => some [source]
          | some inputs =>
            if node.nodeTemplate.input ≤ 2 then some [source] else some (inputs ++ [source]) }
    | .right => { node with rightInput := some source }
    | .left => { node with leftInput := some source }
  let node := { node with
    inputOutputHandles := Function.update node.inputOutputHandles source.nodeId (some handle) }
  if node.setting.isSetup && node.setting.dependingOnId.isSome && port = .main then
    { node with setting := { node.setting with dependingOnId := some source.nodeId } }
  else node

variable (graph : FlowGraph P)

/-- Enter a connection at both of its ends. The old occupant of a port is not told. -/
def FlowGraph.connect (target source : NodeRef) (port : InputPort)
    (handle : String) : FlowGraph P :=
  let graph := graph.modifyNode source fun node =>
    { node with leadsToNodes := node.leadsToNodes ++ [target] }
  graph.modifyNode target fun node => node.connect source port handle

def World.addNodeConnection [DecidableEq P] (fuel : Nat) (world : World P)
    (target source : NodeRef) (port : InputPort) (handle : String) : Option (World P) := do
  let world ← { world with
    graph := world.graph.connect target source port handle }.resetNode fuel target
  world.resetNode fuel source

/-- Remove the first successor with an id. -/
def FlowGraph.deleteLeadToNode (ref : NodeRef) (nodeId : Int) : FlowGraph P :=
  graph.modifyNode ref fun node =>
    { node with leadsToNodes := node.leadsToNodes.eraseP fun lead => lead.nodeId = nodeId }

/-- Pop matching elements while running over the list by position: the element after
a popped one moves into its place and is passed over. -/
def popMatching (nodeId : Int) : List NodeRef → List NodeRef
  | [] => []
  | ref :: rest =>
    if ref.nodeId = nodeId then
      match rest with
      | [] => []
      | passed :: later => passed :: popMatching nodeId later
    else ref :: popMatching nodeId rest

/-- The node without an input, if there is one to remove. The branch for left inputs
compares the right one. -/
def FlowNode.withoutInput (nodeId : Int) (connectionClass : Fin 10)
    (complete : Bool) : Except FlowError (Option (FlowNode P)) :=
  let inputOutputHandles := Function.update node.inputOutputHandles nodeId none
  if connectionClass = 0 then
    match node.mainInputs with
    | none => .error .noneIsNotIterable
    | some inputs =>
      if inputs.any fun input => input.nodeId = nodeId then
        .ok (some { node with mainInputs := some (popMatching nodeId inputs), inputOutputHandles })
      else .ok none
  else if connectionClass = 1 ∨ complete then
    if node.rightInput.any fun input => input.nodeId = nodeId then
      .ok (some { node with rightInput := none, inputOutputHandles })
    else .ok none
  else if connectionClass = 2 ∨ complete then
    match node.leftInput, node.rightInput with
    | none, _ => .ok none
    | some _, none => .error (.noneHasNoAttribute "node_id")
    | some _, some right =>
      if right.nodeId = nodeId then .ok (some { node with leftInput := none, inputOutputHandles })
      else .ok none
  else .ok none

def World.deleteInputNode [DecidableEq P] (fuel : Nat) (world : World P) (ref : NodeRef)
    (nodeId : Int) (connectionClass : Fin 10) (complete : Bool) : Option (Outcome P) :=
  match (world.graph.heap ref).withoutInput nodeId connectionClass complete with
  | .error error => some (world, some error)
  | .ok none => some (world, none)
  | .ok (some node) => do
    let world ← { world with
      graph := world.graph.modifyNode ref fun _ => node }.resetNode fuel ref
    some (world, none)

def FlowNode.inputConnectionExists (nodeInputId : Int) : InputPort → Except FlowError Bool
  | .main => .ok ((node.mainInputs.getD []).any fun input => input.nodeId = nodeInputId)
  | .left => .ok (node.leftInput.any fun input => input.nodeId = nodeInputId)
  | .right =>
    match node.rightInput with
    | none => .error (.noneHasNoAttribute "node_information")
    | some input => .ok (input.nodeId = nodeInputId)

/-- Push the successors that were not visited. Nothing, if one of them is the target. -/
def visitDownstream (targetId : Int) :
    List NodeRef → List NodeRef × List Int → Option (List NodeRef × List Int)
  | [], found => some found
  | downstream :: rest, (stack, visited) =>
    if downstream.nodeId = targetId then none
    else if visited.contains downstream.nodeId then visitDownstream targetId rest (stack, visited)
    else visitDownstream targetId rest (downstream :: stack, downstream.nodeId :: visited)

/-- Search along successors, the last found first. -/
def searchDownstream (graph : FlowGraph P) (targetId : Int) :
    Nat → List NodeRef × List Int → Option Bool
  | 0, _ => none
  | _ + 1, ([], _) => some false
  | fuel + 1, (current :: stack, visited) =>
    match visitDownstream targetId (graph.heap current).leadsToNodes (stack, visited) with
    | none => some true
    | some next => searchDownstream graph targetId fuel next

def wouldCreateCycle (fuel : Nat) (source target : NodeRef) : Option Bool :=
  if source.nodeId = target.nodeId then some true
  else searchDownstream graph source.nodeId fuel ([target], [target.nodeId])

/-- Check of a connection before it is made. -/
def validateConnection (fuel : Nat) (source target : NodeRef) : Option (Option FlowError) :=
  if (graph.heap target).nodeTemplate.input = 0 then
    some (some (.targetIsSource target.nodeId (graph.heap target).nodeType))
  else
    (wouldCreateCycle graph fuel source target).map fun cyclic =>
      if cyclic then some (.wouldCreateCycle source.nodeId target.nodeId) else none

def World.addConnection [DecidableEq P] (fuel : Nat) (world : World P) (fromId : Int)
    (handle : String) (toId : Int) (connectionClass : Fin 10) : Option (Outcome P) :=
  match world.graph.getNode fromId, world.graph.getNode toId with
  | some source, some target => do
    let error ← validateConnection world.graph fuel source target
    match error, nodeInputConnectionType connectionClass with
    | some error, _ => some (world, some error)
    | none, .error error => some (world, some error)
    | none, .ok port => do
      let world ← world.addNodeConnection fuel target source port handle
      some (world, none)
  | source, target =>
    some (world, some (.nodesNotFound
      ((if source.isNone then [fromId] else []) ++ if target.isNone then [toId] else [])))

/-- Delete a connection between two nodes. -/
def World.deleteConnection [DecidableEq P] (fuel : Nat) (world : World P) (fromId toId : Int)
    (connectionClass : Fin 10) : Option (Outcome P) :=
  match world.graph.getNode fromId, world.graph.getNode toId with
  | some source, some target =>
    match nodeInputConnectionType connectionClass with
    | .error error => some (world, some error)
    | .ok port =>
      match (world.graph.heap target).inputConnectionExists source.nodeId port with
      | .error error => some (world, some error)
      | .ok false => some (world, some .connectionDoesNotExist)
      | .ok true =>
        { world with graph := world.graph.deleteLeadToNode source toId }.deleteInputNode fuel
          target fromId connectionClass false
  | _, _ => some (world, some .connectionDoesNotExist)

/-- Cut a node out of the inputs of its successors, until one of them fails. -/
def World.detachFromTargets [DecidableEq P] (fuel : Nat) (nodeId : Int) :
    List NodeRef → World P → Option (Outcome P)
  | [], world => some (world, none)
  | target :: rest, world => do
    let (world, error) ← world.deleteInputNode fuel target nodeId 0 true
    match error with
    | some error => some (world, some error)
    | none => detachFromTargets fuel nodeId rest world

def FlowGraph.dropNode (ref : NodeRef) (nodeId : Int) : FlowGraph P :=
  let graph :=
    if (graph.heap ref).isStart then graph
    else (graph.heap ref).allInputs.foldl (FlowGraph.deleteLeadToNode · · nodeId) graph
  { graph with nodeDb := graph.nodeDb.filter fun other => other.nodeId ≠ nodeId }

def World.deleteNode [DecidableEq P] (fuel : Nat) (world : World P) (nodeId : Int) :
    Option (Outcome P) :=
  match world.graph.getNode nodeId with
  | none => some (world, some (.nodeDoesNotExist nodeId))
  | some ref => do
    let groupId := (world.graph.heap ref).setting.groupId
    let (world, error) ←
      world.detachFromTargets fuel nodeId (world.graph.heap ref).leadsToNodes
    match error with
    | some error => some (world, some error)
    | none =>
      some ({ world with graph := (world.graph.dropNode ref nodeId).pruneGroup groupId }, none)

def World.createNode [DecidableEq P] (environment : Environment P) (fuel : Nat) (world : World P)
    (nodeId : Int) (nodeType : String) (setting : NodeSetting P) : Option (Outcome P) :=
  match environment.template nodeType with
  | none => some (world, some (.templateNotFound nodeType))
  | some nodeTemplate => do
    let ref : NodeRef := ⟨nodeId, world.graph.nextSerial⟩
    let node : FlowNode P :=
      { nodeType, nodeTemplate, setting, mainInputs := none, leftInput := none,
        rightInput := none, leadsToNodes := [], inputOutputHandles := fun _ => none }
    let graph := { world.graph with
      heap := Function.update world.graph.heap ref node
      nextSerial := world.graph.nextSerial + 1 }
    let world ← World.resetNode fuel ⟨graph, Function.update world.hashes ref none⟩ ref
    let graph := { world.graph with nodeDb := world.graph.nodeDb ++ [ref] }
    some ({ world with graph }, none)

/-- Enter a node into the successors of an input that does not list its id. -/
def FlowGraph.addLead (ref source : NodeRef) : FlowGraph P :=
  graph.modifyNode source fun node =>
    if node.leadsToNodes.any fun lead => lead.nodeId = ref.nodeId then node
    else { node with leadsToNodes := node.leadsToNodes ++ [ref] }

/-- Give an existing node new settings and the template of its type. -/
def World.updateNode [DecidableEq P] (environment : Environment P) (fuel : Nat) (world : World P)
    (ref : NodeRef) (setting : NodeSetting P) : Option (Outcome P) := do
  let graph := (world.graph.heap ref).allInputs.foldl (FlowGraph.addLead · ref) world.graph
  let (_, hashes) ← nodeHash graph fuel world.hashes ref
  match environment.template (graph.heap ref).nodeType with
  | none =>
    some (⟨graph, hashes⟩, some (.templateNotFound (graph.heap ref).nodeType))
  | some nodeTemplate => do
    let graph := graph.modifyNode ref fun node => { node with nodeTemplate, setting }
    let world ← World.resetNode fuel ⟨graph, hashes⟩ ref
    some (world, none)

def World.addNodeStep [DecidableEq P] (environment : Environment P) (fuel : Nat) (world : World P)
    (nodeId : Int) (nodeType : String) (setting : NodeSetting P) (initialised : Bool) :
    Option (Outcome P) :=
  let create (world : World P) : Option (Outcome P) :=
    if initialised then world.createNode environment fuel nodeId nodeType setting
    else some (world, some .noDataInitialized)
  match world.graph.getNode nodeId with
  | none => create world
  | some ref =>
    if (world.graph.heap ref).nodeType = nodeType then world.updateNode environment fuel ref setting
    else do
      let (world, error) ← world.deleteNode fuel nodeId
      match error with
      | some error => some (world, some error)
      | none => create world

def World.addNodePromise [DecidableEq P] (environment : Environment P) (fuel : Nat)
    (world : World P) (nodeId : Int) (nodeType : String) (setting : NodeSetting P) :
    Option (Outcome P) :=
  world.addNodeStep environment fuel nodeId nodeType setting true

def FlowGraph.addNodeToStartingList (nodeId : Int) : FlowGraph P :=
  match graph.getNode nodeId with
  | none => graph
  | some ref =>
    if graph.flowStarts.any fun other => other.nodeId = ref.nodeId then graph
    else { graph with flowStarts := graph.flowStarts ++ [ref] }

/-- After a successful step, enter the node into the list of starting nodes. -/
def startingWhen (starting : Bool) (nodeId : Int) : Outcome P → Outcome P
  | (world, none) =>
    if starting then ({ world with graph := world.graph.addNodeToStartingList nodeId }, none)
    else (world, none)
  | broken => broken

/-- Configure a node without replacing it. -/
def World.addInPlace [DecidableEq P] (environment : Environment P) (fuel : Nat) (world : World P)
    (nodeId : Int) (nodeType : String) (setting : NodeSetting P) : Option (Outcome P) :=
  match world.graph.getNode nodeId with
  | none => world.createNode environment fuel nodeId nodeType setting
  | some ref => do
    let graph := world.graph.modifyNode ref fun node => { node with nodeType, setting }
    let world ← { world with graph }.resetNode fuel ref
    some (world, none)

def World.addSettings [DecidableEq P] (environment : Environment P) (fuel : Nat) (world : World P)
    (nodeId : Int) (nodeType : String) (setting : NodeSetting P) : Option (Outcome P) :=
  match environment.adder nodeType with
  | none => some (world, some (.noAdder nodeType))
  | some (.step initialised starting) =>
    (world.addNodeStep environment fuel nodeId nodeType setting (initialised setting)).map
      (startingWhen starting nodeId)
  | some (.inPlace starting) =>
    (world.addInPlace environment fuel nodeId nodeType setting).map (startingWhen starting nodeId)
  | some .inPlaceThenStep => do
    let (world, error) ←
      (world.addInPlace environment fuel nodeId nodeType setting).map (startingWhen true nodeId)
    match error with
    | some error => some (world, some error)
    | none => world.addNodeStep environment fuel nodeId nodeType setting false

inductive Edit (P : Type) where
  | addNodePromise (nodeId : Int) (nodeType : String) (setting : NodeSetting P)
  | addSettings (nodeId : Int) (nodeType : String) (setting : NodeSetting P)
  | addConnection (fromId : Int) (handle : String) (toId : Int) (connectionClass : Fin 10)
  | deleteConnection (fromId toId : Int) (connectionClass : Fin 10)
  | deleteNode (nodeId : Int)
  | createGroup (name : String) (nodeIds : List Int) (color : Option String)
      (bounds : Option Box) (parentGroupId : Option Int) (childGroupIds : List Int)
  | updateGroup (groupId : Int) (name color : Option String) (bounds : Option Box)
      (collapsed : Option Bool)
  | deleteGroup (groupId : Int)
  | addNodesToGroup (groupId : Int) (nodeIds : List Int)
  | removeNodesFromGroup (nodeIds : List Int)
  | setNodePositions (updates : List (Int × ℚ × ℚ))
  | setGroupBounds (updates : List (Int × Box))

def World.onGroup (world : World P) (groupId : Int) (change : FlowGraph P → FlowGraph P) :
    Outcome P :=
  match world.graph.getGroup groupId with
  | none => (world, some (.groupDoesNotExist groupId))
  | some _ => ({ world with graph := change world.graph }, none)

def World.perform [DecidableEq P] (environment : Environment P) (fuel : Nat) (world : World P) :
    Edit P → Option (Outcome P)
  | .addNodePromise nodeId nodeType setting =>
    world.addNodePromise environment fuel nodeId nodeType setting
  | .addSettings nodeId nodeType setting =>
    world.addSettings environment fuel nodeId nodeType setting
  | .addConnection fromId handle toId connectionClass =>
    world.addConnection fuel fromId handle toId connectionClass
  | .deleteConnection fromId toId connectionClass =>
    world.deleteConnection fuel fromId toId connectionClass
  | .deleteNode nodeId => world.deleteNode fuel nodeId
  | .createGroup name nodeIds color bounds parentGroupId childGroupIds =>
    some ({ world with graph :=
      world.graph.createGroup name nodeIds color bounds parentGroupId childGroupIds }, none)
  | .updateGroup groupId name color bounds collapsed =>
    some (world.onGroup groupId (FlowGraph.updateGroup · groupId name color bounds collapsed))
  | .deleteGroup groupId =>
    some ({ world with graph := world.graph.deleteGroup groupId }, none)
  | .addNodesToGroup groupId nodeIds =>
    some (world.onGroup groupId (FlowGraph.addNodesToGroup · groupId nodeIds))
  | .removeNodesFromGroup nodeIds =>
    some ({ world with graph :=
      world.graph.removeNodesFromGroup environment.setOrder nodeIds }, none)
  | .setNodePositions updates =>
    some ({ world with graph := world.graph.setNodePositions updates }, none)
  | .setGroupBounds updates =>
    some ({ world with graph := world.graph.setGroupBounds updates }, none)

def runEdits [DecidableEq P] (environment : Environment P) (fuel : Nat) : World P → List (Edit P) →
    Option (World P)
  | world, [] => some world
  | world, edit :: rest => do
    let (next, _) ← world.perform environment fuel edit
    runEdits environment fuel next rest

/-- An object no graph has touched. -/
def blankNode : FlowNode P :=
  { nodeType := "", nodeTemplate := ⟨0, false, false⟩,
    setting := ⟨none, false, 0, 0, none, "", none, none, false, false⟩,
    mainInputs := none, leftInput := none, rightInput := none, leadsToNodes := [],
    inputOutputHandles := fun _ => none }

def World.empty : World P :=
  { graph :=
      { nodeDb := [], heap := fun _ => blankNode, nextSerial := 0, flowStarts := [], groups := [],
        groupIdSeq := 0 }
    hashes := fun _ => none }

end Flowfile.Graph

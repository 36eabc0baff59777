import Flowfile.GraphEdits

/-!
# Snapshots, files and how graphs are rebuilt from them

A snapshot lists the nodes with their settings in serialised form, their inputs by port, their
outputs with the handles, and the groups. The history keeps it, and a saved file contains it.
Loading validates the settings and puts the fields kept outside of them back. A promise has no
settings in a snapshot.

A graph is rebuilt in an order computed by walking from a starting node, or from every node, to the
inputs and then to the outputs. The walk repairs lists of outputs that miss a node on its way, and
runs over lists that may grow meanwhile. Undo and redo rebuild in three passes: promises, settings,
connections. Opening a file configures and connects node by node and adds connections it finds
missing. Both start from nothing, as no object of a graph is reachable once its table is cleared.

The settings classes are given by a codec.
-/

namespace Flowfile.Graph

variable {P D : Type}

structure FlowfileNode (D : Type) where
  id : Int
  type : String
  isStartNode : Bool
  description : String
  nodeReference : Option String
  xPosition : Int
  yPosition : Int
  groupId : Option Int
  leftInputId : Option Int
  rightInputId : Option Int
  inputIds : Option (List Int)
  outputs : List Int
  outputHandles : List String
  settingInput : Option D
deriving DecidableEq

/-- Serialised graph. -/
structure FlowfileData (D : Type) where
  nodes : List (FlowfileNode D)
  groups : List GroupInformation
deriving DecidableEq

structure ValidatedSetting (P : Type) where
  payload : P
  cacheResults : Bool
  /-- Whether the class declares a single input. -/
  singleInput : Bool
  isUserDefined : Bool

/-- Settings classes: serialisation without the fields kept outside, validation by node
type, and the description shown when the user gave none. -/
structure SettingsCodec (P D : Type) where
  dump : P → Bool → D
  validate : String → D → Except FlowError (ValidatedSetting P)
  getDefaultDescription : P → String

def defaultOutputHandle : String := "output-0"

variable (codec : SettingsCodec P D)

def NodeSetting.shownDescription (setting : NodeSetting P) : String :=
  if setting.description ≠ "" then setting.description
  else (setting.payload.map codec.getDefaultDescription).getD ""

/-- Integer part of a number, towards zero. -/
def truncate (position : ℚ) : Int := position.num.tdiv position.den

/-- Serialised form of a node. -/
def FlowGraph.flowfileNode (graph : FlowGraph P) (ref : NodeRef) : FlowfileNode D :=
  let node := graph.heap ref
  { id := ref.nodeId
    type := node.nodeType
    isStartNode := graph.flowStarts.any fun start => start.nodeId = ref.nodeId
    description := node.setting.shownDescription codec
    nodeReference := node.setting.nodeReference
    xPosition := truncate node.setting.posX
    yPosition := truncate node.setting.posY
    groupId := node.setting.groupId
    leftInputId := node.leftInput.map NodeRef.nodeId
    rightInputId := node.rightInput.map NodeRef.nodeId
    inputIds := node.mainInputs.map fun inputs => inputs.map NodeRef.nodeId
    outputs := node.leadsToNodes.map NodeRef.nodeId
    outputHandles := node.leadsToNodes.map fun lead =>
      ((graph.heap lead).inputOutputHandles ref.nodeId).getD defaultOutputHandle
    settingInput := node.setting.payload.map fun payload =>
      codec.dump payload node.setting.cacheResults }

/-- Snapshot of a graph. Groups without members are left out. -/
def FlowGraph.getFlowfileData (graph : FlowGraph P) : FlowfileData D where
  nodes := graph.nodeDb.map (graph.flowfileNode codec)
  groups := graph.groups.filter fun group => !graph.groupIsEmpty group.id

structure NodeInformation (P : Type) where
  id : Int
  type : String
  xPosition : Int
  yPosition : Int
  leftInputId : Option Int
  rightInputId : Option Int
  inputIds : Option (List Int)
  outputs : List Int
  outputHandles : List String
  settingInput : Option (NodeSetting P)

/-- A graph to be rebuilt. Nodes are stored by id. -/
structure FlowInformation (P : Type) where
  data : List (NodeInformation P)
  nodeStarts : List Int
  nodeConnections : List (Int × Int)
  groups : List GroupInformation

/-- Look up a node to be rebuilt. -/
def findNode (data : List (NodeInformation P)) (nodeId : Int) : Option (NodeInformation P) :=
  data.find? fun node => node.id = nodeId

def putNode (data : List (NodeInformation P)) (node : NodeInformation P) :
    List (NodeInformation P) :=
  if (findNode data node.id).isSome then
    data.map fun other => if other.id = node.id then node else other
  else data ++ [node]

/-- Validated settings with the fields that are kept outside of them. -/
def FlowfileNode.setting (node : FlowfileNode D) (validated : ValidatedSetting P) :
    NodeSetting P where
  payload := some validated.payload
  isSetup := true
  posX := node.xPosition
  posY := node.yPosition
  groupId := node.groupId
  description := node.description
  nodeReference := node.nodeReference
  dependingOnId :=
    if validated.singleInput then some (((node.inputIds.getD []).head?).getD (-1)) else none
  cacheResults := validated.cacheResults
  isUserDefined := validated.isUserDefined

def FlowfileNode.information (node : FlowfileNode D) : Except FlowError (NodeInformation P) := do
  let settingInput ←
    match node.settingInput with
    | none => pure none
    | some dumped => do
      let validated ← codec.validate node.type dumped
      pure (some (node.setting validated))
  pure
    { id := node.id
      type := node.type
      xPosition := node.xPosition
      yPosition := node.yPosition
      leftInputId := node.leftInputId
      rightInputId := node.rightInputId
      inputIds := node.inputIds
      outputs := node.outputs
      outputHandles := node.outputHandles
      settingInput }

/-- A snapshot as a graph to be rebuilt. -/
def FlowfileData.flowInformation (data : FlowfileData D) :
    Except FlowError (FlowInformation P) := do
  let nodes ← data.nodes.mapM (FlowfileNode.information codec)
  pure
    { data := nodes.foldl putNode []
      nodeStarts := (data.nodes.filter FlowfileNode.isStartNode).map FlowfileNode.id
      nodeConnections := data.nodes.flatMap fun node => node.outputs.map (node.id, ·)
      groups := data.groups }

/-- The walk so far: nodes with their repaired outputs, and the order. -/
structure Ingestion (P : Type) where
  data : List (NodeInformation P)
  order : List Int

def Ingestion.ingest (state : Ingestion P) (nodeId : Int) : Ingestion P :=
  { state with order := state.order ++ [nodeId] }

/-- Make sure that an input lists a node among its outputs. -/
def Ingestion.assureOutputId (state : Ingestion P) (inputId nodeId : Int) : Ingestion P :=
  { state with
    data := state.data.map fun node =>
      if node.id = inputId && !node.outputs.contains nodeId then
        { node with outputs := node.outputs ++ [nodeId] }
      else node }

def NodeInformation.allInputIds (node : NodeInformation P) : List Int :=
  node.leftInputId.toList ++ node.rightInputId.toList ++ node.inputIds.getD []

/-- Run over the outputs of a node by position, while the list may grow. -/
def walkOutputs (walk : Int → Ingestion P → Option (Ingestion P)) (nodeId : Int) :
    Nat → Nat → Ingestion P → Option (Ingestion P)
  | 0, _, _ => none
  | fuel + 1, position, state =>
    match ((findNode state.data nodeId).map NodeInformation.outputs).bind (·[position]?) with
    | none => some state
    | some outputId => do
      let state ← if state.order.contains outputId then some state else walk outputId state
      walkOutputs walk nodeId fuel (position + 1) state

/-- Walk to the inputs of a node that have no place yet, or give the node its place, and
then to the outputs. -/
def determineOrder : Nat → Int → Ingestion P → Option (Ingestion P)
  | 0, _, _ => none
  | fuel + 1, nodeId, state =>
    match findNode state.data nodeId with
    | none => some state
    | some current => do
      let waiting := current.allInputIds.filter fun inputId => !state.order.contains inputId
      let state ←
        if waiting.isEmpty then
          some (if state.order.contains nodeId then state else state.ingest nodeId)
        else
          waiting.foldlM (fun state inputId =>
            if (findNode state.data inputId).isNone then some (state.ingest nodeId)
            else
              let state := state.assureOutputId inputId nodeId
              if state.order.contains inputId then some state
              else determineOrder fuel inputId state) state
      walkOutputs (determineOrder fuel) nodeId fuel 0 state

def determineInsertionOrder (environment : Environment P) (fuel : Nat)
    (information : FlowInformation P) : Option (Ingestion P) := do
  let allNodes := environment.setOrder (information.data.map NodeInformation.id)
  let start : Ingestion P := ⟨information.data, []⟩
  let state ←
    match information.nodeStarts with
    | first :: _ => determineOrder fuel first start
    | [] => allNodes.foldlM (fun state nodeId => determineOrder fuel nodeId state) start
  let rest := environment.setOrder (allNodes.filter fun nodeId => !state.order.contains nodeId)
  some { state with order := state.order ++ rest }

/-- Carry out a step for every element until one raises. -/
def World.forEach {α : Type} (step : World P → α → Option (Outcome P)) :
    World P → List α → Option (Outcome P)
  | world, [] => some (world, none)
  | world, value :: rest => do
    let (world, error) ← step world value
    match error with
    | some error => some (world, some error)
    | none => World.forEach step world rest

def NodeInformation.promise (node : NodeInformation P) : NodeSetting P where
  payload := none
  isSetup := false
  posX := node.xPosition
  posY := node.yPosition
  groupId := none
  description := ""
  nodeReference := none
  dependingOnId := none
  cacheResults := (node.settingInput.map NodeSetting.cacheResults).getD false
  isUserDefined := false

/-- The port by which a source enters a target to be rebuilt: a side that names it and
does not have it yet, or else the main inputs. -/
def NodeInformation.insertType (target : NodeInformation P) (node : FlowNode P)
    (nodeId : Int) : Option InputPort :=
  if target.leftInputId = some nodeId && !(node.leftInput.any fun ref => ref.nodeId = nodeId) then
    some .left
  else if target.rightInputId = some nodeId &&
      !(node.rightInput.any fun ref => ref.nodeId = nodeId) then
    some .right
  else if (target.inputIds.getD []).contains nodeId then some .main
  else none

section

variable [DecidableEq P] (environment : Environment P) (fuel : Nat)
  (data : List (NodeInformation P)) (world : World P) (nodeId : Int)

def World.insertPromise
    : Option (Outcome P) :=
  match findNode data nodeId with
  | none => some (world, none)
  | some node => world.addNodePromise environment fuel node.id node.type node.promise

/-- Configure a rebuilt node. A type without adder is passed over. -/
def World.insertSetting
    : Option (Outcome P) :=
  match findNode data nodeId with
  | none => some (world, none)
  | some node =>
    match node.settingInput with
    | none => some (world, none)
    | some setting =>
      if (environment.adder node.type).isNone then some (world, none)
      else world.addSettings environment fuel node.id node.type setting

def World.reconnect
    (world : World P) (outputId : Int) : Option (Outcome P) :=
  match world.graph.getNode nodeId, world.graph.getNode outputId, findNode data outputId with
  | some source, some target, some node =>
    match node.insertType (world.graph.heap target) nodeId with
    | none => some (world, none)
    | some port =>
      (world.addNodeConnection fuel target source port defaultOutputHandle).map (·, none)
  | _, _, _ => some (world, none)

variable (information : FlowInformation P)

def rebuild : Option (Outcome P) := do
  let ⟨data, order⟩ ← determineInsertionOrder environment fuel information
  let (world, error) ← World.forEach (World.insertPromise environment fuel data) World.empty order
  if error.isSome then some (world, error)
  else do
    let (world, error) ← World.forEach (World.insertSetting environment fuel data) world order
    if error.isSome then some (world, error)
    else do
      let (world, error) ← World.forEach (fun world nodeId =>
        World.forEach (World.reconnect fuel data nodeId) world
          (((findNode data nodeId).map NodeInformation.outputs).getD [])) world order
      if error.isSome then some (world, error)
      else some ({ world with graph := world.graph.restoreGroups information.groups }, none)

/-- Replace the graph by one rebuilt from a snapshot. The allocator of group ids is not
read meanwhile and set at the end, so it is kept only if the rebuilding raises. -/
def World.restoreFromSnapshot (codec : SettingsCodec P D) (fuel : Nat) (world : World P)
    (snapshot : FlowfileData D) : Option (Outcome P) :=
  match snapshot.flowInformation codec with
  | .error error => some (world, some error)
  | .ok information =>
    (rebuild environment fuel information).map fun
      | (restored, none) => (restored, none)
      | (restored, some error) =>
        ({ restored with graph := { restored.graph with groupIdSeq := world.graph.groupIdSeq } },
          some error)

def World.openConnection (node : NodeInformation P)
    (world : World P) (output : Int × Nat) : Option (Outcome P) :=
  match world.graph.getNode node.id, world.graph.getNode output.1 with
  | some source, some target =>
    match findNode data output.1 with
    | none => some (world, none)
    | some targetNode =>
      match targetNode.insertType (world.graph.heap target) node.id with
      | none => some (world, none)
      | some port =>
        (world.addNodeConnection fuel target source port
          (node.outputHandles[output.2]?.getD defaultOutputHandle)).map (·, none)
  | some source, none =>
    some ({ world with graph := world.graph.deleteLeadToNode source output.1 }, none)
  | none, _ => some (world, none)

/-- Configure a node of an opened file and connect it with its outputs. A user-defined
node that is not installed is passed over, any other missing adder raises. -/
def World.openNode
    : Option (Outcome P) :=
  match findNode data nodeId with
  | none => some (world, none)
  | some node =>
    let connect (world : World P) : Option (Outcome P) :=
      World.forEach (World.openConnection fuel data node) world node.outputs.zipIdx
    match node.settingInput with
    | none => connect world
    | some setting =>
      if setting.isUserDefined && (environment.adder node.type).isNone then some (world, none)
      else do
        let (world, error) ← world.addSettings environment fuel node.id node.type setting
        match error with
        | some error => some (world, some error)
        | none => connect world

def FlowGraph.nodeConnections (graph : FlowGraph P) : List (Int × Int) :=
  graph.nodeDb.flatMap fun ref =>
    (graph.heap ref).leadsToNodes.map (ref.nodeId, ·.nodeId) ++
      (graph.heap ref).allInputs.map (·.nodeId, ref.nodeId)

/-- Search along successors for the source of a connection, first found first. -/
def circularFrom (graph : FlowGraph P) (nodeId : Int) : Nat → List NodeRef → Option Bool
  | 0, _ => none
  | _ + 1, [] => some false
  | fuel + 1, ref :: queue =>
    if ref.nodeId = nodeId then some true
    else circularFrom graph nodeId fuel (queue ++ (graph.heap ref).leadsToNodes)

/-- Add a connection that the nodes of an opened file did not yield, if its target has no
input. The search for cycles is run, and its answer is not used. -/
def World.addMissingConnection (connection : Int × Int) : Option (Outcome P) :=
  match world.graph.getNode connection.2 with
  | none => some (world, some (.noneHasNoAttribute "has_input"))
  | some target =>
    if (world.graph.heap target).allInputs.isEmpty then do
      let _ ← circularFrom world.graph connection.1 fuel (world.graph.heap target).leadsToNodes
      match world.graph.getNode connection.1 with
      | none => some (world, none)
      | some source =>
        (world.addNodeConnection fuel target source .main defaultOutputHandle).map (·, none)
    else some (world, none)

def FlowInformation.knownConnections
    (data : List (NodeInformation P)) (order : List Int) (graph : FlowGraph P) :
    List (Int × Int) :=
  (order.flatMap fun nodeId => (((findNode data nodeId).map NodeInformation.outputs).getD []).map
    (nodeId, ·)).foldl (fun connections connection =>
      if (graph.getNode connection.2).isNone then connections.erase connection
      else connections) information.nodeConnections

/-- Open a file: rebuild its graph from nothing. -/
def openFlow : Option (Outcome P) := do
  let ⟨data, order⟩ ← determineInsertionOrder environment fuel information
  let (world, error) ← World.forEach (World.insertPromise environment fuel data) World.empty order
  if error.isSome then some (world, error)
  else do
    let (world, error) ← World.forEach (World.openNode environment fuel data) world order
    if error.isSome then some (world, error)
    else do
      let known := information.knownConnections data order world.graph
      let missing := (environment.pairOrder known).filter fun connection =>
        !world.graph.nodeConnections.contains connection
      let (world, error) ← World.forEach (World.addMissingConnection fuel) world missing
      if error.isSome then some (world, error)
      else some ({ world with graph := world.graph.restoreGroups information.groups }, none)

end

end Flowfile.Graph

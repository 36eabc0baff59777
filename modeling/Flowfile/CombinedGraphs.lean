import Flowfile.FlowFile
import Flowfile.Library.Dictionaries
import Flowfile.Library.Numbering
import Flowfile.Wiring

/-!
# Combining flow graphs

Several flow graphs are combined into a new one. Every node gets a new id, by flow and old id. A
promise and then the node's settings are added under the new id; the ids in the settings are mapped,
all other fields are copied. A type without adder keeps its promise. Then the pairs of connected
nodes are read off each graph, and each pair is connected through the port where the old target has
the old source, which is read from a set when there are several. The output handle is not passed on,
and neither are the groups.

A combined graph should be the disjoint union of the graphs. Which of their connections count is
said at the inputs of a node, in the order of the main inputs; the combined graph has to record them
at both ends.
-/

namespace Flowfile.CombinedGraphs

open Flowfile.Graph Library.Dictionaries Library.FiniteDag Library.Numbering

variable {Q : Type}

structure Settings (Q : Type) where
  nodeId : Int
  flowId : Int
  /-- Present for settings classes with several declared inputs. -/
  dependingOnIds : Option (List Int)
  fields : Q
deriving DecidableEq

structure Flow (Q : Type) where
  flowId : Int
  graph : FlowGraph (Settings Q)
  distinct : (graph.nodeDb.map NodeRef.nodeId).Nodup

/-- The installed node types. An adder may raise on the fields it is given, or on a promise.
A set of ports, each of them once, is read in some order. -/
structure Installation (Q : Type) extends Environment (Settings Q) where
  refusal : String → Option Q → Option FlowError
  portOrder : List InputPort → List InputPort
  portOrder_perm : ∀ ports, (portOrder ports).Perm ports
  hashOfIds : List Int → Int

inductive CombineError where
  | noFlowGraphs
  | duplicateFlowIds
  | raised (error : FlowError)

/-- Text of the exception. -/
def CombineError.message (sourceTypes : String) : CombineError → String
  | .noFlowGraphs => "At least one FlowGraph must be provided"
  | .duplicateFlowIds => "Cannot combine flows with duplicate flow IDs"
  | .raised error => error.message sourceTypes

abbrev IdMapping : Type := Dictionary (Int × Int) Int

structure Combined (Q : Type) where
  flowId : Int
  graph : FlowGraph (Settings Q)
  mapping : IdMapping

def validateInput (flows : List (Flow Q)) : Option CombineError :=
  if flows = [] then some .noFlowGraphs
  else if ¬ (flows.map Flow.flowId).Nodup then some .duplicateFlowIds
  else none

def generateUniqueFlowId (installation : Installation Q) (flows : List (Flow Q)) : Int :=
  (installation.hashOfIds (flows.map Flow.flowId)).natAbs % 1000000

def Flow.keys (flow : Flow Q) : List (Int × Int) :=
  flow.graph.nodeDb.map fun ref => (flow.flowId, ref.nodeId)

def nextAvailableNodeId (flows : List (Flow Q)) : Int :=
  (flows.flatMap fun flow => flow.graph.nodeDb.map NodeRef.nodeId).foldl max 0 + 1

/-- New ids for all nodes. -/
def createNodeIdMapping (flows : List (Flow Q)) : IdMapping :=
  Dictionary.empty.setAll (numbered (nextAvailableNodeId flows) (flows.flatMap Flow.keys))

/-- The new id of an input. A missing input stays missing, an unknown one becomes so. -/
def remapped (mapping : IdMapping) (sourceFlowId dependingOnId : Int) : Int :=
  if dependingOnId = -1 then -1 else (mapping.get (sourceFlowId, dependingOnId)).getD (-1)

def updatedSettingInput (setting : NodeSetting (Settings Q)) (newNodeId targetFlowId : Int)
    (sourceFlowId : Int) (mapping : IdMapping) : NodeSetting (Settings Q) :=
  { setting with
    payload := setting.payload.map fun settings =>
      { settings with
        nodeId := newNodeId
        flowId := targetFlowId
        dependingOnIds := settings.dependingOnIds.map fun dependingOnIds =>
          (dependingOnIds.filter (· ≠ -1)).map fun dependingOnId =>
            (mapping.get (sourceFlowId, dependingOnId)).getD (-1) }
    dependingOnId := setting.dependingOnId.map (remapped mapping sourceFlowId) }

def nodePromise (setting : NodeSetting (Settings Q)) : NodeSetting (Settings Q) where
  payload := none
  isSetup := true
  posX := setting.posX
  posY := setting.posY
  groupId := none
  description := setting.description
  nodeReference := none
  dependingOnId := none
  cacheResults := false
  isUserDefined := false

/-- Nodes whose key did not come before. -/
def unprocessed : List (Int × Int) → List (Flow Q × NodeRef) → List (Flow Q × NodeRef)
  | _, [] => []
  | processed, (flow, ref) :: rest =>
    if processed.contains (flow.flowId, ref.nodeId) then unprocessed processed rest
    else (flow, ref) :: unprocessed ((flow.flowId, ref.nodeId) :: processed) rest

section

def hasId (input : Option NodeRef) (nodeId : Int) : Bool :=
  input.any fun ref => ref.nodeId = nodeId

def inputPorts (node : FlowNode (Settings Q)) (nodeId : Int) : List InputPort :=
  (if ((node.mainInputs.getD []).map NodeRef.nodeId).contains nodeId then [.main] else []) ++
    (if hasId node.leftInput nodeId then [.left] else []) ++
    if hasId node.rightInput nodeId then [.right] else []

variable (installation : Installation Q)

/-- Ports of a node that have a source with an id. Without a list of main inputs, there is
nothing to run over. -/
def getInputType (node : FlowNode (Settings Q)) (nodeId : Int) :
    Except FlowError (List InputPort) :=
  if node.mainInputs.isNone then .error .noneIsNotIterable
  else .ok (installation.portOrder (inputPorts node nodeId))

def determineConnectionInputType (flow : Flow Q) (sourceId targetId : Int) :
    Except FlowError InputPort :=
  match flow.graph.getNode sourceId, flow.graph.getNode targetId with
  | some source, some target =>
    (getInputType installation (flow.graph.heap target) source.nodeId).map fun ports =>
      ports.head?.getD .main
  | _, _ => .ok .main

def inputClass : InputPort → Fin 10
  | .main => 0
  | .right => 1
  | .left => 2

def Flow.pairsRead (flow : Flow Q) : List (Int × Int) :=
  installation.pairOrder flow.graph.nodeConnections

end

section

variable [DecidableEq Q] (installation : Installation Q)

def addNodeToGraph (fuel : Nat) (world : World (Settings Q)) (nodeId : Int) (nodeType : String)
    (setting : NodeSetting (Settings Q)) : Option (Outcome (Settings Q)) := do
  let (world, error) ← world.addNodePromise installation.toEnvironment fuel nodeId nodeType
    (nodePromise setting)
  match error with
  | some error => some (world, some error)
  | none =>
    if (installation.adder nodeType).isNone then some (world, none)
    else
      match installation.refusal nodeType (setting.payload.map Settings.fields) with
      | some error => some (world, some error)
      | none => world.addSettings installation.toEnvironment fuel nodeId nodeType setting

variable (mapping : IdMapping) (targetFlowId : Int)

def copyNode (fuel : Nat) (world : World (Settings Q))
    (entry : Flow Q × NodeRef) : Option (Outcome (Settings Q)) :=
  match mapping.get (entry.1.flowId, entry.2.nodeId) with
  | none => some (world, some (.nodeDoesNotExist entry.2.nodeId))
  | some newNodeId =>
    let node := entry.1.graph.heap entry.2
    addNodeToGraph installation fuel world newNodeId node.nodeType
      (updatedSettingInput node.setting newNodeId targetFlowId entry.1.flowId mapping)

def addNodesToCombinedGraph (fuel : Nat)
    (flows : List (Flow Q)) (world : World (Settings Q)) : Option (Outcome (Settings Q)) :=
  World.forEach (copyNode installation mapping targetFlowId fuel) world
    (unprocessed [] (flows.flatMap fun flow => flow.graph.nodeDb.map (flow, ·)))

/-- Connect the copies of two nodes, if both have one. -/
def copyConnection (fuel : Nat) (world : World (Settings Q))
    (entry : Flow Q × Int × Int) : Option (Outcome (Settings Q)) :=
  match mapping.get (entry.1.flowId, entry.2.1), mapping.get (entry.1.flowId, entry.2.2) with
  | some newSourceId, some newTargetId =>
    match determineConnectionInputType installation entry.1 entry.2.1 entry.2.2 with
    | .error error => some (world, some error)
    | .ok port =>
      world.addConnection fuel newSourceId defaultOutputHandle newTargetId (inputClass port)
  | _, _ => some (world, none)

def addConnectionsToCombinedGraph (fuel : Nat) (flows : List (Flow Q))
    (world : World (Settings Q)) : Option (Outcome (Settings Q)) :=
  World.forEach (copyConnection installation mapping fuel) world
    (flows.flatMap fun flow => (flow.pairsRead installation).map (flow, ·))

def combineFlowGraphsWithMapping (fuel : Nat) (flows : List (Flow Q))
    (targetFlowId : Option Int) : Option (Except CombineError (Combined Q)) :=
  match validateInput flows with
  | some error => some (.error error)
  | none => do
    let targetFlowId := targetFlowId.getD (generateUniqueFlowId installation flows)
    let mapping := createNodeIdMapping flows
    let (world, error) ←
      addNodesToCombinedGraph installation mapping targetFlowId fuel flows World.empty
    match error with
    | some error => some (.error (.raised error))
    | none => do
      let (world, error) ← addConnectionsToCombinedGraph installation mapping fuel flows world
      match error with
      | some error => some (.error (.raised error))
      | none => some (.ok ⟨targetFlowId, world.graph, mapping⟩)

def Combines (flows : List (Flow Q)) (targetFlowId : Option Int) (combined : Combined Q) : Prop :=
  ∃ bound, ∀ fuel, bound ≤ fuel →
    combineFlowGraphsWithMapping installation fuel flows targetFlowId = some (.ok combined)

end

def Combined.image (combined : Combined Q) (flow : Flow Q) (nodeId : Int) : Option Int :=
  combined.mapping.get (flow.flowId, nodeId)

def withoutIds (setting : NodeSetting (Settings Q)) : NodeSetting (Settings Q) :=
  { setting with payload := none, dependingOnId := none }

/-- Settings of a copy: the ids are those of the copy, of the combined flow and of the copies of
the inputs, and everything else is as it was. -/
structure SettingCopied (combined : Combined Q) (flow : Flow Q) (newNodeId : Int)
    (setting copy : NodeSetting (Settings Q)) : Prop where
  dependingOnId : copy.dependingOnId =
    setting.dependingOnId.map (remapped combined.mapping flow.flowId)
  payload : copy.payload = setting.payload.map fun settings =>
    { settings with
      nodeId := newNodeId
      flowId := combined.flowId
      dependingOnIds := settings.dependingOnIds.map fun dependingOnIds =>
        (dependingOnIds.filter (· ≠ -1)).map (remapped combined.mapping flow.flowId) }
  others : withoutIds copy = withoutIds setting

/-- The copy of a node has its type, its settings and its inputs, port by port, main inputs in
their order, each through the same output handle of its source. -/
structure NodeCopied (combined : Combined Q) (flow : Flow Q) (ref copy : NodeRef) : Prop where
  image : combined.image flow ref.nodeId = some copy.nodeId
  nodeType : (combined.graph.heap copy).nodeType = (flow.graph.heap ref).nodeType
  setting : SettingCopied combined flow copy.nodeId (flow.graph.heap ref).setting
    (combined.graph.heap copy).setting
  mainInputs : ((combined.graph.heap copy).mainInputs.getD []).map NodeRef.nodeId =
    ((flow.graph.heap ref).mainInputs.getD []).filterMap fun input =>
      combined.image flow input.nodeId
  leftInput : (combined.graph.heap copy).leftInput.map NodeRef.nodeId =
    (flow.graph.heap ref).leftInput.bind fun input => combined.image flow input.nodeId
  rightInput : (combined.graph.heap copy).rightInput.map NodeRef.nodeId =
    (flow.graph.heap ref).rightInput.bind fun input => combined.image flow input.nodeId
  outputHandles : ∀ input ∈ (flow.graph.heap ref).allInputs, ∀ newId,
    combined.image flow input.nodeId = some newId →
    ((combined.graph.heap copy).inputOutputHandles newId).getD defaultOutputHandle =
      ((flow.graph.heap ref).inputOutputHandles input.nodeId).getD defaultOutputHandle

/-- The combined graph is the disjoint union of the graphs: ids are mapped one to one, its nodes
are the copies of their nodes, its connections are recorded at both ends, and every group id names
a group. -/
structure IsDisjointUnion (flows : List (Flow Q)) (combined : Combined Q) : Prop where
  injective : ∀ first second newId, combined.mapping.get first = some newId →
    combined.mapping.get second = some newId → first = second
  nodes : ∀ flow ∈ flows, ∀ ref ∈ flow.graph.nodeDb, ∃ copy ∈ combined.graph.nodeDb,
    NodeCopied combined flow ref copy
  nothingElse : ∀ copy ∈ combined.graph.nodeDb, ∃ flow ∈ flows, ∃ ref ∈ flow.graph.nodeDb,
    combined.image flow ref.nodeId = some copy.nodeId
  bothEnds : Balanced combined.graph
  groups : ∀ copy ∈ combined.graph.nodeDb, ∀ groupId,
    (combined.graph.heap copy).setting.groupId = some groupId →
    (combined.graph.getGroup groupId).isSome

namespace Flow

variable (installation : Installation Q) (flow : Flow Q)

def knows (nodeId : Int) : Bool := (flow.graph.getNode nodeId).isSome

variable (ref : NodeRef)

def mainInputIds : List Int :=
  (((flow.graph.heap ref).mainInputs.getD []).map NodeRef.nodeId).filter flow.knows

def inputIds : List Int :=
  ((flow.graph.heap ref).allInputs.map NodeRef.nodeId).filter flow.knows

def sourcesRead : List Int :=
  (pairsRead installation flow).filterMap fun pair =>
    if pair.2 = ref.nodeId ∧ flow.knows pair.1 = true then some pair.1 else none

def feeds (sourceId targetId : Int) : Prop :=
  ∃ ref ∈ flow.graph.nodeDb, ref.nodeId = targetId ∧ sourceId ∈ flow.inputIds ref

end Flow

/-- What it takes for a node to be copied as it is. -/
structure Copyable (installation : Installation Q) (flow : Flow Q) (ref : NodeRef) : Prop where
  /-- The node is in no group. -/
  ungrouped : (flow.graph.heap ref).setting.groupId = none
  /-- The type is installed, and its adder accepts the settings; without adder, there are no
  settings beyond those of a promise. -/
  configurable : (installation.adder (flow.graph.heap ref).nodeType).isSome ∧
        installation.refusal (flow.graph.heap ref).nodeType
          ((flow.graph.heap ref).setting.payload.map Settings.fields) = none ∨
      installation.adder (flow.graph.heap ref).nodeType = none ∧
        (flow.graph.heap ref).setting = nodePromise (flow.graph.heap ref).setting
  /-- The template has room for the inputs: for any at all, and for the main inputs. -/
  room : ∃ nodeTemplate, installation.template (flow.graph.heap ref).nodeType = some nodeTemplate ∧
    (flow.inputIds ref ≠ [] → nodeTemplate.input ≠ 0) ∧
    (nodeTemplate.input ≤ 2 → (flow.mainInputIds ref).length ≤ 1)
  /-- Where there are inputs, there is a list of main inputs. -/
  listed : flow.inputIds ref ≠ [] → (flow.graph.heap ref).mainInputs.isSome
  /-- No source is connected twice. -/
  single : (flow.inputIds ref).Nodup
  /-- No node lists this one as successor without being its input. -/
  fed : ∀ source ∈ flow.graph.nodeDb, ref.nodeId ∈
    (flow.graph.heap source).leadsToNodes.map NodeRef.nodeId → source.nodeId ∈ flow.inputIds ref
  /-- Main inputs have the order in which the pairs are read. -/
  ordered : flow.mainInputIds ref =
    (flow.sourcesRead installation ref).filter fun nodeId => nodeId ∈ flow.mainInputIds ref
  /-- Every input uses the default output. -/
  defaultOutputs : ∀ input ∈ (flow.graph.heap ref).allInputs, flow.knows input.nodeId = true →
    ((flow.graph.heap ref).inputOutputHandles input.nodeId).getD defaultOutputHandle =
      defaultOutputHandle
  /-- Settings that name one input name the last main input. -/
  current : (flow.graph.heap ref).setting.isSetup = true → ∀ dependingOnId lastId,
    (flow.graph.heap ref).setting.dependingOnId = some dependingOnId →
    (flow.mainInputIds ref).getLast? = some lastId → dependingOnId = lastId ∧ lastId ≠ -1

/-- What it takes for a flow graph to be copied as it is: no cycle, and nothing at any node that
is lost. -/
structure Combinable (installation : Installation Q) (flow : Flow Q) : Prop where
  acyclic : Acyclic flow.feeds
  copyable : ∀ ref ∈ flow.graph.nodeDb, Copyable installation flow ref

end Flowfile.CombinedGraphs

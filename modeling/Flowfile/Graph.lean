import Mathlib.Data.List.Basic
import Mathlib.Data.Rat.Defs

/-!
# The flow graph: node objects, their connections and their hashes

A flow graph is a heap of node objects. The node table maps ids to objects in the order of
insertion; a deleted object leaves the table but stays in the heap, where others may refer to it. A
reference carries the id of its object and a serial number that tells apart objects of one id.

Every connection is stored twice, in the inputs of its target and in the successors of its source.
Nothing ties the two together here; whether the editing operations do is a theorem about them.

Hashes are kept symbolic, as the terms they are computed from. A reset compares the cached hash of a
node with a fresh one and, when they differ, clears it, resets the successors and hashes again.
Hashing follows inputs and resetting successors; both carry fuel, and `none` is a walk that did not
end within it.
-/

namespace Flowfile.Graph

/-- A reference to a node object. -/
structure NodeRef where
  nodeId : Int
  serial : Nat
deriving DecidableEq

/-- What a node type prescribes about connections. -/
structure NodeTemplate where
  input : Nat
  multi : Bool
  canBeStart : Bool

/-- Settings of a node. The payload stands for the fields of the settings class; it
is missing in a promise, which only reserves the place of a node. -/
structure NodeSetting (P : Type) where
  payload : Option P
  isSetup : Bool
  posX : ℚ
  posY : ℚ
  groupId : Option Int
  description : String
  nodeReference : Option String
  /-- Present for settings classes with a single declared input. -/
  dependingOnId : Option Int
  cacheResults : Bool
  isUserDefined : Bool
deriving DecidableEq

structure FlowNode (P : Type) where
  nodeType : String
  nodeTemplate : NodeTemplate
  setting : NodeSetting P
  mainInputs : Option (List NodeRef)
  leftInput : Option NodeRef
  rightInput : Option NodeRef
  leadsToNodes : List NodeRef
  /-- Output handle of the source, by the source's id. -/
  inputOutputHandles : Int → Option String

/-- A visual group of nodes. -/
structure GroupInformation where
  id : Int
  name : String
  color : Option String
  xPosition : ℚ
  yPosition : ℚ
  width : ℚ
  height : ℚ
  collapsed : Bool
  parentGroupId : Option Int
deriving DecidableEq

structure FlowGraph (P : Type) where
  nodeDb : List NodeRef
  heap : NodeRef → FlowNode P
  nextSerial : Nat
  flowStarts : List NodeRef
  groups : List GroupInformation
  groupIdSeq : Int

variable {P : Type}

def FlowNode.allInputs (node : FlowNode P) : List NodeRef :=
  node.mainInputs.getD [] ++ node.leftInput.toList ++ node.rightInput.toList

def FlowNode.isStart (node : FlowNode P) : Bool :=
  node.allInputs.isEmpty && node.nodeTemplate.input == 0

/-- Whether connections satisfy the template. A promise never does. -/
def FlowNode.isCorrect (node : FlowNode P) : Bool :=
  node.setting.payload.isSome &&
    (node.nodeTemplate.input == node.allInputs.length ||
      (node.nodeTemplate.multi && !node.allInputs.isEmpty) ||
      (node.nodeTemplate.multi && node.nodeTemplate.canBeStart))

def FlowGraph.getNode (graph : FlowGraph P) (nodeId : Int) : Option NodeRef :=
  graph.nodeDb.find? fun ref => ref.nodeId = nodeId

def FlowGraph.modifyNode (graph : FlowGraph P) (ref : NodeRef)
    (change : FlowNode P → FlowNode P) : FlowGraph P :=
  { graph with heap := Function.update graph.heap ref (change (graph.heap ref)) }

variable (graph : FlowGraph P) (ref : NodeRef) (change : FlowNode P → FlowNode P)

@[simp] theorem modifyNode_heap_self :
    (graph.modifyNode ref change).heap ref = change (graph.heap ref) := by
  simp [FlowGraph.modifyNode]

/-- Every other object. -/
@[simp] theorem modifyNode_heap_of_ne (other : NodeRef)
    (change : FlowNode P → FlowNode P) (different : other ≠ ref) :
    (graph.modifyNode ref change).heap other = graph.heap other := by
  simp [FlowGraph.modifyNode, different]

/-- The node table is not touched. -/
@[simp] theorem modifyNode_nodeDb : (graph.modifyNode ref change).nodeDb = graph.nodeDb := rfl

/-- A hash, as the term it was computed from: the hashes of the inputs in order and
the digest of the settings at the end. -/
inductive NodeHash (P : Type) where
  | settings (digest : NodeSetting P)
  | input (hash rest : NodeHash P)
deriving DecidableEq

def getHash (inputs : List (NodeHash P)) (digest : NodeSetting P) : NodeHash P :=
  inputs.foldr NodeHash.input (NodeHash.settings digest)

/-- The settings as they enter the hash: without position and description. -/
def NodeSetting.digest (setting : NodeSetting P) : NodeSetting P :=
  { setting with posX := 0, posY := 0, description := "" }

/-- Cached hashes of all objects. -/
abbrev Hashes (P : Type) : Type := NodeRef → Option (NodeHash P)

/-- Hashes of several nodes, one after another. -/
def collectHashes (hashOf : Hashes P → NodeRef → Option (NodeHash P × Hashes P)) :
    List NodeRef → Hashes P → Option (List (NodeHash P) × Hashes P)
  | [], hashes => some ([], hashes)
  | ref :: rest, hashes => do
    let (hash, hashes) ← hashOf hashes ref
    let (others, hashes) ← collectHashes hashOf rest hashes
    some (hash :: others, hashes)

def nodeHash (graph : FlowGraph P) : Nat → Hashes P → NodeRef → Option (NodeHash P × Hashes P)
  | 0, _, _ => none
  | fuel + 1, hashes, ref =>
    match hashes ref with
    | some hash => some (hash, hashes)
    | none => do
      let (inputs, hashes) ← collectHashes (nodeHash graph fuel) (graph.heap ref).allInputs hashes
      let hash := getHash inputs (graph.heap ref).setting.digest
      some (hash, Function.update hashes ref (some hash))

/-- The hash that a node's present settings and inputs give. -/
def calculateHash (graph : FlowGraph P) (fuel : Nat) (hashes : Hashes P) (ref : NodeRef) :
    Option (NodeHash P × Hashes P) := do
  let (inputs, hashes) ← collectHashes (nodeHash graph fuel) (graph.heap ref).allInputs hashes
  some (getHash inputs (graph.heap ref).setting.digest, hashes)

def reset [DecidableEq P] (graph : FlowGraph P) : Nat → Hashes P → NodeRef → Option (Hashes P)
  | 0, _, _ => none
  | fuel + 1, hashes, ref => do
    let (current, calculated) ← calculateHash graph fuel hashes ref
    if hashes ref = some current then some calculated
    else do
      let cleared := Function.update calculated ref none
      let evaluated ← (graph.heap ref).leadsToNodes.foldlM (reset graph fuel) cleared
      let (_, hashed) ← nodeHash graph fuel evaluated ref
      some hashed

end Flowfile.Graph

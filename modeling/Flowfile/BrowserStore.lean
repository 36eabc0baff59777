import Flowfile.Library.Dictionaries
import Flowfile.Library.EventRuns
import Flowfile.Library.WrittenNumbers

/-!
# The flow store of the browser

The store holds each connection twice: as an edge, and in the input fields of the node it leads to.
What is saved are the nodes alone, and loading draws the edges anew from their inputs. Edges are
removed by their id, inputs by their source.

Edges, inputs and what is saved stay in step exactly when every edge that is added is one that
loading would draw, between nodes that exist and to a right input that is free, and no edge is
removed whose source has another edge to the same node.

Node ids are numbers, and the ends of an edge are these numbers in decimal; they are kept here as
the numbers.
-/

namespace Flowfile.BrowserStore

open Library.Dictionaries Library.EventRuns Library.WrittenNumbers List
open Dictionary (get_set get_mapValues get_erase get_modify mapValues mem_entries_iff)

structure FlowNode where
  id : Nat
  type : String
  inputIds : List Nat
  leftInputId : Option Nat
  rightInputId : Option Nat

structure FlowEdge where
  id : String
  source : Nat
  target : Nat
  sourceHandle : String
  targetHandle : String
deriving DecidableEq

structure FlowStore where
  nodes : Dictionary Nat FlowNode
  edges : List FlowEdge
  nodeIdCounter : Nat

def FlowStore.empty : FlowStore := ⟨.empty, [], 0⟩

def FlowNode.connect (source : Nat) (targetHandle : String) (node : FlowNode) : FlowNode :=
  if targetHandle = "input-0" ∨ targetHandle = "" then
    { node with
      inputIds := if source ∈ node.inputIds then node.inputIds else node.inputIds ++ [source]
      leftInputId := some source }
  else if targetHandle = "input-1" then
    { node with rightInputId := some source }
  else node

/-- Remove a source from the inputs of the node, whatever the handle. -/
def FlowNode.disconnect (source : Nat) (node : FlowNode) : FlowNode :=
  { node with
    inputIds := node.inputIds.filter fun inputId => inputId ≠ source
    leftInputId := if node.leftInputId = some source then none else node.leftInputId
    rightInputId := if node.rightInputId = some source then none else node.rightInputId }

open FlowNode (disconnect connect)

/-- What edges are compared by. -/
def FlowEdge.ends (edge : FlowEdge) : Nat × Nat × String × String :=
  (edge.source, edge.target, edge.sourceHandle, edge.targetHandle)

open FlowEdge (ends)

namespace FlowStore

variable (store : FlowStore)

def addNode (type : String) : FlowStore :=
  let id := store.nodeIdCounter + 1
  { store with
    nodes := store.nodes.set id ⟨id, type, [], none, none⟩
    nodeIdCounter := id }

def removeNode (id : Nat) : FlowStore :=
  { store with
    edges := store.edges.filter fun edge => edge.source ≠ id ∧ edge.target ≠ id
    nodes := (store.nodes.erase id).mapValues (disconnect id) }

def addEdge (edge : FlowEdge) : FlowStore :=
  if edge.ends ∈ store.edges.map ends then store
  else { store with
    edges := store.edges ++ [edge]
    nodes := store.nodes.modify edge.target (connect edge.source edge.targetHandle) }

def removeEdge (edgeId : String) : FlowStore :=
  match store.edges.find? fun edge => edge.id = edgeId with
  | some edge =>
    { store with
      edges := store.edges.filter fun other => other.id ≠ edgeId
      nodes := store.nodes.modify edge.target (disconnect edge.source) }
  | none => store

end FlowStore

structure FlowfileNode where
  id : Nat
  type : String
  isStartNode : Bool
  leftInputId : Option Nat
  rightInputId : Option Nat
  inputIds : List Nat
  outputs : List Nat

structure Connection where
  fromNode : Nat
  toNode : Nat
  fromHandle : String
  toHandle : String

/-- What is kept of a flow in the storage of the session. -/
structure SavedState where
  nodes : List FlowfileNode
  connections : List Connection
  nodeIdCounter : Option Nat

def isAbsent (inputId : Option Nat) : Bool :=
  inputId.getD 0 = 0

def saveToStorage (store : FlowStore) : SavedState where
  nodes := store.nodes.entries.map fun entry =>
    { id := entry.2.id
      type := entry.2.type
      isStartNode := entry.2.inputIds.isEmpty && isAbsent entry.2.leftInputId &&
        isAbsent entry.2.rightInputId
      leftInputId := none
      rightInputId := entry.2.rightInputId
      inputIds := entry.2.inputIds
      outputs := (store.edges.filter fun edge => edge.source = entry.1).map FlowEdge.target }
  connections := []
  nodeIdCounter := some store.nodeIdCounter

def drawEdge (target : Nat) (targetHandle : String) (source : Nat) : FlowEdge where
  id := "e" ++ (toString source ++ "-" ++ (toString target ++ "-" ++ ("output-0-" ++ targetHandle)))
  source := source
  target := target
  sourceHandle := "output-0"
  targetHandle := targetHandle

def deriveEdgesFromNodes (nodes : List FlowfileNode) : List FlowEdge :=
  nodes.flatMap fun node =>
    node.rightInputId.toList.map (drawEdge node.id "input-1") ++
      (node.inputIds.map (drawEdge node.id "input-0") ++
        (node.leftInputId.toList.filter fun source => source ∉ node.inputIds).map
          (drawEdge node.id "input-0"))

/-- Types of nodes that have been renamed. -/
def currentType (type : String) : String :=
  if type = "read_csv" then "read"
  else if type = "preview" then "explore_data"
  else if type = "rename" then "dynamic_rename"
  else type

def Connection.edge (connection : Connection) : FlowEdge where
  id := "e" ++ (toString connection.fromNode ++ "-" ++ (toString connection.toNode ++ "-" ++
    (connection.fromHandle ++ "-" ++ connection.toHandle)))
  source := connection.fromNode
  target := connection.toNode
  sourceHandle := connection.fromHandle
  targetHandle := connection.toHandle

def loadFromStorage (saved : SavedState) : FlowStore where
  nodes := Dictionary.empty.setAll (saved.nodes.map fun node =>
    (node.id, ⟨node.id, currentType node.type, node.inputIds, node.leftInputId, node.rightInputId⟩))
  edges :=
    if saved.connections.isEmpty then deriveEdgesFromNodes saved.nodes
    else saved.connections.map Connection.edge
  nodeIdCounter := saved.nodeIdCounter.getD ((saved.nodes.map FlowfileNode.id).foldl max 0)

inductive Action where
  | addNode (type : String)
  | addEdge (edge : FlowEdge)
  | removeEdge (edgeId : String)
  | removeNode (id : Nat)

namespace FlowStore

variable (store : FlowStore)

def step : Action → FlowStore
  | .addNode type => store.addNode type
  | .addEdge edge => store.addEdge edge
  | .removeEdge edgeId => store.removeEdge edgeId
  | .removeNode id => store.removeNode id

def Feeds (source target : Nat) (targetHandle : String) : Prop :=
  ∃ edge ∈ store.edges,
    edge.source = source ∧ edge.target = target ∧ edge.targetHandle = targetHandle

def Has (id : Nat) : Prop :=
  (store.nodes.get id).isSome

def inputs (id : Nat) : Option (List Nat × Option Nat) :=
  (store.nodes.get id).map fun node => (node.inputIds, node.rightInputId)

/-- Edges and inputs name the same connections between existing nodes, and are the same again
after they were saved and loaded. A node with several inputs names the last of them as the left
one. -/
structure InStep : Prop where
  inputs : ∀ id node, store.nodes.get id = some node → ∀ source,
    source ∈ node.inputIds ↔ store.Feeds source id "input-0"
  left : ∀ id node, store.nodes.get id = some node → ∀ source,
    node.leftInputId = some source → store.Feeds source id "input-0"
  right : ∀ id node, store.nodes.get id = some node → ∀ source,
    node.rightInputId = some source ↔ store.Feeds source id "input-1"
  edgesExist : ∀ edge ∈ store.edges, store.Has edge.source ∧ store.Has edge.target
  inputsExist : ∀ id node, store.nodes.get id = some node → ∀ source,
    source ∈ node.inputIds ∨ node.leftInputId = some source ∨ node.rightInputId = some source →
      store.Has source
  savedEdges : (loadFromStorage (saveToStorage store)).edges.Perm store.edges
  savedInputs : (loadFromStorage (saveToStorage store)).inputs = store.inputs

end FlowStore

def FlowEdge.Drawn (edge : FlowEdge) : Prop :=
  (edge.targetHandle = "input-0" ∨ edge.targetHandle = "input-1") ∧
    edge = drawEdge edge.target edge.targetHandle edge.source

/-- An edge that is added is one that loading draws, between existing nodes, and to a right input
that is free; the source of an edge that is removed has no other edge to the same node. -/
def FlowStore.Keeps (store : FlowStore) : Action → Prop
  | .addNode _ => True
  | .addEdge edge => edge.ends ∈ store.edges.map ends ∨
      edge.Drawn ∧ store.Has edge.source ∧ store.Has edge.target ∧
        (edge.targetHandle = "input-1" → ∀ source, ¬store.Feeds source edge.target "input-1")
  | .removeEdge edgeId => ∀ edge ∈ store.edges, edge.id = edgeId → ∀ other ∈ store.edges,
      other.source = edge.source → other.target = edge.target → other = edge
  | .removeNode _ => True

theorem FlowEdge.Drawn.eq_of_feeds {edge other : FlowEdge} (drawn : edge.Drawn)
    (otherDrawn : other.Drawn) (source : edge.source = other.source)
    (target : edge.target = other.target) (handle : edge.targetHandle = other.targetHandle) :
    edge = other := by
  rw [drawn.2, otherDrawn.2, source, target, handle]

/-- Drawn edges are told apart by their ids. -/
theorem FlowEdge.Drawn.eq_of_id {edge other : FlowEdge} (drawn : edge.Drawn)
    (otherDrawn : other.Drawn) (same : edge.id = other.id) : edge = other := by
  rw [drawn.2, otherDrawn.2, drawEdge, drawEdge] at same
  obtain ⟨source, rest⟩ := written_inj (show Char.isDigit '-' = false from rfl)
    ((String.append_right_inj _).mp same)
  obtain ⟨target, handle⟩ := written_inj (show Char.isDigit '-' = false from rfl) rest
  exact drawn.eq_of_feeds otherDrawn source target ((String.append_right_inj _).mp handle)

variable {targetHandle : String}

theorem drawn_drawEdge (target source : Nat)
    (known : targetHandle = "input-0" ∨ targetHandle = "input-1") :
    (drawEdge target targetHandle source).Drawn :=
  ⟨known, rfl⟩

theorem FlowNode.nodup_connect {node : FlowNode} (distinct : node.inputIds.Nodup) (source : Nat)
    (targetHandle : String) : (node.connect source targetHandle).inputIds.Nodup := by
  rw [connect]
  split
  · dsimp only
    split
    · exact distinct
    · rename_i absent
      exact nodup_append.mpr ⟨distinct, nodup_singleton _, by
        rintro first mem second last rfl
        exact absent (mem_singleton.mp last ▸ mem)⟩
  · split <;> exact distinct

variable (node : FlowNode)

theorem FlowNode.id_connect (source : Nat) (targetHandle : String) :
    (node.connect source targetHandle).id = node.id := by
  rw [connect]
  split
  · rfl
  · split <;> rfl

theorem FlowNode.mem_inputIds_disconnect (source other : Nat) :
    other ∈ (node.disconnect source).inputIds ↔ other ∈ node.inputIds ∧ other ≠ source := by
  simp [disconnect]

theorem FlowNode.rightInputId_disconnect (source other : Nat) :
    (node.disconnect source).rightInputId = some other ↔
      node.rightInputId = some other ∧ other ≠ source := by
  rw [disconnect]
  dsimp only
  split
  case isTrue same =>
    rw [same, Option.some.injEq]
    exact iff_of_false (by simp) fun both => both.2 both.1.symm
  case isFalse apart =>
    exact (and_iff_left_of_imp fun right (equal : other = source) =>
      apart (equal ▸ right)).symm

theorem FlowNode.leftInputId_disconnect (source other : Nat)
    (left : (node.disconnect source).leftInputId = some other) :
    node.leftInputId = some other ∧ other ≠ source := by
  rw [disconnect] at left
  dsimp only at left
  split at left
  case isTrue => cases left
  case isFalse apart => exact ⟨left, fun (equal : other = source) => apart (equal ▸ left)⟩

theorem FlowNode.mem_inputIds_connect (source other : Nat) :
    other ∈ (node.connect source "input-0").inputIds ↔ other ∈ node.inputIds ∨ other = source := by
  rw [connect, if_pos (.inl rfl)]
  dsimp only
  split
  case isTrue present =>
    exact (or_iff_left_of_imp fun (equal : other = source) => equal ▸ present).symm
  case isFalse => rw [mem_append, mem_singleton]

theorem FlowNode.connect_left (source : Nat) :
    (node.connect source "input-0").leftInputId = some source ∧
      (node.connect source "input-0").rightInputId = node.rightInputId := by
  rw [connect, if_pos (.inl rfl)]
  exact ⟨rfl, rfl⟩

theorem FlowNode.connect_right (source : Nat) :
    node.connect source "input-1" = { node with rightInputId := some source } := by
  rw [connect, if_neg (by decide), if_pos rfl]

namespace FlowStore

variable {store : FlowStore}

/-- Nodes are kept under their ids, which the counter has passed, and neither inputs nor edges
repeat. -/
structure Tidy (store : FlowStore) : Prop where
  keyed : ∀ id node, store.nodes.get id = some node → node.id = id
  counted : ∀ id, store.Has id → id ≤ store.nodeIdCounter
  distinctInputs : ∀ id node, store.nodes.get id = some node → node.inputIds.Nodup
  distinctEdges : (store.edges.map ends).Nodup

theorem tidy_empty : empty.Tidy where
  keyed _ _ found := by cases found
  counted _ found := by cases found
  distinctInputs _ _ found := by cases found
  distinctEdges := nodup_nil

@[simp] theorem has_addNode (type : String) (id : Nat) :
    (store.addNode type).Has id ↔ store.Has id ∨ id = store.nodeIdCounter + 1 := by
  rw [Has, addNode, get_set, Has]
  split
  case isTrue same => simp [same]
  case isFalse apart => simp [apart]

@[simp] theorem has_removeNode (id other : Nat) :
    (store.removeNode id).Has other ↔ store.Has other ∧ other ≠ id := by
  rw [Has, removeNode, get_mapValues, get_erase, Has]
  by_cases same : other = id <;> simp [same]

theorem has_modify (nodes : Dictionary Nat FlowNode) (target : Nat) (change : FlowNode → FlowNode)
    (id : Nat) : ((nodes.modify target change).get id).isSome = (nodes.get id).isSome := by
  rw [get_modify]
  split <;> simp

@[simp] theorem has_addEdge (edge : FlowEdge) (id : Nat) :
    (store.addEdge edge).Has id ↔ store.Has id := by
  rw [Has, addEdge]
  split
  · rfl
  · rw [has_modify, Has]

@[simp] theorem has_removeEdge (edgeId : String) (id : Nat) :
    (store.removeEdge edgeId).Has id ↔ store.Has id := by
  rw [Has, removeEdge]
  split
  · rw [has_modify, Has]
  · rfl

section

variable (tidy : store.Tidy)
include tidy

theorem Tidy.addNode (type : String) : (store.addNode type).Tidy where
  keyed id node found := by
    rw [FlowStore.addNode, get_set] at found
    split at found
    case isTrue same =>
      cases found
      exact same.symm
    case isFalse => exact tidy.keyed id node found
  counted id found := by
    rw [has_addNode] at found
    rcases found with old | rfl
    · exact Nat.le_succ_of_le (tidy.counted id old)
    · exact Nat.le_refl _
  distinctInputs id node found := by
    rw [FlowStore.addNode, get_set] at found
    split at found
    case isTrue =>
      cases found
      exact nodup_nil
    case isFalse => exact tidy.distinctInputs id node found
  distinctEdges := tidy.distinctEdges

theorem Tidy.removeNode (id : Nat) : (store.removeNode id).Tidy where
  keyed other node found := by
    rw [FlowStore.removeNode, get_mapValues, Option.map_eq_some_iff] at found
    obtain ⟨before, found, rfl⟩ := found
    rw [get_erase] at found
    split at found
    · cases found
    · exact tidy.keyed other before found
  counted other found := tidy.counted other ((has_removeNode id other).mp found).1
  distinctInputs other node found := by
    rw [FlowStore.removeNode, get_mapValues, Option.map_eq_some_iff] at found
    obtain ⟨before, found, rfl⟩ := found
    rw [get_erase] at found
    split at found
    · cases found
    · exact (tidy.distinctInputs other before found).filter _
  distinctEdges := tidy.distinctEdges.sublist (filter_sublist.map _)

theorem Tidy.modify (target : Nat) {change : FlowNode → FlowNode}
    (keepsId : ∀ node, (change node).id = node.id)
    (keepsInputs : ∀ node, node.inputIds.Nodup → (change node).inputIds.Nodup)
    {edges : List FlowEdge} (distinctEdges : (edges.map ends).Nodup) :
    Tidy { store with edges := edges, nodes := store.nodes.modify target change } where
  keyed id node found := by
    rw [get_modify] at found
    split at found
    · obtain ⟨before, stored, rfl⟩ := Option.map_eq_some_iff.mp found
      exact (keepsId before).trans (tidy.keyed id before stored)
    · exact tidy.keyed id node found
  counted id found := by
    rw [Has, has_modify] at found
    exact tidy.counted id found
  distinctInputs id node found := by
    rw [get_modify] at found
    split at found
    · obtain ⟨before, stored, rfl⟩ := Option.map_eq_some_iff.mp found
      exact keepsInputs before (tidy.distinctInputs id before stored)
    · exact tidy.distinctInputs id node found
  distinctEdges := distinctEdges

theorem Tidy.addEdge (edge : FlowEdge) : (store.addEdge edge).Tidy := by
  rw [FlowStore.addEdge]
  split
  case isTrue => exact tidy
  case isFalse fresh =>
    refine tidy.modify edge.target (fun node => node.id_connect _ _)
      (fun node distinct => FlowNode.nodup_connect distinct _ _) ?_
    rw [map_append, nodup_append]
    refine ⟨tidy.distinctEdges, nodup_singleton _, ?_⟩
    rintro first mem second last rfl
    exact fresh (mem_singleton.mp last ▸ mem)

theorem Tidy.removeEdge (edgeId : String) : (store.removeEdge edgeId).Tidy := by
  rw [FlowStore.removeEdge]
  split
  case h_2 => exact tidy
  case h_1 edge _ =>
    have keepsId : ∀ node : FlowNode, (node.disconnect edge.source).id = node.id := fun _ => rfl
    exact tidy.modify edge.target keepsId (fun _ distinct => distinct.filter _)
      (tidy.distinctEdges.sublist (filter_sublist.map _))

theorem Tidy.step (action : Action) : (store.step action).Tidy := by
  cases action with
  | addNode type => exact tidy.addNode type
  | addEdge edge => exact tidy.addEdge edge
  | removeEdge edgeId => exact tidy.removeEdge edgeId
  | removeNode id => exact tidy.removeNode id

end

/-- The input fields agree with the edges, which lead from and to existing nodes and are such as
loading draws. -/
structure Wired (store : FlowStore) : Prop where
  inputs : ∀ id node, store.nodes.get id = some node → ∀ source,
    source ∈ node.inputIds ↔ store.Feeds source id "input-0"
  left : ∀ id node, store.nodes.get id = some node → ∀ source,
    node.leftInputId = some source → store.Feeds source id "input-0"
  right : ∀ id node, store.nodes.get id = some node → ∀ source,
    node.rightInputId = some source ↔ store.Feeds source id "input-1"
  edgesExist : ∀ edge ∈ store.edges, store.Has edge.source ∧ store.Has edge.target
  drawn : ∀ edge ∈ store.edges, edge.Drawn

/-- A node as it is loaded again. -/
def reloaded (node : FlowNode) : FlowNode :=
  { node with
    type := currentType node.type
    leftInputId := none }

theorem get_loaded (tidy : store.Tidy) (id : Nat) :
    (loadFromStorage (saveToStorage store)).nodes.get id = (store.nodes.get id).map reloaded := by
  have entries : ((saveToStorage store).nodes.map fun node => (node.id, (⟨node.id,
      currentType node.type, node.inputIds, node.leftInputId, node.rightInputId⟩ : FlowNode))) =
      (store.nodes.mapValues reloaded).entries := by
    rw [saveToStorage, map_map, mapValues]
    apply map_congr_left
    rintro ⟨key, node⟩ mem
    rw [← tidy.keyed key node (mem_entries_iff.mp mem)]
    rfl
  rw [loadFromStorage]
  dsimp only
  rw [entries, Dictionary.get_setAll_entries, get_mapValues]

theorem edges_loaded (store : FlowStore) :
    (loadFromStorage (saveToStorage store)).edges = store.nodes.entries.flatMap fun entry =>
      entry.2.rightInputId.toList.map (drawEdge entry.2.id "input-1") ++
        entry.2.inputIds.map (drawEdge entry.2.id "input-0") := by
  rw [loadFromStorage, saveToStorage]
  dsimp only
  rw [isEmpty_nil, if_pos rfl, deriveEdgesFromNodes, flatMap_map]
  simp only [Option.toList_none, filter_nil, map_nil, append_nil]

theorem mem_edges_loaded (tidy : store.Tidy) (edge : FlowEdge) :
    edge ∈ (loadFromStorage (saveToStorage store)).edges ↔
      ∃ id node, store.nodes.get id = some node ∧ ∃ source,
        node.rightInputId = some source ∧ edge = drawEdge id "input-1" source ∨
          source ∈ node.inputIds ∧ edge = drawEdge id "input-0" source := by
  rw [edges_loaded, mem_flatMap]
  constructor
  · rintro ⟨⟨id, node⟩, mem, drawn⟩
    have found := mem_entries_iff.mp mem
    dsimp only at drawn
    rw [tidy.keyed id node found, mem_append, mem_map, mem_map] at drawn
    refine ⟨id, node, found, ?_⟩
    rcases drawn with ⟨source, right, rfl⟩ | ⟨source, input, rfl⟩
    · exact ⟨source, .inl ⟨Option.mem_toList.mp right, rfl⟩⟩
    · exact ⟨source, .inr ⟨input, rfl⟩⟩
  · rintro ⟨id, node, found, source, drawn⟩
    refine ⟨(id, node), mem_entries_iff.mpr found, ?_⟩
    dsimp only
    rw [tidy.keyed id node found, mem_append, mem_map, mem_map]
    rcases drawn with ⟨right, rfl⟩ | ⟨input, rfl⟩
    · exact .inl ⟨source, Option.mem_toList.mpr right, rfl⟩
    · exact .inr ⟨source, input, rfl⟩

theorem drawEdge_injective (target : Nat) (targetHandle : String) :
    Function.Injective (drawEdge target targetHandle) := fun _ _ same =>
  congrArg FlowEdge.source same

/-- Loading draws no edge twice. -/
theorem nodup_edges_loaded (tidy : store.Tidy) :
    (loadFromStorage (saveToStorage store)).edges.Nodup := by
  rw [edges_loaded, nodup_flatMap]
  constructor
  · rintro ⟨id, node⟩ mem
    have found := mem_entries_iff.mp mem
    rw [nodup_append]
    refine ⟨?_, (tidy.distinctInputs id node found).map (drawEdge_injective _ _), ?_⟩
    · cases node.rightInputId <;> simp
    · rintro first right second input rfl
      obtain ⟨_, _, rfl⟩ := mem_map.mp right
      obtain ⟨_, _, same⟩ := mem_map.mp input
      have handles : "input-0" = "input-1" := congrArg FlowEdge.targetHandle same
      exact absurd handles (by decide)
  · refine (pairwise_map.mp store.nodes.distinct).imp_of_mem ?_
    rintro ⟨id, node⟩ ⟨otherId, otherNode⟩ mem otherMember apart edge drawn otherDrawn
    apply apart
    have target : edge.target = node.id := by
      rcases mem_append.mp drawn with right | input
      · obtain ⟨_, _, rfl⟩ := mem_map.mp right
        rfl
      · obtain ⟨_, _, rfl⟩ := mem_map.mp input
        rfl
    have otherTarget : edge.target = otherNode.id := by
      rcases mem_append.mp otherDrawn with right | input
      · obtain ⟨_, _, rfl⟩ := mem_map.mp right
        rfl
      · obtain ⟨_, _, rfl⟩ := mem_map.mp input
        rfl
    rw [tidy.keyed id node (mem_entries_iff.mp mem)] at target
    rw [tidy.keyed otherId otherNode (mem_entries_iff.mp otherMember)] at otherTarget
    exact target.symm.trans otherTarget

theorem Wired.drawn_of_feeds (wired : store.Wired) {source target : Nat}
    (feeds : store.Feeds source target targetHandle) :
    drawEdge target targetHandle source ∈ store.edges := by
  obtain ⟨edge, mem, rfl, rfl, rfl⟩ := feeds
  exact (wired.drawn edge mem).2 ▸ mem

/-- Edges and inputs are in step when the inputs agree with the edges and all edges are such as
loading draws. -/
theorem inStep_iff_wired (tidy : store.Tidy) : store.InStep ↔ store.Wired := by
  constructor
  · intro inStep
    refine ⟨inStep.inputs, inStep.left, inStep.right, inStep.edgesExist, fun edge mem => ?_⟩
    obtain ⟨id, node, _, source, ⟨_, rfl⟩ | ⟨_, rfl⟩⟩ :=
      (mem_edges_loaded tidy edge).mp (inStep.savedEdges.mem_iff.mpr mem)
    · exact drawn_drawEdge id source (.inr rfl)
    · exact drawn_drawEdge id source (.inl rfl)
  · intro wired
    refine ⟨wired.inputs, wired.left, wired.right, wired.edgesExist, ?_, ?_, ?_⟩
    · have exist : ∀ {source id : Nat} {targetHandle : String},
          store.Feeds source id targetHandle → store.Has source := by
        rintro _ _ _ ⟨edge, mem, rfl, -, -⟩
        exact (wired.edgesExist edge mem).1
      rintro id node found source (input | left | right)
      · exact exist ((wired.inputs id node found source).mp input)
      · exact exist (wired.left id node found source left)
      · exact exist ((wired.right id node found source).mp right)
    · rw [perm_ext_iff_of_nodup (nodup_edges_loaded tidy) tidy.distinctEdges.of_map]
      intro edge
      rw [mem_edges_loaded tidy]
      constructor
      · rintro ⟨id, node, found, source, ⟨right, rfl⟩ | ⟨input, rfl⟩⟩
        · exact wired.drawn_of_feeds ((wired.right id node found source).mp right)
        · exact wired.drawn_of_feeds ((wired.inputs id node found source).mp input)
      · intro mem
        obtain ⟨known, shape⟩ := wired.drawn edge mem
        obtain ⟨node, found⟩ := Option.isSome_iff_exists.mp (wired.edgesExist edge mem).2
        refine ⟨edge.target, node, found, edge.source, ?_⟩
        rcases known with handle | handle
        · exact .inr ⟨(wired.inputs _ node found _).mpr ⟨edge, mem, rfl, rfl, handle⟩,
            handle ▸ shape⟩
        · exact .inl ⟨(wired.right _ node found _).mpr ⟨edge, mem, rfl, rfl, handle⟩,
            handle ▸ shape⟩
    · funext id
      rw [FlowStore.inputs, get_loaded tidy, Option.map_map, FlowStore.inputs]
      rfl

theorem Wired.addNode (wired : store.Wired) (tidy : store.Tidy) (type : String) :
    (store.addNode type).Wired := by
  have fresh : ∀ source handle, ¬store.Feeds source (store.nodeIdCounter + 1) handle := by
    rintro source handle ⟨edge, mem, -, target, -⟩
    have counted := tidy.counted _ (wired.edgesExist edge mem).2
    omega
  have nodes : ∀ id node, (store.addNode type).nodes.get id = some node →
      id = store.nodeIdCounter + 1 ∧ node = ⟨store.nodeIdCounter + 1, type, [], none, none⟩ ∨
        store.nodes.get id = some node := by
    intro id node found
    rw [FlowStore.addNode, get_set] at found
    split at found
    case isTrue same => exact .inl ⟨same, (Option.some.inj found).symm⟩
    case isFalse => exact .inr found
  refine ⟨fun id node found source => ?_, fun id node found source => ?_,
    fun id node found source => ?_, fun edge mem => ?_, wired.drawn⟩
  · rcases nodes id node found with ⟨rfl, rfl⟩ | old
    · exact iff_of_false not_mem_nil (fresh source _)
    · exact wired.inputs id node old source
  · rcases nodes id node found with ⟨rfl, rfl⟩ | old
    · exact fun left => absurd left (by simp)
    · exact wired.left id node old source
  · rcases nodes id node found with ⟨rfl, rfl⟩ | old
    · exact iff_of_false (by simp) (fresh source _)
    · exact wired.right id node old source
  · have exist := wired.edgesExist edge mem
    exact ⟨(has_addNode type _).mpr (.inl exist.1), (has_addNode type _).mpr (.inl exist.2)⟩

theorem feeds_removeNode (id source target : Nat) (targetHandle : String) :
    (store.removeNode id).Feeds source target targetHandle ↔
      store.Feeds source target targetHandle ∧ source ≠ id ∧ target ≠ id := by
  rw [FlowStore.removeNode, Feeds, Feeds]
  dsimp only
  constructor
  · rintro ⟨edge, mem, rfl, rfl, rfl⟩
    obtain ⟨before, apart⟩ := mem_filter.mp mem
    exact ⟨⟨edge, before, rfl, rfl, rfl⟩, of_decide_eq_true apart⟩
  · rintro ⟨⟨edge, mem, rfl, rfl, rfl⟩, apart⟩
    exact ⟨edge, mem_filter.mpr ⟨mem, decide_eq_true apart⟩, rfl, rfl, rfl⟩

theorem Wired.removeNode (wired : store.Wired) (id : Nat) : (store.removeNode id).Wired := by
  have nodes : ∀ other node, (store.removeNode id).nodes.get other = some node →
      other ≠ id ∧ ∃ before, store.nodes.get other = some before ∧ node = before.disconnect id := by
    intro other node found
    rw [FlowStore.removeNode, get_mapValues, Option.map_eq_some_iff] at found
    obtain ⟨before, found, rfl⟩ := found
    rw [get_erase] at found
    split at found
    case isTrue => cases found
    case isFalse apart => exact ⟨apart, before, found, rfl⟩
  refine ⟨fun other node found source => ?_, fun other node found source left => ?_,
    fun other node found source => ?_, fun edge mem => ?_, fun edge mem => ?_⟩
  · obtain ⟨apart, before, old, rfl⟩ := nodes other node found
    rw [FlowNode.mem_inputIds_disconnect, wired.inputs other before old source, feeds_removeNode,
      and_iff_left apart]
  · obtain ⟨apart, before, old, rfl⟩ := nodes other node found
    obtain ⟨left, other⟩ := before.leftInputId_disconnect id source left
    rw [feeds_removeNode]
    exact ⟨wired.left _ before old source left, other, apart⟩
  · obtain ⟨apart, before, old, rfl⟩ := nodes other node found
    rw [FlowNode.rightInputId_disconnect, wired.right other before old source, feeds_removeNode,
      and_iff_left apart]
  · obtain ⟨before, apart⟩ := mem_filter.mp mem
    have exist := wired.edgesExist edge before
    obtain ⟨source, target⟩ := of_decide_eq_true apart
    exact ⟨(has_removeNode id _).mpr ⟨exist.1, source⟩, (has_removeNode id _).mpr ⟨exist.2, target⟩⟩
  · exact wired.drawn edge (mem_filter.mp mem).1

section

variable {edge : FlowEdge} (fresh : edge.ends ∉ store.edges.map ends)

include fresh

theorem edges_addEdge : (store.addEdge edge).edges = store.edges ++ [edge] := by
  rw [FlowStore.addEdge, if_neg fresh]

theorem get_addEdge (id : Nat) : (store.addEdge edge).nodes.get id =
    if id = edge.target then
      (store.nodes.get id).map (connect edge.source edge.targetHandle)
    else store.nodes.get id := by
  rw [FlowStore.addEdge, if_neg fresh, get_modify]

theorem feeds_addEdge (source target : Nat) (targetHandle : String) :
    (store.addEdge edge).Feeds source target targetHandle ↔ store.Feeds source target targetHandle ∨
        edge.source = source ∧ edge.target = target ∧ edge.targetHandle = targetHandle := by
  rw [Feeds, edges_addEdge fresh, Feeds]
  simp only [mem_append, mem_singleton, or_and_right, exists_or, exists_eq_left]

/-- No edge that loading draws takes this way yet. -/
theorem Wired.not_feeds (wired : store.Wired) (drawn : edge.Drawn) :
    ¬store.Feeds edge.source edge.target edge.targetHandle := by
  intro feeds
  have mem := wired.drawn_of_feeds feeds
  rw [← drawn.2] at mem
  exact fresh (mem_map_of_mem mem)

/-- Adding an edge keeps edges and inputs in step exactly when loading would draw it, it connects
existing nodes, and the right input it takes is free. -/
theorem wired_addEdge_iff (wired : store.Wired) : (store.addEdge edge).Wired ↔
    edge.Drawn ∧ store.Has edge.source ∧ store.Has edge.target ∧ (edge.targetHandle = "input-1" →
        ∀ source, ¬store.Feeds source edge.target "input-1") := by
  have edges := edges_addEdge fresh
  constructor
  · intro after
    have mem : edge ∈ (store.addEdge edge).edges := by
      rw [edges]
      exact mem_append_right _ (mem_singleton_self edge)
    have drawn := after.drawn edge mem
    obtain ⟨source, target⟩ := after.edgesExist edge mem
    rw [has_addEdge] at source target
    refine ⟨drawn, source, target, fun right other feeds => ?_⟩
    obtain ⟨node, found⟩ := Option.isSome_iff_exists.mp target
    have connected : (store.addEdge edge).nodes.get edge.target =
        some { node with rightInputId := some edge.source } := by
      rw [get_addEdge fresh, if_pos rfl, found, Option.map_some, right, FlowNode.connect_right]
    have named := (after.right _ _ connected other).mpr
      ((feeds_addEdge fresh _ _ _).mpr (.inl feeds))
    cases named
    exact wired.not_feeds fresh drawn (right ▸ feeds)
  · rintro ⟨drawn, source, target, free⟩
    have exist : ∀ other ∈ (store.addEdge edge).edges,
        store.Has other.source ∧ store.Has other.target := by
      intro other mem
      rw [edges, mem_append, mem_singleton] at mem
      rcases mem with old | rfl
      · exact wired.edgesExist other old
      · exact ⟨source, target⟩
    have allDrawn : ∀ other ∈ (store.addEdge edge).edges, other.Drawn := by
      intro other mem
      rw [edges, mem_append, mem_singleton] at mem
      rcases mem with old | rfl
      · exact wired.drawn other old
      · exact drawn
    have elsewhere : ∀ {id : Nat}, id ≠ edge.target → ∀ (other : Nat) (handle : String),
        (store.addEdge edge).Feeds other id handle ↔ store.Feeds other id handle := by
      intro id apart other handle
      rw [feeds_addEdge fresh]
      exact or_iff_left fun same => apart same.2.1.symm
    have nodes : ∀ id node, (store.addEdge edge).nodes.get id = some node → ∀ other,
        (other ∈ node.inputIds ↔ (store.addEdge edge).Feeds other id "input-0") ∧
          (node.leftInputId = some other → (store.addEdge edge).Feeds other id "input-0") ∧
          (node.rightInputId = some other ↔ (store.addEdge edge).Feeds other id "input-1") := by
      intro id node found other
      rw [get_addEdge fresh] at found
      split at found
      case isFalse apart =>
        rw [elsewhere apart, elsewhere apart]
        exact ⟨wired.inputs id node found other, wired.left id node found other,
          wired.right id node found other⟩
      case isTrue here =>
        subst here
        obtain ⟨before, stored, rfl⟩ := Option.map_eq_some_iff.mp found
        have inputs := wired.inputs _ before stored other
        have left := wired.left _ before stored other
        have right := wired.right _ before stored other
        rw [feeds_addEdge fresh, feeds_addEdge fresh]
        rcases drawn.1 with handle | handle <;> rw [handle]
        · obtain ⟨last, same⟩ := before.connect_left edge.source
          rw [FlowNode.mem_inputIds_connect, last, same, inputs, right]
          refine ⟨?_, ?_, ?_⟩
          · simp only [and_true, eq_comm]
          · exact fun same => .inr ⟨Option.some.inj same, rfl, rfl⟩
          · exact (or_iff_left fun same => absurd same.2.2 (by decide)).symm
        · rw [FlowNode.connect_right]
          refine ⟨?_, fun named => .inl (left named), ?_⟩
          · exact inputs.trans (or_iff_left fun same => absurd same.2.2 (by decide)).symm
          · constructor
            · exact fun same => .inr ⟨Option.some.inj same, rfl, rfl⟩
            · rintro (feeds | ⟨same, -, -⟩)
              · exact absurd feeds (free handle other)
              · exact congrArg some same
    refine ⟨fun id node found other => (nodes id node found other).1,
      fun id node found other => (nodes id node found other).2.1,
      fun id node found other => (nodes id node found other).2.2, fun other mem => ?_, allDrawn⟩
    rw [has_addEdge, has_addEdge]
    exact exist other mem

end

section

variable {edge : FlowEdge} {edgeId : String}
  (first : store.edges.find? (fun edge => edge.id = edgeId) = some edge)

include first

theorem edges_removeEdge :
    (store.removeEdge edgeId).edges = store.edges.filter fun other => other.id ≠ edgeId := by
  rw [FlowStore.removeEdge, first]

theorem get_removeEdge (id : Nat) : (store.removeEdge edgeId).nodes.get id =
    if id = edge.target then (store.nodes.get id).map (disconnect edge.source)
    else store.nodes.get id := by
  rw [FlowStore.removeEdge, first]
  exact get_modify _

theorem mem_edges_removeEdge (wired : store.Wired) (other : FlowEdge) :
    other ∈ (store.removeEdge edgeId).edges ↔ other ∈ store.edges ∧ other ≠ edge := by
  have mem := mem_of_find?_eq_some first
  have named : edge.id = edgeId := by simpa using List.find?_some first
  rw [edges_removeEdge first, mem_filter, decide_eq_true_eq]
  refine and_congr_right fun otherMember => not_congr ⟨fun same => ?_, fun same => ?_⟩
  · exact (wired.drawn other otherMember).eq_of_id (wired.drawn edge mem)
      (same.trans named.symm)
  · exact same ▸ named

theorem feeds_removeEdge (wired : store.Wired) (source target : Nat) (targetHandle : String) :
    (store.removeEdge edgeId).Feeds source target targetHandle ↔
      store.Feeds source target targetHandle ∧
        ¬(edge.source = source ∧ edge.target = target ∧ edge.targetHandle = targetHandle) := by
  have mem := mem_of_find?_eq_some first
  constructor
  · rintro ⟨other, otherMember, rfl, rfl, rfl⟩
    obtain ⟨before, apart⟩ := (mem_edges_removeEdge first wired other).mp otherMember
    refine ⟨⟨other, before, rfl, rfl, rfl⟩, fun ⟨source, target, handle⟩ => apart ?_⟩
    exact ((wired.drawn edge mem).eq_of_feeds (wired.drawn other before) source target handle).symm
  · rintro ⟨⟨other, before, rfl, rfl, rfl⟩, apart⟩
    refine ⟨other, (mem_edges_removeEdge first wired other).mpr ⟨before, ?_⟩, rfl, rfl, rfl⟩
    rintro rfl
    exact apart ⟨rfl, rfl, rfl⟩

theorem wired_removeEdge_iff (wired : store.Wired) : (store.removeEdge edgeId).Wired ↔
    ∀ other ∈ store.edges, other.source = edge.source → other.target = edge.target →
      other = edge := by
  have mem := mem_of_find?_eq_some first
  constructor
  · intro after other otherMember source target
    by_contra apart
    have kept := (mem_edges_removeEdge first wired other).mpr ⟨otherMember, apart⟩
    obtain ⟨node, found⟩ := Option.isSome_iff_exists.mp (wired.edgesExist edge mem).2
    have disconnected : (store.removeEdge edgeId).nodes.get edge.target =
        some (node.disconnect edge.source) := by
      rw [get_removeEdge first, if_pos rfl, found, Option.map_some]
    rcases (wired.drawn other otherMember).1 with handle | handle
    · have named := (after.inputs _ _ disconnected edge.source).mpr
        ⟨other, kept, source, target, handle⟩
      exact ((node.mem_inputIds_disconnect _ _).mp named).2 rfl
    · have named := (after.right _ _ disconnected edge.source).mpr
        ⟨other, kept, source, target, handle⟩
      exact ((node.rightInputId_disconnect _ _).mp named).2 rfl
  · intro single
    have feeds := feeds_removeEdge first wired
    -- Where the removed edge led, its source is no input any more, and it had no other edge there.
    have here : ∀ source handle, (store.removeEdge edgeId).Feeds source edge.target handle ↔
        store.Feeds source edge.target handle ∧ source ≠ edge.source := by
      intro source handle
      rw [feeds]
      refine and_congr_right fun before => not_congr ⟨fun same => same.1.symm, ?_⟩
      rintro rfl
      obtain ⟨other, otherMember, source, target, handle⟩ := before
      obtain rfl := single other otherMember source target
      exact ⟨rfl, rfl, handle⟩
    have elsewhere : ∀ {id : Nat}, id ≠ edge.target → ∀ (source : Nat) (handle : String),
        (store.removeEdge edgeId).Feeds source id handle ↔ store.Feeds source id handle := by
      intro id apart source handle
      rw [feeds]
      exact and_iff_left fun same => apart same.2.1.symm
    have nodes : ∀ id node, (store.removeEdge edgeId).nodes.get id = some node → ∀ source,
        (source ∈ node.inputIds ↔ (store.removeEdge edgeId).Feeds source id "input-0") ∧
          (node.leftInputId = some source → (store.removeEdge edgeId).Feeds source id "input-0") ∧
          (node.rightInputId = some source ↔
            (store.removeEdge edgeId).Feeds source id "input-1") := by
      intro id node found source
      rw [get_removeEdge first] at found
      split at found
      case isFalse apart =>
        rw [elsewhere apart, elsewhere apart]
        exact ⟨wired.inputs id node found source, wired.left id node found source,
          wired.right id node found source⟩
      case isTrue same =>
        subst same
        obtain ⟨before, stored, rfl⟩ := Option.map_eq_some_iff.mp found
        rw [here, here, FlowNode.mem_inputIds_disconnect, FlowNode.rightInputId_disconnect,
          wired.inputs _ before stored, wired.right _ before stored]
        refine ⟨Iff.rfl, fun left => ?_, Iff.rfl⟩
        obtain ⟨left, apart⟩ := before.leftInputId_disconnect _ _ left
        exact ⟨wired.left _ before stored source left, apart⟩
    refine ⟨fun id node found source => (nodes id node found source).1,
      fun id node found source => (nodes id node found source).2.1,
      fun id node found source => (nodes id node found source).2.2,
      fun other otherMember => ?_, fun other otherMember => ?_⟩
    · rw [has_removeEdge, has_removeEdge]
      exact wired.edgesExist other ((mem_edges_removeEdge first wired other).mp otherMember).1
    · exact wired.drawn other ((mem_edges_removeEdge first wired other).mp otherMember).1

end

theorem wired_step_iff (tidy : store.Tidy) (wired : store.Wired) (action : Action) :
    (store.step action).Wired ↔ store.Keeps action := by
  cases action with
  | addNode type => exact iff_of_true (wired.addNode tidy type) trivial
  | removeNode id => exact iff_of_true (wired.removeNode id) trivial
  | addEdge edge =>
    rw [step, Keeps]
    by_cases known : edge.ends ∈ store.edges.map ends
    · rw [FlowStore.addEdge, if_pos known]
      exact iff_of_true wired (.inl known)
    · rw [wired_addEdge_iff known wired]
      exact (or_iff_right known).symm
  | removeEdge edgeId =>
    rw [step, Keeps]
    cases first : store.edges.find? fun edge => edge.id = edgeId with
    | none =>
      rw [FlowStore.removeEdge, first]
      refine iff_of_true wired fun edge mem same => ?_
      exact absurd (decide_eq_true same) (List.find?_eq_none.mp first edge mem)
    | some edge =>
    have mem := mem_of_find?_eq_some first
    have named : edge.id = edgeId := by simpa using List.find?_some first
    rw [wired_removeEdge_iff first wired]
    constructor
    · intro single other otherMember same
      obtain rfl := (wired.drawn other otherMember).eq_of_id (wired.drawn edge mem)
        (same.trans named.symm)
      exact single
    · exact fun single => single edge mem named

theorem wired_empty : empty.Wired where
  inputs _ _ found := by cases found
  left _ _ found := by cases found
  right _ _ found := by cases found
  edgesExist _ mem := by cases mem
  drawn _ mem := by cases mem

end FlowStore

/-- Edges and inputs are in step all along a run exactly when every action meets the condition. -/
theorem inStep_along_iff (actions : List Action) :
    (∀ store ∈ statesAlong FlowStore.step .empty actions, store.InStep) ↔
      EachStep FlowStore.step FlowStore.Keeps .empty actions := by
  have tidy := invariant_along FlowStore.step FlowStore.Tidy
    (fun _ action tidy => tidy.step action) .empty FlowStore.tidy_empty actions
  rw [← good_along_iff FlowStore.step (fun store => store.Tidy ∧ store.Wired) FlowStore.Keeps
    (fun store action good => by
      rw [← FlowStore.wired_step_iff good.1 good.2 action]
      exact and_iff_right (good.1.step action))
    .empty ⟨FlowStore.tidy_empty, FlowStore.wired_empty⟩ actions]
  refine forall₂_congr fun store reached => ?_
  rw [FlowStore.inStep_iff_wired (tidy store reached)]
  exact (and_iff_right (tidy store reached)).symm

/-- A join that is fed twice by the same node: taking away the right edge takes away the left
input. -/
theorem sameSource_outOfStep : ¬∀ store ∈ statesAlong FlowStore.step .empty
        [.addNode "manual_input", .addNode "join", .addEdge (drawEdge 2 "input-0" 1),
          .addEdge (drawEdge 2 "input-1" 1), .removeEdge (drawEdge 2 "input-1" 1).id],
      store.InStep := by
  intro inStep
  have last := inStep _ (mem_of_getLast? rfl)
  have named := (last.inputs 2 ⟨2, "join", [], none, none⟩ rfl 1).mpr
    ⟨drawEdge 2 "input-0" 1, by decide, rfl, rfl, rfl⟩
  cases named

/-- In every run, loading a saved store gives back the inputs of the nodes, and draws an edge for
each of them and no other, none twice. -/
theorem reload_along (actions : List Action) :
    let store := actions.foldl FlowStore.step .empty
    let loaded := loadFromStorage (saveToStorage store)
    loaded.inputs = store.inputs ∧ loaded.edges.Nodup ∧
      ∀ edge, edge ∈ loaded.edges ↔ ∃ id node, store.nodes.get id = some node ∧ ∃ source,
        node.rightInputId = some source ∧ edge = drawEdge id "input-1" source ∨
          source ∈ node.inputIds ∧ edge = drawEdge id "input-0" source := by
  have tidy : (actions.foldl FlowStore.step .empty).Tidy :=
    foldlRecOn (motive := FlowStore.Tidy) _ _ FlowStore.tidy_empty
      fun _ tidy action _ => tidy.step action
  refine ⟨funext fun id => ?_, FlowStore.nodup_edges_loaded tidy, FlowStore.mem_edges_loaded tidy⟩
  rw [FlowStore.inputs, FlowStore.get_loaded tidy, Option.map_map, FlowStore.inputs]
  rfl

end Flowfile.BrowserStore

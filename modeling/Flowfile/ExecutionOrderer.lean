import Flowfile.Library.FiniteDag
import Mathlib.Algebra.GroupWithZero.Nat
import Mathlib.Data.List.Count
import Mathlib.Data.List.Dedup
import Mathlib.Data.List.Perm.Subperm

/-!
# Execution plans: skipped nodes and level order

A run looks at the graph through three things only, which `ExecutionView` holds: the nodes in the
order of the node table, the nodes each of them leads to, and the flag that says whether a node's
connections satisfy its template. A node stands for its own id.

Nodes that are not correct are skipped with the nodes they lead to directly. The others are ordered
level by level: in-degrees and adjacency are collected from them, the queue is seeded with the flow
starts, or with every node of in-degree zero when none is given, and each level lowers the
in-degrees of the next. The loop carries fuel; `none` means that it did not finish within it.

The node map also receives the targets of edges that leave the remaining nodes, so a skipped node
can come back through it, and the final comparison of totals rejects a map that was not covered.
-/

namespace Flowfile.ExecutionOrderer

open Function List

universe u
variable {ν : Type u} [DecidableEq ν]

/-- What the planner reads of a graph. -/
structure ExecutionView (ν : Type u) where
  /-- Nodes in the order of the node table. -/
  nodes : List ν
  /-- The stored list of downstream nodes, with repetitions when a node feeds two
  ports of the same target. -/
  leadsToNodes : ν → List ν
  /-- Whether the node's connections satisfy its template. -/
  isCorrect : ν → Bool

/-- Nodes in one stage have no dependencies on each other and may run in parallel. -/
structure ExecutionPlan (ν : Type u) where
  skipNodes : List ν
  stages : List (List ν)

/-- Scheduled nodes across all stages, in order. -/
def ExecutionPlan.allNodes (plan : ExecutionPlan ν) : List ν := plan.stages.flatten

/-- Incorrect nodes, followed by the nodes they lead to. The second part is one
level deep: successors of those successors are not added. -/
def determineNodesToSkip (view : ExecutionView ν) : List ν :=
  let skipNodes := view.nodes.filter fun node => !view.isCorrect node
  skipNodes ++ skipNodes.flatMap view.leadsToNodes

def insertKey (nodeMap : List ν) (node : ν) : List ν :=
  if node ∈ nodeMap then nodeMap else nodeMap ++ [node]

def buildNodeMap (allNodes : List ν) : List ν := allNodes.foldl insertKey []

/-- In-degrees, adjacency and the node map while edges are collected. In-degrees
are integers because the sort may lower an entry below zero. -/
structure DegreeTable (ν : Type u) where
  inDegree : ν → Int
  adjacencyList : ν → List ν
  nodeMap : List ν

def recordEdge (table : DegreeTable ν) (edge : ν × ν) : DegreeTable ν :=
  { adjacencyList :=
      update table.adjacencyList edge.1 (table.adjacencyList edge.1 ++ [edge.2])
    inDegree := update table.inDegree edge.2 (table.inDegree edge.2 + 1)
    nodeMap := insertKey table.nodeMap edge.2 }

def computeInDegreesAndAdjacencyList (leadsToNodes : ν → List ν) (allNodes nodeMap : List ν) :
    DegreeTable ν :=
  allNodes.foldl
    (fun table node =>
      (leadsToNodes node).foldl (fun table nextNode => recordEdge table (node, nextNode)) table)
    { inDegree := fun _ => 0, adjacencyList := fun _ => [], nodeMap }

/-- Seed of the queue, which is also the first set of visited nodes. -/
def initializeQueue (flowStarts allNodes : List ν) (inDegree : ν → Int) : List ν :=
  (if flowStarts.isEmpty then allNodes else flowStarts).filter fun node => inDegree node = 0

/-- State of the level-order sort. `stageNodes` collects the level being processed. -/
structure SortState (ν : Type u) where
  queue : List ν
  inDegree : ν → Int
  visitedNodes : List ν
  stageNodes : List ν

def relaxEdge (state : SortState ν) (nextNode : ν) : SortState ν :=
  let remaining := state.inDegree nextNode - 1
  let lowered := { state with inDegree := update state.inDegree nextNode remaining }
  if remaining = 0 ∧ nextNode ∉ state.visitedNodes then
    { lowered with
      queue := state.queue ++ [nextNode]
      visitedNodes := state.visitedNodes ++ [nextNode] }
  else lowered

/-- Process one id of the current level. An id without a node is passed over. -/
def visitNode (table : DegreeTable ν) (state : SortState ν) (node : ν) : SortState ν :=
  if node ∈ table.nodeMap then
    (table.adjacencyList node).foldl relaxEdge
      { state with stageNodes := state.stageNodes ++ [node] }
  else state

def runLevel (table : DegreeTable ν) (state : SortState ν) : SortState ν :=
  state.queue.foldl (visitNode table) { state with queue := [], stageNodes := [] }

/-- Level-order sort. A level that contributed no node is not recorded. -/
def performTopologicalSort (table : DegreeTable ν) : Nat → SortState ν → Option (List (List ν))
  | 0, _ => none
  | fuel + 1, state =>
    if state.queue.isEmpty then some []
    else
      let next := runLevel table state
      (performTopologicalSort table fuel next).map fun later =>
        if next.stageNodes.isEmpty then later else next.stageNodes :: later

/-- Error of a sort that did not cover the node map. -/
def cycleMessage : String :=
  "Cycle detected in the graph. Execution order cannot be determined."

def determineExecutionOrder (leadsToNodes : ν → List ν) (allNodes flowStarts : List ν)
    (fuel : Nat) : Option (Except String (List (List ν))) :=
  let table := computeInDegreesAndAdjacencyList leadsToNodes allNodes (buildNodeMap allNodes)
  let queue := initializeQueue flowStarts allNodes table.inDegree
  let start : SortState ν :=
    { queue, inDegree := table.inDegree, visitedNodes := queue, stageNodes := [] }
  (performTopologicalSort table fuel start).map fun stages =>
    if (stages.map List.length).sum = table.nodeMap.length then .ok stages
    else .error cycleMessage

/-- Nodes that the planner leaves after removing the skipped ones. -/
def plannedNodes (view : ExecutionView ν) : List ν :=
  view.nodes.filter fun node => node ∉ determineNodesToSkip view

/-- The plan of a run: skipped nodes and the stages of the remaining ones. -/
def computeExecutionPlan (view : ExecutionView ν) (flowStarts : List ν) (fuel : Nat) :
    Option (Except String (ExecutionPlan ν)) :=
  (determineExecutionOrder view.leadsToNodes (plannedNodes view) flowStarts fuel).map
    fun outcome => outcome.map fun stages => { skipNodes := determineNodesToSkip view, stages }

/-- Edges in the order in which the collecting loop meets them. -/
def outgoingEdges (leadsToNodes : ν → List ν) (allNodes : List ν) : List (ν × ν) :=
  allNodes.flatMap fun node => (leadsToNodes node).map fun nextNode => (node, nextNode)

variable (leadsToNodes : ν → List ν)

omit [DecidableEq ν] in
theorem outgoingEdges_targets (allNodes : List ν) :
    (outgoingEdges leadsToNodes allNodes).map Prod.snd = allNodes.flatMap leadsToNodes := by
  simp [outgoingEdges, map_flatMap, comp_def]

variable (nodeMap : List ν)

theorem compute_eq_fold (allNodes nodeMap : List ν) :
    computeInDegreesAndAdjacencyList leadsToNodes allNodes nodeMap =
      (outgoingEdges leadsToNodes allNodes).foldl recordEdge
        { inDegree := fun _ => 0, adjacencyList := fun _ => [], nodeMap } := by
  simp [computeInDegreesAndAdjacencyList, outgoingEdges, foldl_flatMap, foldl_map]

variable (edges : List (ν × ν)) (table : DegreeTable ν) (node : ν)

theorem fold_inDegree : (edges.foldl recordEdge table).inDegree node =
      table.inDegree node + ((edges.map Prod.snd).count node : Int) := by
  induction edges generalizing table with
  | nil => simp
  | cons edge rest ih =>
    rw [foldl_cons, ih, map_cons, count_cons]
    by_cases same : edge.2 = node
    · subst same
      simp [recordEdge]
      omega
    · have other : node ≠ edge.2 := fun equal => same equal.symm
      simp [recordEdge, update_of_ne other, same]

theorem fold_adjacencyList : (edges.foldl recordEdge table).adjacencyList node =
      table.adjacencyList node ++ (edges.filter fun edge => edge.1 = node).map Prod.snd := by
  induction edges generalizing table with
  | nil => simp
  | cons edge rest ih =>
    rw [foldl_cons, ih]
    by_cases same : edge.1 = node
    · subst same
      simp [recordEdge]
    · have other : node ≠ edge.1 := fun equal => same equal.symm
      simp [recordEdge, update_of_ne other, same]

theorem mem_insertKey (other : ν) :
    other ∈ insertKey nodeMap node ↔ other ∈ nodeMap ∨ other = node := by
  unfold insertKey
  split
  · constructor
    · exact Or.inl
    · rintro (present | rfl)
      · exact present
      · assumption
  · simp

/-- Keys stay distinct. -/
theorem nodup_insertKey (unique : nodeMap.Nodup) : (insertKey nodeMap node).Nodup := by
  unfold insertKey
  split
  · exact unique
  · rename_i absent
    exact nodup_append.mpr ⟨unique, nodup_singleton node, by
      intro key present other single
      rw [mem_singleton.mp single]
      exact fun equal => absent (equal ▸ present)⟩

/-- Inserting distinct new keys appends them. -/
theorem fold_insertKey (nodes nodeMap : List ν) (unique : (nodeMap ++ nodes).Nodup) :
    nodes.foldl insertKey nodeMap = nodeMap ++ nodes := by
  induction nodes generalizing nodeMap with
  | nil => simp
  | cons node rest ih =>
    have absent : node ∉ nodeMap := by
      intro present
      have apart := (nodup_append.mp unique).2.2 node present node (by simp)
      exact apart rfl
    have shifted : (nodeMap ++ [node] ++ rest).Nodup := by simpa using unique
    rw [foldl_cons, insertKey, if_neg absent, ih _ shifted]
    simp

variable (allNodes : List ν)

theorem buildNodeMap_eq (unique : allNodes.Nodup) : buildNodeMap allNodes = allNodes := by
  simpa [buildNodeMap] using fold_insertKey allNodes [] (by simpa using unique)

theorem mem_fold_nodeMap : node ∈ (edges.foldl recordEdge table).nodeMap ↔
      node ∈ table.nodeMap ∨ node ∈ edges.map Prod.snd := by
  induction edges generalizing table with
  | nil => simp
  | cons edge rest ih =>
    rw [foldl_cons, ih, map_cons, mem_cons]
    simp only [recordEdge, mem_insertKey]
    tauto

/-- The node map keeps distinct keys. -/
theorem nodup_fold_nodeMap
    (unique : table.nodeMap.Nodup) : (edges.foldl recordEdge table).nodeMap.Nodup := by
  induction edges generalizing table with
  | nil => exact unique
  | cons edge rest ih =>
    exact ih _ (nodup_insertKey _ _ unique)

omit [DecidableEq ν] in
theorem outgoingEdges_of [DecidableEq ν] (unique : allNodes.Nodup) (node : ν) :
    ((outgoingEdges leadsToNodes allNodes).filter fun edge => edge.1 = node).map Prod.snd =
      if node ∈ allNodes then leadsToNodes node else [] := by
  induction allNodes with
  | nil => simp [outgoingEdges]
  | cons head rest ih =>
    obtain ⟨absent, uniqueRest⟩ := nodup_cons.mp unique
    have unfolded : outgoingEdges leadsToNodes (head :: rest) =
        (leadsToNodes head).map (fun nextNode => (head, nextNode)) ++
          outgoingEdges leadsToNodes rest := by
      simp [outgoingEdges]
    rw [unfolded, filter_append, map_append, ih uniqueRest]
    by_cases same : head = node
    · subst same
      simp [absent, filter_map, comp_def]
    · have other : node ≠ head := fun equal => same equal.symm
      simp [same, other, filter_map, comp_def]

/-- The table that the sort works on, for distinct nodes: in-degrees count the
edges from listed nodes, adjacency is the stored list of successors, and the map
holds the listed nodes and their successors, each once. -/
structure DescribesEdges (leadsToNodes : ν → List ν) (allNodes : List ν)
    (table : DegreeTable ν) : Prop where
  inDegree : ∀ node, table.inDegree node = ((allNodes.flatMap leadsToNodes).count node : Int)
  adjacency : ∀ node,
    table.adjacencyList node = if node ∈ allNodes then leadsToNodes node else []
  mem_nodeMap : ∀ node,
    node ∈ table.nodeMap ↔ node ∈ allNodes ∨ node ∈ allNodes.flatMap leadsToNodes
  nodup_nodeMap : table.nodeMap.Nodup

/-- The collecting loops build such a table. -/
theorem compute_describesEdges (unique : allNodes.Nodup) : DescribesEdges leadsToNodes allNodes
      (computeInDegreesAndAdjacencyList leadsToNodes allNodes (buildNodeMap allNodes)) := by
  rw [compute_eq_fold, buildNodeMap_eq allNodes unique]
  constructor
  · intro node
    rw [fold_inDegree, outgoingEdges_targets]
    simp
  · intro node
    rw [fold_adjacencyList, outgoingEdges_of leadsToNodes allNodes unique]
    simp
  · intro node
    rw [mem_fold_nodeMap, outgoingEdges_targets]
  · exact nodup_fold_nodeMap _ _ unique

end Flowfile.ExecutionOrderer

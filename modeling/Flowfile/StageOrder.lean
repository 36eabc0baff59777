import Flowfile.LevelOrder
import Flowfile.Library.Layers

/-!
# Stages are layers

Without given starts the sort takes every graph. It counts the edges out of the given nodes,
each as often as it is stored, and stages a node when all of them are done, so its stages
are layers. It misses a node exactly when the edges have a cycle, and then it raises.

The nodes of the graph are those given and those that they lead to, since the node map
receives both. For a list that is closed under successors they are the given ones.
-/

namespace Flowfile.ExecutionOrderer

open Library.FiniteDag Library.Layers List

universe u
variable {ν : Type u} [DecidableEq ν]

def CountedEdge (leadsToNodes : ν → List ν) (allNodes : List ν) (source target : ν) : Prop :=
  source ∈ allNodes ∧ target ∈ leadsToNodes source

def graphNodes (leadsToNodes : ν → List ν) (allNodes : List ν) : List ν :=
  allNodes ++ ((allNodes.flatMap leadsToNodes).filter fun node => node ∉ allNodes).dedup

section

variable {leadsToNodes : ν → List ν} {allNodes : List ν}

theorem mem_graphNodes {node : ν} : node ∈ graphNodes leadsToNodes allNodes ↔
      node ∈ allNodes ∨ node ∈ allNodes.flatMap leadsToNodes := by
  rw [graphNodes, mem_append, mem_dedup, mem_filter]
  by_cases given : node ∈ allNodes <;> simp [given]

theorem graphNodes_nodup (unique : allNodes.Nodup) : (graphNodes leadsToNodes allNodes).Nodup := by
  refine nodup_append.mpr ⟨unique, nodup_dedup _, ?_⟩
  rintro node given other added rfl
  have apart := (mem_filter.mp (mem_dedup.mp added)).2
  exact absurd given (of_decide_eq_true apart)

theorem graphNodes_closed
    (closed : ∀ source ∈ allNodes, ∀ target ∈ leadsToNodes source, target ∈ allNodes) :
    graphNodes leadsToNodes allNodes = allNodes := by
  have none : ((allNodes.flatMap leadsToNodes).filter fun node => node ∉ allNodes) = [] := by
    refine filter_eq_nil_iff.mpr fun node mem => ?_
    obtain ⟨source, given, edge⟩ := mem_flatMap.mp mem
    simpa using closed source given node edge
  rw [graphNodes, none, dedup_nil, append_nil]

end

section

variable (leadsToNodes : ν → List ν) (allNodes : List ν)

def graphTable : DegreeTable ν :=
  computeInDegreesAndAdjacencyList leadsToNodes allNodes (buildNodeMap allNodes)

def sortStart : SortState ν where
  queue := initializeQueue [] allNodes (graphTable leadsToNodes allNodes).inDegree
  inDegree := (graphTable leadsToNodes allNodes).inDegree
  visitedNodes := initializeQueue [] allNodes (graphTable leadsToNodes allNodes).inDegree
  stageNodes := []

variable {leadsToNodes allNodes}

theorem determineExecutionOrder_eq (fuel : Nat) :
    determineExecutionOrder leadsToNodes allNodes [] fuel =
      (performTopologicalSort (graphTable leadsToNodes allNodes) fuel
        (sortStart leadsToNodes allNodes)).map fun stages =>
        if (stages.map List.length).sum = (graphTable leadsToNodes allNodes).nodeMap.length
        then .ok stages else .error cycleMessage := rfl

variable (unique : allNodes.Nodup)
include unique

theorem mem_adjacencyList {source target : ν} :
    target ∈ (graphTable leadsToNodes allNodes).adjacencyList source ↔
      CountedEdge leadsToNodes allNodes source target := by
  have adjacency : (graphTable leadsToNodes allNodes).adjacencyList source =
      if source ∈ allNodes then leadsToNodes source else [] :=
    (compute_describesEdges leadsToNodes allNodes unique).adjacency source
  rw [adjacency, CountedEdge]
  by_cases given : source ∈ allNodes <;> simp [given]

/-- The edges out of mapped nodes are those out of given ones. -/
theorem flatMap_adjacencyList (node : ν) : ((graphTable leadsToNodes allNodes).nodeMap.flatMap
        (graphTable leadsToNodes allNodes).adjacencyList).count node =
      (allNodes.flatMap leadsToNodes).count node := by
  have describes := compute_describesEdges leadsToNodes allNodes unique
  have same : (graphTable leadsToNodes allNodes).nodeMap.Perm
      (graphNodes leadsToNodes allNodes) :=
    (perm_ext_iff_of_nodup describes.nodup_nodeMap (graphNodes_nodup unique)).mpr
      fun other => (describes.mem_nodeMap other).trans mem_graphNodes.symm
  have adjacency : ∀ other, (graphTable leadsToNodes allNodes).adjacencyList other =
      if other ∈ allNodes then leadsToNodes other else [] := describes.adjacency
  rw [(same.flatMap_right _).count_eq, graphNodes, flatMap_append, count_append]
  have given : allNodes.flatMap (graphTable leadsToNodes allNodes).adjacencyList =
      allNodes.flatMap leadsToNodes :=
    flatMap_congr fun other mem => by rw [adjacency, if_pos mem]
  have added : (((allNodes.flatMap leadsToNodes).filter fun node => node ∉ allNodes).dedup).flatMap
      (graphTable leadsToNodes allNodes).adjacencyList = [] := by
    refine flatMap_eq_nil_iff.mpr fun other mem => ?_
    have apart := (mem_filter.mp (mem_dedup.mp mem)).2
    rw [adjacency, if_neg (of_decide_eq_true apart)]
  rw [given, added, count_nil, Nat.add_zero]

theorem sortStart_progress : Progress (graphTable leadsToNodes allNodes).adjacencyList
      (graphTable leadsToNodes allNodes).nodeMap [] (sortStart leadsToNodes allNodes).queue
      (sortStart leadsToNodes allNodes) := by
  have describes := compute_describesEdges leadsToNodes allNodes unique
  have degrees : ∀ node, (graphTable leadsToNodes allNodes).inDegree node =
      ((allNodes.flatMap leadsToNodes).count node : Int) := describes.inDegree
  constructor
  case inDegree =>
    intro node
    have every : ((graphTable leadsToNodes allNodes).nodeMap.filter fun source => source ∉ []) =
        (graphTable leadsToNodes allNodes).nodeMap := by simp
    rw [every, flatMap_adjacencyList unique]
    exact degrees node
  case done_planned => simp
  case unique => exact (unique.filter _).filter _
  case visited => simp [sortStart]
  case waiting =>
    intro node mapped unseen
    have nonzero : (graphTable leadsToNodes allNodes).inDegree node ≠ 0 := by
      intro zero
      apply unseen
      rcases (describes.mem_nodeMap node).mp mapped with given | target
      · exact mem_filter.mpr ⟨given, by simpa using zero⟩
      · have positive := count_pos_iff.mpr target
        have counted := degrees node
        omega
    have counted := degrees node
    simp only [sortStart]
    omega

omit unique in
theorem sortStart_ready (planned : List ν) :
    Ready planned (sortStart leadsToNodes allNodes).queue (sortStart leadsToNodes allNodes) :=
  fun _ queued _ => of_decide_eq_true (mem_filter.mp queued).2

omit unique in
theorem performTopologicalSort_of_le (table : DegreeTable ν) {fuel more : Nat}
    (enough : fuel ≤ more) {state : SortState ν} {stages : List (List ν)}
    (sorted : performTopologicalSort table fuel state = some stages) :
    performTopologicalSort table more state = some stages := by
  induction fuel generalizing more state stages with
  | zero => cases sorted
  | succ fuel ih =>
    obtain ⟨more, rfl⟩ : ∃ others, more = others + 1 := ⟨more - 1, by omega⟩
    rw [performTopologicalSort] at sorted ⊢
    split at sorted
    case isTrue empty => rwa [if_pos empty]
    case isFalse filled =>
      dsimp only at sorted ⊢
      rw [if_neg filled]
      obtain ⟨later, laterSorted, rest⟩ := Option.map_eq_some_iff.mp sorted
      rw [ih (Nat.le_of_succ_le_succ enough) laterSorted, Option.map_some, rest]

theorem sort_runs : ∃ bound stages final, (∀ fuel, bound ≤ fuel →
        performTopologicalSort (graphTable leadsToNodes allNodes) fuel
          (sortStart leadsToNodes allNodes) = some stages) ∧
      Progress (graphTable leadsToNodes allNodes).adjacencyList
        (graphTable leadsToNodes allNodes).nodeMap stages.flatten [] final ∧
      (∀ stage ∈ stages, stage ≠ []) ∧
      ∀ before stage after, stages = before ++ stage :: after → ∀ target ∈ stage, ∀ source,
        CountedEdge leadsToNodes allNodes source target → source ∈ before.flatten := by
  have describes := compute_describesEdges leadsToNodes allNodes unique
  have closed : ∀ source ∈ (graphTable leadsToNodes allNodes).nodeMap,
      ∀ target ∈ (graphTable leadsToNodes allNodes).adjacencyList source,
        target ∈ (graphTable leadsToNodes allNodes).nodeMap := by
    intro source _ target edge
    obtain ⟨given, leads⟩ := (mem_adjacencyList unique).mp edge
    exact (describes.mem_nodeMap target).mpr (.inr (mem_flatMap.mpr ⟨source, given, leads⟩))
  obtain ⟨stages, final, sorted, progress, nonempty, ordered⟩ :=
    performTopologicalSort_runs describes.nodup_nodeMap closed (fun _ _ => rfl) (fun _ => Iff.rfl)
      _ [] (sortStart leadsToNodes allNodes) (sortStart_progress unique) (.inl (Nat.le_refl _))
  refine ⟨_, stages, final, fun fuel enough => performTopologicalSort_of_le _ enough sorted,
    progress, nonempty, ?_⟩
  intro before stage after split target mem source edge
  exact ordered (sortStart_ready _) before stage after split target mem source
    ((describes.mem_nodeMap source).mpr (.inl edge.1)) ((mem_adjacencyList unique).mpr edge)

end

/-- The stages of a graph hold each of its nodes once, after all nodes that lead to it, and no two
nodes of a stage depend on each other. They are found, whatever edges are stored several times,
exactly when there is no cycle. -/
theorem determineExecutionOrder_layers (leadsToNodes : ν → List ν) (allNodes : List ν)
    (unique : allNodes.Nodup) :
    ∃ bound outcome, (∀ fuel, bound ≤ fuel →
        determineExecutionOrder leadsToNodes allNodes [] fuel = some outcome) ∧
      (∀ stages, outcome = .ok stages →
        Layering (graphNodes leadsToNodes allNodes) (CountedEdge leadsToNodes allNodes) stages ∧
        ((∀ source ∈ allNodes, ∀ target ∈ leadsToNodes source, target ∈ allNodes) →
          stages.flatten.Perm allNodes) ∧
        ∀ stage ∈ stages, ∀ first ∈ stage, ∀ second ∈ stage,
          ¬ Relation.TransGen (CountedEdge leadsToNodes allNodes) first second) ∧
      ((∃ message, outcome = .error message) ↔ ¬ Acyclic (CountedEdge leadsToNodes allNodes)) := by
  have describes := compute_describesEdges leadsToNodes allNodes unique
  obtain ⟨bound, stages, final, sorted, progress, nonempty, ordered⟩ :=
    @sort_runs _ _ leadsToNodes allNodes unique
  have mapped : (graphTable leadsToNodes allNodes).nodeMap.Perm
      (graphNodes leadsToNodes allNodes) :=
    (perm_ext_iff_of_nodup describes.nodup_nodeMap (graphNodes_nodup unique)).mpr
      fun node => (describes.mem_nodeMap node).trans mem_graphNodes.symm
  have ends : ∀ source target, CountedEdge leadsToNodes allNodes source target →
      target ∈ graphNodes leadsToNodes allNodes := fun source target edge =>
    mem_graphNodes.mpr (.inr (mem_flatMap.mpr ⟨source, edge.1, edge.2⟩))
  have distinct : stages.flatten.Nodup := by simpa using progress.unique
  have layering : (stages.map List.length).sum = (graphTable leadsToNodes allNodes).nodeMap.length →
      Layering (graphNodes leadsToNodes allNodes) (CountedEdge leadsToNodes allNodes) stages := by
    intro covered
    rw [← length_flatten] at covered
    have whole := (distinct.subperm progress.done_planned).perm_of_length_le covered.ge
    exact ⟨whole.trans mapped, nonempty, ordered⟩
  refine ⟨bound, if (stages.map List.length).sum =
      (graphTable leadsToNodes allNodes).nodeMap.length then .ok stages else .error cycleMessage,
    fun fuel enough => ?_, ?_, ?_⟩
  · rw [determineExecutionOrder_eq, sorted fuel enough, Option.map_some]
  · intro returned isReturned
    split at isReturned
    case isTrue covered =>
      obtain rfl : stages = returned := Except.ok.inj isReturned
      have layers := layering covered
      refine ⟨layers, fun closed => ?_, fun stage isStage first inFirst second inSecond =>
        layers.independent ends (graphNodes_nodup unique) isStage inFirst inSecond⟩
      rw [← graphNodes_closed closed]
      exact layers.partition
    case isFalse => cases isReturned
  · constructor
    · rintro ⟨message, raised⟩ acyclic
      split at raised
      case isTrue => cases raised
      case isFalse uncovered =>
        apply uncovered
        have founded : WellFounded fun source target =>
            source ∈ (graphTable leadsToNodes allNodes).nodeMap ∧
              target ∈ (graphTable leadsToNodes allNodes).adjacencyList source := by
          exact Subrelation.wf (fun edge => (mem_adjacencyList unique).mp edge.2)
            (wellFounded_of_sources allNodes acyclic fun _ _ edge => edge.1)
        have whole := finished_perm describes.nodup_nodeMap founded _ final progress
        rw [← length_flatten]
        exact whole.length_eq
    · intro cyclic
      split
      case isTrue covered => exact absurd ((layering covered).acyclic ends) cyclic
      case isFalse => exact ⟨_, rfl⟩

/-- Three nodes. The first one feeds two ports of the second, and both feed the third. -/
def doubleEdge : Nat → List Nat
  | 1 => [2, 2, 3]
  | 2 => [3]
  | _ => []

/-- Edges stored twice are counted twice. -/
theorem doubleEdge_layers : ∃ bound outcome, (∀ fuel, bound ≤ fuel →
        determineExecutionOrder doubleEdge [1, 2, 3] [] fuel = some outcome) ∧
      ∀ stages, outcome = .ok stages → stages.flatten.Perm [1, 2, 3] := by
  obtain ⟨bound, outcome, returns, layered, _⟩ :=
    determineExecutionOrder_layers doubleEdge [1, 2, 3] (by decide)
  exact ⟨bound, outcome, returns, fun stages found => (layered stages found).2.1 (by decide)⟩

example : determineExecutionOrder doubleEdge [1, 2, 3] [] 4 = some (.ok [[1], [2], [3]]) := by
  decide

end Flowfile.ExecutionOrderer

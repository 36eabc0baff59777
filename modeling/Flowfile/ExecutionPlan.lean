import Flowfile.LevelOrder

/-!
# Which nodes a plan schedules

A node is runnable when it is correct and no node upstream of it is incorrect. The planner skips
incorrect nodes and their direct successors only, so whether it schedules exactly the runnable nodes
depends on two conditions on its input.

No edge may cross between skipped nodes and the others. An edge out of the skipped part leaves its
target without that predecessor, and an edge into it brings the target back through the node map.
And the given flow starts must list every remaining node without predecessors once, unless none is
given.

Both directions are proved for every acyclic graph, every assignment of flags and every list of
starts. The positive direction also bounds the rounds of the sort.
-/

namespace Flowfile.ExecutionPlan

open Flowfile.Library.FiniteDag List
open Flowfile.ExecutionOrderer

universe u
variable {ν : Type u} (view : ExecutionView ν)

/-- An edge of the graph as the planner sees it. -/
def Edge (source target : ν) : Prop :=
  source ∈ view.nodes ∧ target ∈ view.leadsToNodes source

/-- A graph that may be planned: one entry per node, no successor outside the
node table and no cycle. -/
structure ExecutionGraph (ν : Type u) extends ExecutionView ν where
  unique : nodes.Nodup
  closed : ∀ source ∈ nodes, ∀ target ∈ leadsToNodes source, target ∈ nodes
  acyclic : Acyclic (Edge toExecutionView)

variable (graph : ExecutionGraph ν)

/-- Following edges backwards terminates. -/
theorem ExecutionGraph.wellFounded : WellFounded (Edge graph.toExecutionView) :=
  wellFounded_of_sources graph.nodes graph.acyclic fun _ _ edge => edge.1

/-- Following edges forwards terminates. -/
theorem ExecutionGraph.wellFounded_forward :
    WellFounded fun target source => Edge graph.toExecutionView source target :=
  wellFounded_of_targets graph.nodes graph.acyclic fun source target edge =>
    graph.closed source edge.1 target edge.2

structure Runnable (view : ExecutionView ν) (node : ν) : Prop where
  listed : node ∈ view.nodes
  correct : view.isCorrect node = true
  upstream : ∀ source, Relation.TransGen (Edge view) source node → view.isCorrect source = true

variable [DecidableEq ν]

instance (view : ExecutionView ν) (source target : ν) : Decidable (Edge view source target) :=
  inferInstanceAs (Decidable (_ ∧ _))

/-- The planner returns a plan whose stages hold each runnable node once and no other. -/
def SchedulesRunnable (flowStarts : List ν) : Prop :=
  ∃ fuel plan, computeExecutionPlan view flowStarts fuel = some (.ok plan) ∧
    plan.allNodes.Nodup ∧ ∀ node, node ∈ plan.allNodes ↔ Runnable view node

def NearIncorrect (node : ν) : Prop :=
  (node ∈ view.nodes ∧ view.isCorrect node = false) ∨
    ∃ source, Edge view source node ∧ view.isCorrect source = false

/-- No edge joins a node at or below an incorrect one with a node that is not. -/
def Separated : Prop :=
  ∀ source target, Edge view source target → (NearIncorrect view source ↔ NearIncorrect view target)

/-- The condition on the planner's input. -/
structure SkipsWholeBranches (view : ExecutionView ν) (flowStarts : List ν) : Prop where
  separated : Separated view
  /-- Given starts list every other node without predecessors exactly once. -/
  started : flowStarts = [] ∨ ∀ node ∈ view.nodes, ¬ NearIncorrect view node →
    (∀ source, ¬ Edge view source node) → flowStarts.count node = 1

variable (node : ν)

omit [DecidableEq ν] in
theorem mem_determineNodesToSkip : node ∈ determineNodesToSkip view ↔ NearIncorrect view node := by
  simp only [NearIncorrect, determineNodesToSkip, mem_append, mem_filter,
    Bool.not_eq_true', mem_flatMap, Edge]
  refine or_congr Iff.rfl (exists_congr fun source => ?_)
  tauto

/-- The remaining nodes are those of the graph that are not skipped. -/
theorem mem_plannedNodes :
    node ∈ plannedNodes view ↔ node ∈ view.nodes ∧ ¬ NearIncorrect view node := by
  simp [plannedNodes, mem_determineNodesToSkip]

theorem Runnable.planned {view : ExecutionView ν} {node : ν} (runnable : Runnable view node) :
    node ∈ plannedNodes view := by
  rw [mem_plannedNodes]
  refine ⟨runnable.listed, ?_⟩
  rintro (⟨_, incorrect⟩ | ⟨source, edge, incorrect⟩)
  · simp [runnable.correct] at incorrect
  · simp [runnable.upstream source (Relation.TransGen.single edge)] at incorrect

/-- When no edge leaves the skipped part, everything upstream of a remaining node
remains. The induction adds edges at the upstream end. -/
theorem upstream_planned {view : ExecutionView ν} (separated : Separated view)
    {source node : ν} (path : Relation.TransGen (Edge view) source node)
    (planned : node ∈ plannedNodes view) : source ∈ plannedNodes view := by
  induction path using Relation.TransGen.head_induction_on with
  | single edge =>
    rw [mem_plannedNodes] at planned ⊢
    exact ⟨edge.1, fun skipped => planned.2 ((separated _ _ edge).mp skipped)⟩
  | head edge _ ih =>
    rw [mem_plannedNodes] at ih ⊢
    exact ⟨edge.1, fun skipped => ih.2 ((separated _ _ edge).mp skipped)⟩

theorem planned_correct {view : ExecutionView ν} {node : ν}
    (planned : node ∈ plannedNodes view) : view.isCorrect node = true := by
  rw [mem_plannedNodes] at planned
  by_contra incorrect
  exact planned.2 (Or.inl ⟨planned.1, by simpa using incorrect⟩)

theorem planned_iff_runnable {view : ExecutionView ν} (separated : Separated view) (node : ν) :
    node ∈ plannedNodes view ↔ Runnable view node := by
  refine ⟨fun planned => ?_, Runnable.planned⟩
  exact {
    listed := ((mem_plannedNodes view node).mp planned).1
    correct := planned_correct planned
    upstream := fun source path => planned_correct (upstream_planned separated path planned) }

def planTable : DegreeTable ν :=
  computeInDegreesAndAdjacencyList view.leadsToNodes (plannedNodes view)
    (buildNodeMap (plannedNodes view))

def planQueue (flowStarts : List ν) : List ν :=
  initializeQueue flowStarts (plannedNodes view) (planTable view).inDegree

def planStart (flowStarts : List ν) : SortState ν :=
  { queue := planQueue view flowStarts
    inDegree := (planTable view).inDegree
    visitedNodes := planQueue view flowStarts
    stageNodes := [] }

theorem planTable_describes : DescribesEdges graph.leadsToNodes (plannedNodes graph.toExecutionView)
      (planTable graph.toExecutionView) :=
  compute_describesEdges _ _ (graph.unique.filter _)

variable (flowStarts : List ν)

theorem computeExecutionPlan_ok (fuel : Nat) (plan : ExecutionOrderer.ExecutionPlan ν) :
    computeExecutionPlan view flowStarts fuel = some (.ok plan) ↔
      performTopologicalSort (planTable view) fuel (planStart view flowStarts) = some plan.stages ∧
        plan.skipNodes = determineNodesToSkip view ∧
        plan.allNodes.length = (planTable view).nodeMap.length := by
  simp only [computeExecutionPlan, determineExecutionOrder, Option.map_map,
    Option.map_eq_some_iff, Function.comp_apply]
  change (∃ stages, performTopologicalSort (planTable view) fuel (planStart view flowStarts) =
      some stages ∧ Except.map _ (if (stages.map List.length).sum =
        (planTable view).nodeMap.length then Except.ok stages else Except.error cycleMessage) =
          Except.ok plan) ↔ _
  constructor
  · rintro ⟨stages, sorted, outcome⟩
    by_cases covered : (stages.map List.length).sum = (planTable view).nodeMap.length
    · simp only [covered, if_true, Except.map, Except.ok.injEq] at outcome
      subst outcome
      exact ⟨sorted, rfl, by simpa [ExecutionOrderer.ExecutionPlan.allNodes] using covered⟩
    · simp [covered, Except.map] at outcome
  · rintro ⟨sorted, skipped, covered⟩
    have total : (plan.stages.map List.length).sum = (planTable view).nodeMap.length := by
      simpa [ExecutionOrderer.ExecutionPlan.allNodes] using covered
    refine ⟨plan.stages, sorted, ?_⟩
    simp only [total, if_true, Except.map, ← skipped]

theorem planTable_inDegree_zero : (planTable graph.toExecutionView).inDegree node = 0 ↔
      ∀ source ∈ plannedNodes graph.toExecutionView, node ∉ graph.leadsToNodes source := by
  rw [(planTable_describes graph).inDegree, Int.natCast_eq_zero, count_eq_zero, mem_flatMap]
  exact ⟨fun none source mem edge => none ⟨source, mem, edge⟩,
    fun none ⟨source, mem, edge⟩ => none source mem edge⟩

theorem schedulesRunnable_of_skips
    (condition : SkipsWholeBranches graph.toExecutionView flowStarts) :
    SchedulesRunnable graph.toExecutionView flowStarts := by
  set view := graph.toExecutionView
  set planned := plannedNodes view with plannedDef
  have describes := planTable_describes graph
  have plannedUnique : planned.Nodup := graph.unique.filter _
  have closed : ∀ source ∈ planned, ∀ target ∈ view.leadsToNodes source, target ∈ planned := by
    intro source mem target leads
    rw [plannedDef, mem_plannedNodes] at mem ⊢
    refine ⟨graph.closed source mem.1 target leads, fun skipped => mem.2 ?_⟩
    exact (condition.separated source target ⟨mem.1, leads⟩).mpr skipped
  have adjacency : ∀ node ∈ planned, (planTable view).adjacencyList node =
      view.leadsToNodes node := by
    intro node mem
    rw [describes.adjacency, if_pos mem]
  have mapped : ∀ node, node ∈ (planTable view).nodeMap ↔ node ∈ planned := by
    intro node
    rw [describes.mem_nodeMap]
    refine ⟨?_, Or.inl⟩
    rintro (mem | target)
    · exact mem
    · obtain ⟨source, mem, leads⟩ := mem_flatMap.mp target
      exact closed source mem node leads
  -- A remaining node of in-degree zero has no predecessor at all.
  have isolated : ∀ node ∈ planned, (planTable view).inDegree node = 0 →
      ∀ source, ¬ Edge view source node := by
    intro node mem zero source edge
    refine (planTable_inDegree_zero graph node).mp zero source ?_ edge.2
    exact upstream_planned condition.separated (Relation.TransGen.single edge) mem
  have queueUnique : ((planQueue view flowStarts).filter fun node => node ∈ planned).Nodup := by
    rcases condition.started with none | listed
    · subst none
      simpa [planQueue, initializeQueue] using (plannedUnique.filter _).filter _
    refine nodup_iff_count_le_one.mpr fun node => ?_
    by_cases mem : node ∈ (planQueue view flowStarts).filter fun node => node ∈ planned
    · obtain ⟨queued, inPlanned⟩ := mem_filter.mp mem
      have inPlanned' : node ∈ planned := by simpa using inPlanned
      have zero : (planTable view).inDegree node = 0 := by
        simpa using (mem_filter.mp queued).2
      have once := listed node ((mem_plannedNodes view node).mp inPlanned').1
        ((mem_plannedNodes view node).mp inPlanned').2 (isolated node inPlanned' zero)
      have nonempty : flowStarts.isEmpty = false := by
        cases flowStarts with
        | nil => simp at once
        | cons _ _ => rfl
      calc ((planQueue view flowStarts).filter fun node => node ∈ planned).count node
          ≤ (planQueue view flowStarts).count node := List.Sublist.count_le _ filter_sublist
        _ ≤ flowStarts.count node := by
          simpa [planQueue, initializeQueue, nonempty] using
            List.Sublist.count_le node
              (filter_sublist (p := fun node => decide ((planTable view).inDegree node = 0))
                (l := flowStarts))
        _ = 1 := once
        _ ≤ 1 := le_refl 1
    · rw [count_eq_zero.mpr mem]
      exact Nat.zero_le 1
  have seeded : ∀ node ∈ planned, (planTable view).inDegree node = 0 →
      node ∈ planQueue view flowStarts := by
    intro node mem zero
    refine mem_filter.mpr ⟨?_, by simpa using zero⟩
    rcases condition.started with none | listed
    · simpa [none] using mem
    have once := listed node ((mem_plannedNodes view node).mp mem).1
      ((mem_plannedNodes view node).mp mem).2 (isolated node mem zero)
    have start : node ∈ flowStarts := count_pos_iff.mp (by omega)
    have nonempty : flowStarts.isEmpty = false := by
      cases flowStarts with
      | nil => simp at start
      | cons _ _ => rfl
    simpa [nonempty] using start
  have progress : Progress view.leadsToNodes planned [] (planStart view flowStarts).queue
      (planStart view flowStarts) := by
    constructor
    · intro node
      simpa [planStart] using describes.inDegree node
    · simp
    · simpa [planStart] using queueUnique
    · simp [planStart]
    · intro node mem unseen
      have nonnegative : 0 ≤ (planTable view).inDegree node := by
        rw [describes.inDegree node]
        exact Int.natCast_nonneg _
      have nonzero : (planTable view).inDegree node ≠ 0 := fun zero =>
        unseen (seeded node mem zero)
      simp only [planStart]
      omega
  have founded : WellFounded fun source target =>
      source ∈ planned ∧ target ∈ view.leadsToNodes source :=
    Subrelation.wf (fun edge => ⟨((mem_plannedNodes view _).mp edge.1).1, edge.2⟩)
      graph.wellFounded
  obtain ⟨stages, sorted, covered⟩ := performTopologicalSort_covers plannedUnique closed adjacency
    mapped founded _ [] (planStart view flowStarts) progress (Or.inl (le_refl _))
  rw [nil_append] at covered
  have mapPerm : (planTable view).nodeMap.Perm planned :=
    (perm_ext_iff_of_nodup describes.nodup_nodeMap plannedUnique).mpr mapped
  let plan : ExecutionOrderer.ExecutionPlan ν := ⟨determineNodesToSkip view, stages⟩
  refine ⟨_, plan, (computeExecutionPlan_ok view flowStarts _ plan).mpr ⟨sorted, rfl, ?_⟩, ?_, ?_⟩
  · exact covered.length_eq.trans mapPerm.length_eq.symm
  · exact covered.nodup_iff.mpr plannedUnique
  · intro node
    rw [← planned_iff_runnable condition.separated node]
    exact covered.mem_iff

/-- A plan of exactly the runnable nodes forces the condition: the node map can
then hold no other node, which rules out crossing edges, and sources are staged as
often as the starts list them. -/
theorem skips_of_schedulesRunnable
    (schedules : SchedulesRunnable graph.toExecutionView flowStarts) :
    SkipsWholeBranches graph.toExecutionView flowStarts := by
  set view := graph.toExecutionView
  obtain ⟨fuel, plan, returned, scheduledUnique, scheduled⟩ := schedules
  obtain ⟨sorted, _, covered⟩ := (computeExecutionPlan_ok view flowStarts fuel plan).mp returned
  have describes := planTable_describes graph
  -- Scheduled nodes lie in the map and are as many as the map, so the map holds nothing else.
  have included : plan.allNodes ⊆ (planTable view).nodeMap := by
    intro node mem
    have runnable := (scheduled node).mp mem
    exact (describes.mem_nodeMap node).mpr (Or.inl runnable.planned)
  have same : plan.allNodes.Perm (planTable view).nodeMap :=
    (scheduledUnique.subperm included).perm_of_length_le (le_of_eq covered.symm)
  have runnable_of_mapped : ∀ node, node ∈ (planTable view).nodeMap → Runnable view node :=
    fun node mem => (scheduled node).mp (same.mem_iff.mpr mem)
  have runnable_of_planned : ∀ node ∈ plannedNodes view, Runnable view node := fun node mem =>
    runnable_of_mapped node ((describes.mem_nodeMap node).mpr (Or.inl mem))
  have separated : Separated view := by
    intro source target edge
    have targetListed : target ∈ view.nodes := graph.closed source edge.1 target edge.2
    constructor
    · intro skipped
      by_contra kept
      have runnable := runnable_of_planned target ((mem_plannedNodes view target).mpr
        ⟨targetListed, kept⟩)
      -- The skipped source is incorrect itself or follows an incorrect node.
      rcases skipped with
        ⟨_, incorrect⟩ | ⟨first, firstEdge, incorrect⟩
      · simp [runnable.upstream source (Relation.TransGen.single edge)] at incorrect
      · simp [runnable.upstream first ((Relation.TransGen.single firstEdge).tail edge)] at incorrect
    · intro skipped
      by_contra kept
      have mem : source ∈ plannedNodes view := (mem_plannedNodes view source).mpr ⟨edge.1, kept⟩
      have mapped : target ∈ (planTable view).nodeMap :=
        (describes.mem_nodeMap target).mpr
          (Or.inr (mem_flatMap.mpr ⟨source, mem, edge.2⟩))
      have remains := (runnable_of_mapped target mapped).planned
      exact ((mem_plannedNodes view target).mp remains).2 skipped
  refine ⟨separated, ?_⟩
  by_cases none : flowStarts = []
  · exact Or.inl none
  refine Or.inr fun node listed kept isolated => ?_
  have mem : node ∈ plannedNodes view := (mem_plannedNodes view node).mpr ⟨listed, kept⟩
  have inMap : node ∈ (planTable view).nodeMap := (describes.mem_nodeMap node).mpr (Or.inl mem)
  have noEdge : ∀ source, node ∉ (planTable view).adjacencyList source := by
    intro source leads
    rw [describes.adjacency] at leads
    split at leads
    · rename_i sourcePlanned
      exact isolated source ⟨((mem_plannedNodes view source).mp sourcePlanned).1, leads⟩
    · simp at leads
  have counted := count_performTopologicalSort (planTable view) node inMap noEdge fuel
    (planStart view flowStarts) plan.stages sorted
  have onceStaged : plan.stages.flatten.count node = 1 :=
    count_eq_one_of_mem scheduledUnique (same.mem_iff.mpr inMap)
  have zero : (planTable view).inDegree node = 0 := by
    refine (planTable_inDegree_zero graph node).mpr fun source sourcePlanned leads => ?_
    exact isolated source ⟨((mem_plannedNodes view source).mp sourcePlanned).1, leads⟩
  have nonempty : flowStarts.isEmpty = false := by
    simpa [List.isEmpty_iff] using none
  have kept_in_queue : (planQueue view flowStarts).count node = flowStarts.count node := by
    simp only [planQueue, initializeQueue, nonempty]
    exact count_filter (by simpa using zero)
  calc flowStarts.count node = (planQueue view flowStarts).count node := kept_in_queue.symm
    _ = plan.stages.flatten.count node := counted.symm
    _ = 1 := onceStaged

/-- For every acyclic graph, every assignment of flags and every list of starts,
the planner returns a plan of exactly the runnable nodes if and only if no edge
crosses between skipped nodes and the others and the starts are complete. -/
theorem schedules_runnable_iff (flowStarts : List ν) :
    SchedulesRunnable graph.toExecutionView flowStarts ↔
      SkipsWholeBranches graph.toExecutionView flowStarts :=
  ⟨skips_of_schedulesRunnable graph flowStarts, schedulesRunnable_of_skips graph flowStarts⟩

/-- The nodes of the examples are distinct. -/
theorem fourNodes_nodup : [1, 2, 3, 4].Nodup := by decide

/-- A chain of three nodes whose first is incorrect, beside a separate correct start.
Skipping stops at the second node of the chain. -/
def brokenChain : ExecutionGraph Nat where
  nodes := [1, 2, 3, 4]
  leadsToNodes := fun node => if node = 1 then [2] else if node = 2 then [3] else []
  isCorrect := fun node => node != 1
  unique := fourNodes_nodup
  closed := by decide
  acyclic := by
    refine acyclic_of_rank id fun source target edge => ?_
    obtain ⟨_, leads⟩ := edge
    simp only at leads
    split at leads
    · simp_all
    · split at leads <;> simp_all

/-- With the separate start as the only flow start the planner does not schedule
the runnable nodes: the third node of the chain stays in the map and is never reached. -/
theorem brokenChain_not_scheduled : ¬ SchedulesRunnable brokenChain.toExecutionView [4] := by
  intro schedules
  have condition := skips_of_schedulesRunnable brokenChain [4] schedules
  have below : NearIncorrect brokenChain.toExecutionView 2 :=
    Or.inr ⟨1, by decide, rfl⟩
  rcases (condition.separated 2 3 (by decide)).mp below with
    ⟨_, incorrect⟩ | ⟨source, edge, incorrect⟩
  · simp [brokenChain] at incorrect
  · have first : source = 1 := by simpa [brokenChain] using incorrect
    rw [first] at edge
    exact absurd edge (by decide)

example : computeExecutionPlan brokenChain.toExecutionView [4] 5 =
    some (.error cycleMessage) := by rfl

end Flowfile.ExecutionPlan

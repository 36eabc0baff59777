import Flowfile.ExecutionPlan
import Flowfile.Library.PartialLists
import Flowfile.StageOrder

/-!
# Running a plan: failure propagation and completion callbacks

Stages run one after another. Within a stage the nodes that are not in the skip set are executed,
and every node that did not succeed enters the failed set and, with all its dependents, the skip
set. A cancelled run stops before its next stage, and an exception that escapes from a node ends the
run. After a run without either, the completion callbacks of nodes are invoked, with success exactly
when neither the node nor a dependent was left incomplete.

What the nodes do is a parameter of the run: which executions fail, which raise, when the
cancellation flag is seen and in which order parallel executions complete. One promise ties these
together, that nothing clears the flag during the run.

Dependents are enumerated by the recursive walk of the source, with a depth bound whose exhaustion
is visible. On an acyclic graph the walk ends and lists exactly the transitive successors.
-/

namespace Flowfile.RunGraph

open Flowfile.Library.PartialLists List
open Flowfile.ExecutionOrderer
open Flowfile.ExecutionPlan
open Option (bind_eq_some_iff)

universe u
variable {ν : Type u}

def getAllDependentNodes (leadsToNodes : ν → List ν) : Nat → ν → Option (List ν)
  | 0, _ => none
  | depth + 1, node => do
    let below ← (leadsToNodes node).mapM fun next => do
      let rest ← getAllDependentNodes leadsToNodes depth next
      pure (next :: rest)
    pure below.flatten

inductive NodeExecution where
  /-- A parameter could not be resolved. -/
  | parameterError
  /-- The execution raised; nothing catches it. -/
  | raised
  /-- The execution returned; the errors it left and the cancellation flag read after it. -/
  | returned (errors : Option String) (isCanceled : Bool)
  /-- The execution returned but completing the result record failed. -/
  | unreadable

/-- What the run sees of one execution: an escaping exception, or the success
field of the result, which is empty for a cancelled node. -/
inductive NodeOutcome where
  | raised
  | finished (success : Option Bool)
deriving DecidableEq

/-- The result record of one execution. -/
def executeSingleNode : NodeExecution → NodeOutcome
  | .parameterError => .finished (some false)
  | .raised => .raised
  | .returned errors isCanceled =>
    if isCanceled then .finished none else .finished (some errors.isNone)
  | .unreadable => .finished (some false)

/-- Only a result with success set counts as a success. -/
def NodeOutcome.succeeded (outcome : NodeOutcome) : Bool := outcome = .finished (some true)

/-- Everything a run observes from outside the graph. -/
structure RunBehaviour (ν : Type u) where
  /-- The cancellation flag as read before a stage. -/
  canceledBefore : Nat → Bool
  /-- The cancellation flag as read after all stages. -/
  canceledAtEnd : Bool
  /-- Nothing clears the flag during a run. -/
  staysCanceled : ∀ stage, canceledBefore stage = true → canceledAtEnd = true
  /-- What executing a node in a stage comes to. -/
  execution : Nat → ν → NodeExecution
  /-- Whether stages run on a pool of workers; a single node never does. -/
  parallel : Bool
  /-- Order in which the results of a stage arrive. -/
  completionOrder : Nat → List ν → List ν
  completionOrder_perm : ∀ stage nodes, (completionOrder stage nodes).Perm nodes

structure Execution (ν : Type u) where
  stage : Nat
  node : ν
  outcome : NodeOutcome

structure RunState (ν : Type u) where
  skipNodeIds : List ν
  failedNodeIds : List ν
  executed : List (Execution ν)
  raised : Bool

/-- Sequential execution stops at the first exception. -/
def untilRaised : List (Execution ν) → List (Execution ν)
  | [] => []
  | execution :: rest =>
    if execution.outcome = .raised then [execution] else execution :: untilRaised rest

def stageExecutions (behaviour : RunBehaviour ν) (stage : Nat) (nodesToRun : List ν) :
    List (Execution ν) :=
  let execute := fun node =>
    ({ stage, node, outcome := executeSingleNode (behaviour.execution stage node) } : Execution ν)
  if nodesToRun.length = 1 || !behaviour.parallel then untilRaised (nodesToRun.map execute)
  else (behaviour.completionOrder stage nodesToRun).map execute

def recordResult (leadsToNodes : ν → List ν) (depth : Nat) (state : RunState ν)
    (execution : Execution ν) : Option (RunState ν) :=
  if execution.outcome.succeeded then some state
  else do
    let dependents ← getAllDependentNodes leadsToNodes depth execution.node
    some { state with
      failedNodeIds := state.failedNodeIds ++ [execution.node]
      skipNodeIds := state.skipNodeIds ++ execution.node :: dependents }

variable [DecidableEq ν]

def executeStages (leadsToNodes : ν → List ν) (behaviour : RunBehaviour ν) (depth : Nat) :
    Nat → List (List ν) → RunState ν → Option (RunState ν)
  | _, [], state => some state
  | stage, nodes :: rest, state =>
    if behaviour.canceledBefore stage then some state
    else
      let nodesToRun := nodes.filter fun node => node ∉ state.skipNodeIds
      if nodesToRun.isEmpty then
        executeStages leadsToNodes behaviour depth (stage + 1) rest state
      else
        let executions := stageExecutions behaviour stage nodesToRun
        let recorded := { state with executed := state.executed ++ executions }
        if executions.any fun execution => execution.outcome = .raised then
          some { recorded with raised := true }
        else do
          let next ← executions.foldlM (recordResult leadsToNodes depth) recorded
          executeStages leadsToNodes behaviour depth (stage + 1) rest next

variable (view : ExecutionView ν)

/-- Callback invocations of a finished run, with the success they report. -/
def runPostExecutionCallbacks (depth : Nat) (hasCallback : ν → Bool)
    (failedNodeIds skipNodeIds : List ν) : Option (List (ν × Bool)) :=
  let incompleteNodeIds := failedNodeIds ++ skipNodeIds
  (view.nodes.filter hasCallback).mapM fun node => do
    let dependents ← getAllDependentNodes view.leadsToNodes depth node
    let downstreamIncomplete := decide (node ∈ incompleteNodeIds) ||
      dependents.any fun dependent => decide (dependent ∈ incompleteNodeIds)
    pure (node, !downstreamIncomplete)

structure RunReport (ν : Type u) where
  executed : List (Execution ν)
  callbacks : List (ν × Bool)

def runPlan (behaviour : RunBehaviour ν) (hasCallback : ν → Bool)
    (depth : Nat) (plan : ExecutionOrderer.ExecutionPlan ν) : Option (RunReport ν) := do
  let start : RunState ν :=
    { skipNodeIds := plan.skipNodes, failedNodeIds := [], executed := [], raised := false }
  let state ← executeStages view.leadsToNodes behaviour depth 0 plan.stages start
  if state.raised || behaviour.canceledAtEnd then
    pure { executed := state.executed, callbacks := [] }
  else
    let callbacks ← runPostExecutionCallbacks view depth hasCallback state.failedNodeIds
      state.skipNodeIds
    pure { executed := state.executed, callbacks }

def runGraph (flowStarts : List ν) (behaviour : RunBehaviour ν)
    (hasCallback : ν → Bool) (depth : Nat) : Option (Except String (RunReport ν)) := do
  match ← computeExecutionPlan view flowStarts depth with
  | .error message => pure (.error message)
  | .ok plan => do
    let report ← runPlan view behaviour hasCallback depth plan
    pure (.ok report)

omit [DecidableEq ν] in
/-- A returned walk lists exactly the nodes reachable along stored successors. The
induction is on the depth; a path is split at its first edge. -/
theorem mem_getAllDependentNodes (leadsToNodes : ν → List ν) (depth : Nat) (node : ν)
    (dependents : List ν)
    (walked : getAllDependentNodes leadsToNodes depth node = some dependents) (other : ν) :
    other ∈ dependents ↔
      Relation.TransGen (fun source target => target ∈ leadsToNodes source) node other := by
  induction depth generalizing node dependents other with
  | zero => simp [getAllDependentNodes] at walked
  | succ depth ih =>
    obtain ⟨below, mapped, flattened⟩ := bind_eq_some_iff.mp walked
    have flat : below.flatten = dependents := Option.some.inj flattened
    rw [← flat, mem_flatten, Relation.TransGen.head'_iff]
    constructor
    · rintro ⟨part, inBelow, mem⟩
      obtain ⟨next, leads, stepped⟩ := (mem_mapM _ _ _ mapped part).mp inBelow
      obtain ⟨rest, walkedNext, joined⟩ := bind_eq_some_iff.mp stepped
      have split : next :: rest = part := Option.some.inj joined
      rw [← split, mem_cons] at mem
      refine ⟨next, leads, ?_⟩
      rcases mem with rfl | later
      · exact Relation.ReflTransGen.refl
      · exact ((ih next rest walkedNext other).mp later).to_reflTransGen
    · rintro ⟨next, leads, path⟩
      obtain ⟨part, inBelow, stepped⟩ := mapM_step _ _ _ mapped next leads
      obtain ⟨rest, walkedNext, joined⟩ := bind_eq_some_iff.mp stepped
      have split : next :: rest = part := Option.some.inj joined
      refine ⟨part, inBelow, ?_⟩
      rw [← split, mem_cons]
      rcases Relation.reflTransGen_iff_eq_or_transGen.mp path with same | longer
      · exact Or.inl same
      · exact Or.inr ((ih next rest walkedNext other).mpr longer)

variable (graph : ExecutionGraph ν)

omit [DecidableEq ν] in
theorem getAllDependentNodes_returns (node : ν) (listed : node ∈ graph.nodes) :
    ∃ bound, ∀ depth, bound ≤ depth →
      ∃ dependents, getAllDependentNodes graph.leadsToNodes depth node = some dependents := by
  induction node using graph.wellFounded_forward.induction with
  | _ node ih =>
    obtain ⟨bound, enough⟩ := common_bound
      (fun next depth => ∃ dependents,
        getAllDependentNodes graph.leadsToNodes depth next = some dependents)
      (graph.leadsToNodes node)
      (fun next leads => ih next ⟨listed, leads⟩
        (graph.closed node listed next leads))
    refine ⟨bound + 1, fun depth large => ?_⟩
    obtain ⟨smaller, rfl⟩ : ∃ smaller, depth = smaller + 1 := ⟨depth - 1, by omega⟩
    obtain ⟨below, mapped⟩ := mapM_returns
      (fun next => do
        let rest ← getAllDependentNodes graph.leadsToNodes smaller next
        pure (next :: rest))
      (graph.leadsToNodes node) fun next leads => by
        obtain ⟨rest, walked⟩ := enough next leads smaller (by omega)
        exact ⟨next :: rest, by rw [walked]; rfl⟩
    exact ⟨below.flatten, bind_eq_some_iff.mpr ⟨below, mapped, rfl⟩⟩

omit [DecidableEq ν] in
theorem leads_of_edges {view : ExecutionView ν} {source target : ν}
    (path : Relation.TransGen (Edge view) source target) :
    Relation.TransGen (fun source target => target ∈ view.leadsToNodes source) source target :=
  Relation.TransGen.mono (fun _ _ edge => edge.2) _ _ path

structure Recorded (leadsToNodes : ν → List ν) (executions : List (Execution ν))
    (state next : RunState ν) : Prop where
  executed : next.executed = state.executed
  raised : next.raised = state.raised
  keepsSkipped : state.skipNodeIds ⊆ next.skipNodeIds
  blocks : ∀ execution ∈ executions, execution.outcome.succeeded = false →
    execution.node ∈ next.skipNodeIds ∧
      ∀ dependent, Relation.TransGen (fun source target => target ∈ leadsToNodes source)
        execution.node dependent → dependent ∈ next.skipNodeIds

omit [DecidableEq ν] in
/-- Recording one result blocks the dependents of a node that did not succeed. -/
theorem recordResult_recorded (leadsToNodes : ν → List ν) (depth : Nat)
    (state next : RunState ν) (execution : Execution ν)
    (recorded : recordResult leadsToNodes depth state execution = some next) :
    Recorded leadsToNodes [execution] state next := by
  unfold recordResult at recorded
  by_cases succeeded : execution.outcome.succeeded = true
  · rw [if_pos succeeded] at recorded
    cases recorded
    refine ⟨rfl, rfl, List.Subset.refl _, ?_⟩
    intro other mem failed
    rw [mem_singleton.mp mem, succeeded] at failed
    exact absurd failed (by decide)
  · rw [if_neg succeeded] at recorded
    obtain ⟨dependents, walked, joined⟩ := bind_eq_some_iff.mp recorded
    have same := Option.some.inj joined
    subst same
    refine ⟨rfl, rfl, subset_append_left _ _, ?_⟩
    intro other mem _
    rw [mem_singleton.mp mem]
    refine ⟨by simp, fun dependent path => ?_⟩
    have listed := (mem_getAllDependentNodes leadsToNodes depth _ dependents walked dependent).mpr
      path
    simp [listed]

omit [DecidableEq ν] in
theorem fold_recordResult_recorded (leadsToNodes : ν → List ν) (depth : Nat)
    (executions : List (Execution ν)) (state next : RunState ν)
    (recorded : executions.foldlM (recordResult leadsToNodes depth) state = some next) :
    Recorded leadsToNodes executions state next := by
  induction executions generalizing state with
  | nil =>
    cases recorded
    exact ⟨rfl, rfl, List.Subset.refl _, by simp⟩
  | cons execution rest ih =>
    rw [foldlM_cons] at recorded
    obtain ⟨middle, first, continued⟩ := bind_eq_some_iff.mp recorded
    have head := recordResult_recorded leadsToNodes depth state middle execution first
    have tail := ih middle continued
    refine ⟨tail.executed.trans head.executed, tail.raised.trans head.raised,
      fun _ mem => tail.keepsSkipped (head.keepsSkipped mem), ?_⟩
    intro other mem failed
    rcases mem_cons.mp mem with rfl | later
    · obtain ⟨self, below⟩ := head.blocks other (by simp) failed
      exact ⟨tail.keepsSkipped self, fun dependent path =>
        tail.keepsSkipped (below dependent path)⟩
    · exact tail.blocks other later failed

omit [DecidableEq ν] in
theorem untilRaised_sublist (executions : List (Execution ν)) :
    (untilRaised executions).Sublist executions := by
  induction executions with
  | nil => exact List.Sublist.refl _
  | cons execution rest ih =>
    unfold untilRaised
    split
    · exact List.Sublist.cons_cons _ (nil_sublist _)
    · exact List.Sublist.cons_cons _ ih

omit [DecidableEq ν] in
/-- Without an exception nothing is cut off. -/
theorem untilRaised_eq (executions : List (Execution ν))
    (quiet : ∀ execution ∈ untilRaised executions, execution.outcome ≠ .raised) :
    untilRaised executions = executions := by
  induction executions with
  | nil => rfl
  | cons execution rest ih =>
    unfold untilRaised at quiet ⊢
    split at quiet
    · rename_i raises
      exact absurd raises (quiet execution (by simp))
    · rename_i returns
      rw [if_neg returns, ih fun other mem =>
        quiet other (mem_cons_of_mem _ mem)]

omit [DecidableEq ν] in
theorem stageExecutions_sound (behaviour : RunBehaviour ν) (stage : Nat) (nodesToRun : List ν)
    (execution : Execution ν) (mem : execution ∈ stageExecutions behaviour stage nodesToRun) :
    execution.stage = stage ∧ execution.node ∈ nodesToRun := by
  unfold stageExecutions at mem
  dsimp only at mem
  split at mem
  · obtain ⟨node, listed, same⟩ := mem_map.mp ((untilRaised_sublist _).subset mem)
    subst same
    exact ⟨rfl, listed⟩
  · obtain ⟨node, listed, same⟩ := mem_map.mp mem
    subst same
    exact ⟨rfl, (behaviour.completionOrder_perm stage nodesToRun).subset listed⟩

omit [DecidableEq ν] in
theorem stageExecutions_complete (behaviour : RunBehaviour ν) (stage : Nat) (nodesToRun : List ν)
    (quiet : ∀ execution ∈ stageExecutions behaviour stage nodesToRun, execution.outcome ≠ .raised)
    (node : ν) (listed : node ∈ nodesToRun) :
    ∃ execution ∈ stageExecutions behaviour stage nodesToRun, execution.node = node := by
  unfold stageExecutions at quiet ⊢
  dsimp only at quiet ⊢
  split at quiet
  · rename_i sequential
    rw [if_pos sequential, untilRaised_eq _ quiet]
    exact ⟨_, mem_map.mpr ⟨node, listed, rfl⟩, rfl⟩
  · rename_i concurrent
    rw [if_neg concurrent]
    have arrives := (behaviour.completionOrder_perm stage nodesToRun).symm.subset listed
    exact ⟨_, mem_map.mpr ⟨node, arrives, rfl⟩, rfl⟩

def nodesToRun (state : RunState ν) (nodes : List ν) : List ν :=
  nodes.filter fun node => node ∉ state.skipNodeIds

theorem executeStages_cases (leadsToNodes : ν → List ν) (behaviour : RunBehaviour ν)
    (depth stage : Nat) (nodes : List ν) (rest : List (List ν)) (state final : RunState ν)
    (returned : executeStages leadsToNodes behaviour depth stage (nodes :: rest) state =
      some final) :
    (behaviour.canceledBefore stage = true ∧ final = state) ∨
    (nodesToRun state nodes = [] ∧
      executeStages leadsToNodes behaviour depth (stage + 1) rest state = some final) ∨
    (final.raised = true ∧ final.skipNodeIds = state.skipNodeIds ∧ final.executed =
        state.executed ++ stageExecutions behaviour stage (nodesToRun state nodes)) ∨
    ((∀ execution ∈ stageExecutions behaviour stage (nodesToRun state nodes),
        execution.outcome ≠ .raised) ∧
      ∃ next, Recorded leadsToNodes (stageExecutions behaviour stage (nodesToRun state nodes))
          { state with executed :=
              state.executed ++ stageExecutions behaviour stage (nodesToRun state nodes) } next ∧
        executeStages leadsToNodes behaviour depth (stage + 1) rest next = some final) := by
  unfold executeStages at returned
  dsimp only at returned
  split at returned
  · rename_i canceled
    exact Or.inl ⟨canceled, (Option.some.inj returned).symm⟩
  · split at returned
    · rename_i nothing
      exact Or.inr (Or.inl ⟨List.isEmpty_iff.mp nothing, returned⟩)
    · split at returned
      · have same := Option.some.inj returned
        subst same
        exact Or.inr (Or.inr (Or.inl ⟨rfl, rfl, rfl⟩))
      · rename_i quiet
        obtain ⟨next, recorded, continued⟩ := bind_eq_some_iff.mp returned
        refine Or.inr (Or.inr (Or.inr ⟨?_, next,
          fold_recordResult_recorded leadsToNodes depth _ _ next recorded, continued⟩))
        intro execution mem raises
        exact quiet (any_eq_true.mpr ⟨execution, mem, by simpa using raises⟩)

def NothingBelowFailures (reaches : ν → ν → Prop) (executed : List (Execution ν)) : Prop :=
  ∀ failed ∈ executed, ∀ later ∈ executed, failed.outcome.succeeded = false →
    reaches failed.node later.node → ¬ failed.stage < later.stage

/-- Reachability along stored successors. -/
def Reaches (leadsToNodes : ν → List ν) : ν → ν → Prop :=
  Relation.TransGen fun source target => target ∈ leadsToNodes source

/-- The invariant between stages: executions lie in earlier stages, and nodes that
did not succeed are skipped with everything below them. -/
structure Consistent (leadsToNodes : ν → List ν) (stage : Nat) (state : RunState ν) : Prop where
  earlier : ∀ execution ∈ state.executed, execution.stage < stage
  blocked : ∀ execution ∈ state.executed, execution.outcome.succeeded = false →
    execution.node ∈ state.skipNodeIds ∧
      ∀ dependent, Reaches leadsToNodes execution.node dependent → dependent ∈ state.skipNodeIds
  ordered : NothingBelowFailures (Reaches leadsToNodes) state.executed

variable {leadsToNodes : ν → List ν} {stage : Nat} {state : RunState ν}

theorem ordered_append (consistent : Consistent leadsToNodes stage state)
    (behaviour : RunBehaviour ν) (nodes : List ν) :
    NothingBelowFailures (Reaches leadsToNodes)
      (state.executed ++ stageExecutions behaviour stage (nodesToRun state nodes)) := by
  intro failed failedMember later laterMember unsuccessful reaches before
  rcases mem_append.mp laterMember with laterOld | laterNew
  · rcases mem_append.mp failedMember with failedOld | failedNew
    · exact consistent.ordered failed failedOld later laterOld unsuccessful reaches before
    · have here := (stageExecutions_sound behaviour stage _ failed failedNew).1
      have past := consistent.earlier later laterOld
      omega
  · obtain ⟨laterStage, ran⟩ := stageExecutions_sound behaviour stage _ later laterNew
    rcases mem_append.mp failedMember with failedOld | failedNew
    · have skipped := (consistent.blocked failed failedOld unsuccessful).2 later.node reaches
      have kept := (mem_filter.mp ran).2
      simp [skipped] at kept
    · have here := (stageExecutions_sound behaviour stage _ failed failedNew).1
      omega

omit [DecidableEq ν] in
/-- The invariant does not mention how many stages were passed without executions. -/
theorem Consistent.next (consistent : Consistent leadsToNodes stage state) :
    Consistent leadsToNodes (stage + 1) state :=
  { consistent with
    earlier := fun execution mem => Nat.lt_succ_of_lt (consistent.earlier execution mem) }

theorem Recorded.consistent {next : RunState ν}
    {behaviour : RunBehaviour ν} {nodes : List ν}
    (recorded : Recorded leadsToNodes (stageExecutions behaviour stage (nodesToRun state nodes))
      { state with executed :=
          state.executed ++ stageExecutions behaviour stage (nodesToRun state nodes) } next)
    (consistent : Consistent leadsToNodes stage state) :
    Consistent leadsToNodes (stage + 1) next := by
  constructor
  · intro execution mem
    rw [recorded.executed] at mem
    rcases mem_append.mp mem with old | new
    · exact Nat.lt_succ_of_lt (consistent.earlier execution old)
    · have here := (stageExecutions_sound behaviour stage _ execution new).1
      omega
  · intro execution mem unsuccessful
    rw [recorded.executed] at mem
    rcases mem_append.mp mem with old | new
    · obtain ⟨self, below⟩ := consistent.blocked execution old unsuccessful
      exact ⟨recorded.keepsSkipped self, fun dependent reaches =>
        recorded.keepsSkipped (below dependent reaches)⟩
    · exact recorded.blocks execution new unsuccessful
  · rw [recorded.executed]
    exact ordered_append consistent behaviour nodes

theorem executeStages_ordered (leadsToNodes : ν → List ν) (behaviour : RunBehaviour ν)
    (depth stage : Nat) (stages : List (List ν)) (state final : RunState ν)
    (consistent : Consistent leadsToNodes stage state)
    (returned : executeStages leadsToNodes behaviour depth stage stages state = some final) :
    NothingBelowFailures (Reaches leadsToNodes) final.executed := by
  induction stages generalizing stage state with
  | nil =>
    have same : state = final := Option.some.inj returned
    exact same ▸ consistent.ordered
  | cons nodes rest ih =>
    rcases executeStages_cases leadsToNodes behaviour depth stage nodes rest state final returned
      with ⟨_, same⟩ | ⟨_, continued⟩ | ⟨_, _, executed⟩ | ⟨_, next, recorded, continued⟩
    · exact same ▸ consistent.ordered
    · exact ih (stage + 1) state consistent.next continued
    · rw [executed]
      exact ordered_append consistent behaviour nodes
    · exact ih (stage + 1) next (recorded.consistent consistent) continued

theorem executeStages_extends (leadsToNodes : ν → List ν) (behaviour : RunBehaviour ν)
    (depth stage : Nat) (stages : List (List ν)) (state final : RunState ν)
    (returned : executeStages leadsToNodes behaviour depth stage stages state = some final) :
    state.skipNodeIds ⊆ final.skipNodeIds ∧ state.executed ⊆ final.executed := by
  induction stages generalizing stage state with
  | nil =>
    cases returned
    exact ⟨List.Subset.refl _, List.Subset.refl _⟩
  | cons nodes rest ih =>
    rcases executeStages_cases leadsToNodes behaviour depth stage nodes rest state final returned
      with ⟨_, same⟩ | ⟨_, continued⟩ | ⟨_, skipped, executed⟩ | ⟨_, next, recorded, continued⟩
    · subst same
      exact ⟨List.Subset.refl _, List.Subset.refl _⟩
    · exact ih (stage + 1) state continued
    · rw [skipped, executed]
      exact ⟨List.Subset.refl _, subset_append_left _ _⟩
    · obtain ⟨skips, executes⟩ := ih (stage + 1) next continued
      refine ⟨fun node mem => skips (recorded.keepsSkipped mem), fun execution mem => ?_⟩
      apply executes
      rw [recorded.executed]
      exact mem_append_left _ mem

def ExecutedSuccessfully (executed : List (Execution ν)) (node : ν) : Prop :=
  ∃ execution ∈ executed, execution.node = node ∧ execution.outcome.succeeded = true

theorem executeStages_complete (leadsToNodes : ν → List ν) (behaviour : RunBehaviour ν)
    (depth stage : Nat) (stages : List (List ν)) (state final : RunState ν)
    (returned : executeStages leadsToNodes behaviour depth stage stages state = some final)
    (quiet : final.raised = false) (kept : behaviour.canceledAtEnd = false)
    (node : ν) (planned : node ∈ stages.flatten) :
    node ∈ final.skipNodeIds ∨ ExecutedSuccessfully final.executed node := by
  induction stages generalizing stage state with
  | nil => simp at planned
  | cons nodes rest ih =>
    rcases executeStages_cases leadsToNodes behaviour depth stage nodes rest state final returned
      with ⟨canceled, _⟩ | ⟨nothing, continued⟩ | ⟨raised, _⟩ | ⟨noRaise, next, recorded, continued⟩
    · have ends := behaviour.staysCanceled stage canceled
      simp [ends] at kept
    · obtain ⟨skips, _⟩ := executeStages_extends leadsToNodes behaviour depth (stage + 1) rest
        state final continued
      rcases mem_append.mp planned with here | later
      · left
        apply skips
        by_contra absent
        have runs : node ∈ nodesToRun state nodes :=
          mem_filter.mpr ⟨here, by simpa using absent⟩
        simp [nothing] at runs
      · exact ih (stage + 1) state continued later
    · simp [raised] at quiet
    · obtain ⟨skips, executes⟩ := executeStages_extends leadsToNodes behaviour depth (stage + 1)
        rest next final continued
      rcases mem_append.mp planned with here | later
      · by_cases skipped : node ∈ state.skipNodeIds
        · exact Or.inl (skips (recorded.keepsSkipped skipped))
        have runs : node ∈ nodesToRun state nodes :=
          mem_filter.mpr ⟨here, by simpa using skipped⟩
        obtain ⟨execution, mem, same⟩ :=
          stageExecutions_complete behaviour stage _ noRaise node runs
        cases successful : execution.outcome.succeeded with
        | false =>
          exact Or.inl (skips (same ▸ (recorded.blocks execution mem successful).1))
        | true =>
          refine Or.inr ⟨execution, executes ?_, same, successful⟩
          rw [recorded.executed]
          exact mem_append_right _ mem
      · exact ih (stage + 1) next continued later

theorem executeStages_returns (behaviour : RunBehaviour ν) (depth : Nat)
    (walks : ∀ node ∈ graph.nodes, ∃ dependents,
      getAllDependentNodes graph.leadsToNodes depth node = some dependents)
    (stage : Nat) (stages : List (List ν)) (listed : ∀ node ∈ stages.flatten, node ∈ graph.nodes)
    (state : RunState ν) :
    ∃ final, executeStages graph.leadsToNodes behaviour depth stage stages state = some final := by
  induction stages generalizing stage state with
  | nil => exact ⟨state, rfl⟩
  | cons nodes rest ih =>
    have later := ih (stage + 1) fun node mem =>
      listed node (mem_append_right _ mem)
    unfold executeStages
    dsimp only
    split
    · exact ⟨state, rfl⟩
    · split
      · exact later state
      · split
        · exact ⟨_, rfl⟩
        · obtain ⟨next, recorded, _⟩ := foldlM_returns
            (recordResult graph.leadsToNodes depth) (fun _ => True)
            (stageExecutions behaviour stage (nodesToRun state nodes))
            { state with executed :=
                state.executed ++ stageExecutions behaviour stage (nodesToRun state nodes) }
            (fun current execution mem _ => by
              have ran := (stageExecutions_sound behaviour stage _ execution mem).2
              have inStage := (mem_filter.mp ran).1
              obtain ⟨dependents, walked⟩ := walks execution.node
                (listed execution.node (mem_append_left _ inStage))
              unfold recordResult
              split
              · exact ⟨_, rfl, trivial⟩
              · exact ⟨_, by rw [walked]; rfl, trivial⟩)
            trivial
          obtain ⟨final, continued⟩ := later next
          exact ⟨final, bind_eq_some_iff.mpr ⟨next, recorded, continued⟩⟩

structure PlanOf (graph : ExecutionGraph ν) (plan : ExecutionOrderer.ExecutionPlan ν) : Prop where
  listed : ∀ node ∈ plan.allNodes, node ∈ graph.nodes
  covered : ∀ node ∈ graph.nodes, node ∈ plan.skipNodes ∨ node ∈ plan.allNodes

theorem planOf_computed (flowStarts : List ν)
    (distinct : flowStarts.Nodup) (fuel : Nat) (plan : ExecutionOrderer.ExecutionPlan ν)
    (returned : computeExecutionPlan graph.toExecutionView flowStarts fuel = some (.ok plan)) :
    PlanOf graph plan := by
  obtain ⟨sorted, skipped, total⟩ :=
    (computeExecutionPlan_ok graph.toExecutionView flowStarts fuel plan).mp returned
  have describes := planTable_describes graph
  have queueUnique : (planQueue graph.toExecutionView flowStarts).Nodup := by
    unfold planQueue initializeQueue
    split
    · exact (graph.unique.filter _).filter _
    · exact distinct.filter _
  have once : Once (planTable graph.toExecutionView) []
      (planStart graph.toExecutionView flowStarts).queue
      (planStart graph.toExecutionView flowStarts) :=
    ⟨by simpa [planStart] using queueUnique, by simp [planStart], by simp⟩
  obtain ⟨stagedUnique, staged⟩ := performTopologicalSort_once _ fuel [] _ plan.stages sorted once
  rw [nil_append] at stagedUnique staged
  have same : plan.allNodes.Perm (planTable graph.toExecutionView).nodeMap :=
    (stagedUnique.subperm staged).perm_of_length_le (le_of_eq total.symm)
  have plannedListed : ∀ node ∈ plannedNodes graph.toExecutionView, node ∈ graph.nodes :=
    fun node mem => ((mem_plannedNodes _ node).mp mem).1
  constructor
  · intro node mem
    rcases (describes.mem_nodeMap node).mp (staged node mem) with planned | target
    · exact plannedListed node planned
    · obtain ⟨source, planned, leads⟩ := mem_flatMap.mp target
      exact graph.closed source (plannedListed source planned) node leads
  · intro node mem
    rw [skipped]
    by_cases skip : node ∈ determineNodesToSkip graph.toExecutionView
    · exact Or.inl skip
    · have planned : node ∈ plannedNodes graph.toExecutionView :=
        mem_filter.mpr ⟨mem, by simpa using skip⟩
      exact Or.inr (same.mem_iff.mpr ((describes.mem_nodeMap node).mpr (Or.inl planned)))

theorem callback_success (depth : Nat) (hasCallback : ν → Bool)
    (failedNodeIds skipNodeIds : List ν) (callbacks : List (ν × Bool))
    (returned : runPostExecutionCallbacks view depth hasCallback failedNodeIds skipNodeIds =
      some callbacks)
    (node : ν) (successful : (node, true) ∈ callbacks) :
    node ∈ view.nodes ∧ node ∉ skipNodeIds ∧
      ∀ dependent, Reaches view.leadsToNodes node dependent → dependent ∉ skipNodeIds := by
  obtain ⟨owner, mem, stepped⟩ := (mem_mapM _ _ _ returned _).mp successful
  obtain ⟨dependents, walked, joined⟩ := bind_eq_some_iff.mp stepped
  have pair := Option.some.inj joined
  obtain ⟨rfl, complete⟩ := Prod.mk.inj pair
  simp only [Bool.not_eq_true', Bool.or_eq_false_iff, decide_eq_false_iff_not,
    any_eq_false, decide_eq_true_eq, mem_append, not_or] at complete
  refine ⟨(mem_filter.mp mem).1, complete.1.2, fun dependent reaches => ?_⟩
  exact (complete.2 dependent
    ((mem_getAllDependentNodes _ depth owner dependents walked dependent).mpr reaches)).2

def CallbacksHonest (report : RunReport ν) : Prop :=
  ∀ node, (node, true) ∈ report.callbacks → ExecutedSuccessfully report.executed node ∧
      ∀ dependent, Relation.TransGen (Edge graph.toExecutionView) node dependent →
        ExecutedSuccessfully report.executed dependent

omit [DecidableEq ν] in
theorem reachable_listed {node dependent : ν}
    (path : Relation.TransGen (Edge graph.toExecutionView) node dependent) :
    dependent ∈ graph.nodes := by
  cases path with
  | single edge => exact graph.closed _ edge.1 _ edge.2
  | tail _ edge => exact graph.closed _ edge.1 _ edge.2

def planState (plan : ExecutionOrderer.ExecutionPlan ν) : RunState ν :=
  { skipNodeIds := plan.skipNodes, failedNodeIds := [], executed := [], raised := false }

section

variable (behaviour : RunBehaviour ν) (hasCallback : ν → Bool) (depth : Nat)
  (plan : ExecutionOrderer.ExecutionPlan ν)
include behaviour hasCallback depth plan

variable (report : RunReport ν)

theorem runPlan_cases (returned : runPlan view behaviour hasCallback depth plan = some report) :
    ∃ state, executeStages view.leadsToNodes behaviour depth 0 plan.stages (planState plan) =
        some state ∧
      report.executed = state.executed ∧
      (report.callbacks = [] ∨ (state.raised = false ∧ behaviour.canceledAtEnd = false ∧
          runPostExecutionCallbacks view depth hasCallback state.failedNodeIds
            state.skipNodeIds = some report.callbacks)) := by
  obtain ⟨state, executed, finished⟩ := bind_eq_some_iff.mp returned
  refine ⟨state, executed, ?_⟩
  by_cases ended : (state.raised || behaviour.canceledAtEnd) = true
  · rw [if_pos ended] at finished
    have same := Option.some.inj finished
    subst same
    exact ⟨rfl, Or.inl rfl⟩
  · rw [if_neg ended] at finished
    obtain ⟨callbacks, invoked, joined⟩ := bind_eq_some_iff.mp finished
    have same := Option.some.inj joined
    subst same
    obtain ⟨quiet, kept⟩ := Bool.or_eq_false_iff.mp (Bool.eq_false_iff.mpr ended)
    exact ⟨rfl, Or.inr ⟨quiet, kept, invoked⟩⟩

theorem runPlan_ordered
    (returned : runPlan graph.toExecutionView behaviour hasCallback depth plan = some report) :
    NothingBelowFailures (Relation.TransGen (Edge graph.toExecutionView)) report.executed := by
  obtain ⟨state, executed, same, _⟩ := runPlan_cases _ behaviour hasCallback depth plan report
    returned
  have initial : Consistent graph.leadsToNodes 0 (planState plan) :=
    ⟨by simp [planState], by simp [planState], by simp [planState, NothingBelowFailures]⟩
  have ordered := executeStages_ordered _ behaviour depth 0 plan.stages _ state initial executed
  rw [same]
  intro failed failedMember later laterMember unsuccessful reaches
  exact ordered failed failedMember later laterMember unsuccessful (leads_of_edges reaches)

theorem runPlan_honest (planOf : PlanOf graph plan) (report : RunReport ν)
    (returned : runPlan graph.toExecutionView behaviour hasCallback depth plan = some report) :
    CallbacksHonest graph report := by
  obtain ⟨state, executed, same, outcome⟩ := runPlan_cases _ behaviour hasCallback depth plan
    report returned
  intro node successful
  rcases outcome with none | ⟨quiet, kept, invoked⟩
  · simp [none] at successful
  have skips := (executeStages_extends _ behaviour depth 0 plan.stages _ state executed).1
  have succeeded : ∀ node ∈ graph.nodes, node ∉ state.skipNodeIds →
      ExecutedSuccessfully report.executed node := by
    intro node listed notSkipped
    have planned : node ∈ plan.stages.flatten := by
      rcases planOf.covered node listed with skipped | planned
      · exact absurd (skips skipped) notSkipped
      · exact planned
    rw [same]
    rcases executeStages_complete _ behaviour depth 0 plan.stages _ state executed quiet kept
      node planned with skipped | success
    · exact absurd skipped notSkipped
    · exact success
  obtain ⟨listed, self, below⟩ :=
    callback_success _ depth hasCallback _ _ report.callbacks invoked node successful
  refine ⟨succeeded node listed self, fun dependent path => ?_⟩
  exact succeeded dependent (reachable_listed graph path)
    (below dependent (leads_of_edges path))

end

theorem runPlan_returns (behaviour : RunBehaviour ν) (hasCallback : ν → Bool)
    (plan : ExecutionOrderer.ExecutionPlan ν) (planOf : PlanOf graph plan) :
    ∃ bound, ∀ depth, bound ≤ depth →
      ∃ report, runPlan graph.toExecutionView behaviour hasCallback depth plan = some report := by
  obtain ⟨bound, enough⟩ := common_bound
    (fun node depth => ∃ dependents,
      getAllDependentNodes graph.leadsToNodes depth node = some dependents)
    graph.nodes fun node listed => getAllDependentNodes_returns graph node listed
  refine ⟨bound, fun depth large => ?_⟩
  have walks := fun node listed => enough node listed depth large
  obtain ⟨state, executed⟩ := executeStages_returns graph behaviour depth walks 0 plan.stages
    planOf.listed (planState plan)
  by_cases ended : (state.raised || behaviour.canceledAtEnd) = true
  · refine ⟨{ executed := state.executed, callbacks := [] },
      bind_eq_some_iff.mpr ⟨state, executed, ?_⟩⟩
    rw [if_pos ended]
    rfl
  · obtain ⟨callbacks, invoked⟩ : ∃ callbacks, runPostExecutionCallbacks graph.toExecutionView
        depth hasCallback state.failedNodeIds state.skipNodeIds = some callbacks := by
      refine mapM_returns _ _ fun node mem => ?_
      obtain ⟨dependents, walked⟩ := walks node (mem_filter.mp mem).1
      exact ⟨_, by rw [walked]; rfl⟩
    refine ⟨{ executed := state.executed, callbacks },
      bind_eq_some_iff.mpr ⟨state, executed, ?_⟩⟩
    rw [if_neg ended]
    exact bind_eq_some_iff.mpr ⟨callbacks, invoked, rfl⟩

def twoChains : ExecutionGraph Nat where
  nodes := [1, 2, 3, 4]
  leadsToNodes := fun node => if node = 1 then [2] else if node = 3 then [4] else []
  isCorrect := fun _ => true
  unique := fourNodes_nodup
  closed := by decide
  acyclic := by
    refine Library.FiniteDag.acyclic_of_rank id fun source target edge => ?_
    obtain ⟨_, leads⟩ := edge
    simp only at leads
    split at leads
    · simp_all
    · split at leads <;> simp_all

def secondSourceFails : RunBehaviour Nat where
  canceledBefore := fun _ => false
  canceledAtEnd := false
  staysCanceled := by simp
  execution := fun _ node => .returned (if node = 3 then some "failed" else none) false
  parallel := true
  completionOrder := fun _ nodes => nodes.reverse
  completionOrder_perm := fun _ nodes => reverse_perm nodes

omit [DecidableEq ν] in
theorem stageExecutions_subperm (behaviour : RunBehaviour ν) (stage : Nat) (nodes : List ν) :
    ((stageExecutions behaviour stage nodes).map Execution.node).Subperm nodes := by
  unfold stageExecutions
  dsimp only
  split
  · refine ((untilRaised_sublist _).map Execution.node).subperm.trans ?_
    simp [Function.comp_def, Subperm.refl]
  · simpa [Function.comp_def] using (behaviour.completionOrder_perm stage nodes).subperm

/-- No node is executed more often than the stages list it. -/
theorem executeStages_subperm (leadsToNodes : ν → List ν) (behaviour : RunBehaviour ν)
    (depth stage : Nat) (stages : List (List ν)) (state final : RunState ν)
    (returned : executeStages leadsToNodes behaviour depth stage stages state = some final) :
    (final.executed.map Execution.node).Subperm
      (state.executed.map Execution.node ++ stages.flatten) := by
  induction stages generalizing stage state with
  | nil =>
    cases returned
    exact (sublist_append_left _ _).subperm
  | cons nodes rest ih =>
    rw [flatten_cons, ← append_assoc]
    have staged : ((state.executed ++ stageExecutions behaviour stage (nodesToRun state nodes)).map
        Execution.node).Subperm (state.executed.map Execution.node ++ nodes) := by
      rw [map_append]
      exact (subperm_append_left _).mpr
        ((stageExecutions_subperm behaviour stage _).trans filter_sublist.subperm)
    rcases executeStages_cases leadsToNodes behaviour depth stage nodes rest state final returned
      with ⟨_, same⟩ | ⟨_, continued⟩ | ⟨_, _, executed⟩ | ⟨_, next, recorded, continued⟩
    · rw [same, append_assoc]
      exact (sublist_append_left _ _).subperm
    · exact (ih (stage + 1) state continued).trans
        ((sublist_append_left _ nodes).append_right _).subperm
    · rw [executed]
      exact staged.trans (sublist_append_left _ _).subperm
    · have later := ih (stage + 1) next continued
      rw [recorded.executed] at later
      exact later.trans ((subperm_append_right _).mpr staged)

end Flowfile.RunGraph

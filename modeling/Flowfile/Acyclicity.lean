import Flowfile.EdgeSymmetry
import Flowfile.OpenedGraphs

/-!
# No cycles

The check of a new connection walks along successors, while a cycle is a matter of inputs.
It suffices as long as every input is listed by its source. Two operations break this: a
left connection whose source is not the right input too is deleted at its source only, and
deleting a node leaves it in the side inputs of other nodes and in the successors of nodes
that are no longer its inputs. In runs without these two no cycle comes up.

Files are another matter. Opening a file does not depend on the check.
-/

namespace Flowfile.Graph

open Library.EventRuns Library.FiniteDag

variable {P : Type} [DecidableEq P]

/-- Deleting the node breaks off, or no other node keeps it as input or successor. -/
def Removable (graph : FlowGraph P) (ref : NodeRef) : Prop :=
  (∃ target ∈ (graph.heap ref).leadsToNodes, (graph.heap target).mainInputs = none) ∨
    FeedsNoSide graph ref ∧ ∀ source ∈ graph.nodeDb, graph.outs source ref ≤ graph.ins source ref

variable (environment : Environment P)

/-- The condition under which every input stays listed by its source. -/
def KeepsCover (world : World P) (edit : Edit P) : Prop :=
  (∀ nodeId ref, edit.deletedId environment world.graph = some nodeId →
    world.graph.getNode nodeId = some ref → Removable world.graph ref) ∧
  ∀ fromId toId, edit = .deleteConnection fromId toId 2 → ∀ source target,
    world.graph.getNode fromId = some source → world.graph.getNode toId = some target →
    (world.graph.heap target).leftInput = some source →
    (world.graph.heap target).rightInput = some source

variable {graph : FlowGraph P}

theorem deleteNode_covered (covered : Covered graph) {fuel : Nat}
    {hashes : Hashes P} {nodeId : Int} {after : World P} {error : Option FlowError}
    (removable : ∀ ref, graph.getNode nodeId = some ref → Removable graph ref)
    (returned : World.deleteNode fuel ⟨graph, hashes⟩ nodeId = some (after, error)) :
    Covered after.graph := by
  rcases deleteNode_cases covered returned with ⟨_, _, same⟩ | ⟨ref, found,
    ⟨_, stored, middle, detached, dropped⟩ | ⟨_, _, ⟨processed, detached⟩, _⟩⟩
  · exact same ▸ covered
  · rcases removable ref found with ⟨target, lead, bare⟩ | ⟨noSide, noStale⟩
    · have present := stored target lead
      simp [bare] at present
    · have live := (Covered.getNode_spec found).1
      have deleted := deleted_of_detached covered live detached noSide
      exact dropped.covered (deleted.covered covered noStale)
  · exact detached.toInputsCut.covered covered

theorem perform_covered (world next : World P) (edit : Edit P)
    (covered : Covered world.graph) (keeps : KeepsCover environment world edit)
    (step : EditStep environment world edit next) : Covered next.graph := by
  obtain ⟨fuel, error, returned⟩ := step
  obtain ⟨deletes, disconnects⟩ := keeps
  apply perform_keeps covered_keptByNodes covered _ _ _ returned
  · intro nodeId deleted after failed removed
    exact deleteNode_covered covered (fun ref => deletes nodeId ref deleted) removed
  · intro fromId handle toId connectionClass same after failed added
    rcases addConnection_cases covered added with
      ⟨-, unchanged⟩ | ⟨source, target, port, fromFound, toFound, _, _, noReturn, connected⟩
    · exact unchanged ▸ covered
    · rw [connected]
      exact covered.connect (Covered.getNode_spec fromFound).1 (Covered.getNode_spec toFound).1
        noReturn
  · intro fromId toId connectionClass same after failed removed
    rcases deleteConnection_cases covered removed with
      unchanged | ⟨source, target, fromFound, toFound, deleted⟩
    · exact unchanged ▸ covered
    · apply deleted.covered covered
      rintro rfl
      exact disconnects fromId toId same source target fromFound toFound

/-- In every run of edits that keep inputs listed by their sources, no state has a cycle
through inputs, and every further such edit returns. No opened file has a cycle either. -/
theorem graphs_acyclic :
    (∀ world, Reached (EditStep environment) (KeepsCover environment) World.empty world →
      Acyclic world.graph.feeds ∧ ∀ edit, KeepsCover environment world edit →
        ∃ next, EditStep environment world edit next) ∧
    ∀ fuel information world error,
      openFlow environment fuel information = some (world, error) →
      Acyclic world.graph.feeds := by
  constructor
  · intro world reached
    have covered : Covered world.graph := reached.invariant (fun world => Covered world.graph)
      (fun world edit next => perform_covered environment world next edit)
      balanced_empty.toCovered
    refine ⟨covered.feeds_acyclic, ?_⟩
    intro edit keeps
    obtain ⟨bound, enough⟩ := perform_returns covered environment edit keeps.2
    obtain ⟨⟨next, error⟩, ran⟩ := enough bound (Nat.le_refl _) world.hashes
    exact ⟨next, bound, error, ran⟩
  · intro fuel information world error returned
    exact openFlow_acyclic returned

/-- A sufficient check for the condition. -/
def checkCover (world : World P) (edit : Edit P) : Bool :=
  let graph := world.graph
  ((edit.deletedId environment graph).bind graph.getNode).all (fun ref =>
    graph.nodeDb.all fun other =>
      (graph.heap other).leftInput ≠ some ref && (graph.heap other).rightInput ≠ some ref &&
        graph.outs other ref ≤ graph.ins other ref) &&
  match edit with
  | .deleteConnection _ _ connectionClass => connectionClass ≠ 2
  | _ => true

omit [DecidableEq P] in
/-- The check implies the condition. -/
theorem keepsCover_of_check {environment : Environment P} {world : World P} {edit : Edit P}
    (passed : checkCover environment world edit = true) : KeepsCover environment world edit := by
  simp only [checkCover, Bool.and_eq_true] at passed
  obtain ⟨deletes, disconnects⟩ := passed
  constructor
  · intro nodeId ref deleted found
    simp only [deleted, Option.bind_some, found, Option.all_some, List.all_eq_true,
      Bool.and_eq_true, decide_eq_true_eq] at deletes
    exact Or.inr ⟨fun target live => (deletes target live).1,
      fun source live => (deletes source live).2⟩
  · rintro fromId toId rfl
    simp at disconnects

def deleteFirst : List (Edit Unit) :=
  [.addNodePromise 1 "manual_input" promiseSetting, .addNodePromise 2 "filter" promiseSetting,
    .addNodePromise 3 "join" promiseSetting,
    .addConnection 1 "output-0" 2 0,
    .addConnection 2 "output-0" 3 2,
    .deleteNode 1]

def joinFile : FlowInformation Unit where
  data :=
    [⟨2, "join", 0, 0, none, some 1, none, [], [], none⟩,
      ⟨1, "manual_input", 0, 0, none, none, none, [2], ["output-0"], none⟩]
  nodeStarts := []
  nodeConnections := [(1, 2)]
  groups := []

/-- Deleting the first node of a chain leaves no cycle, and neither does opening the file. -/
theorem deleteFirst_acyclic :
    (∃ world, runChecked standardEnvironment (checkCover standardEnvironment) 10 World.empty
        deleteFirst = some world ∧ Acyclic world.graph.feeds ∧
      ∃ next, EditStep standardEnvironment world (.deleteConnection 2 3 0) next) ∧
    ∃ world, openFlow standardEnvironment 10 joinFile = some (world, none) ∧
      Acyclic world.graph.feeds := by
  obtain ⟨runs, files⟩ := graphs_acyclic (standardEnvironment (P := Unit))
  constructor
  · have checked : (runChecked standardEnvironment (checkCover standardEnvironment) 10 World.empty
        deleteFirst).any (fun world =>
          checkCover standardEnvironment world (.deleteConnection 2 3 0)) = true := by
      decide +kernel
    obtain ⟨world, ran, passed⟩ := (Option.any_eq_true _ _).mp checked
    obtain ⟨acyclic, returns⟩ := runs world
      (reached_of_runChecked (fun _ _ => keepsCover_of_check) Reached.start ran)
    exact ⟨world, ran, acyclic, returns _ (keepsCover_of_check passed)⟩
  · have opened : (openFlow standardEnvironment 10 joinFile).any
        (fun outcome => outcome.2 = none) = true := by decide +kernel
    obtain ⟨⟨world, error⟩, ran, finished⟩ := (Option.any_eq_true _ _).mp opened
    obtain rfl : error = none := by simpa using finished
    exact ⟨world, ran, files 10 joinFile world none ran⟩

def reconnectBehind : List (Edit Unit) :=
  [.addNodePromise 1 "filter" promiseSetting, .addNodePromise 2 "join" promiseSetting,
    .addConnection 1 "output-0" 2 2,
    .deleteConnection 1 2 2,
    .addConnection 2 "output-0" 1 0]

def hasMutualInputs (graph : FlowGraph P) : Bool :=
  graph.nodeDb.any fun ref => (graph.heap ref).allInputs.any fun source =>
    graph.nodeDb.contains source && (graph.heap source).allInputs.contains ref

omit [DecidableEq P] in
theorem not_acyclic_of_mutual (found : hasMutualInputs graph = true) : ¬ Acyclic graph.feeds := by
  intro acyclic
  simp only [hasMutualInputs, List.any_eq_true, Bool.and_eq_true, List.contains_eq_mem,
    decide_eq_true_eq] at found
  obtain ⟨ref, live, source, input, sourceLive, back⟩ := found
  apply acyclic ref
  exact (Relation.TransGen.single ⟨sourceLive, back⟩).tail ⟨live, input⟩

/-- After these edits the filter and the join are inputs of each other. -/
theorem reconnectBehind_cyclic : ∃ world, Reached (EditStep standardEnvironment) (fun _ _ => True)
      (World.empty : World Unit) world ∧ ¬ Acyclic world.graph.feeds := by
  have tied : (runEdits standardEnvironment 10 World.empty reconnectBehind).any
      (fun world => hasMutualInputs world.graph) = true := by decide +kernel
  obtain ⟨world, ran, found⟩ := (Option.any_eq_true _ _).mp tied
  exact ⟨world, reached_of_runEdits Reached.start ran, not_acyclic_of_mutual found⟩

end Flowfile.Graph

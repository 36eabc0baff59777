import Flowfile.EditOutcomes
import Flowfile.Library.EventRuns
import Flowfile.NodeStore

/-!
# Connections seen from both ends

A connection is stored at its source and at its target. After any run of edits that
starts from the empty graph the two records should agree, and no node should mention
one that is gone. They do agree as long as no edit does one of four things: connect to an
occupied port, delete a main connection that pops the source twice, delete a left
connection whose source is not the right input too, or delete a node that is a left or
right input.

The last of these is easy to meet. Deleting the right side of a join leaves the
join with an input that is not in the graph.
-/

namespace Flowfile.Graph

open Library.EventRuns
open World (empty)

variable {P : Type}

/-- Both ends of every connection agree, and all ends are in the graph. -/
structure EdgeSymmetric (graph : FlowGraph P) : Prop where
  agree : ∀ source ∈ graph.nodeDb, ∀ target ∈ graph.nodeDb,
    target ∈ (graph.heap source).leadsToNodes ↔ source ∈ (graph.heap target).allInputs
  inputsLive : ∀ ref ∈ graph.nodeDb, ∀ source ∈ (graph.heap ref).allInputs, source ∈ graph.nodeDb
  leadsLive : ∀ ref ∈ graph.nodeDb, ∀ target ∈ (graph.heap ref).leadsToNodes,
    target ∈ graph.nodeDb

variable {graph : FlowGraph P}

/-- A balanced wiring looks the same from both ends. -/
theorem Balanced.edgeSymmetric (balanced : Balanced graph) : EdgeSymmetric graph := by
  constructor
  case agree =>
    intro source sourceLive target targetLive
    have same := balanced.balanced source sourceLive target targetLive
    simp only [FlowGraph.outs, FlowGraph.ins] at same
    rw [← List.count_pos_iff, ← List.count_pos_iff, same]
  case inputsLive =>
    exact fun ref live source input => balanced.inputsLive source ref ⟨live, input⟩
  case leadsLive =>
    exact fun ref live target lead => balanced.leadsLive ref target ⟨live, lead⟩

/-- Deleting the node cuts it out everywhere, or fails before it changes anything. -/
def Detachable (graph : FlowGraph P) (ref : NodeRef) : Prop :=
  FeedsNoSide graph ref ∨ ∃ first rest,
    (graph.heap ref).leadsToNodes = first :: rest ∧ (graph.heap first).mainInputs = none

def Connectable (graph : FlowGraph P) (source target : NodeRef) (port : InputPort) : Prop :=
  PortFree (graph.heap target) port ∨ (graph.heap target).nodeTemplate.input = 0 ∨
    Relation.ReflTransGen graph.leads target source

/-- The connection is in none of the cases in which only one end of it goes. -/
def Disconnectable (graph : FlowGraph P) (source target : NodeRef) (connectionClass : Fin 10) :
    Prop :=
  (connectionClass = 0 → DeletesOne source.nodeId ((graph.heap target).mainInputs.getD [])) ∧
    (connectionClass = 2 → (graph.heap target).leftInput = some source →
      (graph.heap target).rightInput = some source)

/-- The condition under which an edit treats both ends of every connection alike. -/
def KeepsBothEnds (environment : Environment P) (world : World P) (edit : Edit P) : Prop :=
  (∀ nodeId ref, edit.deletedId environment world.graph = some nodeId →
    world.graph.getNode nodeId = some ref → Detachable world.graph ref) ∧
  (∀ fromId handle toId connectionClass source target port,
    edit = .addConnection fromId handle toId connectionClass →
    world.graph.getNode fromId = some source → world.graph.getNode toId = some target →
    nodeInputConnectionType connectionClass = .ok port →
    Connectable world.graph source target port) ∧
  ∀ fromId toId connectionClass source target,
    edit = .deleteConnection fromId toId connectionClass →
    world.graph.getNode fromId = some source → world.graph.getNode toId = some target →
    Disconnectable world.graph source target connectionClass

theorem balanced_empty : Balanced (empty : World P).graph := by
  constructor
  case toCovered =>
    constructor
    case acyclic =>
      apply Library.FiniteDag.acyclic_of_rank fun _ => 0
      rintro source target ⟨live, _⟩
      simp [empty] at live
    case leadsLive =>
      rintro source target ⟨live, _⟩
      simp [empty] at live
    case inputsLive =>
      rintro source target ⟨live, _⟩
      simp [empty] at live
    all_goals simp [empty]
  case balanced => simp [empty]

variable {fuel : Nat} {environment : Environment P} {world : World P} {edits : List (Edit P)}

section

variable [DecidableEq P]

/-- Carrying out an edit with some fuel. An exception is the caller's affair. -/
def EditStep (environment : Environment P) (world : World P) (edit : Edit P) (next : World P) :
    Prop :=
  ∃ fuel error, world.perform environment fuel edit = some (next, error)

theorem deleteNode_balanced (balanced : Balanced graph)
    {hashes : Hashes P} {nodeId : Int} {after : World P} {error : Option FlowError}
    (detachable : ∀ ref, graph.getNode nodeId = some ref → Detachable graph ref)
    (returned : World.deleteNode fuel ⟨graph, hashes⟩ nodeId = some (after, error)) :
    Balanced after.graph := by
  rcases deleteNode_cases balanced.toCovered returned with ⟨_, _, same⟩ | ⟨ref, found,
    ⟨_, stored, middle, detached, dropped⟩ | ⟨_, ⟨target, lead, bare⟩, _, early⟩⟩
  · exact same ▸ balanced
  · have live := (Covered.getNode_spec found).1
    cases detachable ref found with
    | inl noSide =>
      have deleted := deleted_of_detached balanced.toCovered live detached noSide
      exact dropped.balanced (deleted.balanced balanced live)
    | inr fails =>
      obtain ⟨first, rest, split, missing⟩ := fails
      have present := stored first (by simp [split])
      simp [missing] at present
  · have live := (Covered.getNode_spec found).1
    cases detachable ref found with
    | inl noSide =>
      -- The successor has the node as input, but no port is left for it.
      exfalso
      have targetLive := balanced.leadsLive ref target ⟨live, lead⟩
      have input := (balanced.edgeSymmetric.agree ref live target targetLive).mp lead
      obtain ⟨notLeft, notRight⟩ := noSide target targetLive
      simp [FlowNode.allInputs, bare, notLeft, notRight] at input
    | inr fails =>
      obtain ⟨first, rest, split, missing⟩ := fails
      exact early first rest split missing ▸ balanced

theorem perform_balanced (environment : Environment P) (world next : World P) (edit : Edit P)
    (balanced : Balanced world.graph) (keeps : KeepsBothEnds environment world edit)
    (step : EditStep environment world edit next) : Balanced next.graph := by
  obtain ⟨fuel, error, returned⟩ := step
  obtain ⟨deletes, connects, disconnects⟩ := keeps
  apply perform_keeps balanced_keptByNodes balanced _ _ _ returned
  · intro nodeId deleted after failed removed
    exact deleteNode_balanced balanced (fun ref => deletes nodeId ref deleted) removed
  · intro fromId handle toId connectionClass same after failed added
    rcases addConnection_cases balanced.toCovered added with
      ⟨-, unchanged⟩ |
        ⟨source, target, port, fromFound, toFound, typed, takesInput, noReturn, connected⟩
    · exact unchanged ▸ balanced
    rcases connects _ _ _ _ source target port same fromFound toFound typed with
      free | refused | downstream
    · rw [connected]
      exact balanced.connect (Covered.getNode_spec fromFound).1
        (Covered.getNode_spec toFound).1 free noReturn
    · exact absurd refused takesInput
    · exact absurd downstream noReturn
  · intro fromId toId connectionClass same after failed removed
    rcases deleteConnection_cases balanced.toCovered removed with
      unchanged | ⟨source, target, fromFound, toFound, deleted⟩
    · exact unchanged ▸ balanced
    · obtain ⟨once, leftAllowed⟩ := disconnects _ _ _ source target same fromFound toFound
      exact deleted.balanced balanced leftAllowed once

/-- In every run of edits that treat both ends of connections alike, both ends agree in
every state, no node mentions one that is gone, and every further such edit returns. -/
theorem edges_symmetric (environment : Environment P) (world : World P)
    (reached : Reached (EditStep environment) (KeepsBothEnds environment) empty world) :
    EdgeSymmetric world.graph ∧ ∀ edit, KeepsBothEnds environment world edit →
      ∃ next, EditStep environment world edit next := by
  have balanced : Balanced world.graph := reached.invariant (fun world => Balanced world.graph)
    (fun world edit next => perform_balanced environment world next edit) balanced_empty
  refine ⟨balanced.edgeSymmetric, ?_⟩
  intro edit keeps
  have leftAllowed : ∀ fromId toId, edit = .deleteConnection fromId toId 2 → ∀ source target,
      world.graph.getNode fromId = some source → world.graph.getNode toId = some target →
      (world.graph.heap target).leftInput = some source →
      (world.graph.heap target).rightInput = some source := by
    intro fromId toId same source target fromFound toFound
    exact (keeps.2.2 fromId toId 2 source target same fromFound toFound).2 rfl
  obtain ⟨bound, enough⟩ := perform_returns balanced.toCovered environment edit leftAllowed
  obtain ⟨⟨next, error⟩, ran⟩ := enough bound (Nat.le_refl _) world.hashes
  exact ⟨next, bound, error, ran⟩

/-- A sufficient check for the condition, without search along successors. -/
def checkBothEnds (environment : Environment P) (world : World P) (edit : Edit P) : Bool :=
  let graph := world.graph
  let unused (ref : NodeRef) : Bool := graph.nodeDb.all fun target =>
    (graph.heap target).leftInput ≠ some ref && (graph.heap target).rightInput ≠ some ref
  let detachable : Bool :=
    ((edit.deletedId environment graph).bind graph.getNode).all unused
  match edit with
  | .addConnection _ _ toId connectionClass =>
    detachable && (graph.getNode toId).all fun target =>
      match nodeInputConnectionType connectionClass with
      | .error _ => true
      | .ok .main => (graph.heap target).mainInputs.getD [] = [] ||
          2 < (graph.heap target).nodeTemplate.input
      | .ok .right => (graph.heap target).rightInput.isNone
      | .ok .left => (graph.heap target).leftInput.isNone
  | .deleteConnection _ _ connectionClass => detachable && connectionClass = 1
  | _ => detachable

def runChecked (environment : Environment P) (check : World P → Edit P → Bool) (fuel : Nat) :
    World P → List (Edit P) → Option (World P)
  | world, [] => some world
  | world, edit :: rest =>
    if check world edit then do
      let (next, _) ← world.perform environment fuel edit
      runChecked environment check fuel next rest
    else none

omit [DecidableEq P] in
/-- The check implies the condition. -/
theorem keepsBothEnds_of_check {edit : Edit P}
    (passed : checkBothEnds environment world edit = true) :
    KeepsBothEnds environment world edit := by
  have detachable : ((edit.deletedId environment world.graph).bind world.graph.getNode).all
      (fun ref => world.graph.nodeDb.all fun target =>
        (world.graph.heap target).leftInput ≠ some ref &&
          (world.graph.heap target).rightInput ≠ some ref) = true := by
    simp only [checkBothEnds] at passed
    split at passed
    · exact (Bool.and_eq_true_iff.mp passed).1
    · exact (Bool.and_eq_true_iff.mp passed).1
    · exact passed
  refine ⟨?_, ?_, ?_⟩
  · intro nodeId ref deleted found
    simp only [deleted, Option.bind_some, found, Option.all_some] at detachable
    exact Or.inl fun target live => by simpa using List.all_eq_true.mp detachable target live
  · rintro fromId handle toId connectionClass source target port rfl fromFound toFound typed
    simp only [checkBothEnds, Bool.and_eq_true] at passed
    have free := passed.2
    simp only [toFound, Option.all_some, typed] at free
    cases port with
    | main => exact Or.inl (by simpa [PortFree] using free)
    | right => exact Or.inl (by simpa [PortFree] using free)
    | left => exact Or.inl (by simpa [PortFree] using free)
  · rintro fromId toId connectionClass source target rfl fromFound toFound
    simp only [checkBothEnds, Bool.and_eq_true, decide_eq_true_eq] at passed
    have right : connectionClass = 1 := passed.2
    subst right
    constructor <;> intro impossible <;> exact absurd impossible (by decide)

theorem reached_of_runChecked {check : World P → Edit P → Bool}
    {condition : World P → Edit P → Prop}
    (sound : ∀ world edit, check world edit = true → condition world edit) {start final : World P}
    (earlier : Reached (EditStep environment) condition start world)
    (ran : runChecked environment check fuel world edits = some final) :
    Reached (EditStep environment) condition start final := by
  induction edits generalizing world with
  | nil => exact Option.some.inj ran ▸ earlier
  | cons edit rest ih =>
    simp only [runChecked] at ran
    split at ran
    case isTrue passed =>
      obtain ⟨⟨next, error⟩, performed, continued⟩ := Option.bind_eq_some_iff.mp ran
      exact ih
        (earlier.step (sound world edit passed) ⟨fuel, error, performed⟩) continued
    case isFalse => simp at ran

theorem reached_of_runEdits {start final : World P}
    (earlier : Reached (EditStep environment) (fun _ _ => True) start world)
    (ran : runEdits environment fuel world edits = some final) :
    Reached (EditStep environment) (fun _ _ => True) start final := by
  induction edits generalizing world with
  | nil => exact Option.some.inj ran ▸ earlier
  | cons edit rest ih =>
    obtain ⟨⟨next, error⟩, performed, continued⟩ := Option.bind_eq_some_iff.mp ran
    exact ih (earlier.step trivial ⟨fuel, error, performed⟩) continued

end

/-- Two sources feed the sides of a join, and the left source is deleted. -/
def deleteMainSource : List (Edit Unit) :=
  [.addNodePromise 1 "manual_input" promiseSetting, .addNodePromise 2 "manual_input" promiseSetting,
    .addNodePromise 3 "join" promiseSetting,
    .addConnection 1 "output-0" 3 0,
    .addConnection 2 "output-0" 3 1,
    .deleteNode 1]

theorem deleteMainSource_symmetric :
    ∃ world, runChecked standardEnvironment (checkBothEnds standardEnvironment) 10 empty
        deleteMainSource = some world ∧
      EdgeSymmetric world.graph ∧ ∃ next,
        EditStep standardEnvironment world (.deleteConnection 2 3 1) next := by
  have runs : (runChecked standardEnvironment (checkBothEnds standardEnvironment) 10 empty
      deleteMainSource).any (fun world =>
        checkBothEnds standardEnvironment world (.deleteConnection 2 3 1)) = true := by
    decide +kernel
  obtain ⟨world, ran, passed⟩ := (Option.any_eq_true _ _).mp runs
  obtain ⟨symmetric, returns⟩ := edges_symmetric standardEnvironment world
    (reached_of_runChecked (fun _ _ => keepsBothEnds_of_check) Reached.start ran)
  exact ⟨world, ran, symmetric, returns _ (keepsBothEnds_of_check passed)⟩

def deleteRightSource : List (Edit Unit) :=
  [.addNodePromise 1 "manual_input" promiseSetting, .addNodePromise 2 "manual_input" promiseSetting,
    .addNodePromise 3 "join" promiseSetting,
    .addConnection 1 "output-0" 3 0,
    .addConnection 2 "output-0" 3 1,
    .deleteNode 2]

def hasDanglingInput (graph : FlowGraph P) : Bool :=
  graph.nodeDb.any fun ref => (graph.heap ref).allInputs.any fun source =>
    !graph.nodeDb.contains source

/-- After deleting the right source of a join, the join still has it as input. -/
theorem deleteRightSource_dangling :
    ∃ world, Reached (EditStep standardEnvironment) (fun _ _ => True)
      (empty : World Unit) world ∧ ¬ EdgeSymmetric world.graph := by
  have dangling : (runEdits standardEnvironment 10 empty deleteRightSource).any
      (fun world => hasDanglingInput world.graph) = true := by decide +kernel
  obtain ⟨world, ran, found⟩ := (Option.any_eq_true _ _).mp dangling
  refine ⟨world, reached_of_runEdits Reached.start ran, ?_⟩
  intro symmetric
  simp only [hasDanglingInput, List.any_eq_true, Bool.not_eq_true', List.contains_eq_mem,
    decide_eq_false_iff_not] at found
  obtain ⟨ref, live, source, input, absent⟩ := found
  exact absent (symmetric.inputsLive ref live source input)

end Flowfile.Graph

import Flowfile.FlowFile
import Flowfile.History
import Flowfile.NodeStore
import Mathlib.Data.List.Sort

/-!
# The history of a flow graph

The host of the history manager is the flow graph with its snapshots. Snapshots are
compared by a signature of their nodes and groups, taken in the order of their ids. It
leaves out what a snapshot also holds: descriptions, references, output handles and
starting nodes. Hashing the signature is taken to be injective.

A restore that ends without an exception leaves a graph that depends on the snapshot alone,
since it is rebuilt from nothing.
-/

namespace Flowfile.Graph

open History

variable {P D : Type}

/-- What enters the hash of a node. -/
structure NodeSignature (D : Type) where
  id : Int
  type : String
  inputIds : List Int
  leftInputId : Option Int
  rightInputId : Option Int
  outputs : List Int
  xPosition : Int
  yPosition : Int
  groupId : Option Int
  settingInput : Option D
deriving DecidableEq

/-- What enters the hash of a snapshot. -/
structure SnapshotSignature (D : Type) where
  nodes : List (NodeSignature D)
  groups : List GroupInformation
deriving DecidableEq

def FlowfileNode.signature (node : FlowfileNode D) : NodeSignature D where
  id := node.id
  type := node.type
  inputIds := node.inputIds.getD []
  leftInputId := node.leftInputId
  rightInputId := node.rightInputId
  outputs := node.outputs
  xPosition := node.xPosition
  yPosition := node.yPosition
  groupId := node.groupId
  settingInput := node.settingInput

def FlowfileData.computeHash (data : FlowfileData D) : SnapshotSignature D where
  nodes := (data.nodes.insertionSort fun first second => first.id ≤ second.id).map
    FlowfileNode.signature
  groups := data.groups.insertionSort fun first second => first.id ≤ second.id

section

variable [DecidableEq P] (environment : Environment P) (codec : SettingsCodec P D)
  (sourceTypes : String) (fuel : Nat)

/-- Restoring as the history sees it: an exception is known by its message. A rebuild that
does not end within its fuel has raised. -/
def World.restoreForHistory (world : World P)
    (snapshot : FlowfileData D) : World P × Option String :=
  match world.restoreFromSnapshot environment codec fuel snapshot with
  | some (restored, error) => (restored, error.map (FlowError.message sourceTypes))
  | none => (World.empty, some "maximum recursion depth exceeded")

/-- A restore that does not raise leaves a graph that depends on the snapshot alone. -/
theorem restoreForHistory_eq {sourceTypes : String} {fuel : Nat} {world : World P}
    {snapshot : FlowfileData D}
    (finished : (world.restoreForHistory environment codec sourceTypes fuel snapshot).2 = none)
    (other : World P) :
    other.restoreForHistory environment codec sourceTypes fuel snapshot =
      world.restoreForHistory environment codec sourceTypes fuel snapshot := by
  simp only [World.restoreForHistory, World.restoreFromSnapshot] at finished ⊢
  cases loaded : snapshot.flowInformation codec with
  | error error => simp [loaded] at finished
  | ok information =>
  simp only [loaded] at finished ⊢
  cases rebuilt : rebuild environment fuel information with
  | none => rfl
  | some outcome =>
  obtain ⟨restored, error⟩ := outcome
  cases error with
  | none => rfl
  | some error => simp [rebuilt] at finished

def flowHost : RestoringHost (World P) (FlowfileData D) (SnapshotSignature D) where
  getFlowfileData world := world.graph.getFlowfileData codec
  restoreFromSnapshot := World.restoreForHistory environment codec sourceTypes fuel
  computeHash := FlowfileData.computeHash
  nodeCount snapshot := snapshot.nodes.length
  readBack snapshot :=
    (World.empty.restoreForHistory environment codec sourceTypes fuel
      snapshot).1.graph.getFlowfileData codec
  readBack_spec world snapshot finished := by
    rw [restoreForHistory_eq environment codec finished World.empty]

end

def bareCodec : SettingsCodec Unit Unit where
  dump _ _ := ()
  validate _ _ := .ok ⟨(), false, false, false⟩
  getDefaultDescription _ := ""

def editedWorld (edits : List (Edit Unit)) : World Unit :=
  (runEdits standardEnvironment 10 World.empty edits).getD World.empty

def bareHost : RestoringHost (World Unit) (FlowfileData Unit) (SnapshotSignature Unit) :=
  flowHost standardEnvironment bareCodec "" 10

end Flowfile.Graph

import Flowfile.Library.EventRuns
import Mathlib.Data.List.Basic

/-!
# The history manager: undo, redo and the dirty flag

The manager keeps two bounded stacks of snapshots and a flag that says whether anything changed
since the last save. The graph is abstracted to a host: a function that reads the snapshot, one that
rebuilds the graph from a snapshot and may raise half way, and the structural hash by which
snapshots are compared. Nothing is assumed about how well the rebuilt graph matches the snapshot,
nor about what the hash drops.

Stacks are lists with the newest entry first. Pushing onto a full stack evicts the oldest entry. The
hash of an entry is that of its snapshot, and the time stamp, which nothing reads, is left out.

A session is a graph with its manager and the snapshot at the last save. Its events are those that
callers issue: a capture followed by the change it announces, a change followed by a capture of the
earlier snapshot, undo, redo and saving. The changed graph is arbitrary.
-/

namespace Flowfile.History

open Flowfile.Library.EventRuns

universe u v w

/-- Kinds of recorded actions. -/
inductive HistoryActionType where
  | addNode | deleteNode | moveNode | moveNodes | addConnection | deleteConnection
  | updateSettings | copyNode | pasteNodes | applyLayout | createGroup | updateGroup
  | deleteGroup | updateGroupMembership | batch

/-- What the manager uses of a graph. -/
structure HistoryHost (γ : Type u) (σ : Type v) (η : Type w) where
  getFlowfileData : γ → σ
  /-- Rebuild from a snapshot. A message says that the rebuild raised and left the
  graph as it was at that moment. -/
  restoreFromSnapshot : γ → σ → γ × Option String
  computeHash : σ → η
  nodeCount : σ → Nat

/-- A host whose restores, when they do not raise, leave a content that depends on
the restored snapshot only. -/
structure RestoringHost (γ : Type u) (σ : Type v) (η : Type w) extends HistoryHost γ σ η where
  readBack : σ → σ
  readBack_spec : ∀ graph snapshot, (restoreFromSnapshot graph snapshot).2 = none →
    getFlowfileData (restoreFromSnapshot graph snapshot).1 = readBack snapshot

structure HistoryAction where
  actionType : HistoryActionType
  description : String
  nodeId : Option Int

structure HistoryEntry (σ : Type v) where
  snapshot : σ
  action : HistoryAction

structure HistoryConfig where
  enabled : Bool
  maxStackSize : Nat

structure HistoryManager (σ : Type v) (η : Type w) where
  config : HistoryConfig
  undoStack : List (HistoryEntry σ)
  redoStack : List (HistoryEntry σ)
  isRestoring : Bool
  lastSnapshotHash : Option η
  savedSnapshotHash : Option η
  dirty : Bool

structure UndoRedoResult where
  success : Bool
  actionDescription : Option String
  errorMessage : Option String

variable {γ : Type u} {σ : Type v} {η : Type w} [DecidableEq η]

def HistoryManager.new (config : HistoryConfig) : HistoryManager σ η where
  config
  undoStack := []
  redoStack := []
  isRestoring := false
  lastSnapshotHash := none
  savedSnapshotHash := none
  dirty := false

/-- Append to a bounded stack; the oldest entry leaves a full one. -/
def pushEntry (maxStackSize : Nat) (entry : HistoryEntry σ) (stack : List (HistoryEntry σ)) :
    List (HistoryEntry σ) :=
  (entry :: stack).take maxStackSize

variable (host : HistoryHost γ σ η)

def HistoryEntry.snapshotHash (entry : HistoryEntry σ) : η :=
  host.computeHash entry.snapshot

variable (manager : HistoryManager σ η)

/-- Whether the newest entry already holds a snapshot with this hash. -/
def isDuplicate (currentHash : η) : Bool :=
  match manager.undoStack with
  | [] => false
  | entry :: _ => entry.snapshotHash host = currentHash

def record (entry : HistoryEntry σ) : HistoryManager σ η :=
  { manager with
    undoStack := pushEntry manager.config.maxStackSize entry manager.undoStack
    dirty := true
    redoStack := [] }

variable (graph : γ)

/-- Capture the state before a change. The flag says whether an entry was recorded. -/
def captureSnapshot
    (action : HistoryAction) : HistoryManager σ η × Bool :=
  if !manager.config.enabled then (manager, false)
  else if manager.isRestoring then (manager, false)
  else
    let snapshot := host.getFlowfileData graph
    if isDuplicate host manager (host.computeHash snapshot) then (manager, false)
    else (record manager { snapshot, action }, true)

def captureIfChanged
    (preSnapshot : σ) (action : HistoryAction) : HistoryManager σ η × Bool :=
  if !manager.config.enabled then (manager, false)
  else if manager.isRestoring then (manager, false)
  else
    let currentHash := host.computeHash (host.getFlowfileData graph)
    if host.computeHash preSnapshot = currentHash then (manager, false)
    else
      ({ record manager { snapshot := preSnapshot, action } with
          lastSnapshotHash := some currentHash }, true)

def finishRestore
    (entry : HistoryEntry σ) : HistoryManager σ η × γ × UndoRedoResult :=
  match host.restoreFromSnapshot graph entry.snapshot with
  | (restored, none) =>
    ({ manager with lastSnapshotHash := some (entry.snapshotHash host), isRestoring := false },
      restored, ⟨true, some entry.action.description, none⟩)
  | (restored, some message) =>
    ({ manager with isRestoring := false }, restored, ⟨false, none, some message⟩)

/-- Undo the newest action. The current state goes onto the redo stack first, under
the description of the undone action. -/
def undo (manager : HistoryManager σ η) (graph : γ) : HistoryManager σ η × γ × UndoRedoResult :=
  match manager.undoStack with
  | [] => (manager, graph, ⟨false, none, some "Nothing to undo"⟩)
  | entry :: rest =>
    let redoEntry : HistoryEntry σ := ⟨host.getFlowfileData graph, entry.action⟩
    finishRestore host
      { manager with
        isRestoring := true
        undoStack := rest
        redoStack := pushEntry manager.config.maxStackSize redoEntry manager.redoStack }
      graph entry

/-- Redo the newest undone action, symmetrically. -/
def redo (manager : HistoryManager σ η) (graph : γ) : HistoryManager σ η × γ × UndoRedoResult :=
  match manager.redoStack with
  | [] => (manager, graph, ⟨false, none, some "Nothing to redo"⟩)
  | entry :: rest =>
    let undoEntry : HistoryEntry σ := ⟨host.getFlowfileData graph, entry.action⟩
    finishRestore host
      { manager with
        isRestoring := true
        redoStack := rest
        undoStack := pushEntry manager.config.maxStackSize undoEntry manager.undoStack }
      graph entry

/-- Make the current state the save point. -/
def markSaved : HistoryManager σ η :=
  { manager with
    savedSnapshotHash := some (host.computeHash (host.getFlowfileData graph))
    dirty := false }

/-- With a save point the flag answers; without one, any node counts as a change. -/
def hasUnsavedChanges : Bool :=
  if manager.savedSnapshotHash.isSome then manager.dirty
  else 0 < host.nodeCount (host.getFlowfileData graph)

/-- A graph, its manager and the snapshot at the last save. The snapshot is what
the flag is judged against; the code does not store it. -/
structure Session (γ : Type u) (σ : Type v) (η : Type w) where
  graph : γ
  manager : HistoryManager σ η
  saved : σ

def Session.opened (config : HistoryConfig) (graph : γ) : Session γ σ η where
  graph
  manager := markSaved host (HistoryManager.new config) graph
  saved := host.getFlowfileData graph

/-- What callers do with a session. -/
inductive Event (γ : Type u) where
  /-- Capture the current state, then change the graph. -/
  | captureThenChange (action : HistoryAction) (changed : γ)
  /-- Change the graph, then capture the earlier state if the hash differs. -/
  | changeThenCapture (action : HistoryAction) (changed : γ)
  | undo
  | redo
  | markSaved

def Session.step (session : Session γ σ η) : Event γ → Session γ σ η
  | .captureThenChange action changed =>
    { session with
      manager := (captureSnapshot host session.manager session.graph action).1
      graph := changed }
  | .changeThenCapture action changed =>
    { session with
      manager := (captureIfChanged host session.manager changed
        (host.getFlowfileData session.graph) action).1
      graph := changed }
  | .undo =>
    let (manager, graph, _) := History.undo host session.manager session.graph
    { session with manager, graph }
  | .redo =>
    let (manager, graph, _) := History.redo host session.manager session.graph
    { session with manager, graph }
  | .markSaved =>
    { session with
      manager := History.markSaved host session.manager session.graph
      saved := host.getFlowfileData session.graph }

end Flowfile.History

import Flowfile.SnapshotHashes

/-!
# Undo and redo with their failures

Undo and redo take the newest entry from its stack, serialise the current flow for the other stack
and restore the entry. Each of these steps can raise, and what was done before stays. A restore
validates the settings of all nodes first. Then it clears the graph, replaces the settings of the
flow and rebuilds the nodes.

The flow is the graph with its settings and its name. The id of the graph is that of its settings.
Which flows cannot be serialised, as a node lies at no number, is given by the installation.
-/

namespace Flowfile.Graph

open History

variable {P D : Type}

structure LiveFlow (P : Type) where
  world : World P
  settings : FlowSettings
  flowName : String

structure FlowDocument (D : Type) where
  flowfileId : Int
  flowfileName : String
  flowfileSettings : FlowfileSettings
  data : FlowfileData D

/-- What undo and redo depend on besides the flow. -/
structure Installation (P D : Type) where
  environment : Environment P
  codec : SettingsCodec P D
  sourceTypes : String
  recursionLimit : Nat
  offloadToWorker : Bool
  printable : Char → Bool
  unreadable : LiveFlow P → Option String

inductive Direction where
  | undo
  | redo

section

variable [DecidableEq P] (installation : Installation P D)

def LiveFlow.getFlowfileData (flow : LiveFlow P) : Except String (FlowDocument D) :=
  match installation.unreadable flow with
  | some message => .error message
  | none => .ok
    { flowfileId := flow.settings.flowId
      flowfileName := flow.flowName
      flowfileSettings := flow.settings.serialised
      data := flow.world.graph.getFlowfileData installation.codec }

/-- Settings of a restored flow: those of the document, with the id of the flow and its
registration if the document names none. -/
def LiveFlow.restoredSettings (flow : LiveFlow P) (document : FlowDocument D) : FlowSettings :=
  let settings := document.flowfileSettings.flowSettings installation.offloadToWorker
    document.flowfileId document.flowfileName
  { settings with
    flowId := flow.settings.flowId
    sourceRegistrationId :=
      settings.sourceRegistrationId.or flow.settings.sourceRegistrationId }

def LiveFlow.restoreFromSnapshot (flow : LiveFlow P) (document : FlowDocument D) :
    LiveFlow P × Option String :=
  match document.data.flowInformation installation.codec with
  | .error error => (flow, some (error.message installation.sourceTypes))
  | .ok _ =>
    let (world, error) := flow.world.restoreForHistory installation.environment
      installation.codec installation.sourceTypes installation.recursionLimit document.data
    ({ world
       settings := flow.restoredSettings installation document
       flowName := if document.flowfileName = "" then flow.flowName else document.flowfileName },
      error)

def FlowDocument.computeHash [DecidableEq D] (document : FlowDocument D) :
    Int × String × SnapshotSignature D :=
  (document.flowfileId, document.flowfileSettings.tupleText installation.printable,
    document.data.computeHash)

/-- Entries to go back to. -/
def Direction.stack {η : Type} :
    Direction → HistoryManager (FlowDocument D) η → List (HistoryEntry (FlowDocument D))
  | .undo, manager => manager.undoStack
  | .redo, manager => manager.redoStack

/-- Take the newest entry from its stack. -/
def Direction.pop {η : Type} (manager : HistoryManager (FlowDocument D) η) :
    Direction → HistoryManager (FlowDocument D) η
  | .undo => { manager with undoStack := manager.undoStack.tail }
  | .redo => { manager with redoStack := manager.redoStack.tail }

/-- Put an entry onto the opposite stack. -/
def Direction.push {η : Type} (entry : HistoryEntry (FlowDocument D))
    (manager : HistoryManager (FlowDocument D) η) : Direction → HistoryManager (FlowDocument D) η
  | .undo =>
    { manager with redoStack := pushEntry manager.config.maxStackSize entry manager.redoStack }
  | .redo =>
    { manager with undoStack := pushEntry manager.config.maxStackSize entry manager.undoStack }

/-- The message where a stack is empty. -/
def Direction.nothing : Direction → String
  | .undo => "Nothing to undo"
  | .redo => "Nothing to redo"

variable [DecidableEq D] (direction : Direction)
  (manager : HistoryManager (FlowDocument D) (Int × String × SnapshotSignature D))
  (flow : LiveFlow P)

def goBack
    :
    HistoryManager (FlowDocument D) (Int × String × SnapshotSignature D) × LiveFlow P ×
      UndoRedoResult :=
  match direction.stack manager with
  | [] => (manager, flow, ⟨false, none, some direction.nothing⟩)
  | entry :: _ =>
    let popped := direction.pop manager
    match flow.getFlowfileData installation with
    | .error message => ({ popped with isRestoring := false }, flow, ⟨false, none, some message⟩)
    | .ok current =>
      let pushed := direction.push ⟨current, entry.action⟩ popped
      match flow.restoreFromSnapshot installation entry.snapshot with
      | (restored, none) =>
        ({ pushed with
            lastSnapshotHash := some (entry.snapshot.computeHash installation)
            isRestoring := false },
          restored, ⟨true, some entry.action.description, none⟩)
      | (restored, some message) =>
        ({ pushed with isRestoring := false }, restored, ⟨false, none, some message⟩)

/-- A flow can be rebuilt from a document: the settings of all nodes validate, and no step of the
rebuild raises. -/
def FlowDocument.Restorable (document : FlowDocument D) : Prop :=
  ∃ information world, document.data.flowInformation installation.codec = .ok information ∧
    rebuild installation.environment installation.recursionLimit information = some (world, none)

def FailsCleanly
    : Prop :=
  let (after, restored, result) := goBack installation direction manager flow
  result.success = false →
    after.undoStack = manager.undoStack ∧ after.redoStack = manager.redoStack ∧ restored = flow

end

structure SettingsFrame where
  flowId : Int
  saveLocation : Option String
  path : String
  modifiedOn : Option ℚ
  showEdgeLabels : Bool
  isRunning : Bool
  isCanceled : Bool
  trackHistory : Bool

def FlowSettings.frame (settings : FlowSettings) : SettingsFrame where
  flowId := settings.flowId
  saveLocation := settings.saveLocation
  path := settings.path
  modifiedOn := settings.modifiedOn
  showEdgeLabels := settings.showEdgeLabels
  isRunning := settings.isRunning
  isCanceled := settings.isCanceled
  trackHistory := settings.trackHistory

def SettingsFrame.defaults (flowId : Int) : SettingsFrame :=
  ⟨flowId, none, "", none, false, false, false, true⟩

section

variable [DecidableEq P] {installation : Installation P D} {flow : LiveFlow P}
  {document : FlowDocument D}

theorem restoreFromSnapshot_none_iff : (flow.restoreFromSnapshot installation document).2 = none ↔
      document.Restorable installation := by
  rw [LiveFlow.restoreFromSnapshot, FlowDocument.Restorable]
  cases loaded : document.data.flowInformation installation.codec with
  | error error => simp
  | ok information =>
  simp only [World.restoreForHistory, World.restoreFromSnapshot, loaded]
  cases rebuilt : rebuild installation.environment installation.recursionLimit information with
  | none => simp [rebuilt]
  | some outcome =>
    obtain ⟨world, error⟩ := outcome
    cases error <;> simp [rebuilt]

theorem frame_restoreFromSnapshot {information : FlowInformation P}
    (loaded : document.data.flowInformation installation.codec = .ok information) :
    (flow.restoreFromSnapshot installation document).1.settings.frame =
      .defaults flow.settings.flowId := by
  rw [LiveFlow.restoreFromSnapshot, loaded]
  rfl

/-- Where the settings of a node do not validate, the flow is not touched. -/
theorem restoreFromSnapshot_invalid {error : FlowError}
    (invalid : document.data.flowInformation installation.codec = .error error) :
    (flow.restoreFromSnapshot installation document).1 = flow := by
  rw [LiveFlow.restoreFromSnapshot, invalid]

variable {direction : Direction}
  {manager : HistoryManager (FlowDocument D) (Int × String × SnapshotSignature D)}

/-- The rest of a stack is left when its newest entry is taken. -/
theorem stack_pop (direction : Direction) :
    direction.stack (direction.pop manager) = (direction.stack manager).tail := by
  cases direction <;> rfl

theorem stack_push (entry : HistoryEntry (FlowDocument D)) (direction : Direction) :
    direction.stack (direction.push entry manager) = direction.stack manager := by
  cases direction <;> rfl

variable [DecidableEq D]

variable (installation) (flow) in
theorem goBack_entry {entry : HistoryEntry (FlowDocument D)}
    {rest : List (HistoryEntry (FlowDocument D))}
    (newest : direction.stack manager = entry :: rest) :
    ∃ after result, goBack installation direction manager flow =
        (after, if (installation.unreadable flow).isSome then flow
          else (flow.restoreFromSnapshot installation entry.snapshot).1, result) ∧
      direction.stack after = rest ∧
      (result.success = true ↔ installation.unreadable flow = none ∧
        entry.snapshot.Restorable installation) := by
  have popped : direction.stack (direction.pop manager) = rest := by rw [stack_pop, newest]; rfl
  have same (changed : HistoryManager (FlowDocument D) (Int × String × SnapshotSignature D))
      (hash : Option (Int × String × SnapshotSignature D)) :
      direction.stack { changed with lastSnapshotHash := hash, isRestoring := false } =
        direction.stack changed := by
    cases direction <;> rfl
  rw [goBack, newest, LiveFlow.getFlowfileData]
  cases unreadable : installation.unreadable flow with
  | some message => exact ⟨_, _, rfl, (same _ _).trans popped, by simp⟩
  | none =>
  dsimp only
  rw [← @restoreFromSnapshot_none_iff _ _ _ _ flow]
  cases restored : flow.restoreFromSnapshot installation entry.snapshot with
  | mk changed error =>
    cases error with
    | none => exact ⟨_, _, rfl, (same _ _).trans ((stack_push _ _).trans popped), by simp⟩
    | some message =>
      exact ⟨_, _, rfl, (same _ _).trans ((stack_push _ _).trans popped), by simp⟩

/-- Going back leaves the settings that are not serialised as they are exactly if it does not get to
replacing them or they have their defaults: there is nothing to go back to, the flow cannot be
serialised, or the settings of a node in the newest entry do not validate. -/
theorem goBack_frame_iff (installation : Installation P D) (direction : Direction)
    (manager : HistoryManager (FlowDocument D) (Int × String × SnapshotSignature D))
    (flow : LiveFlow P) :
    (goBack installation direction manager flow).2.1.settings.frame = flow.settings.frame ↔
      (∀ entry ∈ (direction.stack manager).head?, installation.unreadable flow = none →
        ∀ information : FlowInformation P,
          entry.snapshot.data.flowInformation installation.codec ≠ .ok information) ∨
      flow.settings.frame = .defaults flow.settings.flowId := by
  cases newest : direction.stack manager with
  | nil =>
    have nothing : goBack installation direction manager flow =
        (manager, flow, ⟨false, none, some direction.nothing⟩) := by rw [goBack, newest]
    rw [nothing]
    simp
  | cons entry rest =>
  obtain ⟨after, result, ended, _, _⟩ := goBack_entry installation flow newest
  rw [ended]
  simp only [List.head?_cons, Option.mem_some_iff, forall_eq']
  cases unreadable : installation.unreadable flow with
  | some message => simp
  | none =>
  cases loaded : entry.snapshot.data.flowInformation installation.codec with
  | error error => simp [restoreFromSnapshot_invalid loaded]
  | ok information =>
    simp [frame_restoreFromSnapshot loaded, eq_comm]

end

/-- An installation that knows no settings class for any node. -/
def bareInstallation : Installation Unit Unit where
  environment := standardEnvironment
  codec := { bareCodec with validate := fun nodeType _ => .error (.unknownNodeType nodeType) }
  sourceTypes := ""
  recursionLimit := 10
  offloadToWorker := false
  printable _ := true
  unreadable _ := none

def savedFlow : LiveFlow Unit where
  world := World.empty
  settings := ⟨1, none, some "/flows/sales.yaml", "sales", "/flows/sales.yaml", none, .performance,
    .inProcess, defaultWorkers, [], false, none, true, true, false, false, true⟩
  flowName := "sales"

variable (nodes : List (FlowfileNode Unit))

def savedDocument : FlowDocument Unit where
  flowfileId := 1
  flowfileName := "sales"
  flowfileSettings := savedFlow.settings.serialised
  data := ⟨nodes, []⟩

def undoable :
    HistoryManager (FlowDocument Unit) (Int × String × SnapshotSignature Unit) :=
  { HistoryManager.new ⟨true, 50⟩ with
    undoStack := [⟨savedDocument nodes, ⟨.deleteNode, "Delete node", some 1⟩⟩] }

/-- An undo makes a saved flow forget where it was saved. -/
theorem goBack_loses_path : ¬ ∀ (installation : Installation Unit Unit) (direction : Direction)
      (manager : HistoryManager (FlowDocument Unit) (Int × String × SnapshotSignature Unit))
      (flow : LiveFlow Unit),
      (goBack installation direction manager flow).2.1.settings.frame = flow.settings.frame := by
  intro unchanged
  have kept := congrArg SettingsFrame.path
    (unchanged bareInstallation .undo (undoable []) savedFlow)
  have lost : (goBack bareInstallation .undo (undoable []) savedFlow).2.1.settings.frame.path =
      "" := rfl
  rw [lost] at kept
  exact absurd kept (by decide)

end Flowfile.Graph

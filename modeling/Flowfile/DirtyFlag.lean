import Flowfile.FlowHistory

/-!
# When the dirty flag can be trusted

The flag is sound in a state when content that differs from the last save is reported. It is set by
recorded captures and cleared by saving; undo, redo and captures that the manager skips leave it
alone. For each event there is an exact condition on the state before it: from a sound state the
event ends in a sound state if and only if it holds.

The main result lifts this to runs. A session that starts from a freshly opened graph is sound in
every state exactly when every event meets its condition. It holds for every host, so also for
hashes that overlook parts of the content and restores that do not reproduce their snapshot.
-/

namespace Flowfile.History

open Flowfile.Library.EventRuns Flowfile.Graph

universe u v w
variable {γ : Type u} {σ : Type v} {η : Type w} [DecidableEq η] (host : HistoryHost γ σ η)

/-- Content that differs from the last save is reported. -/
def DirtySound (session : Session γ σ η) : Prop :=
  host.getFlowfileData session.graph ≠ session.saved →
    hasUnsavedChanges host session.manager session.graph = true

/-- The condition on an event, in the state before it. A change must go back to the
saved content, meet a flag that is already set, or be recorded by its capture. Undo
and redo must have nothing to do, meet a flag that is already set, or bring the
saved content back. -/
def ChangeReported (session : Session γ σ η) : Event γ → Prop
  | .captureThenChange _ changed =>
    host.getFlowfileData changed = session.saved ∨ session.manager.dirty = true ∨
      (session.manager.config.enabled = true ∧ isDuplicate host session.manager
          (host.computeHash (host.getFlowfileData session.graph)) = false)
  | .changeThenCapture _ changed =>
    host.getFlowfileData changed = session.saved ∨ session.manager.dirty = true ∨
      (session.manager.config.enabled = true ∧
        host.computeHash (host.getFlowfileData session.graph) ≠
          host.computeHash (host.getFlowfileData changed))
  | .undo =>
    session.manager.dirty = true ∨ ∀ entry ∈ session.manager.undoStack.head?,
      host.getFlowfileData (host.restoreFromSnapshot session.graph entry.snapshot).1 = session.saved
  | .redo =>
    session.manager.dirty = true ∨ ∀ entry ∈ session.manager.redoStack.head?,
      host.getFlowfileData (host.restoreFromSnapshot session.graph entry.snapshot).1 = session.saved
  | .markSaved => True

/-- What holds between events besides soundness: there is a save point, and no
restore is under way. -/
structure Settled (session : Session γ σ η) : Prop where
  savePoint : session.manager.savedSnapshotHash.isSome = true
  idle : session.manager.isRestoring = false

omit [DecidableEq η] in
/-- With a save point the flag alone decides. -/
theorem dirtySound_iff (session : Session γ σ η) (settled : Settled session) :
    DirtySound host session ↔
      (host.getFlowfileData session.graph = session.saved ∨ session.manager.dirty = true) := by
  unfold DirtySound hasUnsavedChanges
  rw [if_pos settled.savePoint]
  tauto

section

variable (manager : HistoryManager σ η) (graph : γ)
include manager graph

variable (action : HistoryAction)

/-- A capture before a change sets the flag unless the manager skips it. -/
theorem captureSnapshot_dirty (idle : manager.isRestoring = false) :
    (captureSnapshot host manager graph action).1.dirty = true ↔
      manager.dirty = true ∨ (manager.config.enabled = true ∧
        isDuplicate host manager (host.computeHash (host.getFlowfileData graph)) = false) := by
  unfold captureSnapshot
  by_cases duplicate :
      isDuplicate host manager (host.computeHash (host.getFlowfileData graph)) = true
  · cases manager.config.enabled <;> simp [idle, duplicate]
  · cases manager.config.enabled <;> simp [idle, duplicate, record]

variable (preSnapshot : σ)

theorem captureIfChanged_dirty (action : HistoryAction) (idle : manager.isRestoring = false) :
    (captureIfChanged host manager graph preSnapshot action).1.dirty = true ↔
      manager.dirty = true ∨ (manager.config.enabled = true ∧
        host.computeHash preSnapshot ≠ host.computeHash (host.getFlowfileData graph)) := by
  unfold captureIfChanged
  by_cases same : host.computeHash preSnapshot = host.computeHash (host.getFlowfileData graph)
  · cases manager.config.enabled <;> simp [idle, same]
  · cases manager.config.enabled <;> simp [idle, same, record]

theorem captureSnapshot_settled :
    (captureSnapshot host manager graph action).1.savedSnapshotHash = manager.savedSnapshotHash ∧
      (captureSnapshot host manager graph action).1.isRestoring = manager.isRestoring := by
  unfold captureSnapshot
  dsimp only
  split_ifs <;> exact ⟨rfl, rfl⟩

theorem captureIfChanged_settled (action : HistoryAction) :
    (captureIfChanged host manager graph preSnapshot action).1.savedSnapshotHash =
        manager.savedSnapshotHash ∧
      (captureIfChanged host manager graph preSnapshot action).1.isRestoring =
        manager.isRestoring := by
  unfold captureIfChanged
  dsimp only
  split_ifs <;> exact ⟨rfl, rfl⟩

omit [DecidableEq η] in
theorem finishRestore_effect (entry : HistoryEntry σ) :
    (finishRestore host manager graph entry).1.dirty = manager.dirty ∧
      (finishRestore host manager graph entry).1.savedSnapshotHash = manager.savedSnapshotHash ∧
      (finishRestore host manager graph entry).1.isRestoring = false ∧
      (finishRestore host manager graph entry).2.1 =
        (host.restoreFromSnapshot graph entry.snapshot).1 := by
  unfold finishRestore
  split <;> simp_all

end

theorem Settled.step {host : HistoryHost γ σ η} {session : Session γ σ η}
    (settled : Settled session) (event : Event γ) : Settled (session.step host event) := by
  cases event with
  | captureThenChange action changed =>
    obtain ⟨savePoint, restoring⟩ :=
      captureSnapshot_settled host session.manager session.graph action
    exact ⟨by rw [← settled.savePoint]; exact congrArg Option.isSome savePoint,
      restoring.trans settled.idle⟩
  | changeThenCapture action changed =>
    obtain ⟨savePoint, restoring⟩ := captureIfChanged_settled host session.manager changed
      (host.getFlowfileData session.graph) action
    exact ⟨by rw [← settled.savePoint]; exact congrArg Option.isSome savePoint,
      restoring.trans settled.idle⟩
  | undo =>
    cases stack : session.manager.undoStack with
    | nil => simpa [Session.step, History.undo, stack] using ⟨settled.savePoint, settled.idle⟩
    | cons entry rest =>
      simp only [Session.step, History.undo, stack]
      obtain ⟨_, savePoint, idle, _⟩ := finishRestore_effect host _ session.graph entry
      exact ⟨(congrArg Option.isSome savePoint).trans settled.savePoint, idle⟩
  | redo =>
    cases stack : session.manager.redoStack with
    | nil => simpa [Session.step, History.redo, stack] using ⟨settled.savePoint, settled.idle⟩
    | cons entry rest =>
      simp only [Session.step, History.redo, stack]
      obtain ⟨_, savePoint, idle, _⟩ := finishRestore_effect host _ session.graph entry
      exact ⟨(congrArg Option.isSome savePoint).trans settled.savePoint, idle⟩
  | markSaved => exact ⟨rfl, settled.idle⟩

theorem dirtySound_step_iff (session : Session γ σ η) (event : Event γ)
    (settled : Settled session) (sound : DirtySound host session) :
    DirtySound host (session.step host event) ↔ ChangeReported host session event := by
  rw [dirtySound_iff host _ (settled.step event)]
  rw [dirtySound_iff host session settled] at sound
  cases event with
  | captureThenChange action changed =>
    exact or_congr Iff.rfl (captureSnapshot_dirty host session.manager session.graph action
      settled.idle)
  | changeThenCapture action changed =>
    exact or_congr Iff.rfl (captureIfChanged_dirty host session.manager changed
      (host.getFlowfileData session.graph) action settled.idle)
  | undo =>
    cases stack : session.manager.undoStack with
    | nil => simpa [Session.step, History.undo, ChangeReported, stack] using sound
    | cons entry rest =>
    simp only [Session.step, History.undo, ChangeReported, stack]
    obtain ⟨flag, _, _, graph⟩ := finishRestore_effect host
      { session.manager with
        isRestoring := true
        undoStack := rest
        redoStack := pushEntry session.manager.config.maxStackSize
          ⟨host.getFlowfileData session.graph, entry.action⟩ session.manager.redoStack }
      session.graph entry
    rw [flag, graph]
    simp [or_comm]
  | redo =>
    cases stack : session.manager.redoStack with
    | nil => simpa [Session.step, History.redo, ChangeReported, stack] using sound
    | cons entry rest =>
    simp only [Session.step, History.redo, ChangeReported, stack]
    obtain ⟨flag, _, _, graph⟩ := finishRestore_effect host
      { session.manager with
        isRestoring := true
        redoStack := rest
        undoStack := pushEntry session.manager.config.maxStackSize
          ⟨host.getFlowfileData session.graph, entry.action⟩ session.manager.undoStack }
      session.graph entry
    rw [flag, graph]
    simp [or_comm]
  | markSaved => simp [Session.step, ChangeReported]

/-- For every host, configuration, initial graph and sequence of events: content
that differs from the last save is reported in every state of the session if and
only if every event meets its condition in the state before it. -/
theorem dirty_flag_sound_iff (config : HistoryConfig) (graph : γ) (events : List (Event γ)) :
    (∀ session ∈ statesAlong (Session.step host) (Session.opened host config graph) events,
        DirtySound host session) ↔
      EachStep (Session.step host) (ChangeReported host) (Session.opened host config graph)
        events := by
  have opened : Settled (Session.opened host config graph) := ⟨rfl, rfl⟩
  have initially : DirtySound host (Session.opened host config graph) := fun changed =>
    absurd rfl changed
  have settled : ∀ session ∈ statesAlong (Session.step host)
      (Session.opened host config graph) events, Settled session :=
    invariant_along (Session.step host) Settled (fun _ event settled => settled.step event) _
      opened events
  have both := good_along_iff (Session.step host)
    (fun session => Settled session ∧ DirtySound host session) (ChangeReported host)
    (fun session event ⟨settled, sound⟩ => by
      rw [and_iff_right (settled.step event)]
      exact dirtySound_step_iff host session event settled sound)
    (Session.opened host config graph) ⟨opened, initially⟩ events
  rw [← both]
  exact ⟨fun sound session mem => ⟨settled session mem, sound session mem⟩,
    fun good session mem => (good session mem).2⟩

def undoAfterSave : List (Event (World Unit)) :=
  [.captureThenChange ⟨.addNode, "Add manual_input node", some 1⟩
      (editedWorld [.addNodePromise 1 "manual_input" promiseSetting]),
    .markSaved, .undo]

/-- After these events the graph is empty, the saved flow is not, and no change is reported. -/
theorem undoAfterSave_unreported : ∃ session ∈ statesAlong (Session.step bareHost.toHistoryHost)
        (Session.opened bareHost.toHistoryHost ⟨true, 50⟩ World.empty) undoAfterSave,
      ¬ DirtySound bareHost.toHistoryHost session := by
  refine ⟨undoAfterSave.foldl (Session.step bareHost.toHistoryHost)
    (Session.opened bareHost.toHistoryHost ⟨true, 50⟩ World.empty), ?_, ?_⟩
  · simp [undoAfterSave, statesAlong]
  · intro sound
    have reported := sound (by decide +kernel)
    exact absurd reported (by decide +kernel)

end Flowfile.History

import Flowfile.GraphDiffs
import Mathlib.Data.List.TakeDrop

/-!
# When a diff is applied atomically

A diff that is refused must leave graph and history as they were, and a diff that is applied must
add one entry to the history that takes it back. Both rest on the snapshot that is taken before the
operations. It is not stored when recording is off, when a restore is under way, or when the newest
entry has the same hash already; storing it drops the redo stack and evicts the oldest entry of a
full stack. The undo after a broken batch takes the newest entry, whatever that is, and leaves the
state it undoes on the redo stack.

For each of these there is a condition on the state and on the batch, and together they are exact.
-/

namespace Flowfile.History

open Flowfile.Graph List

universe u v w
variable {γ : Type u} {σ : Type v} {η : Type w} [DecidableEq η]

variable (host : HistoryHost γ σ η)

/-- A refused batch leaves snapshot and stacks as they were. An applied one leaves a new entry, and
undoing it brings the old snapshot back. -/
def Atomic {ε : Type u} (before after : State γ σ η) (error : Option ε) : Prop :=
  if error.isSome then
    host.getFlowfileData after.2 = host.getFlowfileData before.2 ∧
      after.1.undoStack = before.1.undoStack ∧ after.1.redoStack = before.1.redoStack
  else
    (∃ entry, after.1.undoStack = entry :: before.1.undoStack) ∧
      host.getFlowfileData (undo host after.1 after.2).2.1 = host.getFlowfileData before.2

/-- The snapshot before the batch is recorded. -/
def Records (state : State γ σ η) : Prop :=
  state.1.config.enabled = true ∧ state.1.isRestoring = false ∧
    isDuplicate host state.1 (host.computeHash (host.getFlowfileData state.2)) = false

instance (host : HistoryHost γ σ η) (state : State γ σ η) : Decidable (Records host state) :=
  inferInstanceAs (Decidable (_ ∧ _ ∧ _))

def Rebuilds (state : State γ σ η) (graph : γ) : Prop :=
  host.getFlowfileData (host.restoreFromSnapshot graph (host.getFlowfileData state.2)).1 =
    host.getFlowfileData state.2

def HasRoom (state : State γ σ η) : Prop :=
  state.1.undoStack.length < state.1.config.maxStackSize

def GoesThrough (state : State γ σ η) (graph : γ) : Prop :=
  Records host state ∧ HasRoom state ∧ Rebuilds host state graph

/-- What a batch that breaks needs. With the snapshot on the stack, the redo stack must have held
just the broken state before. With nothing on the stack, there is nothing to undo, and the batch
must have broken before it changed anything. -/
def BreaksCleanly (state : State γ σ η) (action : HistoryAction) (graph : γ) : Prop :=
  if Records host state ∧ state.1.config.maxStackSize ≠ 0 then
    HasRoom state ∧ Rebuilds host state graph ∧
      state.1.redoStack = [⟨host.getFlowfileData graph, action⟩]
  else
    state.1.undoStack = [] ∧ (Records host state → state.1.redoStack = []) ∧
      host.getFlowfileData graph = host.getFlowfileData state.2

/-- What a batch needs, by how it ends. -/
def EndsCleanly (state : State γ σ η) (action : HistoryAction) (graph : γ) (raises : Bool) : Prop :=
  if raises then BreaksCleanly host state action graph else GoesThrough host state graph

theorem captureSnapshot_eq (state : State γ σ η) (action : HistoryAction) :
    (captureSnapshot host state.1 state.2 action).1 =
      if Records host state then record state.1 ⟨host.getFlowfileData state.2, action⟩
      else state.1 := by
  unfold captureSnapshot
  by_cases records : Records host state
  · rw [if_pos records]
    obtain ⟨enabled, idle, fresh⟩ := records
    simp [enabled, idle, fresh]
  rw [if_neg records]
  dsimp only
  split_ifs with disabled restoring duplicate
  · rfl
  · rfl
  · rfl
  · refine absurd ⟨?_, ?_, ?_⟩ records
    · simpa using disabled
    · simpa using restoring
    · simpa using duplicate

omit [DecidableEq η] in
theorem undo_cons (manager : HistoryManager σ η) (graph : γ) {entry : HistoryEntry σ}
    {rest : List (HistoryEntry σ)} (stack : manager.undoStack = entry :: rest) :
    (undo host manager graph).1.undoStack = rest ∧
      (undo host manager graph).1.redoStack = pushEntry manager.config.maxStackSize
        ⟨host.getFlowfileData graph, entry.action⟩ manager.redoStack ∧
      (undo host manager graph).2.1 = (host.restoreFromSnapshot graph entry.snapshot).1 := by
  unfold undo finishRestore
  rw [stack]
  dsimp only
  split <;> simp_all

omit [DecidableEq η] in
theorem undo_nil (manager : HistoryManager σ η) (graph : γ) (stack : manager.undoStack = []) :
    (undo host manager graph).1 = manager ∧ (undo host manager graph).2.1 = graph := by
  unfold undo
  rw [stack]
  exact ⟨rfl, rfl⟩

theorem pushEntry_eq_cons_iff {maxStackSize : Nat} {entry other : HistoryEntry σ}
    {stack : List (HistoryEntry σ)} :
    pushEntry maxStackSize entry stack = other :: stack ↔
      stack.length < maxStackSize ∧ other = entry := by
  unfold pushEntry
  constructor
  · intro pushed
    have lengths := congrArg List.length pushed
    simp only [length_take, length_cons] at lengths
    have room : stack.length < maxStackSize := by omega
    rw [take_of_length_le (by simp only [length_cons]; omega)] at pushed
    exact ⟨room, (List.cons.inj pushed).1.symm⟩
  · rintro ⟨room, rfl⟩
    exact take_of_length_le (by simp only [length_cons]; omega)

omit [DecidableEq η] in
/-- A list is not a rest of itself. -/
theorem ne_cons_self (entry : HistoryEntry σ) (stack : List (HistoryEntry σ)) :
    stack ≠ entry :: stack := fun same => by simpa using congrArg List.length same

theorem atomic_through_iff {ε : Type u} (state : State γ σ η) (action : HistoryAction) (graph : γ) :
    Atomic host state ((captureSnapshot host state.1 state.2 action).1, graph)
        (none : Option ε) ↔ GoesThrough host state graph := by
  unfold Atomic GoesThrough
  rw [if_neg (by simp), captureSnapshot_eq]
  by_cases records : Records host state
  · rw [if_pos records, and_iff_right records]
    have stored : (∃ entry, (record state.1
        ⟨host.getFlowfileData state.2, action⟩).undoStack = entry :: state.1.undoStack) ↔
          HasRoom state :=
      ⟨fun ⟨_, pushed⟩ => (pushEntry_eq_cons_iff.mp pushed).1,
        fun room => ⟨_, pushEntry_eq_cons_iff.mpr ⟨room, rfl⟩⟩⟩
    rw [stored]
    refine and_congr_right fun room => ?_
    obtain ⟨-, -, restored⟩ := undo_cons host
      (record state.1 ⟨host.getFlowfileData state.2, action⟩) graph
      (pushEntry_eq_cons_iff.mpr ⟨room, rfl⟩)
    rw [restored]
    rfl
  · rw [if_neg records]
    exact iff_of_false (fun atomic => ne_cons_self _ _ atomic.1.choose_spec)
      fun through => records through.1

theorem atomic_broken_iff {ε : Type u} (state : State γ σ η)
    (action : HistoryAction) (graph : γ) (error : ε) :
    Atomic host state
        ((undo host (captureSnapshot host state.1 state.2 action).1 graph).1,
          (undo host (captureSnapshot host state.1 state.2 action).1 graph).2.1)
        (some error) ↔ BreaksCleanly host state action graph := by
  unfold Atomic BreaksCleanly
  rw [if_pos (by simp), captureSnapshot_eq]
  by_cases records : Records host state
  · rw [if_pos records]
    by_cases unbounded : state.1.config.maxStackSize ≠ 0
    · have pushed : (record state.1 ⟨host.getFlowfileData state.2, action⟩).undoStack =
          ⟨host.getFlowfileData state.2, action⟩ ::
            state.1.undoStack.take (state.1.config.maxStackSize - 1) := by
        obtain ⟨size, isSize⟩ := Nat.exists_eq_succ_of_ne_zero unbounded
        simp [record, pushEntry, isSize]
      obtain ⟨undoStack, redoStack, restored⟩ := undo_cons host _ graph pushed
      have redone : pushEntry state.1.config.maxStackSize ⟨host.getFlowfileData graph, action⟩
          ([] : List (HistoryEntry σ)) = [⟨host.getFlowfileData graph, action⟩] :=
        pushEntry_eq_cons_iff.mpr ⟨Nat.pos_of_ne_zero unbounded, rfl⟩
      have room : state.1.undoStack.take (state.1.config.maxStackSize - 1) = state.1.undoStack ↔
          HasRoom state := by
        rw [take_eq_self_iff, HasRoom]
        omega
      rw [if_pos ⟨records, unbounded⟩, undoStack, redoStack, restored, room]
      change _ ∧ _ ∧ pushEntry state.1.config.maxStackSize _ [] = _ ↔ _
      rw [redone, eq_comm (b := state.1.redoStack)]
      exact and_left_comm
    · have pushed : (record state.1 ⟨host.getFlowfileData state.2, action⟩).undoStack = [] := by
        simp [record, pushEntry, not_not.mp unbounded]
      obtain ⟨sameManager, sameGraph⟩ := undo_nil host _ graph pushed
      rw [if_neg fun both => unbounded both.2, sameManager, sameGraph, pushed]
      change _ ∧ [] = _ ∧ [] = _ ↔ _
      rw [eq_comm (b := state.1.undoStack), eq_comm (b := state.1.redoStack)]
      tauto
  · rw [if_neg records, if_neg fun both => records both.1]
    cases stack : state.1.undoStack with
    | nil =>
      obtain ⟨sameManager, sameGraph⟩ := undo_nil host state.1 graph stack
      simp [sameManager, sameGraph, stack, records]
    | cons entry rest =>
    obtain ⟨undoStack, -, -⟩ := undo_cons host state.1 graph stack
    rw [undoStack]
    refine iff_of_false (fun atomic => ne_cons_self _ _ atomic.2.1) fun cleanly => ?_
    cases cleanly.1

section

variable {P D S : Type} [DecidableEq P] [DecidableEq D] (environment : Environment P)
  (classes : SettingsClasses P S) (codec : SettingsCodec P D) (sourceTypes : String) (fuel : Nat)

/-- When a diff is applied atomically: it is refused by the check, or its operations go through and
the snapshot serves, or one of them raises and nothing is lost. -/
def AppliesCleanly (state : State (World P) (FlowfileData D) (SnapshotSignature D))
    (diff : GraphDiff S) : Prop :=
  let host := (flowHost environment codec sourceTypes fuel).toHistoryHost
  validateDiffAgainstFlow classes state.2.graph diff = none → ∀ world error,
      state.2.applyOperations environment classes fuel diff = some (world, error) →
        EndsCleanly host state diff.action world error.isSome

end

def bareClasses : SettingsClasses Unit Int where
  rawNodeId id := .integer id
  modelValidate _ id := .ok (id, ⟨some (), true, 0, 0, none, "", none, none, false, false⟩)
  modelValidate_nodeId validated isInteger := by
    cases validated
    cases isInteger
    rfl

def onePromise : State (World Unit) (FlowfileData Unit) (SnapshotSignature Unit) :=
  (HistoryManager.new ⟨true, 50⟩, editedWorld [.addNodePromise 1 "filter" promiseSetting])

/-- The user tried to connect the node to itself: the snapshot was taken, and the connection
refused. -/
def refusedConnection : State (World Unit) (FlowfileData Unit) (SnapshotSignature Unit) :=
  ((captureSnapshot bareHost.toHistoryHost onePromise.1 onePromise.2
    ⟨.addConnection, "Connect 1 -> 1", none⟩).1, onePromise.2)

/-- The user added a second node and took that back. -/
def undoneAddition : State (World Unit) (FlowfileData Unit) (SnapshotSignature Unit) :=
  let added := (captureSnapshot bareHost.toHistoryHost onePromise.1 onePromise.2
    ⟨.addNode, "Add filter node", some 2⟩).1
  let undone := undo bareHost.toHistoryHost added (editedWorld
    [.addNodePromise 1 "filter" promiseSetting, .addNodePromise 2 "filter" promiseSetting])
  (undone.1, undone.2.1)

def deletingDiff : GraphDiff Int :=
  ⟨[], [], [], [1], [], none⟩

/-- A diff that connects the node to itself. -/
def loopingDiff : GraphDiff Int :=
  ⟨[], [], [⟨some 1, some 1, .ok ⟨1, "output-0", 1, 0⟩⟩], [], [], none⟩

def applyBare (state : State (World Unit) (FlowfileData Unit) (SnapshotSignature Unit))
    (diff : GraphDiff Int) :
    Option (State (World Unit) (FlowfileData Unit) (SnapshotSignature Unit) × Option DiffError) :=
  applyDiff standardEnvironment bareClasses 10 bareCodec "" state diff

end Flowfile.History

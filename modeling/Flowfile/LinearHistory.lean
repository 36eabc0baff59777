import Flowfile.FlowHistory

/-!
# Linear history: undo and redo as inverse walks

Undoing several times and redoing as often walks down the undo stack and back. Each step down stores
the content it leaves on the redo stack, and each step back on the undo stack. The redo stack is
therefore rebuilt exactly, and the undo stack and the content when the snapshots involved survive
being restored and read back.

What a restored snapshot reads back as is a function of the snapshot alone, `readBack`, which a host
provides. The walk back reads the deepest undone entry once and the others twice, which the exact
condition reflects. Eviction does not interfere: the two stacks together never exceed the bound of
one, so the pushes of undo and redo find room.
-/

namespace Flowfile.History

open Flowfile.Library.EventRuns Flowfile.Graph List
open Session (step opened)

universe u v w
variable {γ : Type u} {σ : Type v} {η : Type w}

/-- A manager together with its graph. -/
abbrev State (γ : Type u) (σ : Type v) (η : Type w) : Type (max u v w) :=
  HistoryManager σ η × γ

variable (host : HistoryHost γ σ η)

def undoOnce (state : State γ σ η) : Option (State γ σ η) :=
  let (manager, graph, result) := undo host state.1 state.2
  if result.success then some (manager, graph) else none

def redoOnce (state : State γ σ η) : Option (State γ σ η) :=
  let (manager, graph, result) := redo host state.1 state.2
  if result.success then some (manager, graph) else none

def repeatTimes {α : Type u} (step : α → Option α) : Nat → α → Option α
  | 0, state => some state
  | times + 1, state => (step state).bind (repeatTimes step times)

/-- The last of several repetitions may be split off instead of the first. -/
theorem repeatTimes_succ {α : Type u} (step : α → Option α) (times : Nat) (state : α) :
    repeatTimes step (times + 1) state = (repeatTimes step times state).bind step := by
  induction times generalizing state with
  | zero => cases first : step state <;> simp [repeatTimes, first]
  | succ times ih =>
    rw [repeatTimes]
    cases first : step state with
    | none => simp [repeatTimes, first]
    | some next => simp [repeatTimes, first, ← ih next]

variable (manager : HistoryManager σ η) (graph : γ)

/-- A capture before a change leaves an empty redo stack exactly when there was
none or when it recorded an entry, which it does unless the history is disabled or
the newest entry has the same hash. -/
theorem captureSnapshot_redoStack [DecidableEq η] (action : HistoryAction)
    (idle : manager.isRestoring = false) :
    ((captureSnapshot host manager graph action).2 = true ↔ manager.config.enabled = true ∧
        isDuplicate host manager (host.computeHash (host.getFlowfileData graph)) = false) ∧
    ((captureSnapshot host manager graph action).1.redoStack = [] ↔
      manager.redoStack = [] ∨ (captureSnapshot host manager graph action).2 = true) := by
  unfold captureSnapshot
  by_cases duplicate :
      isDuplicate host manager (host.computeHash (host.getFlowfileData graph)) = true
  · cases manager.config.enabled <;> simp [idle, duplicate]
  · cases manager.config.enabled <;> simp [idle, duplicate, record]

theorem captureIfChanged_redoStack [DecidableEq η] (preSnapshot : σ) (action : HistoryAction)
    (idle : manager.isRestoring = false) :
    ((captureIfChanged host manager graph preSnapshot action).2 = true ↔
      manager.config.enabled = true ∧
        host.computeHash preSnapshot ≠ host.computeHash (host.getFlowfileData graph)) ∧
    ((captureIfChanged host manager graph preSnapshot action).1.redoStack = [] ↔
      manager.redoStack = [] ∨
        (captureIfChanged host manager graph preSnapshot action).2 = true) := by
  unfold captureIfChanged
  by_cases same : host.computeHash preSnapshot = host.computeHash (host.getFlowfileData graph)
  · cases manager.config.enabled <;> simp [idle, same]
  · cases manager.config.enabled <;> simp [idle, same, record]

/-- The invariant of every session: no restore is under way and the two stacks
share the room of one. -/
structure WithinBound (manager : HistoryManager σ η) : Prop where
  idle : manager.isRestoring = false
  room : manager.undoStack.length + manager.redoStack.length ≤ manager.config.maxStackSize

variable (entry : HistoryEntry σ)

theorem pushEntry_eq (maxStackSize : Nat) (entry : HistoryEntry σ) (stack : List (HistoryEntry σ))
    (room : stack.length < maxStackSize) : pushEntry maxStackSize entry stack = entry :: stack := by
  unfold pushEntry
  exact take_of_length_le (by simpa using Nat.succ_le_of_lt room)

theorem record_withinBound (bound : WithinBound manager) : WithinBound (record manager entry) := by
  refine ⟨bound.idle, ?_⟩
  simp only [record, pushEntry, length_take, length_nil, Nat.add_zero]
  exact Nat.min_le_left _ _

theorem finishRestore_manager : (finishRestore host manager graph entry).1.config = manager.config ∧
      (finishRestore host manager graph entry).1.undoStack = manager.undoStack ∧
      (finishRestore host manager graph entry).1.redoStack = manager.redoStack ∧
      (finishRestore host manager graph entry).1.isRestoring = false ∧
      (finishRestore host manager graph entry).2.1 =
        (host.restoreFromSnapshot graph entry.snapshot).1 ∧
      ((finishRestore host manager graph entry).2.2.success = true ↔
        (host.restoreFromSnapshot graph entry.snapshot).2 = none) := by
  unfold finishRestore
  split <;> simp_all

theorem finishRestore_withinBound (next : HistoryManager σ η)
    (graph : γ) (entry : HistoryEntry σ) (bound : WithinBound manager)
    (config : next.config = manager.config)
    (moved : next.undoStack.length + next.redoStack.length =
      manager.undoStack.length + manager.redoStack.length) :
    WithinBound (finishRestore host next graph entry).1 := by
  obtain ⟨sameConfig, undoStack, redoStack, idle, _⟩ :=
    finishRestore_manager host next graph entry
  refine ⟨idle, ?_⟩
  rw [sameConfig, undoStack, redoStack, config, moved]
  exact bound.room

/-- Undo moves one entry from the undo stack to the redo stack, so room remains. -/
theorem undo_withinBound
    (bound : WithinBound manager) : WithinBound (undo host manager graph).1 := by
  unfold undo
  cases stack : manager.undoStack with
  | nil => exact bound
  | cons entry rest =>
  have room := bound.room
  rw [stack, length_cons] at room
  refine finishRestore_withinBound host manager _ graph entry bound ?_ ?_
  · rfl
  · dsimp only
    rw [stack, pushEntry_eq _ _ _ (by omega), length_cons, length_cons]
    omega

/-- Redo moves one entry back. -/
theorem redo_withinBound
    (bound : WithinBound manager) : WithinBound (redo host manager graph).1 := by
  unfold redo
  cases stack : manager.redoStack with
  | nil => exact bound
  | cons entry rest =>
  have room := bound.room
  rw [stack, length_cons] at room
  refine finishRestore_withinBound host manager _ graph entry bound ?_ ?_
  · rfl
  · dsimp only
    rw [stack, pushEntry_eq _ _ _ (by omega), length_cons, length_cons]
    omega

theorem step_withinBound [DecidableEq η] (session : Session γ σ η)
    (event : Event γ) (bound : WithinBound session.manager) :
    WithinBound (session.step host event).manager := by
  cases event with
  | captureThenChange action changed =>
    simp only [step, captureSnapshot]
    split_ifs
    · exact bound
    · exact bound
    · exact bound
    · exact record_withinBound _ _ bound
  | changeThenCapture action changed =>
    simp only [step, captureIfChanged]
    split_ifs
    · exact bound
    · exact bound
    · exact bound
    · have recorded := record_withinBound session.manager
        ⟨host.getFlowfileData session.graph, action⟩ bound
      exact ⟨recorded.idle, recorded.room⟩
  | undo => exact undo_withinBound host session.manager session.graph bound
  | redo => exact redo_withinBound host session.manager session.graph bound
  | markSaved => exact ⟨bound.idle, bound.room⟩

theorem undoOnce_spec (host : RestoringHost γ σ η) (state next : State γ σ η)
    (bound : WithinBound state.1) (undone : undoOnce host.toHistoryHost state = some next) :
    ∃ entry rest, state.1.undoStack = entry :: rest ∧ next.1.undoStack = rest ∧
      next.1.redoStack = ⟨host.getFlowfileData state.2, entry.action⟩ :: state.1.redoStack ∧
      host.getFlowfileData next.2 = host.readBack entry.snapshot ∧ WithinBound next.1 := by
  have within := undo_withinBound host.toHistoryHost state.1 state.2 bound
  unfold undoOnce at undone
  dsimp only at undone
  split at undone
  · rename_i success
    have same := Option.some.inj undone
    subst same
    cases stack : state.1.undoStack with
    | nil => simp [undo, stack] at success
    | cons entry rest =>
    have room := bound.room
    rw [stack] at room
    simp only [length_cons] at room
    simp only [undo, stack] at success within ⊢
    obtain ⟨_, undoStack, redoStack, _, graph, outcome⟩ := finishRestore_manager
      host.toHistoryHost
      { state.1 with
        isRestoring := true
        undoStack := rest
        redoStack := pushEntry state.1.config.maxStackSize
          ⟨host.getFlowfileData state.2, entry.action⟩ state.1.redoStack } state.2 entry
    refine ⟨entry, rest, rfl, undoStack, ?_, ?_, within⟩
    · rw [redoStack, pushEntry_eq _ _ _ (by omega)]
    · rw [graph]
      exact host.readBack_spec _ _ (outcome.mp success)
  · simp at undone

theorem redoOnce_spec (host : RestoringHost γ σ η) (state next : State γ σ η)
    (bound : WithinBound state.1) (redone : redoOnce host.toHistoryHost state = some next) :
    ∃ entry rest, state.1.redoStack = entry :: rest ∧ next.1.redoStack = rest ∧
      next.1.undoStack = ⟨host.getFlowfileData state.2, entry.action⟩ :: state.1.undoStack ∧
      host.getFlowfileData next.2 = host.readBack entry.snapshot ∧ WithinBound next.1 := by
  have within := redo_withinBound host.toHistoryHost state.1 state.2 bound
  unfold redoOnce at redone
  dsimp only at redone
  split at redone
  · rename_i success
    have same := Option.some.inj redone
    subst same
    cases stack : state.1.redoStack with
    | nil => simp [redo, stack] at success
    | cons entry rest =>
    have room := bound.room
    rw [stack] at room
    simp only [length_cons] at room
    simp only [redo, stack] at success within ⊢
    obtain ⟨_, undoStack, redoStack, _, graph, outcome⟩ := finishRestore_manager
      host.toHistoryHost
      { state.1 with
        isRestoring := true
        redoStack := rest
        undoStack := pushEntry state.1.config.maxStackSize
          ⟨host.getFlowfileData state.2, entry.action⟩ state.1.undoStack } state.2 entry
    refine ⟨entry, rest, rfl, redoStack, ?_, ?_, within⟩
    · rw [undoStack, pushEntry_eq _ _ _ (by omega)]
    · rw [graph]
      exact host.readBack_spec _ _ (outcome.mp success)
  · simp at redone

/-- The entries that a walk over some entries leaves in their place. The deepest
one is read back once, the others twice. -/
def rewritten (readBack : σ → σ) : List (HistoryEntry σ) → List (HistoryEntry σ)
  | [] => []
  | [entry] => [⟨readBack entry.snapshot, entry.action⟩]
  | entry :: next :: rest =>
    ⟨readBack (readBack entry.snapshot), entry.action⟩ :: rewritten readBack (next :: rest)

/-- Several successful undos and as many successful redos: the redo stack is
rebuilt, the undone entries are rewritten, and the content is read back once. The
walk is nested, so the induction peels the outermost undo and redo. -/
theorem roundTrip_spec (host : RestoringHost γ σ η) (times : Nat)
    (state undone redone : State γ σ η) (bound : WithinBound state.1)
    (down : repeatTimes (undoOnce host.toHistoryHost) times state = some undone)
    (up : repeatTimes (redoOnce host.toHistoryHost) times undone = some redone) :
    ∃ entries rest, state.1.undoStack = entries ++ rest ∧ entries.length = times ∧
      redone.1.undoStack = rewritten host.readBack entries ++ rest ∧
      redone.1.redoStack = state.1.redoStack ∧
      host.getFlowfileData redone.2 = (if times = 0 then host.getFlowfileData state.2
          else host.readBack (host.getFlowfileData state.2)) ∧
      WithinBound redone.1 := by
  induction times generalizing state redone with
  | zero =>
    have downSame : state = undone := Option.some.inj down
    have upSame : undone = redone := Option.some.inj up
    subst downSame upSame
    exact ⟨[], state.1.undoStack, rfl, rfl, rfl, rfl, rfl, bound⟩
  | succ times ih =>
    obtain ⟨first, undoFirst, downRest⟩ := Option.bind_eq_some_iff.mp down
    rw [repeatTimes_succ] at up
    obtain ⟨middle, upRest, redoLast⟩ := Option.bind_eq_some_iff.mp up
    obtain ⟨entry, below, stack, firstUndo, firstRedo, firstContent, firstBound⟩ :=
      undoOnce_spec host state first bound undoFirst
    obtain ⟨entries, rest, split, count, middleUndo, middleRedo, middleContent, middleBound⟩ :=
      ih first middle firstBound downRest upRest
    obtain ⟨stored, left, redoStack, lastRedo, lastUndo, lastContent, lastBound⟩ :=
      redoOnce_spec host middle redone middleBound redoLast
    -- The entry that the outermost redo takes is the one that the outermost undo stored.
    rw [middleRedo, firstRedo] at redoStack
    obtain ⟨rfl, rfl⟩ := List.cons.inj redoStack
    refine ⟨entry :: entries, rest, ?_, by simp [count], ?_, lastRedo, ?_, lastBound⟩
    · rw [stack, ← firstUndo, split, cons_append]
    · rw [lastUndo, middleUndo, middleContent, firstContent]
      cases entries with
      | nil =>
        have none : times = 0 := by simpa using count.symm
        simp [rewritten, none]
      | cons next others =>
      have some : times ≠ 0 := by
        simp only [length_cons] at count
        omega
      simp [rewritten, some]
    · simpa using lastContent

theorem rewritten_eq_iff (readBack : σ → σ) (entries : List (HistoryEntry σ)) :
    rewritten readBack entries = entries ↔
      (∀ entry ∈ entries.getLast?, readBack entry.snapshot = entry.snapshot) ∧
        ∀ entry ∈ entries.dropLast, readBack (readBack entry.snapshot) = entry.snapshot := by
  induction entries with
  | nil => simp [rewritten]
  | cons entry rest ih =>
    cases rest with
    | nil =>
      obtain ⟨snapshot, action⟩ := entry
      simp [rewritten]
    | cons next others =>
    obtain ⟨snapshot, action⟩ := entry
    simp only [rewritten, List.cons.injEq, HistoryEntry.mk.injEq, and_true, ih]
    simp only [List.getLast?_cons_cons, dropLast_cons_cons, mem_cons, forall_eq_or_imp]
    tauto

/-- The condition for a walk of some length: the current content and the deepest
undone entry read back as themselves, and the entries above it do so twice. -/
structure ReadsBack (host : RestoringHost γ σ η) (state : State γ σ η) (times : Nat) : Prop where
  content : times ≠ 0 → host.readBack (host.getFlowfileData state.2) = host.getFlowfileData state.2
  deepest : ∀ entry ∈ (state.1.undoStack.take times).getLast?,
    host.readBack entry.snapshot = entry.snapshot
  others : ∀ entry ∈ (state.1.undoStack.take times).dropLast,
    host.readBack (host.readBack entry.snapshot) = entry.snapshot

structure SameHistory (host : HistoryHost γ σ η) (state other : State γ σ η) : Prop where
  content : host.getFlowfileData other.2 = host.getFlowfileData state.2
  undoStack : other.1.undoStack = state.1.undoStack
  redoStack : other.1.redoStack = state.1.redoStack

/-- A walk down and back ends where it began exactly under the condition. -/
theorem roundTrip_iff (host : RestoringHost γ σ η) (times : Nat) (state undone redone : State γ σ η)
    (bound : WithinBound state.1)
    (down : repeatTimes (undoOnce host.toHistoryHost) times state = some undone)
    (up : repeatTimes (redoOnce host.toHistoryHost) times undone = some redone) :
    SameHistory host.toHistoryHost state redone ↔ ReadsBack host state times := by
  obtain ⟨entries, rest, split, count, undoStack, redoStack, content, _⟩ :=
    roundTrip_spec host times state undone redone bound down up
  have taken : state.1.undoStack.take times = entries := by
    rw [split, ← count, take_left']
    rfl
  have stackIff : redone.1.undoStack = state.1.undoStack ↔
      rewritten host.readBack entries = entries := by
    rw [undoStack, split, append_cancel_right_eq]
  have contentIff : host.getFlowfileData redone.2 = host.getFlowfileData state.2 ↔
      (times ≠ 0 → host.readBack (host.getFlowfileData state.2) =
        host.getFlowfileData state.2) := by
    rw [content]
    split <;> simp_all
  constructor
  · intro same
    obtain ⟨deepest, others⟩ := (rewritten_eq_iff host.readBack entries).mp
      (stackIff.mp same.undoStack)
    exact ⟨contentIff.mp same.content, taken ▸ deepest, taken ▸ others⟩
  · intro reads
    refine ⟨contentIff.mpr reads.content, stackIff.mpr ?_, redoStack⟩
    exact (rewritten_eq_iff host.readBack entries).mpr
      ⟨taken ▸ reads.deepest, taken ▸ reads.others⟩

variable (edits : List (Edit Unit))

def recordedEdits : List (Event (World Unit)) :=
  [.captureThenChange ⟨.batch, "Build flow", none⟩ (editedWorld edits)]

def recordedState : State (World Unit) (FlowfileData Unit) (SnapshotSignature Unit) :=
  let session := (recordedEdits edits).foldl (step bareHost.toHistoryHost)
    (opened bareHost.toHistoryHost ⟨true, 50⟩ World.empty)
  (session.manager, session.graph)

def defaultOutput : List (Edit Unit) :=
  [.addNodePromise 1 "manual_input" promiseSetting, .addNodePromise 2 "filter" promiseSetting,
    .addConnection 1 "output-0" 2 0]

def secondOutput : List (Edit Unit) :=
  [.addNodePromise 1 "random_split" promiseSetting, .addNodePromise 2 "filter" promiseSetting,
    .addConnection 1 "output-1" 2 0]

end Flowfile.History

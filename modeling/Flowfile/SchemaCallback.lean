import Flowfile.Library.EventRuns
import Mathlib.Data.List.Nodup

/-!
# Schema callbacks

A function is executed once and its result is kept, until it is reset. Starting, the first part of a
call, what a worker writes at its end, and resetting each hold the lock; a caller that has to wait
looks at the future after it has released the lock, once to see that there is one and once more to
wait for it.

Between two resets the function is invoked at most once. What a caller is handed was produced by an
invocation that began after the last reset before its call, in every run in which no caller comes to
look for a future that a reset has taken away, and none waits for one that a reset cancels while
there is a callback for errors.
-/

namespace Flowfile.SchemaCallback

open Library.EventRuns List

variable {α ε : Type}

/-- How an invocation of the function ends. An error may be one that is not kept. -/
inductive Outcome (α ε : Type) where
  | returned (value : α)
  | raised (error : ε)
  | interrupted (error : ε)

/-- What an invocation does: it is submitted, taken up by a worker, has written its result and has
made its future done. One that began knows the generation at that time. -/
inductive Progress (α ε : Type) where
  | pending
  | cancelled
  | running (began : Nat)
  | committed (began : Nat) (outcome : Outcome α ε)
  | done (began : Nat) (outcome : Outcome α ε)

/-- An invocation with the generation at which it was submitted. -/
structure Task (α ε : Type) where
  generation : Nat
  progress : Progress α ε

/-- Errors that a caller may see: that of the function, that its future was cancelled, and that it
has no future. -/
inductive Raised (ε : Type) where
  | byFunction (error : ε)
  | cancelled
  | noFuture

inductive Handed (α ε : Type) where
  | value (value : α)
  | nothing
  | error (raised : Raised ε)

/-- A caller after it has released the lock. -/
inductive Phase (α ε : Type) where
  | checking
  | reading
  | waiting (task : Nat)
  | handed (result : Handed α ε)

/-- A caller with the generation at which it called. -/
structure Caller (α ε : Type) where
  since : Nat
  phase : Phase α ε

/-- The object, its invocations and its callers. A generation has an executor of its own, which runs
its invocation. -/
structure SingleExecutionFuture (α ε : Type) where
  onError : Option (Raised ε → α)
  generation : Nat
  future : Option Nat
  resultValue : Option α
  exception : Option ε
  hasCompleted : Bool
  hasStarted : Bool
  tasks : List (Task α ε)
  callers : List (Caller α ε)

inductive Event (α ε : Type) where
  | start
  | call
  | check (caller : Nat)
  | read (caller : Nat)
  | wake (caller : Nat)
  | begin (task : Nat)
  | commit (task : Nat) (outcome : Outcome α ε)
  | finish (task : Nat)
  | reset

def Task.cancel (task : Task α ε) : Task α ε :=
  match task.progress with
  | .pending => { task with progress := .cancelled }
  | _ => task

namespace SingleExecutionFuture

def initial (onError : Option (Raised ε → α)) : SingleExecutionFuture α ε where
  onError := onError
  generation := 0
  future := none
  resultValue := none
  exception := none
  hasCompleted := false
  hasStarted := false
  tasks := []
  callers := []

variable (self : SingleExecutionFuture α ε)

def handError (raised : Raised ε) : Handed α ε :=
  match self.onError with
  | some onError => .value (onError raised)
  | none => .error raised

/-- What a caller makes of the outcome of its future. -/
def deliver : Outcome α ε → Handed α ε
  | .returned value => .value value
  | .raised error => self.handError (.byFunction error)
  | .interrupted error => .error (.byFunction error)

def cached : Handed α ε :=
  match self.exception with
  | some error => self.handError (.byFunction error)
  | none =>
    match self.resultValue with
    | some value => .value value
    | none => .nothing

def start : SingleExecutionFuture α ε :=
  if self.hasStarted then self
  else { self with
    tasks := self.tasks ++ [⟨self.generation, .pending⟩]
    future := some self.tasks.length
    hasStarted := true }

/-- The part of a call that holds the lock. -/
def call : SingleExecutionFuture α ε :=
  if self.hasCompleted then
    { self with callers := self.callers ++ [⟨self.generation, .handed self.cached⟩] }
  else { self.start with callers := self.callers ++ [⟨self.generation, .checking⟩] }

def setPhase (caller : Nat) (phase : Phase α ε) : SingleExecutionFuture α ε :=
  { self with callers := self.callers.modify caller fun caller => { caller with phase := phase } }

/-- See whether there is a future. -/
def check (caller : Nat) : SingleExecutionFuture α ε :=
  match (self.callers[caller]?).map Caller.phase with
  | some .checking =>
    if self.future.isSome then self.setPhase caller .reading
    else self.setPhase caller (.handed .nothing)
  | _ => self

/-- Begin to wait for the future, which is looked up once more. -/
def read (caller : Nat) : SingleExecutionFuture α ε :=
  match (self.callers[caller]?).map Caller.phase with
  | some .reading =>
    match self.future with
    | some task => self.setPhase caller (.waiting task)
    | none => self.setPhase caller (.handed (self.handError .noFuture))
  | _ => self

def wake (caller : Nat) : SingleExecutionFuture α ε :=
  match (self.callers[caller]?).map Caller.phase with
  | some (.waiting task) =>
    match (self.tasks[task]?).map Task.progress with
    | some (.done _ outcome) => self.setPhase caller (.handed (self.deliver outcome))
    | some .cancelled => self.setPhase caller (.handed (self.handError .cancelled))
    | _ => self
  | _ => self

def setProgress (task : Nat) (progress : Progress α ε) : SingleExecutionFuture α ε :=
  { self with tasks := self.tasks.modify task fun task => { task with progress := progress } }

def begin (task : Nat) : SingleExecutionFuture α ε :=
  match (self.tasks[task]?).map Task.progress with
  | some .pending => self.setProgress task (.running self.generation)
  | _ => self

/-- The function ends. Its result is kept unless there was a reset. -/
def commit (task : Nat) (outcome : Outcome α ε) : SingleExecutionFuture α ε :=
  match self.tasks[task]? with
  | some ⟨generation, .running began⟩ =>
    let ended := self.setProgress task (.committed began outcome)
    if generation = self.generation then
      match outcome with
      | .returned value => { ended with resultValue := some value, hasCompleted := true }
      | .raised error => { ended with exception := some error, hasCompleted := true }
      | .interrupted _ => ended
    else ended
  | _ => self

def finish (task : Nat) : SingleExecutionFuture α ε :=
  match (self.tasks[task]?).map Task.progress with
  | some (.committed began outcome) => self.setProgress task (.done began outcome)
  | _ => self

def reset : SingleExecutionFuture α ε :=
  { self with
    generation := self.generation + 1
    tasks := match self.future with
      | some task => self.tasks.modify task Task.cancel
      | none => self.tasks
    future := none
    resultValue := none
    exception := none
    hasCompleted := false
    hasStarted := false }

def step : Event α ε → SingleExecutionFuture α ε
  | .start => self.start
  | .call => self.call
  | .check caller => self.check caller
  | .read caller => self.read caller
  | .wake caller => self.wake caller
  | .begin task => self.begin task
  | .commit task outcome => self.commit task outcome
  | .finish task => self.finish task
  | .reset => self.reset

end SingleExecutionFuture

/-- The generation in which the function was invoked. -/
def Task.began (task : Task α ε) : Option Nat :=
  match task.progress with
  | .pending | .cancelled => none
  | .running began | .committed began _ | .done began _ => some began

def Task.ended (task : Task α ε) : Option (Nat × Outcome α ε) :=
  match task.progress with
  | .committed began outcome | .done began outcome => some (began, outcome)
  | _ => none

def Handed.isResult : Handed α ε → Bool
  | .value _ | .nothing | .error (.byFunction _) => true
  | .error .cancelled | .error .noFuture => false

/-- An invocation ended with what a caller is handed, and it began in no generation before its
call. -/
def Produced (self : SingleExecutionFuture α ε) (since : Nat) (handed : Handed α ε) : Prop :=
  ∃ task ∈ self.tasks, ∃ began outcome, task.ended = some (began, outcome) ∧ since ≤ began ∧
    handed = self.deliver outcome

structure Single (object : SingleExecutionFuture α ε) : Prop where
  produced : ∀ caller ∈ object.callers, ∀ handed, caller.phase = .handed handed →
    handed.isResult → Produced object caller.since handed
  once : (object.tasks.filterMap Task.began).Nodup

/-- A caller that looks for a future finds one, and with a callback for errors none waits for a
future that was cancelled. -/
def SingleExecutionFuture.Keeps (self : SingleExecutionFuture α ε) : Event α ε → Prop
  | .check caller =>
    (self.callers[caller]?).map Caller.phase = some .checking → self.future.isSome
  | .read caller => (self.callers[caller]?).map Caller.phase = some .reading →
    self.future.isSome ∨ self.onError = none
  | .wake caller => ∀ task, (self.callers[caller]?).map Caller.phase = some (.waiting task) →
    (self.tasks[task]?).map Task.progress = some .cancelled → self.onError = none
  | _ => True

/-- Each generation has one invocation at most, which begins in it or not at all. -/
structure Numbered (tasks : List (Task α ε)) (generation : Nat) : Prop where
  distinct : (tasks.map Task.generation).Nodup
  bounded : ∀ task ∈ tasks, task.generation ≤ generation
  began : ∀ task ∈ tasks, ∀ began, task.began = some began → began = task.generation
  pending : ∀ task ∈ tasks, task.progress = .pending → task.generation = generation

/-- The fields and the callers follow from the invocations. -/
structure Consistent (object : SingleExecutionFuture α ε) : Prop where
  numbered : Numbered object.tasks object.generation
  started : object.hasStarted = object.future.isSome
  unstarted : object.future = none → ∀ task ∈ object.tasks, task.generation < object.generation
  future : ∀ place, object.future = some place →
    ∃ task, object.tasks[place]? = some task ∧ task.generation = object.generation
  incomplete : object.hasCompleted = false → object.resultValue = none ∧ object.exception = none
  completed : object.hasCompleted = true → ∃ task ∈ object.tasks,
    task.generation = object.generation ∧ ∃ began outcome,
      task.ended = some (began, outcome) ∧ object.cached = object.deliver outcome
  since : ∀ caller ∈ object.callers, caller.since ≤ object.generation
  waiting : ∀ caller ∈ object.callers, ∀ place, caller.phase = .waiting place →
    ∃ task, object.tasks[place]? = some task ∧ caller.since ≤ task.generation
  produced : ∀ caller ∈ object.callers, ∀ handed, caller.phase = .handed handed →
    handed.isResult → Produced object caller.since handed

/-- Invocations keep their places, their generations and how they ended. -/
def Evolves (before after : List (Task α ε)) : Prop :=
  ∀ (place : Nat) (task : Task α ε), before[place]? = some task →
    ∃ later : Task α ε, after[place]? = some later ∧ later.generation = task.generation ∧
      ∀ ended, task.ended = some ended → later.ended = some ended

variable {task : Task α ε} {tasks : List (Task α ε)} {generation place : Nat} {phase : Phase α ε}
  {change : Task α ε → Task α ε} {caller : Nat}

section

variable {self : SingleExecutionFuture α ε}

theorem Task.ended_began {began : Nat} {outcome : Outcome α ε}
    (ended : task.ended = some (began, outcome)) : task.began = some began := by
  rw [Task.ended] at ended
  rw [Task.began]
  split at ended
  case h_1 found =>
    rw [found]
    exact congrArg some (congrArg Prod.fst (Option.some.inj ended))
  case h_2 found =>
    rw [found]
    exact congrArg some (congrArg Prod.fst (Option.some.inj ended))
  case h_3 => cases ended

theorem Numbered.once
    (numbered : Numbered tasks generation) : (tasks.filterMap Task.began).Nodup := by
  have sublist : (tasks.filterMap Task.began).Sublist (tasks.map Task.generation) := by
    have same : tasks.filterMap Task.began = (tasks.filterMap fun task =>
        task.began.map fun _ => task.generation) :=
      filterMap_congr fun task mem => by
        cases began : task.began with
        | none => rfl
        | some generation => rw [numbered.began task mem generation began]; rfl
    rw [same]
    clear same numbered
    induction tasks with
    | nil => exact .slnil
    | cons task rest ih =>
      rw [filterMap_cons]
      cases task.began with
      | none => exact ih.cons _
      | some _ => exact ih.cons_cons _
  exact numbered.distinct.sublist sublist

theorem Consistent.single (consistent : Consistent self) : Single self :=
  ⟨consistent.produced, consistent.numbered.once⟩

theorem consistent_initial (onError : Option (Raised ε → α)) :
    Consistent (SingleExecutionFuture.initial onError) where
  numbered := ⟨nodup_nil, nofun, nofun, nofun⟩
  started := rfl
  unstarted _ := nofun
  future := nofun
  incomplete _ := ⟨rfl, rfl⟩
  completed := nofun
  since := nofun
  waiting := nofun
  produced := nofun

theorem Produced.evolve {since : Nat} {handed : Handed α ε} (produced : Produced self since handed)
    {after : SingleExecutionFuture α ε} (same : after.onError = self.onError)
    (evolves : Evolves self.tasks after.tasks) : Produced after since handed := by
  obtain ⟨task, mem, began, outcome, ended, late, isOutcome⟩ := produced
  obtain ⟨place, here⟩ := mem_iff_getElem?.mp mem
  obtain ⟨later, there, _, kept⟩ := evolves place task here
  have delivered : after.deliver outcome = self.deliver outcome := by
    cases outcome <;> simp only [SingleExecutionFuture.deliver, SingleExecutionFuture.handError,
      same]
  exact ⟨later, mem_of_getElem? there, began, outcome, kept _ ended, late,
    isOutcome.trans delivered.symm⟩

theorem Consistent.setPhase (consistent : Consistent self)
    (waits : ∀ caller, self.callers[place]? = some caller → ∀ task, phase = .waiting task →
      ∃ found, self.tasks[task]? = some found ∧ caller.since ≤ found.generation)
    (hands : ∀ caller, self.callers[place]? = some caller → ∀ handed, phase = .handed handed →
      handed.isResult → Produced self caller.since handed) :
    Consistent (self.setPhase place phase) := by
  have moved : ∀ caller ∈ (self.setPhase place phase).callers, caller ∈ self.callers ∨
      ∃ before, self.callers[place]? = some before ∧ caller = { before with phase := phase } := by
    intro caller mem
    obtain ⟨other, here⟩ := mem_iff_getElem?.mp mem
    rw [SingleExecutionFuture.setPhase, List.getElem?_modify] at here
    obtain ⟨before, found, rfl⟩ := Option.map_eq_some_iff.mp here
    split
    case isTrue same =>
      subst same
      exact .inr ⟨before, found, rfl⟩
    case isFalse => exact .inl (mem_of_getElem? found)
  refine { consistent with since := ?_, waiting := ?_, produced := ?_ }
  · intro caller mem
    rcases moved caller mem with old | ⟨before, found, rfl⟩
    · exact consistent.since caller old
    · exact consistent.since before (mem_of_getElem? found)
  · intro caller mem task waiting
    rcases moved caller mem with old | ⟨before, found, rfl⟩
    · exact consistent.waiting caller old task waiting
    · exact waits before found task waiting
  · intro caller mem handed isHanded isResult
    rcases moved caller mem with old | ⟨before, found, rfl⟩
    · exact consistent.produced caller old handed isHanded isResult
    · exact hands before found handed isHanded isResult

theorem evolves_modify (tasks : List (Task α ε)) (place : Nat)
    (generation : ∀ task, (change task).generation = task.generation)
    (ended : ∀ task, tasks[place]? = some task → ∀ found, task.ended = some found →
      (change task).ended = some found) : Evolves tasks (tasks.modify place change) := by
  intro other task here
  by_cases same : place = other
  · subst same
    refine ⟨change task, ?_, generation task, ended task here⟩
    rw [List.getElem?_modify_eq, here]
    rfl
  · refine ⟨task, ?_, rfl, fun _ found => found⟩
    rw [List.getElem?_modify_ne _ _ same, here]

theorem map_generation_modify (tasks : List (Task α ε)) (place : Nat)
    (generation : ∀ task, (change task).generation = task.generation) :
    (tasks.modify place change).map Task.generation = tasks.map Task.generation := by
  refine ext_getElem? fun other => ?_
  rw [List.getElem?_map, List.getElem?_map, List.getElem?_modify]
  cases tasks[other]? with
  | none => rfl
  | some task =>
  change some (Task.generation (if place = other then change task else task)) = _
  split
  · rw [generation]
    rfl
  · rfl

theorem mem_modify_task (mem : task ∈ tasks.modify place change) :
    (∃ other ≠ place, tasks[other]? = some task) ∨
      ∃ before, tasks[place]? = some before ∧ task = change before := by
  obtain ⟨other, here⟩ := mem_iff_getElem?.mp mem
  rw [List.getElem?_modify] at here
  obtain ⟨before, found, rfl⟩ := Option.map_eq_some_iff.mp here
  split
  case isTrue same =>
    subst same
    exact .inr ⟨before, found, rfl⟩
  case isFalse apart => exact .inl ⟨other, Ne.symm apart, found⟩

section

variable (consistent : Consistent self)
include consistent

/-- An invocation goes on. -/
theorem Consistent.setProgress
    (here : self.tasks[place]? = some task) {progress : Progress α ε}
    (further : progress ≠ .pending)
    (began : ∀ began, (Task.mk task.generation progress).began = some began →
      began = task.generation)
    (ended : ∀ found, task.ended = some found →
      (Task.mk task.generation progress).ended = some found) :
    Consistent (self.setProgress place progress) := by
  have evolves : Evolves self.tasks (self.setProgress place progress).tasks := by
    refine evolves_modify _ _ (fun _ => rfl) fun other found => ?_
    cases here.symm.trans found
    exact ended
  have changed : ∀ other ∈ (self.setProgress place progress).tasks, other ∈ self.tasks ∨
      other = ⟨task.generation, progress⟩ := by
    intro other mem
    rcases mem_modify_task mem with ⟨_, _, found⟩ | ⟨before, found, rfl⟩
    · exact .inl (mem_of_getElem? found)
    · cases here.symm.trans found
      exact .inr rfl
  have mem := mem_of_getElem? here
  constructor
  case numbered =>
    refine ⟨?_, fun other inTasks => ?_, fun other inTasks => ?_, fun other inTasks waits => ?_⟩
    · have same : (self.setProgress place progress).tasks.map Task.generation =
          self.tasks.map Task.generation := map_generation_modify _ _ fun _ => rfl
      rw [same]
      exact consistent.numbered.distinct
    · rcases changed other inTasks with old | rfl
      · exact consistent.numbered.bounded other old
      · exact consistent.numbered.bounded task mem
    · rcases changed other inTasks with old | rfl
      · exact consistent.numbered.began other old
      · exact began
    · rcases changed other inTasks with old | rfl
      · exact consistent.numbered.pending other old waits
      · exact absurd waits further
  case started => exact consistent.started
  case unstarted =>
    intro none other inTasks
    rcases changed other inTasks with old | rfl
    · exact consistent.unstarted none other old
    · exact consistent.unstarted none task mem
  case future =>
    intro other isFuture
    obtain ⟨found, there, current⟩ := consistent.future other isFuture
    obtain ⟨later, thereNow, same, _⟩ := evolves other found there
    exact ⟨later, thereNow, same.trans current⟩
  case incomplete => exact consistent.incomplete
  case completed =>
    intro completed
    obtain ⟨found, inTasks, current, start, outcome, isEnded, kept⟩ :=
      consistent.completed completed
    obtain ⟨other, there⟩ := mem_iff_getElem?.mp inTasks
    obtain ⟨later, thereNow, same, keeps⟩ := evolves other found there
    exact ⟨later, mem_of_getElem? thereNow, same.trans current, start, outcome,
      keeps _ isEnded, kept⟩
  case since => exact consistent.since
  case waiting =>
    intro caller inCallers other waiting
    obtain ⟨found, there, late⟩ := consistent.waiting caller inCallers other waiting
    obtain ⟨later, thereNow, same, _⟩ := evolves other found there
    exact ⟨later, thereNow, same ▸ late⟩
  case produced =>
    intro caller inCallers handed isHanded isResult
    have before := consistent.produced caller inCallers handed isHanded isResult
    exact before.evolve rfl evolves

theorem Consistent.start : Consistent self.start := by
  rw [SingleExecutionFuture.start]
  split
  · exact consistent
  case isFalse idle =>
    have unset : self.future = none := by
      have same := consistent.started
      rw [Bool.eq_false_iff.mpr idle] at same
      exact Option.isSome_eq_false_iff.mp same.symm |> Option.isNone_iff_eq_none.mp
    have earlier := consistent.unstarted unset
    have evolves : Evolves self.tasks (self.tasks ++ [⟨self.generation, .pending⟩]) := by
      intro place task here
      refine ⟨task, ?_, rfl, fun _ found => found⟩
      rw [List.getElem?_append_left (List.getElem?_eq_some_iff.mp here).1, here]
    constructor
    case numbered =>
      refine ⟨?_, fun task mem => ?_, fun task mem => ?_, fun task mem waits => ?_⟩
      · rw [map_append]
        refine nodup_append.mpr ⟨consistent.numbered.distinct, nodup_singleton _, ?_⟩
        intro first inTasks second last same
        obtain ⟨task, mem, rfl⟩ := mem_map.mp inTasks
        rw [mem_singleton.mp last] at same
        exact Nat.ne_of_lt (earlier task mem) same
      · rcases mem_append.mp mem with old | new
        · exact consistent.numbered.bounded task old
        · obtain rfl := mem_singleton.mp new
          exact Nat.le_refl _
      · rcases mem_append.mp mem with old | new
        · exact consistent.numbered.began task old
        · rw [mem_singleton.mp new]
          nofun
      · rcases mem_append.mp mem with old | new
        · exact consistent.numbered.pending task old waits
        · rw [mem_singleton.mp new]
    case started => rfl
    case unstarted => nofun
    case future =>
      intro place isFuture
      cases isFuture
      exact ⟨_, List.getElem?_concat_length, rfl⟩
    case incomplete => exact consistent.incomplete
    case completed =>
      intro completed
      obtain ⟨task, mem, rest⟩ := consistent.completed completed
      exact ⟨task, mem_append_left _ mem, rest⟩
    case since => exact consistent.since
    case waiting =>
      intro caller inCallers place waiting
      obtain ⟨task, there, late⟩ := consistent.waiting caller inCallers place waiting
      obtain ⟨later, thereNow, same, _⟩ := evolves place task there
      exact ⟨later, thereNow, same ▸ late⟩
    case produced =>
      intro caller inCallers handed isHanded isResult
      have before := consistent.produced caller inCallers handed isHanded isResult
      exact before.evolve rfl evolves

theorem Consistent.addCaller (waits : ∀ task, phase ≠ .waiting task)
    (hands : ∀ handed, phase = .handed handed → Produced self self.generation handed) :
    Consistent { self with callers := self.callers ++ [⟨self.generation, phase⟩] } := by
  refine { consistent with since := ?_, waiting := ?_, produced := ?_ }
  · intro caller mem
    rcases mem_append.mp mem with old | new
    · exact consistent.since caller old
    · obtain rfl := mem_singleton.mp new
      exact Nat.le_refl _
  · intro caller mem task waiting
    rcases mem_append.mp mem with old | new
    · exact consistent.waiting caller old task waiting
    · rw [mem_singleton.mp new] at waiting
      exact absurd waiting (waits task)
  · intro caller mem handed isHanded isResult
    rcases mem_append.mp mem with old | new
    · exact consistent.produced caller old handed isHanded isResult
    · rw [mem_singleton.mp new] at isHanded ⊢
      exact hands handed isHanded

theorem Consistent.call : Consistent self.call := by
  rw [SingleExecutionFuture.call]
  split
  case isTrue completed =>
    refine consistent.addCaller nofun fun handed same => ?_
    obtain ⟨task, mem, current, began, outcome, ended, cached⟩ := consistent.completed completed
    have begun := consistent.numbered.began task mem began (Task.ended_began ended)
    cases same
    exact ⟨task, mem, began, outcome, ended, Nat.le_of_eq (begun.trans current).symm, cached⟩
  case isFalse =>
    have generation : self.start.generation = self.generation := by
      rw [SingleExecutionFuture.start]
      split <;> rfl
    have callers : self.start.callers = self.callers := by
      rw [SingleExecutionFuture.start]
      split <;> rfl
    have added : Consistent { self.start with
        callers := self.start.callers ++ [⟨self.start.generation, .checking⟩] } :=
      consistent.start.addCaller nofun nofun
    rw [generation, callers] at added
    exact added

theorem Consistent.check (keeps : self.Keeps (.check caller)) : Consistent (self.check caller) := by
  rw [SingleExecutionFuture.check]
  split
  case h_1 found =>
    rw [if_pos (keeps found)]
    exact consistent.setPhase nofun nofun
  case h_2 => exact consistent

theorem Consistent.read (keeps : self.Keeps (.read caller)) : Consistent (self.read caller) := by
  rw [SingleExecutionFuture.read]
  split
  case h_1 found =>
    cases isFuture : self.future with
    | some place =>
      obtain ⟨task, there, current⟩ := consistent.future place isFuture
      refine consistent.setPhase (fun before here other waiting => ?_) nofun
      obtain rfl : place = other := by cases waiting; rfl
      exact ⟨task, there, current ▸ consistent.since before (mem_of_getElem? here)⟩
    | none =>
      have silent : self.onError = none :=
        (keeps found).resolve_left (by rw [isFuture]; exact Bool.false_ne_true)
      refine consistent.setPhase nofun fun before here handed same isResult => ?_
      cases same
      rw [SingleExecutionFuture.handError, silent] at isResult
      cases isResult
  case h_2 => exact consistent

theorem Consistent.wake (keeps : self.Keeps (.wake caller)) : Consistent (self.wake caller) := by
  rw [SingleExecutionFuture.wake]
  split
  case h_2 => exact consistent
  case h_1 place waiting =>
    split
    case h_3 => exact consistent
    case h_1 began outcome progress =>
      refine consistent.setPhase nofun fun before here handed same _ => ?_
      obtain ⟨task, there, isDone⟩ := Option.map_eq_some_iff.mp progress
      obtain ⟨found, foundThere, late⟩ := consistent.waiting before (mem_of_getElem? here)
        place (by rw [here] at waiting; exact Option.some.inj waiting)
      cases there.symm.trans foundThere
      have ended : task.ended = some (began, outcome) := by rw [Task.ended, isDone]
      have begun := consistent.numbered.began task (mem_of_getElem? there) began
        (Task.ended_began ended)
      cases same
      exact ⟨task, mem_of_getElem? there, began, outcome, ended, begun ▸ late, rfl⟩
    case h_2 cancelled =>
      refine consistent.setPhase nofun fun before here handed same isResult => ?_
      cases same
      rw [SingleExecutionFuture.handError, keeps place waiting cancelled] at isResult
      cases isResult

theorem Consistent.begin (place : Nat) : Consistent (self.begin place) := by
  rw [SingleExecutionFuture.begin]
  split
  case h_2 => exact consistent
  case h_1 found =>
    obtain ⟨task, here, pending⟩ := Option.map_eq_some_iff.mp found
    have current := consistent.numbered.pending task (mem_of_getElem? here) pending
    refine consistent.setProgress here nofun (fun began same => ?_) fun ended found => ?_
    · exact (Option.some.inj same).symm.trans current.symm
    · rw [Task.ended, pending] at found
      cases found

theorem Consistent.finish (place : Nat) : Consistent (self.finish place) := by
  rw [SingleExecutionFuture.finish]
  split
  case h_2 => exact consistent
  case h_1 began outcome found =>
    obtain ⟨task, here, committed⟩ := Option.map_eq_some_iff.mp found
    have ended : task.ended = some (began, outcome) := by rw [Task.ended, committed]
    refine consistent.setProgress here nofun (fun other same => ?_) fun found isEnded => ?_
    · cases same
      exact consistent.numbered.began task (mem_of_getElem? here) _ (Task.ended_began ended)
    · exact ended.symm.trans isEnded

end

/-- Two invocations of one generation are one. -/
theorem Numbered.unique
    (numbered : Numbered tasks generation) {first second : Task α ε} (here : first ∈ tasks)
    (there : second ∈ tasks) (same : first.generation = second.generation) : first = second :=
  inj_on_of_nodup_map numbered.distinct here there same

theorem Consistent.commit (consistent : Consistent self) (place : Nat) (outcome : Outcome α ε) :
    Consistent (self.commit place outcome) := by
  rw [SingleExecutionFuture.commit]
  split
  case h_2 => exact consistent
  case h_1 generation began here =>
    have mem := mem_of_getElem? here
    have begun : began = generation := consistent.numbered.began _ mem began rfl
    have ended : Consistent (self.setProgress place (.committed began outcome)) :=
      consistent.setProgress here nofun (fun other same => (Option.some.inj same).symm.trans begun)
        nofun
    dsimp only
    split
    case isFalse => exact ended
    case isTrue current =>
      -- The invocation of this generation has not ended before.
      have incomplete : self.hasCompleted = false := by
        by_contra completed
        obtain ⟨other, inTasks, sameGeneration, _, _, isEnded, _⟩ :=
          consistent.completed (eq_true_of_ne_false completed)
        have same := consistent.numbered.unique inTasks mem (sameGeneration.trans current.symm)
        rw [same] at isEnded
        cases isEnded
      obtain ⟨_, noException⟩ := consistent.incomplete incomplete
      have kept : (⟨generation, .committed began outcome⟩ : Task α ε) ∈
          (self.setProgress place (.committed began outcome)).tasks := by
        refine mem_of_getElem? (List.getElem?_modify_eq _ place self.tasks |>.trans ?_)
        rw [here]
        rfl
      cases outcome with
      | returned value =>
        refine { ended with incomplete := nofun, completed := fun _ =>
          ⟨_, kept, current, began, _, rfl, ?_⟩ }
        have cleared : (self.setProgress place (.committed began (.returned value))).exception =
            none := noException
        rw [SingleExecutionFuture.cached]
        dsimp only
        rw [cleared]
        rfl
      | raised error =>
        exact { ended with incomplete := nofun, completed := fun _ =>
          ⟨_, kept, current, began, _, rfl, rfl⟩ }
      | interrupted error => exact ended

theorem Consistent.reset (consistent : Consistent self) : Consistent self.reset := by
  have evolves : Evolves self.tasks self.reset.tasks := by
    rw [SingleExecutionFuture.reset]
    dsimp only
    split
    case h_1 place _ =>
      refine evolves_modify _ _ (fun task => ?_) fun task _ ended isEnded => ?_
      · rw [Task.cancel]
        split <;> rfl
      · rw [Task.ended] at isEnded
        rw [Task.cancel]
        split
        case h_1 pending =>
          rw [pending] at isEnded
          cases isEnded
        case h_2 => exact isEnded
    case h_2 => exact fun _ task here => ⟨task, here, rfl, fun _ found => found⟩
  have changed : ∀ task ∈ self.reset.tasks, task.progress ≠ .pending ∧
      ∃ before ∈ self.tasks, task.generation = before.generation ∧ task.began = before.began := by
    intro task mem
    rw [SingleExecutionFuture.reset] at mem
    dsimp only at mem
    cases isFuture : self.future with
    | none =>
      rw [isFuture] at mem
      exact ⟨fun pending => Nat.ne_of_lt (consistent.unstarted isFuture task mem)
        (consistent.numbered.pending task mem pending), task, mem, rfl, rfl⟩
    | some place =>
    rw [isFuture] at mem
    obtain ⟨current, here, isCurrent⟩ := consistent.future place isFuture
    rcases mem_modify_task mem with ⟨other, apart, found⟩ | ⟨before, found, rfl⟩
    · have old := mem_of_getElem? found
      refine ⟨fun pending => apart ?_, task, old, rfl, rfl⟩
      have inside : other < (self.tasks.map Task.generation).length := by
        rw [length_map]
        exact (List.getElem?_eq_some_iff.mp found).1
      refine (List.getElem?_inj inside consistent.numbered.distinct).mp ?_
      rw [List.getElem?_map, List.getElem?_map, found, here, Option.map_some, Option.map_some,
        consistent.numbered.pending task old pending, isCurrent]
    · refine ⟨?_, before, mem_of_getElem? found, ?_⟩
      · rw [Task.cancel]
        split
        case h_1 => nofun
        case h_2 going => exact going
      · rw [Task.cancel]
        split
        case h_1 pending =>
          refine ⟨rfl, ?_⟩
          rw [Task.began, Task.began, pending]
        case h_2 => exact ⟨rfl, rfl⟩
  have generations : self.reset.tasks.map Task.generation = self.tasks.map Task.generation := by
    rw [SingleExecutionFuture.reset]
    dsimp only
    split
    case h_1 =>
      refine map_generation_modify _ _ fun task => ?_
      rw [Task.cancel]
      split <;> rfl
    case h_2 => rfl
  constructor
  case numbered =>
    refine ⟨?_, fun task mem => ?_, fun task mem => ?_, fun task mem waits => ?_⟩
    · rw [generations]
      exact consistent.numbered.distinct
    · obtain ⟨_, before, old, same, _⟩ := changed task mem
      exact same ▸ Nat.le_succ_of_le (consistent.numbered.bounded before old)
    · obtain ⟨_, before, old, same, sameBegan⟩ := changed task mem
      rw [same, sameBegan]
      exact consistent.numbered.began before old
    · exact absurd waits (changed task mem).1
  case started => rfl
  case unstarted =>
    intro _ task mem
    obtain ⟨_, before, old, same, _⟩ := changed task mem
    exact same ▸ Nat.lt_succ_of_le (consistent.numbered.bounded before old)
  case future => nofun
  case incomplete => exact fun _ => ⟨rfl, rfl⟩
  case completed => nofun
  case since => exact fun caller mem => Nat.le_succ_of_le (consistent.since caller mem)
  case waiting =>
    intro caller inCallers place waiting
    obtain ⟨task, there, late⟩ := consistent.waiting caller inCallers place waiting
    obtain ⟨later, thereNow, same, _⟩ := evolves place task there
    exact ⟨later, thereNow, same ▸ late⟩
  case produced =>
    intro caller inCallers handed isHanded isResult
    have before := consistent.produced caller inCallers handed isHanded isResult
    exact before.evolve rfl evolves

theorem Consistent.step (consistent : Consistent self) (event : Event α ε)
    (keeps : self.Keeps event) : Consistent (self.step event) := by
  cases event with
  | start => exact consistent.start
  | call => exact consistent.call
  | check caller => exact consistent.check keeps
  | read caller => exact consistent.read keeps
  | wake caller => exact consistent.wake keeps
  | begin task => exact consistent.begin task
  | commit task outcome => exact consistent.commit task outcome
  | finish task => exact consistent.finish task
  | reset => exact consistent.reset

end

end Flowfile.SchemaCallback

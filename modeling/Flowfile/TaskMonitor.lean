import Flowfile.Library.EventRuns
import Mathlib.Data.Set.Basic

/-!
# What the monitor of a task records

A task runs in a child process, which reports its progress, describes an error, and puts a result on
a queue. The monitor samples the progress as long as the child is alive and then records how the
child ended; a cancellation kills the child and marks the task. These go on side by side, a step of
one falling between any two steps of another.

What is recorded is what happened when an error is sampled before the child is found dead, the
child does not change its mind once its last progress was read, and the mark of a cancellation
falls before the end and is not written over.
-/

namespace Flowfile.WorkerTasks

open Library.EventRuns

variable {β γ : Type}

/-- A child process with what it shares with the worker. -/
structure Child (β : Type) where
  alive : Bool
  progress : Int
  errorMessage : ByteArray
  queue : Option β
  /-- The result it has put on the queue, taken from there or not. -/
  result : Option β

inductive ChildEvent (β : Type) where
  | report (progress : Int)
  | describe (errorMessage : ByteArray)
  | put (result : β)
  | exit

def Child.started : Child β := ⟨true, 0, .empty, none, none⟩

def Child.step (child : Child β) : ChildEvent β → Child β
  | .report progress => if child.alive then { child with progress := progress } else child
  | .describe message => if child.alive then { child with errorMessage := message } else child
  | .put result =>
    if child.alive && child.result.isNone then
      { child with queue := some result, result := some result }
    else child
  | .exit => { child with alive := false }

def Child.terminate (child : Child β) : Child β := { child with alive := false }

/-- The text of an error message, if it is one. -/
def decode (message : ByteArray) : Option String :=
  String.fromUTF8? message

inductive TaskStatus where
  | starting
  | processing
  | completed
  | error
  | unknownError
  | cancelled
deriving DecidableEq

structure Status (γ : Type) where
  status : TaskStatus
  progress : Int
  errorMessage : Option String
  results : Option γ

/-- How a child that ended with this progress ended. -/
def verdict (progress : Int) : TaskStatus :=
  if progress = 100 then .completed else if progress = -1 then .error else .unknownError

variable {progress : Int}

@[simp] theorem verdict_eq_completed : verdict progress = .completed ↔ progress = 100 := by
  rw [verdict]
  split
  case isTrue same => simp [same]
  case isFalse apart => split <;> simp [apart]

@[simp] theorem verdict_eq_error : verdict progress = .error ↔ progress = -1 := by
  rw [verdict]
  split
  case isTrue same => simp [same]
  case isFalse => split <;> simp_all

@[simp] theorem verdict_eq_unknownError :
    verdict progress = .unknownError ↔ progress ≠ 100 ∧ progress ≠ -1 := by
  rw [verdict]
  split
  case isTrue same => simp [same]
  case isFalse apart => split <;> simp_all

/-- Where the monitor is: before the step named, with what it has read so far. -/
inductive Monitor (β : Type) where
  | starting
  | loopHead
  | sampling
  | recording (current : Int)
  | reporting (current : Int)
  | leaving
  | reading (cancelled : Bool)
  | draining
  | joining (final : Int) (result : Option β)
  | finishing (final : Int) (result : Option β)
  | cleaning
  | ended

inductive Cancel where
  | none
  | killed
  | marked
deriving DecidableEq

structure Task (β γ : Type) where
  child : Child β
  status : Status γ
  monitor : Monitor β
  cancel : Cancel
  registered : Bool

def Task.started : Task β γ where
  child := .started
  status := ⟨.starting, 0, none, none⟩
  monitor := .starting
  cancel := .none
  registered := true

variable (stored : β → γ)

/-- A step of `handle_task`; `expired` tells whether the time to wait for a result is over. -/
def Task.handle (task : Task β γ) (expired : Bool) : Task β γ :=
  match task.monitor with
  | .starting =>
    { task with status := { task.status with status := .processing }, monitor := .loopHead }
  | .loopHead =>
    { task with monitor := if task.child.alive then .sampling else .leaving }
  | .sampling => { task with monitor := .recording task.child.progress }
  | .recording current =>
    let status := { task.status with progress := current }
    if task.status.status = .cancelled then
      { task with status := status, child := task.child.terminate, monitor := .leaving }
    else { task with status := status, monitor := .reporting current }
  | .reporting current =>
    if current = -1 then
      match decode task.child.errorMessage with
      | some text =>
        { task with
          status := { task.status with status := .error, errorMessage := some text }
          monitor := .leaving }
      | none =>
        { task with status := { task.status with status := .error }, monitor := .cleaning }
    else { task with monitor := if current = 100 then .leaving else .loopHead }
  | .leaving => { task with monitor := .reading (task.status.status = .cancelled) }
  | .reading cancelled =>
    { task with
      monitor := if !cancelled && task.child.progress = 100 then .draining
        else .joining task.child.progress none }
  | .draining =>
    match task.child.queue with
    | some result =>
      { task with
        child := { task.child with queue := none }
        monitor := .joining 100 (some result) }
    | none =>
      if !task.child.alive || expired then { task with monitor := .joining 100 none } else task
  | .joining final result =>
    if task.child.alive then task else { task with monitor := .finishing final result }
  | .finishing final result =>
    if task.status.status = .cancelled then { task with monitor := .cleaning }
    else if final = 100 then
      { task with
        status := { task.status with
          status := .completed
          results := (result.map stored).or task.status.results }
        monitor := .cleaning }
    else if final = -1 then { task with monitor := .cleaning }
    else
      { task with
        status := { task.status with status := .unknownError }
        monitor := .cleaning }
  | .cleaning =>
    { task with child := task.child.terminate, registered := false, monitor := .ended }
  | .ended => task

def Task.kill (task : Task β γ) : Task β γ :=
  if task.registered then
    { task with child := task.child.terminate, registered := false, cancel := .killed }
  else task

def Task.mark (task : Task β γ) : Task β γ :=
  if task.cancel = .killed then
    { task with status := { task.status with status := .cancelled }, cancel := .marked }
  else task

inductive Event (β : Type) where
  | child (event : ChildEvent β)
  | handle (expired : Bool)
  | kill
  | mark

def Task.step (task : Task β γ) : Event β → Task β γ
  | .child event => { task with child := task.child.step event }
  | .handle expired => task.handle stored expired
  | .kill => task.kill
  | .mark => task.mark

structure Task.Recorded (task : Task β γ) : Prop where
  completed : task.status.status = .completed ↔ task.cancel = .none ∧ task.child.progress = 100
  error : task.status.status = .error ↔ task.cancel = .none ∧ task.child.progress = -1
  unknownError : task.status.status = .unknownError ↔
    task.cancel = .none ∧ task.child.progress ≠ 100 ∧ task.child.progress ≠ -1
  cancelled : task.status.status = .cancelled ↔ task.cancel ≠ .none
  settled : task.status.status ≠ .processing
  results : task.status.status = .completed → task.status.results = task.child.result.map stored
  message : task.status.status = .error →
    ∃ text, task.status.errorMessage = some text ∧ decode task.child.errorMessage = some text

/-- The progress the monitor has read last, and goes by. -/
def Monitor.final : Monitor β → Option Int
  | .draining => some 100
  | .joining final _ => some final
  | .finishing final _ => some final
  | _ => none

def Monitor.Leaves : Monitor β → Prop
  | .recording current => current = 100
  | .reporting current => current = 100
  | .leaving => True
  | .reading _ => True
  | _ => False

/-- The monitor has sampled an error, or samples before it finds the child dead. -/
def Monitor.Notices : Monitor β → Prop
  | .sampling => True
  | .recording current => current = -1
  | .reporting current => current = -1
  | _ => False

/-- The monitor has stopped to wait for a result. -/
def Monitor.Drained : Monitor β → Prop
  | .joining _ _ => True
  | _ => False

/-- What a child may do: it stays with what it reported last when the monitor has read it, does not
fail when the monitor has left the loop, describes its error and puts its result in time, and
after an error exits only when the monitor has noticed. -/
def Task.MayDo (task : Task β γ) : ChildEvent β → Prop
  | .report progress =>
    (∀ final, task.monitor.final = some final → verdict progress = verdict final) ∧
      (task.monitor.Leaves → task.status.status ≠ .error → progress ≠ -1)
  | .describe _ => task.status.status ≠ .error
  | .put _ => task.child.result = none → task.monitor.Drained → task.monitor.final ≠ some 100
  | .exit => task.child.progress = -1 →
      task.monitor.Notices ∨ task.monitor ≠ .starting ∧ task.status.status = .error

/-- Every party keeps to its part: the child as above, the monitor finds a text for an error and
does not end between the two steps of a cancellation, and a cancellation does not mark the task
where the monitor writes over the mark. -/
def Task.InTime (task : Task β γ) : Event β → Prop
  | .child event => task.child.alive = true → task.MayDo event
  | .handle _ =>
    (task.monitor = .reporting (-1) → (decode task.child.errorMessage).isSome) ∧
      (task.monitor = .cleaning → task.cancel ≠ .killed)
  | .kill => True
  | .mark => task.cancel = .killed → task.monitor ≠ .starting ∧ task.monitor ≠ .reporting (-1)

def Task.Failed (task : Task β γ) : Prop :=
  task.status.status = .error ∧
    ∃ text, task.status.errorMessage = some text ∧ decode task.child.errorMessage = some text

/-- No result has been taken yet. -/
def Monitor.Open : Monitor β → Prop
  | .joining _ _ => False
  | .finishing _ _ => False
  | .cleaning => False
  | .ended => False
  | _ => True

/-- What is recorded is how the child ended. -/
def Task.Settled (task : Task β γ) : Prop :=
  task.status.status = verdict task.child.progress ∧
    (task.status.status = .completed → task.status.results = task.child.result.map stored) ∧
    (task.status.status = .error → task.Failed)

def Task.Expected (task : Task β γ) : Prop :=
  match task.monitor with
  | .starting => task.child.alive = false → task.child.progress ≠ -1
  | .loopHead =>
    task.status.status ≠ .error ∧ (task.child.alive = false → task.child.progress ≠ -1)
  | .sampling => task.status.status ≠ .error
  | .recording current | .reporting current =>
    task.status.status ≠ .error ∧
      (current ≠ -1 → task.child.alive = false ∨ current = 100 → task.child.progress ≠ -1)
  | .leaving => task.Failed ∨ task.status.status ≠ .error ∧ task.child.progress ≠ -1
  | .reading cancelled => cancelled = false ∧
      (task.Failed ∨ task.status.status ≠ .error ∧ task.child.progress ≠ -1)
  | .draining => task.child.progress = 100
  | .joining final result =>
    verdict task.child.progress = verdict final ∧ (final = 100 → result = task.child.result) ∧
      (final = -1 → task.Failed)
  | .finishing final result =>
    task.child.alive = false ∧ verdict task.child.progress = verdict final ∧
      (final = 100 → result = task.child.result) ∧ (final = -1 → task.Failed)
  | .cleaning | .ended => task.child.alive = false ∧ task.Settled stored

/-- The invariant of a run in which every party keeps to its part. -/
structure Task.Sound (task : Task β γ) : Prop where
  dead : task.cancel ≠ .none → task.child.alive = false ∧ task.registered = false
  marked : task.status.status = .cancelled ↔ task.cancel = .marked
  unmarked : task.monitor = .starting ∨ task.monitor = .reporting (-1) → task.cancel ≠ .marked
  queued : task.monitor.Open → task.child.queue = task.child.result
  fresh : task.monitor ≠ .cleaning → task.monitor ≠ .ended → task.status.results = none
  closed : task.monitor = .ended → task.registered = false ∧ task.cancel ≠ .killed
  expected : task.cancel = .none → task.Expected stored

theorem sound_started : (Task.started : Task β γ).Sound stored where
  dead := by simp [Task.started]
  marked := by simp [Task.started]
  unmarked := by simp [Task.started]
  queued := by simp [Task.started, Child.started]
  fresh := by simp [Task.started]
  closed := by simp [Task.started]
  expected := by simp [Task.started, Task.Expected, Child.started]

variable {stored} {task : Task β γ}

theorem Task.Sound.kill (sound : task.Sound stored) : task.kill.Sound stored := by
  rw [Task.kill]
  split
  case isFalse => exact sound
  case isTrue registered =>
    exact { sound with
      dead := fun _ => ⟨rfl, rfl⟩
      marked := by
        have unmarked : task.cancel ≠ .marked := fun marked =>
          absurd registered (by simp [(sound.dead (by simp [marked])).2])
        simp [sound.marked, unmarked]
      unmarked := fun _ => by simp
      closed := fun ended => absurd registered (by simp [(sound.closed ended).1])
      expected := fun uncancelled => absurd uncancelled (by simp) }

theorem Task.Sound.mark (sound : task.Sound stored) (inTime : task.InTime .mark) :
    task.mark.Sound stored := by
  rw [Task.mark]
  split
  case isFalse => exact sound
  case isTrue killed =>
    exact { sound with
      dead := fun _ => sound.dead (by simp [killed])
      marked := by simp
      unmarked := fun early => absurd early (not_or.mpr (inTime killed))
      closed := fun ended => ⟨(sound.closed ended).1, by simp⟩
      expected := fun uncancelled => absurd uncancelled (by simp) }

theorem Child.step_of_dead {child : Child β} (dead : child.alive = false)
    (event : ChildEvent β) : child.step event = child := by
  cases event with
  | report progress => simp [Child.step, dead]
  | describe message => simp [Child.step, dead]
  | put result => simp [Child.step, dead]
  | exit => rw [Child.step, ← dead]

variable {event : ChildEvent β}

theorem Task.Expected.child (expected : task.Expected stored) (alive : task.child.alive = true)
    (may : task.MayDo event) :
    ({ task with child := task.child.step event } : Task β γ).Expected stored := by
  obtain ⟨child, status, monitor, cancel, registered⟩ := task
  dsimp only at alive
  cases event with
  | report progress =>
    have same := may.1
    have kept := may.2
    cases monitor <;>
      simp_all [Task.Expected, Child.step, Task.Failed, Monitor.final, Monitor.Leaves]
    case leaving =>
      exact expected.imp_right fun unfailed => ⟨unfailed.1, kept unfailed.1⟩
    case reading =>
      exact expected.2.imp_right fun unfailed => ⟨unfailed.1, kept unfailed.1⟩
    case draining => exact verdict_eq_completed.mp (same.trans (verdict_eq_completed.mpr rfl))
  | describe message =>
    have early : status.status ≠ .error := may
    cases monitor <;> simp_all [Task.Expected, Child.step, Task.Failed]
  | put result =>
    by_cases given : child.result = none
    · have undrained := may given
      cases monitor <;>
        simp_all [Task.Expected, Child.step, Task.Failed, Monitor.Drained, Monitor.final]
    · simpa [Child.step, alive, given] using expected
  | exit =>
    have noticed : child.progress = -1 →
      monitor.Notices ∨ monitor ≠ .starting ∧ status.status = .error := may
    cases monitor <;> simp_all [Task.Expected, Child.step, Task.Failed, Monitor.Notices]
    case recording => exact fun unnoticed failed => unnoticed (noticed failed)
    case reporting => exact fun unnoticed failed => unnoticed (noticed failed)

theorem Task.Sound.child (sound : task.Sound stored) (inTime : task.InTime (.child event)) :
    ({ task with child := task.child.step event } : Task β γ).Sound stored := by
  by_cases alive : task.child.alive = true
  case neg =>
    rw [Child.step_of_dead (by simpa using alive)]
    exact sound
  case pos =>
    have uncancelled : task.cancel = .none := by
      by_contra cancelled
      exact absurd (sound.dead cancelled).1 (by simp [alive])
    exact { sound with
      dead := fun cancelled => absurd uncancelled cancelled
      queued := fun undrained => by
        have queued := sound.queued undrained
        cases event with
        | put result => rw [Child.step]; split <;> simp [queued]
        | report progress => simpa [Child.step, alive] using queued
        | describe message => simpa [Child.step, alive] using queued
        | exit => exact queued
      expected := fun _ => (sound.expected uncancelled).child alive (inTime alive) }

variable {expired : Bool}

theorem Task.Expected.handle (sound : task.Sound stored)
    (inTime : task.InTime (.handle expired)) (uncancelled : task.cancel = .none) :
    (task.handle stored expired).Expected stored := by
  have expected := sound.expected uncancelled
  have unmarked : task.status.status ≠ .cancelled := by simp [sound.marked, uncancelled]
  have queued := sound.queued
  have fresh := sound.fresh
  obtain ⟨child, status, monitor, cancel, registered⟩ := task
  cases monitor with
  | starting => simp_all [Task.Expected, Task.handle]
  | loopHead =>
    cases alive : child.alive <;> simp_all [Task.Expected, Task.handle]
  | sampling => simp_all [Task.Expected, Task.handle]
  | recording current => simp_all [Task.Expected, Task.handle]
  | reporting current =>
    rw [Task.handle]
    dsimp only
    split
    case isTrue noticed =>
      subst noticed
      obtain ⟨text, decoded⟩ := Option.isSome_iff_exists.mp (inTime.1 rfl)
      dsimp only at decoded
      simp only [decoded]
      exact .inl ⟨rfl, text, rfl, decoded⟩
    case isFalse unnoticed =>
      by_cases complete : current = 100
      · rw [if_pos complete]
        exact .inr ⟨expected.1, expected.2 unnoticed (.inr complete)⟩
      · rw [if_neg complete]
        exact ⟨expected.1, fun dead => expected.2 unnoticed (.inl dead)⟩
  | leaving => simp_all [Task.Expected, Task.handle, Task.Failed]
  | reading cancelled =>
    obtain ⟨rfl, failed⟩ := expected
    by_cases complete : child.progress = 100
    · simp only [Task.handle, complete, Bool.not_false, decide_true, Bool.and_self, if_true]
      exact complete
    · simp only [Task.handle, complete, decide_false, Bool.and_false, Bool.false_eq_true, if_false]
      exact ⟨rfl, fun full => absurd full complete,
        fun error => failed.resolve_right fun unfailed => unfailed.2 error⟩
  | draining =>
    have complete : child.progress = 100 := expected
    have given : child.queue = child.result := queued trivial
    rw [Task.handle]
    dsimp only
    split
    case h_1 result taken =>
      exact ⟨congrArg verdict complete, fun _ => taken.symm.trans given, by simp⟩
    case h_2 empty =>
      split
      · exact ⟨congrArg verdict complete, fun _ => empty.symm.trans given, by simp⟩
      · exact complete
  | joining final result =>
    cases alive : child.alive
    case true => simpa [Task.handle, alive] using expected
    case false =>
      simp only [Task.handle, alive, Bool.false_eq_true, if_false]
      exact ⟨alive, expected⟩
  | finishing final result =>
    obtain ⟨dead, same, given, failed⟩ := expected
    have unrecorded : status.results = none := fresh (by simp) (by simp)
    dsimp only at dead same given unmarked
    simp only [Task.handle, if_neg unmarked]
    split
    case isTrue full =>
      refine ⟨dead, ?_, fun _ => ?_, by simp⟩
      · exact (same.trans (verdict_eq_completed.mpr full)).symm
      · rw [given full, unrecorded, Option.or_none]
    case isFalse unfinished =>
      split
      case isTrue error =>
        obtain ⟨recorded, text⟩ := failed error
        refine ⟨dead, ?_, ?_, fun _ => ⟨recorded, text⟩⟩
        · exact recorded.trans (same.trans (verdict_eq_error.mpr error)).symm
        · exact fun completed => absurd (recorded.symm.trans completed) (by simp)
      case isFalse unfailed =>
        refine ⟨dead, ?_, by simp, by simp⟩
        exact (same.trans (verdict_eq_unknownError.mpr ⟨unfinished, unfailed⟩)).symm
  | cleaning => simp_all [Task.Expected, Task.handle, Task.Settled, Task.Failed, Child.terminate]
  | ended => simp_all [Task.Expected, Task.handle]

/-- What a step of the monitor leaves alone: it neither cancels a task nor revives a child, writes
over a mark only where it starts or has read an error, and records results in the end. -/
structure Task.Handled (task after : Task β γ) : Prop where
  cancel : after.cancel = task.cancel
  dead : task.child.alive = false → after.child.alive = false
  unregistered : task.registered = false → after.registered = false
  marked : task.monitor ≠ .starting → task.monitor ≠ .reporting (-1) →
    (after.status.status = .cancelled ↔ task.status.status = .cancelled)
  written : task.status.status ≠ .cancelled → after.status.status ≠ .cancelled
  started : after.monitor ≠ .starting
  noticed : after.monitor = .reporting (-1) → task.status.status ≠ .cancelled
  queued : after.monitor.Open → task.monitor.Open ∧ after.child.queue = task.child.queue ∧
    after.child.result = task.child.result
  fresh : after.monitor ≠ .cleaning → after.monitor ≠ .ended →
    task.monitor ≠ .cleaning ∧ task.monitor ≠ .ended ∧ after.status.results = task.status.results
  closed : after.monitor = .ended → task.monitor = .cleaning ∧ after.registered = false ∨
    task.monitor = .ended ∧ after.registered = task.registered

variable (stored) in
theorem Task.handled (task : Task β γ) (expired : Bool) :
    task.Handled (task.handle stored expired) := by
  rw [Task.handle]
  repeat' split
  all_goals
    constructor <;> simp_all [Monitor.Open, Child.terminate]

theorem Task.Sound.handle (sound : task.Sound stored)
    (inTime : task.InTime (.handle expired)) : (task.handle stored expired).Sound stored := by
  have handled := task.handled stored expired
  exact {
    dead := fun cancelled => by
      rw [handled.cancel] at cancelled
      obtain ⟨dead, unregistered⟩ := sound.dead cancelled
      exact ⟨handled.dead dead, handled.unregistered unregistered⟩
    marked := by
      rw [handled.cancel, ← sound.marked]
      refine ⟨fun after => ?_, fun before => ?_⟩
      · by_contra unmarked
        exact handled.written unmarked after
      · have kept : task.cancel = .marked := sound.marked.mp before
        refine (handled.marked (fun starting => ?_) fun noticed => ?_).mpr before
        · exact sound.unmarked (.inl starting) kept
        · exact sound.unmarked (.inr noticed) kept
    unmarked := by
      rw [handled.cancel]
      rintro (starting | noticed)
      · exact absurd starting handled.started
      · exact fun marked => handled.noticed noticed (sound.marked.mpr marked)
    queued := fun undrained => by
      obtain ⟨before, queue, result⟩ := handled.queued undrained
      rw [queue, result, sound.queued before]
    fresh := fun unclean unended => by
      obtain ⟨before, going, results⟩ := handled.fresh unclean unended
      rw [results, sound.fresh before going]
    closed := fun ended => by
      rw [handled.cancel]
      obtain ⟨cleaning, unregistered⟩ | ⟨before, registered⟩ := handled.closed ended
      · exact ⟨unregistered, inTime.2 cleaning⟩
      · exact ⟨registered.trans (sound.closed before).1, (sound.closed before).2⟩
    expected := fun uncancelled => .handle sound inTime (handled.cancel.symm.trans uncancelled) }

theorem Task.Sound.step (sound : task.Sound stored) (event : Event β)
    (inTime : task.InTime event) : (task.step stored event).Sound stored := by
  cases event with
  | child event => exact sound.child inTime
  | handle expired => exact sound.handle inTime
  | kill => exact sound.kill
  | mark => exact sound.mark inTime

theorem Task.Settled.recorded (settled : task.Settled stored) (uncancelled : task.cancel = .none) :
    task.Recorded stored := by
  obtain ⟨status, results, failed⟩ := settled
  exact {
    completed := by simp [status, uncancelled]
    error := by simp [status, uncancelled]
    unknownError := by simp [status, uncancelled]
    cancelled := by
      rw [status, verdict]
      repeat' split
      all_goals simp [uncancelled]
    settled := by
      rw [status, verdict]
      repeat' split
      all_goals simp
    results := results
    message := fun error => (failed error).2 }

theorem Task.Sound.recorded (sound : task.Sound stored) (ended : task.monitor = .ended) :
    task.Recorded stored := by
  by_cases uncancelled : task.cancel = .none
  case pos =>
    have expected := sound.expected uncancelled
    rw [Task.Expected, ended] at expected
    exact expected.2.recorded uncancelled
  case neg =>
    have cancelled : task.status.status = .cancelled := by
      rw [sound.marked]
      cases cancel : task.cancel with
      | none => exact absurd cancel uncancelled
      | killed => exact absurd cancel (sound.closed ended).2
      | marked => rfl
    constructor <;> simp [cancelled, uncancelled]

/-- In every run in which every party keeps to its part, what is recorded in the end is what
happened. -/
theorem recorded_along (events : List (Event β))
    (inTime : EachStep (Task.step stored) Task.InTime .started events) :
    ∀ task ∈ statesAlong (Task.step stored) .started events, task.monitor = .ended →
      task.Recorded stored := fun task reached =>
  (inTime.invariant_along (Task.Sound stored)
    (fun _ event sound inTime => sound.step event inTime) (sound_started stored) task
    reached).recorded

/-- A child that runs through while the monitor looks on. -/
def completedRun : List (Event String) :=
  [.handle false, .handle false, .child (.put "plan"), .child (.report 100), .handle false,
    .handle false, .handle false, .handle false, .handle false, .handle false, .child .exit,
    .handle false, .handle false, .handle false]

theorem completedRun_recorded : ∃ task ∈ statesAlong (Task.step id) .started completedRun,
      task.monitor = .ended ∧ task.Recorded id :=
  ⟨_, List.mem_of_getLast? rfl, rfl, recorded_along completedRun (by
    simp [completedRun, EachStep, Task.InTime, Task.MayDo, Task.step, Task.handle, Task.started,
      Child.step, Child.started, Monitor.Drained, Monitor.final, Monitor.Leaves]) _
    (List.mem_of_getLast? rfl) rfl⟩

theorem earlyError_processing : ¬∀ task ∈ statesAlong (Task.step (id : Nat → Nat)) .started
        [.handle false, .child (.describe "no data".toUTF8), .child (.report (-1)), .child .exit,
          .handle false, .handle false, .handle false, .handle false, .handle false, .handle false],
      task.monitor = .ended → task.Recorded id := by
  intro recorded
  exact (recorded _ (List.mem_of_getLast? rfl) rfl).settled rfl

end Flowfile.WorkerTasks

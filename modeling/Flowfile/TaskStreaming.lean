import Flowfile.TaskMonitor

/-!
# Tasks that are streamed

A task that was submitted over a WebSocket is monitored by the endpoint itself, which sends each
progress it samples, the end of the task, and the result. Any message can fail because the client is
gone. A failed progress message ends the monitoring, and the endpoint waits for the child without
draining its queue; a failed error message hands the task to the polling monitor.

The record is the one that polling makes, and the queue is drained before the child is waited for,
when the child does nothing more that matters at the places where the endpoint would miss it.
-/

namespace Flowfile.WorkerTasks

open Library.EventRuns

variable {β γ : Type}

/-- What became of a message. -/
inductive Sent where
  | sent
  | disconnected
  | failed
deriving DecidableEq

/-- Where the endpoint is: before the step named, with what it has read so far. -/
inductive Stage (β : Type) where
  | loopHead (last : Int)
  | sampling (last : Int)
  | sending (current : Int)
  | checking (current : Int)
  | sendingError
  | reading
  | draining
  | joining (result : Option β)
  | completing (result : Option β)
  | waiting
  | concluding
  | announcing
  | cleaning
  | handedOff
  | ended

/-- A task with the endpoint that looks after it. -/
structure Stream (β γ : Type) where
  task : Task β γ
  stage : Stage β

/-- The child runs, and the endpoint has sent nothing yet. -/
def Stream.spawned : Stream β γ where
  task :=
    { child := .started
      status := ⟨.processing, 0, none, none⟩
      monitor := .starting
      cancel := .none
      registered := true }
  stage := .loopHead (-1)

def Stream.setErrorStatus (stream : Stream β γ) (next : Stage β) : Stream β γ :=
  match decode stream.task.child.errorMessage with
  | some text =>
    { task := { stream.task with
        status := { stream.task.status with status := .error, errorMessage := some text } }
      stage := next }
  | none => { stream with stage := .cleaning }

variable (stored : β → γ)

/-- A step of the endpoint. `outcome` is what becomes of a message it sends there, and `expired`
tells whether the time to wait for a result is over. -/
def Stream.advance (stream : Stream β γ) (outcome : Sent) (expired : Bool) : Stream β γ :=
  match stream.stage with
  | .loopHead last =>
    { stream with stage := if stream.task.child.alive then .sampling last else .reading }
  | .sampling last =>
    { stream with
      stage := if stream.task.child.progress = last then .checking last
        else .sending stream.task.child.progress }
  | .sending current =>
    { stream with stage := if outcome = .sent then .checking current else .reading }
  | .checking current =>
    if current = -1 then stream.setErrorStatus .sendingError
    else { stream with stage := if current = 100 then .reading else .loopHead current }
  | .sendingError =>
    if outcome = .disconnected ∧ stream.task.child.alive = true then
      { task := { stream.task with monitor := .starting }, stage := .handedOff }
    else { stream with stage := .cleaning }
  | .reading =>
    { stream with stage := if stream.task.child.progress = 100 then .draining else .waiting }
  | .draining =>
    match stream.task.child.queue with
    | some result =>
      { task := { stream.task with child := { stream.task.child with queue := none } }
        stage := .joining (some result) }
    | none =>
      if !stream.task.child.alive || expired then { stream with stage := .joining none }
      else stream
  | .joining result =>
    if stream.task.child.alive then stream else { stream with stage := .completing result }
  | .completing result =>
    { task := { stream.task with
        status := { stream.task.status with
          status := .completed
          progress := 100
          results := (result.map stored).or stream.task.status.results } }
      stage := .announcing }
  | .waiting =>
    if stream.task.child.alive then stream else { stream with stage := .concluding }
  | .concluding =>
    if stream.task.child.progress = -1 then stream.setErrorStatus .announcing
    else
      { task := { stream.task with
          status := { stream.task.status with status := .unknownError } }
        stage := .announcing }
  | .announcing => { stream with stage := .cleaning }
  | .cleaning =>
    { task := { stream.task with child := stream.task.child.terminate, registered := false }
      stage := .ended }
  | .handedOff => stream
  | .ended => stream

inductive StreamEvent (β : Type) where
  | child (event : ChildEvent β)
  | advance (outcome : Sent) (expired : Bool)
  | handle (expired : Bool)

/-- The polling monitor goes on where the endpoint has handed off the task. -/
def Stream.step (stream : Stream β γ) : StreamEvent β → Stream β γ
  | .child event =>
    { stream with task := { stream.task with child := stream.task.child.step event } }
  | .advance outcome expired => stream.advance stored outcome expired
  | .handle expired =>
    match stream.stage with
    | .handedOff => { stream with task := stream.task.handle stored expired }
    | _ => stream

def Stream.Over (stream : Stream β γ) : Prop :=
  match stream.stage with
  | .ended => True
  | .handedOff => stream.task.monitor = .ended
  | _ => False

/-- The endpoint waits until the child is dead. -/
def Stage.Joins : Stage β → Prop
  | .joining _ => True
  | .waiting => True
  | _ => False

/-- In the end the record is the one of any polled task whose child ended alike, a child is not
waited for with a result on the queue, and one that reported its completion is not recorded as
lost. -/
structure Stream.Agrees (stream : Stream β γ) : Prop where
  polled : stream.Over → ∀ polled : Task β γ, polled.Recorded stored → polled.cancel = .none →
    polled.child.progress = stream.task.child.progress →
    polled.child.result = stream.task.child.result →
    polled.child.errorMessage = stream.task.child.errorMessage →
      polled.status.status = stream.task.status.status ∧ (polled.status.status = .completed →
          polled.status.results = stream.task.status.results) ∧
        (polled.status.status = .error →
          polled.status.errorMessage = stream.task.status.errorMessage)
  recorded : stream.Over → stream.task.Recorded stored
  drained : stream.stage.Joins → stream.task.child.alive = true → stream.task.child.queue = none
  completed : stream.Over → stream.task.child.progress = 100 →
    stream.task.status.status ≠ .unknownError

/-- What a child may still report where the endpoint has made up its mind. -/
def Stage.Allows (progress : Int) : Stage β → Prop
  | .sendingError => progress = -1
  | .draining => progress = 100
  | .joining _ => progress = 100
  | .waiting => progress ≠ 100
  | .cleaning => progress = -1
  | _ => True

/-- What a child may do while the endpoint looks after it: it reports nothing new where the
endpoint has made up its mind, nor completes where it is waited for after a message failed; it
describes its error in time, and puts no result where it is waited for. -/
def Stream.MayDo (stream : Stream β γ) : ChildEvent β → Prop
  | .report progress => stream.stage.Allows progress
  | .describe _ => stream.task.status.status ≠ .error
  | .put _ => stream.task.child.result = none → ¬stream.stage.Joins
  | .exit => True

/-- Every party keeps to its part: the child as above, an error is recorded while it stands and has
a text, and a child that has put its result has completed before the endpoint reads the progress
for the last time. -/
def Stream.InTime (stream : Stream β γ) : StreamEvent β → Prop
  | .child event =>
    stream.task.child.alive = true → match stream.stage with
      | .handedOff => stream.task.MayDo event
      | _ => stream.MayDo event
  | .advance _ _ =>
    match stream.stage with
    | .checking current => current = -1 →
        stream.task.child.progress = -1 ∧ (decode stream.task.child.errorMessage).isSome
    | .concluding => stream.task.child.progress = -1 →
        (decode stream.task.child.errorMessage).isSome
    | .reading => stream.task.child.progress ≠ 100 → stream.task.child.alive = true →
        stream.task.child.queue = none
    | _ => True
  | .handle expired => stream.stage = .handedOff → stream.task.InTime (.handle expired)

/-- What has been recorded, step by step. -/
def Stream.Expected (stream : Stream β γ) : Prop :=
  match stream.stage with
  | .loopHead _ | .sampling _ | .sending _ | .checking _ | .reading =>
    stream.task.status.status = .processing ∧ stream.task.status.results = none ∧
      stream.task.child.queue = stream.task.child.result
  | .sendingError =>
    stream.task.child.progress = -1 ∧ stream.task.Failed ∧ stream.task.status.results = none ∧
      stream.task.child.queue = stream.task.child.result
  | .draining =>
    stream.task.child.progress = 100 ∧ stream.task.status.status = .processing ∧
      stream.task.status.results = none ∧ stream.task.child.queue = stream.task.child.result
  | .joining result =>
    stream.task.child.progress = 100 ∧ stream.task.status.status = .processing ∧
      stream.task.status.results = none ∧ result = stream.task.child.result ∧
      (stream.task.child.alive = true → stream.task.child.queue = none)
  | .completing result =>
    stream.task.child.progress = 100 ∧ stream.task.status.results = none ∧
      result = stream.task.child.result ∧ stream.task.child.alive = false
  | .waiting =>
    stream.task.child.progress ≠ 100 ∧ stream.task.status.status = .processing ∧
      (stream.task.child.alive = true → stream.task.child.queue = none)
  | .concluding => stream.task.child.progress ≠ 100 ∧ stream.task.child.alive = false
  | .announcing => stream.task.Settled stored ∧ stream.task.child.alive = false
  | .cleaning =>
    stream.task.Settled stored ∧ (stream.task.child.alive = true →
        stream.task.status.status = .error ∧ stream.task.child.progress = -1)
  | .handedOff => stream.task.Sound stored
  | .ended => stream.task.Settled stored ∧ stream.task.child.alive = false

variable {stored} {stream : Stream β γ}

theorem Stream.Expected.child (expected : stream.Expected stored)
    (alive : stream.task.child.alive = true) {event : ChildEvent β}
    (inTime : stream.InTime (.child event)) :
    (stream.step stored (.child event)).Expected stored := by
  have may := inTime alive
  obtain ⟨⟨child, status, monitor, cancel, registered⟩, stage⟩ := stream
  dsimp only at alive may
  by_cases handed : stage = .handedOff
  · subst handed
    exact Task.Sound.child expected fun _ => may
  cases event with
  | report progress =>
    cases stage <;>
      simp_all [Stream.Expected, Stream.step, Stream.MayDo, Stage.Allows, Child.step,
        Task.Settled, Task.Failed]
  | describe message =>
    cases stage <;>
      simp_all [Stream.Expected, Stream.step, Stream.MayDo, Child.step, Task.Settled, Task.Failed]
  | put result =>
    by_cases given : child.result = none
    · cases stage <;>
        simp_all [Stream.Expected, Stream.step, Stream.MayDo, Stage.Joins, Child.step,
          Task.Settled, Task.Failed]
    · simpa [Stream.step, Child.step, alive, given] using expected
  | exit =>
    cases stage <;>
      simp_all [Stream.Expected, Stream.step, Child.step, Task.Settled, Task.Failed]

variable {task : Task β γ}

theorem sound_handedOff (uncancelled : task.cancel = .none)
    (alive : task.child.alive = true) (failed : task.Failed) (fresh : task.status.results = none)
    (queued : task.child.queue = task.child.result) :
    ({ task with monitor := .starting } : Task β γ).Sound stored where
  dead := fun cancelled => absurd uncancelled cancelled
  marked := by simp [failed.1, uncancelled]
  unmarked := fun _ => by simp [uncancelled]
  queued := fun _ => queued
  fresh := fun _ _ => fresh
  closed := nofun
  expected := fun _ dead => absurd alive (by simpa using dead)

theorem Stream.Expected.advance (expected : stream.Expected stored)
    (uncancelled : stream.task.cancel = .none) {outcome : Sent} {expired : Bool}
    (inTime : stream.InTime (.advance outcome expired)) :
    (stream.advance stored outcome expired).Expected stored := by
  obtain ⟨⟨child, status, monitor, cancel, registered⟩, stage⟩ := stream
  cases stage with
  | loopHead last => cases alive : child.alive <;> simp_all [Stream.Expected, Stream.advance]
  | sampling last =>
    by_cases same : child.progress = last <;> simp_all [Stream.Expected, Stream.advance]
  | sending current =>
    by_cases done : outcome = .sent <;> simp_all [Stream.Expected, Stream.advance]
  | checking current =>
    rw [Stream.advance]
    dsimp only
    split
    case isTrue noticed =>
      obtain ⟨stands, text⟩ := inTime noticed
      obtain ⟨text, decoded⟩ := Option.isSome_iff_exists.mp text
      obtain ⟨-, fresh, queued⟩ := expected
      dsimp only at decoded
      simp only [Stream.setErrorStatus, decoded]
      exact ⟨stands, ⟨rfl, text, rfl, decoded⟩, fresh, queued⟩
    case isFalse =>
      by_cases complete : current = 100
      · rw [if_pos complete]
        exact expected
      · rw [if_neg complete]
        exact expected
  | sendingError =>
    obtain ⟨error, failed, fresh, queued⟩ := expected
    rw [Stream.advance]
    dsimp only
    split
    case isTrue gone => exact sound_handedOff uncancelled gone.2 failed fresh queued
    case isFalse =>
      refine ⟨⟨?_, fun completed => ?_, fun _ => failed⟩, fun _ => ⟨failed.1, error⟩⟩
      · exact failed.1.trans (verdict_eq_error.mpr error).symm
      · exact absurd (failed.1.symm.trans completed) (by simp)
  | reading =>
    obtain ⟨processing, fresh, queued⟩ := expected
    by_cases complete : child.progress = 100
    · simp only [Stream.advance, complete, if_true]
      exact ⟨complete, processing, fresh, queued⟩
    · simp only [Stream.advance, complete, if_false]
      exact ⟨complete, processing, inTime complete⟩
  | draining =>
    obtain ⟨complete, processing, fresh, queued⟩ := expected
    rw [Stream.advance]
    dsimp only at queued ⊢
    split
    case h_1 result taken =>
      exact ⟨complete, processing, fresh, taken.symm.trans queued, fun _ => rfl⟩
    case h_2 empty =>
      split
      · exact ⟨complete, processing, fresh, empty.symm.trans queued, fun _ => empty⟩
      · exact ⟨complete, processing, fresh, queued⟩
  | joining result =>
    obtain ⟨complete, processing, fresh, given, drained⟩ := expected
    cases alive : child.alive
    case true =>
      simp only [Stream.advance, alive, if_true]
      exact ⟨complete, processing, fresh, given, drained⟩
    case false =>
      simp only [Stream.advance, alive, Bool.false_eq_true, if_false]
      exact ⟨complete, fresh, given, alive⟩
  | completing result =>
    obtain ⟨complete, fresh, given, dead⟩ := expected
    rw [Stream.advance]
    refine ⟨⟨(verdict_eq_completed.mpr complete).symm, fun _ => ?_, fun error => ?_⟩, dead⟩
    · dsimp only at fresh given ⊢
      rw [fresh, given, Option.or_none]
    · cases error
  | waiting =>
    obtain ⟨unfinished, processing, drained⟩ := expected
    cases alive : child.alive
    case true =>
      simp only [Stream.advance, alive, if_true]
      exact ⟨unfinished, processing, drained⟩
    case false =>
      simp only [Stream.advance, alive, Bool.false_eq_true, if_false]
      exact ⟨unfinished, alive⟩
  | concluding =>
    obtain ⟨unfinished, dead⟩ := expected
    by_cases error : child.progress = -1
    · obtain ⟨text, decoded⟩ := Option.isSome_iff_exists.mp (inTime error)
      dsimp only at decoded
      simp only [Stream.advance, Stream.setErrorStatus, error, if_true, decoded]
      refine ⟨⟨(verdict_eq_error.mpr error).symm, fun completed => ?_, fun _ => ?_⟩, dead⟩
      · cases completed
      · exact ⟨rfl, text, rfl, decoded⟩
    · simp only [Stream.advance, error, if_false]
      refine ⟨⟨(verdict_eq_unknownError.mpr ⟨unfinished, error⟩).symm, fun completed => ?_,
        fun error => ?_⟩, dead⟩
      · cases completed
      · cases error
  | announcing =>
    obtain ⟨settled, dead⟩ := expected
    rw [Stream.advance]
    exact ⟨settled, fun alive => absurd (dead.symm.trans alive) (by simp)⟩
  | cleaning => exact ⟨expected.1, rfl⟩
  | handedOff => exact expected
  | ended => exact expected

theorem Stream.cancel_step (stream : Stream β γ) (event : StreamEvent β) :
    (stream.step stored event).task.cancel = stream.task.cancel := by
  cases event with
  | child event => rfl
  | advance outcome expired =>
    rw [Stream.step, Stream.advance]
    repeat' split
    all_goals simp only [Stream.setErrorStatus]
    all_goals split <;> rfl
  | handle expired =>
    rw [Stream.step]
    split
    · exact (Task.handled stored _ _).cancel
    · rfl

theorem Stream.Expected.step (expected : stream.Expected stored)
    (uncancelled : stream.task.cancel = .none) (event : StreamEvent β)
    (inTime : stream.InTime event) : (stream.step stored event).Expected stored := by
  cases event with
  | child event =>
    by_cases alive : stream.task.child.alive = true
    · exact expected.child alive inTime
    · rw [Stream.step, Child.step_of_dead (by simpa using alive)]
      exact expected
  | advance outcome expired => exact expected.advance uncancelled inTime
  | handle expired =>
    obtain ⟨task, stage⟩ := stream
    rw [Stream.step]
    split
    case h_1 handed =>
      dsimp only at handed
      subst handed
      exact Task.Sound.handle expected (inTime rfl)
    case h_2 => exact expected

theorem Task.Recorded.status_eq (recorded : task.Recorded stored)
    (uncancelled : task.cancel = .none) : task.status.status = verdict task.child.progress := by
  by_cases complete : task.child.progress = 100
  · rw [recorded.completed.mpr ⟨uncancelled, complete⟩, verdict_eq_completed.mpr complete]
  · by_cases error : task.child.progress = -1
    · rw [recorded.error.mpr ⟨uncancelled, error⟩, verdict_eq_error.mpr error]
    · rw [recorded.unknownError.mpr ⟨uncancelled, complete, error⟩,
        verdict_eq_unknownError.mpr ⟨complete, error⟩]

theorem Stream.Expected.agrees (expected : stream.Expected stored)
    (uncancelled : stream.task.cancel = .none) : stream.Agrees stored := by
  have recorded : stream.Over → stream.task.Recorded stored := by
    intro finished
    obtain ⟨task, stage⟩ := stream
    cases stage with
    | ended => exact expected.1.recorded uncancelled
    | handedOff => exact Task.Sound.recorded expected finished
    | _ => exact finished.elim
  refine ⟨fun finished polled polledRecorded polledUncancelled progress result message => ?_,
    recorded, fun joins alive => ?_, fun finished complete lost => ?_⟩
  · have streamed := recorded finished
    have same : polled.status.status = stream.task.status.status := by
      rw [polledRecorded.status_eq polledUncancelled, streamed.status_eq uncancelled, progress]
    refine ⟨same, fun completed => ?_, fun error => ?_⟩
    · rw [polledRecorded.results completed, streamed.results (same.symm.trans completed), result]
    · obtain ⟨text, written, decoded⟩ := polledRecorded.message error
      obtain ⟨other, otherWritten, otherDecoded⟩ := streamed.message (same.symm.trans error)
      rw [written, otherWritten, ← decoded, ← otherDecoded, message]
  · obtain ⟨task, stage⟩ := stream
    cases stage with
    | joining result => exact expected.2.2.2.2 alive
    | waiting => exact expected.2.2 alive
    | _ => exact joins.elim
  · exact ((recorded finished).unknownError.mp lost).2.1 complete

/-- In every run in which every party keeps to its part, the endpoint records what polling records
and drains the queue before it waits for the child. -/
theorem agrees_along (events : List (StreamEvent β))
    (inTime : EachStep (Stream.step stored) Stream.InTime .spawned events) :
    ∀ stream ∈ statesAlong (Stream.step stored) .spawned events, stream.Agrees stored := by
  have expected := inTime.invariant_along
    (fun stream => stream.task.cancel = .none ∧ stream.Expected stored)
    (fun stream event kept inTime =>
      ⟨(stream.cancel_step event).trans kept.1, kept.2.step kept.1 event inTime⟩)
    ⟨rfl, rfl, rfl, rfl⟩
  exact fun stream reached => (expected stream reached).2.agrees (expected stream reached).1

/-- A child that runs through while the client listens. -/
def streamedRun : List (StreamEvent String) :=
  [.advance .sent false, .advance .sent false, .advance .sent false, .advance .sent false,
    .advance .sent false, .child (.put "plan"), .child (.report 100), .advance .sent false,
    .advance .sent false, .advance .sent false, .advance .sent false, .advance .sent false,
    .child .exit, .advance .sent false, .advance .sent false, .advance .sent false,
    .advance .sent false]

theorem streamedRun_agrees : ∃ stream ∈ statesAlong (Stream.step id) .spawned streamedRun,
      stream.stage = .ended ∧ stream.task.status.status = .completed ∧ stream.Agrees id :=
  ⟨_, List.mem_of_getLast? rfl, rfl, rfl, agrees_along streamedRun (by
    simp [streamedRun, EachStep, Stream.InTime, Stream.MayDo, Stream.step, Stream.advance,
      Stream.spawned, Child.step, Child.started, Stage.Joins, Stage.Allows]) _
    (List.mem_of_getLast? rfl)⟩

/-- A client that is gone when its task has just begun: the child completes and puts a result that
nobody reads, and the task counts as lost. -/
theorem earlyDisconnect_disagrees :
    ¬∀ stream ∈ statesAlong (Stream.step (id : String → String)) .spawned
        [.advance .sent false, .advance .sent false, .advance .disconnected false,
          .advance .sent false, .child (.put "plan"), .child (.report 100), .child .exit,
          .advance .sent false, .advance .sent false, .advance .sent false, .advance .sent false],
      stream.Agrees id := by
  intro agrees
  exact (agrees _ (List.mem_of_getLast? rfl)).completed trivial rfl rfl

end Flowfile.WorkerTasks

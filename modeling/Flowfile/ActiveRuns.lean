import Flowfile.Library.EventRuns
import Mathlib.Data.List.Count
import Mathlib.Data.List.Nodup

/-!
# Active runs of registered flows

Scheduler ticks, table updates and requests launch flows. Each launch looks for an active run of the
flow first and records its own run in a later step. The scheduler looks for runs by the id of the
registration and records runs without the uuid of the flow; the catalog looks for the uuid and
records both. A flow has more than one active run exactly when a run is recorded while one is there
that its launch did not see, or no longer asked for.
-/

namespace Flowfile.Catalog

open Library.EventRuns List

structure FlowRegistration where
  id : Nat
  flowUuid : String
deriving DecidableEq

inductive RunType where
  | inDesignerRun
  | scheduled
  | manual
  | onDemand

structure FlowRun where
  id : Nat
  registrationId : Option Nat
  flowUuid : Option String
  runType : RunType
  startedAt : Nat
  endedAt : Option Nat

/-- The ways to launch a flow: by a tick of the scheduler, by the update of a table, by triggering a
schedule, or directly. -/
inductive LaunchPath where
  | schedulerTick
  | pushTrigger
  | triggerNow
  | runNow
deriving DecidableEq

/-- A launch between its check and the record of its run. -/
structure PendingLaunch where
  path : LaunchPath
  flow : FlowRegistration

structure World (κ : Type) where
  registrations : List FlowRegistration
  distinctIds : (registrations.map FlowRegistration.id).Nodup
  distinctUuids : (registrations.map FlowRegistration.flowUuid).Nodup
  runs : List FlowRun
  pending : κ → Option PendingLaunch

/-- What can happen next: a launcher checks a flow, a launcher records the run of the flow that it
checked, or a run ends. -/
inductive LaunchEvent (κ : Type) where
  | check (launcher : κ) (path : LaunchPath) (registrationId : Nat)
  | record (launcher : κ) (now : Nat)
  | finish (runId : Nat) (now : Nat)

variable {κ : Type} [DecidableEq κ]

def FlowRun.active (run : FlowRun) : Bool :=
  run.endedAt.isNone

def World.getFlow (world : World κ) (registrationId : Nat) : Option FlowRegistration :=
  world.registrations.find? fun flow => flow.id = registrationId

def hasActiveRunOfRegistration (runs : List FlowRun) (flow : FlowRegistration) : Bool :=
  runs.any fun run => decide (run.registrationId = some flow.id) && run.active

def hasActiveRunOfUuid (runs : List FlowRun) (flow : FlowRegistration) : Bool :=
  runs.any fun run => decide (run.flowUuid = some flow.flowUuid) && run.active

def LaunchPath.hasActiveRun (path : LaunchPath) (runs : List FlowRun) (flow : FlowRegistration) :
    Bool :=
  match path with
  | .schedulerTick => hasActiveRunOfRegistration runs flow
  | .pushTrigger | .triggerNow | .runNow => hasActiveRunOfUuid runs flow

def PendingLaunch.run (launch : PendingLaunch) (id now : Nat) : FlowRun where
  id := id
  registrationId := some launch.flow.id
  flowUuid :=
    match launch.path with
    | .schedulerTick => none
    | .pushTrigger | .triggerNow | .runNow => some launch.flow.flowUuid
  runType :=
    match launch.path with
    | .schedulerTick | .pushTrigger => .scheduled
    | .triggerNow => .onDemand
    | .runNow => .manual
  startedAt := now
  endedAt := none

def FlowRun.finish (runId now : Nat) (run : FlowRun) : FlowRun :=
  if run.id = runId then { run with endedAt := some now } else run

def nextRunId (runs : List FlowRun) : Nat :=
  ((runs.map FlowRun.id).max?.getD 0) + 1

def World.setPending (world : World κ) (launcher : κ) (launch : Option PendingLaunch) : World κ :=
  { world with pending := Function.update world.pending launcher launch }

def World.step (world : World κ) : LaunchEvent κ → World κ
  | .check launcher path registrationId =>
    match world.getFlow registrationId with
    | none => world.setPending launcher none
    | some flow =>
      if path.hasActiveRun world.runs flow then world.setPending launcher none
      else world.setPending launcher (some ⟨path, flow⟩)
  | .record launcher now =>
    match world.pending launcher with
    | none => world
    | some launch =>
      { world.setPending launcher none with
        runs := world.runs ++ [launch.run (nextRunId world.runs) now] }
  | .finish runId now => { world with runs := world.runs.map (FlowRun.finish runId now) }

open World (step)

def FlowRun.isOf (flow : FlowRegistration) (run : FlowRun) : Bool :=
  run.registrationId = some flow.id ∨ run.flowUuid = some flow.flowUuid

def activeRuns (runs : List FlowRun) (flow : FlowRegistration) : Nat :=
  runs.countP fun run => run.isOf flow && run.active

def World.OneActive (world : World κ) : Prop :=
  ∀ flow ∈ world.registrations, activeRuns world.runs flow ≤ 1

def Clear (runs : List FlowRun) (flow : FlowRegistration) : Prop :=
  hasActiveRunOfRegistration runs flow = false ∧ hasActiveRunOfUuid runs flow = false

/-- Where a run is recorded, neither check finds an active run of the flow at that moment. -/
def World.StillClear (world : World κ) : LaunchEvent κ → Prop
  | .record launcher _ => ∀ launch, world.pending launcher = some launch →
      Clear world.runs launch.flow
  | _ => True

/-- No run is recorded while another launcher has checked the same flow, and the catalog checks no
flow with an active run that lacks the uuid. -/
def World.Undisturbed (world : World κ) : LaunchEvent κ → Prop
  | .check _ path registrationId => path ≠ .schedulerTick →
      ∀ flow, world.getFlow registrationId = some flow → ∀ run ∈ world.runs,
        run.registrationId = some flow.id → run.active = true → run.flowUuid = some flow.flowUuid
  | .record launcher _ => ∀ launch, world.pending launcher = some launch →
      ∀ other ≠ launcher, ∀ otherLaunch, world.pending other = some otherLaunch →
        otherLaunch.flow ≠ launch.flow
  | .finish _ _ => True

def World.AtRest (world : World κ) : Prop :=
  (∀ run ∈ world.runs, run.active = false) ∧ ∀ launcher, world.pending launcher = none

variable {run : FlowRun}

section

variable {runs : List FlowRun} {flow : FlowRegistration}

theorem clear_iff : Clear runs flow ↔ ∀ run ∈ runs, run.active = true → run.isOf flow = false := by
  rw [Clear, hasActiveRunOfRegistration, hasActiveRunOfUuid, any_eq_false, any_eq_false]
  constructor
  · rintro ⟨byId, byUuid⟩ run mem active
    have otherId := byId run mem
    have otherUuid := byUuid run mem
    simp only [active, Bool.and_true, decide_eq_true_eq] at otherId otherUuid
    simp [FlowRun.isOf, otherId, otherUuid]
  · intro clear
    constructor
    · intro run mem found
      simp only [Bool.and_eq_true, decide_eq_true_eq] at found
      have other := clear run mem found.2
      simp [FlowRun.isOf, found.1] at other
    · intro run mem found
      simp only [Bool.and_eq_true, decide_eq_true_eq] at found
      have other := clear run mem found.2
      simp [FlowRun.isOf, found.1] at other

theorem activeRuns_eq_zero : activeRuns runs flow = 0 ↔ Clear runs flow := by
  rw [activeRuns, countP_eq_zero, clear_iff]
  constructor
  · intro none run mem active
    have other := none run mem
    simpa [active] using other
  · intro clear run mem found
    simp only [Bool.and_eq_true] at found
    rw [clear run mem found.2] at found
    cases found.1

theorem activeRuns_append_other (other : run.isOf flow = false) :
    activeRuns (runs ++ [run]) flow = activeRuns runs flow := by
  simp [activeRuns, countP_append, other]

theorem activeRuns_append_own (own : run.isOf flow = true) (active : run.active = true) :
    activeRuns (runs ++ [run]) flow = activeRuns runs flow + 1 := by
  simp [activeRuns, countP_append, own, active]

/-- Ending a run keeps the flow it belongs to. -/
theorem finish_isOf (runId now : Nat) (run : FlowRun) :
    (run.finish runId now).isOf flow = run.isOf flow := by
  rw [FlowRun.finish]
  split <;> rfl

theorem active_of_finish {runId now : Nat} (active : (run.finish runId now).active = true) :
    run.active = true ∧ run.finish runId now = run := by
  rw [FlowRun.finish] at active ⊢
  split at active
  · simp [FlowRun.active] at active
  case isFalse other => exact ⟨active, if_neg other⟩

theorem activeRuns_finish (runId now : Nat) :
    activeRuns (runs.map (FlowRun.finish runId now)) flow ≤ activeRuns runs flow := by
  rw [activeRuns, activeRuns, countP_map]
  apply countP_mono_left
  intro run _ counted
  simp only [Function.comp_apply, Bool.and_eq_true, finish_isOf] at counted
  simp [counted.1, (active_of_finish counted.2).1]

theorem run_own (launch : PendingLaunch) (id now : Nat) :
    (launch.run id now).isOf launch.flow = true ∧ (launch.run id now).active = true := by
  simp [PendingLaunch.run, FlowRun.isOf, FlowRun.active]

end

section

variable {world : World κ}

theorem setPending_pending {launcher other : κ} {launch : Option PendingLaunch} :
    (world.setPending launcher launch).pending other =
      if other = launcher then launch else world.pending other := by
  simp [World.setPending, Function.update_apply]

def World.PendingKnown (world : World κ) : Prop :=
  ∀ launcher launch, world.pending launcher = some launch → launch.flow ∈ world.registrations

variable {launch : PendingLaunch} {flow : FlowRegistration}

omit [DecidableEq κ] in
theorem run_other (known : launch.flow ∈ world.registrations) (mem : flow ∈ world.registrations)
    (distinct : flow ≠ launch.flow) (id now : Nat) : (launch.run id now).isOf flow = false := by
  rw [FlowRun.isOf, decide_eq_false_iff_not]
  rintro (sameId | sameUuid)
  · exact distinct (inj_on_of_nodup_map world.distinctIds mem known (Option.some.inj sameId).symm)
  · have uuid : launch.flow.flowUuid = flow.flowUuid := by
      cases path : launch.path <;> simp [PendingLaunch.run, path] at sameUuid <;> exact sameUuid
    exact distinct (inj_on_of_nodup_map world.distinctUuids mem known uuid.symm)

theorem step_registrations (event : LaunchEvent κ) :
    (world.step event).registrations = world.registrations := by
  cases event with
  | check launcher path registrationId =>
    simp only [step]
    split
    · rfl
    · split <;> rfl
  | record launcher now =>
    simp only [step]
    split <;> rfl
  | finish runId now => rfl

variable {event : LaunchEvent κ}

theorem step_pending {launcher : κ} (pending : (world.step event).pending launcher = some launch) :
    (world.pending launcher = some launch ∧ ∀ now, event ≠ .record launcher now) ∨
      ∃ registrationId, event = .check launcher launch.path registrationId ∧
        world.getFlow registrationId = some launch.flow ∧
          launch.path.hasActiveRun world.runs launch.flow = false := by
  cases event with
  | check checker path registrationId =>
    simp only [step] at pending
    split at pending
    case h_1 =>
      rw [setPending_pending] at pending
      split at pending
      · cases pending
      · exact .inl ⟨pending, nofun⟩
    case h_2 flow found =>
      split at pending
      case isTrue =>
        rw [setPending_pending] at pending
        split at pending
        · cases pending
        · exact .inl ⟨pending, nofun⟩
      case isFalse unseen =>
        rw [setPending_pending] at pending
        split at pending
        case isTrue same =>
          cases pending
          exact .inr ⟨registrationId, by rw [same], found, by simpa using unseen⟩
        case isFalse => exact .inl ⟨pending, nofun⟩
  | record recorder now =>
    simp only [step] at pending
    split at pending
    case h_1 idle =>
      refine .inl ⟨pending, ?_⟩
      rintro later same
      cases same
      rw [idle] at pending
      cases pending
    case h_2 =>
      simp only [setPending_pending] at pending
      split at pending
      case isTrue => cases pending
      case isFalse distinct =>
        refine .inl ⟨pending, ?_⟩
        rintro later isRecord
        cases isRecord
        exact distinct rfl
  | finish runId now => exact .inl ⟨pending, nofun⟩

omit [DecidableEq κ] in
theorem getFlow_mem {registrationId : Nat}
    (found : world.getFlow registrationId = some flow) : flow ∈ world.registrations :=
  mem_of_find?_eq_some found

/-- Steps keep launches under way those of registered flows. -/
theorem World.PendingKnown.step (known : world.PendingKnown) (event : LaunchEvent κ) :
    (world.step event).PendingKnown := by
  intro launcher launch pending
  rw [step_registrations]
  rcases step_pending pending with ⟨earlier, _⟩ | ⟨_, _, found, _⟩
  · exact known launcher launch earlier
  · exact getFlow_mem found

theorem oneActive_step (known : world.PendingKnown) (one : world.OneActive)
    (event : LaunchEvent κ) : (world.step event).OneActive ↔ world.StillClear event := by
  cases event with
  | check launcher path registrationId =>
    have same : (world.step (.check launcher path registrationId)).runs = world.runs := by
      simp only [step]
      split
      · rfl
      · split <;> rfl
    refine iff_of_true ?_ trivial
    intro flow mem
    rw [step_registrations] at mem
    rw [same]
    exact one flow mem
  | record launcher now =>
    cases pending : world.pending launcher with
    | none =>
      have same : world.step (.record launcher now) = world := by
        simp [step, pending]
      rw [same]
      refine iff_of_true one ?_
      intro launch isPending
      rw [pending] at isPending
      cases isPending
    | some launch =>
    have isKnown := known launcher launch pending
    have runs : (world.step (.record launcher now)).runs =
        world.runs ++ [launch.run (nextRunId world.runs) now] := by
      simp [step, pending]
    have own := run_own launch (nextRunId world.runs) now
    constructor
    · intro after other isPending
      rw [pending] at isPending
      cases isPending
      have bounded := after launch.flow (by rwa [step_registrations])
      rw [runs, activeRuns_append_own own.1 own.2] at bounded
      exact activeRuns_eq_zero.mp (by omega)
    · intro clear flow mem
      rw [step_registrations] at mem
      rw [runs]
      by_cases same : flow = launch.flow
      · subst same
        have none := activeRuns_eq_zero.mpr (clear launch pending)
        rw [activeRuns_append_own own.1 own.2]
        omega
      · rw [activeRuns_append_other (run_other isKnown mem same _ _)]
        exact one flow mem
  | finish runId now =>
    refine iff_of_true ?_ trivial
    intro flow mem
    exact Nat.le_trans (activeRuns_finish runId now) (one flow mem)

def World.Tied (world : World κ) : Prop :=
  ∀ run ∈ world.runs, run.active = true → ∀ flow ∈ world.registrations,
    run.flowUuid = some flow.flowUuid → run.registrationId = some flow.id

def World.PendingClear (world : World κ) : Prop :=
  ∀ launcher launch, world.pending launcher = some launch → Clear world.runs launch.flow

theorem step_active (mem : run ∈ (world.step event).runs) (active : run.active = true) :
    run ∈ world.runs ∨ ∃ launcher now launch, event = .record launcher now ∧
      world.pending launcher = some launch ∧ run = launch.run (nextRunId world.runs) now := by
  cases event with
  | check launcher path registrationId =>
    simp only [step] at mem
    split at mem
    · exact .inl mem
    · split at mem <;> exact .inl mem
  | record launcher now =>
    simp only [step] at mem
    split at mem
    case h_1 => exact .inl mem
    case h_2 launch pending =>
      rcases mem_append.mp mem with earlier | recorded
      · exact .inl earlier
      · exact .inr ⟨launcher, now, launch, rfl, pending, mem_singleton.mp recorded⟩
  | finish runId now =>
    obtain ⟨earlier, isEarlier, rfl⟩ := mem_map.mp mem
    obtain ⟨_, same⟩ := active_of_finish active
    rw [same]
    exact .inl isEarlier

/-- Steps keep the ids and uuids of active runs together. -/
theorem World.Tied.step (tied : world.Tied) (known : world.PendingKnown)
    (event : LaunchEvent κ) : (world.step event).Tied := by
  intro run mem active flow isFlow sameUuid
  rw [step_registrations] at isFlow
  rcases step_active mem active with earlier | ⟨launcher, now, launch, _, pending, rfl⟩
  · exact tied run earlier active flow isFlow sameUuid
  by_cases same : flow = launch.flow
  · rw [same]
    rfl
  · have other := run_other (known launcher launch pending) isFlow same (nextRunId world.runs) now
    simp [FlowRun.isOf, sameUuid] at other

omit [DecidableEq κ] in
theorem World.Tied.clear (tied : world.Tied) {path : LaunchPath}
    (isFlow : flow ∈ world.registrations)
    (complete : path ≠ .schedulerTick → ∀ run ∈ world.runs, run.registrationId = some flow.id →
      run.active = true → run.flowUuid = some flow.flowUuid)
    (passes : path.hasActiveRun world.runs flow = false) : Clear world.runs flow := by
  rw [clear_iff]
  intro run mem active
  by_contra own
  rw [Bool.not_eq_false, FlowRun.isOf, decide_eq_true_eq] at own
  have byId : path = .schedulerTick → run.registrationId ≠ some flow.id := by
    rintro rfl sameId
    have unseen := any_eq_false.mp passes run mem
    simp [sameId, active] at unseen
  have byUuid : path ≠ .schedulerTick → run.flowUuid ≠ some flow.flowUuid := by
    intro catalog sameUuid
    have check : path.hasActiveRun world.runs flow = hasActiveRunOfUuid world.runs flow := by
      cases path <;> first | rfl | exact absurd rfl catalog
    rw [check] at passes
    have unseen := any_eq_false.mp passes run mem
    simp [sameUuid, active] at unseen
  by_cases tick : path = .schedulerTick
  · rcases own with sameId | sameUuid
    · exact byId tick sameId
    · exact byId tick (tied run mem active flow isFlow sameUuid)
  · rcases own with sameId | sameUuid
    · exact byUuid tick (complete tick run mem sameId active)
    · exact byUuid tick sameUuid

theorem World.PendingClear.step (clear : world.PendingClear) (tied : world.Tied)
    (known : world.PendingKnown) (undisturbed : world.Undisturbed event) :
    (world.step event).PendingClear := by
  intro launcher launch pending
  rw [clear_iff]
  intro run mem active
  rcases step_pending pending with ⟨earlier, notRecord⟩ | ⟨_, rfl, found, unseen⟩
  · rcases step_active mem active with isEarlier | ⟨recorder, now, recorded, rfl, isPending, rfl⟩
    · exact clear_iff.mp (clear launcher launch earlier) run isEarlier active
    have distinct : launcher ≠ recorder := by
      rintro rfl
      exact notRecord now rfl
    have otherFlow := undisturbed recorded isPending launcher distinct launch earlier
    exact run_other (known recorder recorded isPending) (known launcher launch earlier)
      otherFlow _ _
  · rcases step_active mem active with isEarlier | ⟨_, _, _, isRecord, _⟩
    · have isClear := tied.clear (getFlow_mem found)
        (fun catalog => undisturbed catalog launch.flow found) unseen
      exact clear_iff.mp isClear run isEarlier active
    · cases isRecord

end

/-- Along every run from a catalog without active runs no flow has two active runs, exactly if no
run is recorded while an active run of its flow is there. This is so where no run is recorded while
another launcher has checked its flow, and no flow with an active run that lacks the uuid is checked
by the catalog. -/
theorem oneActive_exact (start : World κ) (atRest : start.AtRest) (events : List (LaunchEvent κ)) :
    ((∀ world ∈ statesAlong step start events, world.OneActive) ↔
      EachStep step World.StillClear start events) ∧
    (EachStep step World.Undisturbed start events →
      ∀ world ∈ statesAlong step start events, world.OneActive) := by
  have startKnown : start.PendingKnown := by
    intro launcher launch pending
    rw [atRest.2] at pending
    cases pending
  have startTied : start.Tied := by
    intro run mem active
    rw [atRest.1 run mem] at active
    cases active
  have startClear : start.PendingClear := by
    intro launcher launch pending
    rw [atRest.2] at pending
    cases pending
  have startOne : start.OneActive := by
    intro flow _
    have none : activeRuns start.runs flow = 0 := by
      rw [activeRuns, countP_eq_zero]
      intro run mem
      simp [atRest.1 run mem]
    omega
  have known := invariant_along step World.PendingKnown
    (fun world event known => known.step event) start startKnown events
  constructor
  · have exactly := good_along_iff step
      (fun world => world.PendingKnown ∧ world.OneActive) World.StillClear
      (fun world event good =>
        ⟨fun after => (oneActive_step good.1 good.2 event).mp after.2,
          fun clear => ⟨good.1.step event, (oneActive_step good.1 good.2 event).mpr clear⟩⟩)
      start ⟨startKnown, startOne⟩ events
    rw [← exactly]
    exact ⟨fun one world isAlong => ⟨known world isAlong, one world isAlong⟩,
      fun good world isAlong => (good world isAlong).2⟩
  · intro undisturbed
    have along := undisturbed.invariant_along
      (fun world => (world.PendingKnown ∧ world.Tied) ∧ world.PendingClear ∧ world.OneActive)
      (fun world event invariant undisturbed => by
        obtain ⟨⟨known, tied⟩, clear, one⟩ := invariant
        refine ⟨⟨known.step event, tied.step known event⟩, clear.step tied known undisturbed,
          (oneActive_step known one event).mpr ?_⟩
        cases event with
        | record launcher now => exact clear launcher
        | _ => trivial)
      ⟨⟨startKnown, startTied⟩, startClear, startOne⟩
    exact fun world isAlong => (along world isAlong).2.2

/-- A catalog with one flow that never ran. -/
def oneFlow : World Nat where
  registrations := [⟨1, "3f2a"⟩]
  distinctIds := by decide
  distinctUuids := by decide
  runs := []
  pending := fun _ => none

theorem oneFlow_twice : oneFlow.AtRest ∧
    ∀ world ∈ statesAlong step oneFlow [.check 0 .schedulerTick 1, .record 0 10,
      .check 1 .schedulerTick 1, .finish 1 20, .check 1 .runNow 1, .record 1 30],
        world.OneActive := by
  have atRest : oneFlow.AtRest := ⟨nofun, fun _ => rfl⟩
  refine ⟨atRest, ?_⟩
  refine (oneActive_exact oneFlow atRest _).1.mpr
    ⟨trivial, ?_, trivial, trivial, trivial, ?_, trivial⟩
  · intro launch pending
    cases pending
    exact ⟨by decide, by decide⟩
  · intro launch pending
    cases pending
    exact ⟨by decide, by decide⟩

/-- A request does not see the run that the scheduler recorded, and two requests may both check the
flow before one of them records its run. -/
theorem oneFlow_launched :
    (¬ ∀ world ∈ statesAlong step oneFlow [.check 0 .schedulerTick 1, .record 0 10,
      .check 1 .runNow 1, .record 1 20], world.OneActive) ∧
    ¬ ∀ world ∈ statesAlong step oneFlow [.check 0 .runNow 1, .check 1 .runNow 1,
      .record 0 10, .record 1 20], world.OneActive := by
  constructor
  · intro one
    have bounded := one _ (mem_of_getElem? (i := 4) rfl) ⟨1, "3f2a"⟩ (by decide)
    revert bounded
    decide
  · intro one
    have bounded := one _ (mem_of_getElem? (i := 4) rfl) ⟨1, "3f2a"⟩ (by decide)
    revert bounded
    decide

end Flowfile.Catalog

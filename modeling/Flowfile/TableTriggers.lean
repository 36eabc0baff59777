import Flowfile.ActiveRuns
import Flowfile.Library.Sessions
import Mathlib.Data.Option.Basic

/-!
# Schedules that watch tables

A schedule that watches a table remembers the update for which it launched its flow last. Two paths
move this cursor. The tick of the scheduler moves it in the session of the tick before it knows
whether it will launch; a launch commits the session and with it what earlier schedules of the tick
left there. The push that follows an update commits the cursor and then starts the flow. A process
that does not start ends its run at once on both paths, and the cursor stays where it is.

An update is lost when the cursor reaches it without a launch. This happens exactly in ticks that
pass a schedule over and launch another one later, and where no process starts for a schedule whose
cursor moves.
-/

namespace Flowfile.Scheduler

open Catalog Library.EventRuns Library.Sessions

inductive ScheduleType where
  | interval
  | cron
  | tableTrigger
  | tableSetTrigger
deriving DecidableEq

/-- What a schedule remembers of its launches. -/
structure ScheduleCursors where
  lastTriggeredAt : Option Nat
  lastCronSlot : Option Nat
  lastTriggerTableUpdatedAt : Option Nat
deriving DecidableEq

structure FlowSchedule extends ScheduleCursors where
  id : Nat
  registrationId : Nat
  enabled : Bool
  scheduleType : ScheduleType
  intervalSeconds : Option Int
  cronExpression : Option String
  cronTimezone : Option String
  triggerTableId : Option Nat
  createdAt : Nat
deriving DecidableEq

/-- A table that schedules watch. -/
structure CatalogTable where
  id : Nat
  updatedAt : Option Nat

/-- A recorded run with the schedule that launched it and its process. -/
structure ScheduledRun extends FlowRun where
  scheduleId : Option Nat
  pid : Option Nat
  success : Option Bool

/-- The rows that the scheduler and the catalog work on. Registrations have distinct ids and uuids,
schedules have distinct ids. -/
structure Database where
  registrations : List FlowRegistration
  distinctIds : (registrations.map FlowRegistration.id).Nodup
  distinctUuids : (registrations.map FlowRegistration.flowUuid).Nodup
  schedules : List FlowSchedule
  distinctSchedules : (schedules.map FlowSchedule.id).Nodup
  tables : List CatalogTable
  triggerTables : List (Nat × Nat)
  runs : List ScheduledRun

/-- When a tick or a push gets to a schedule, and the process that starts if it is launched then. -/
structure Circumstances where
  clock : Nat → Nat
  spawn : Nat → Option Nat

/-- What can happen next: a table gets new data, the scheduler holds its lock and goes through the
schedules, an update is pushed to the schedules that watch the table, or a run ends. -/
inductive TriggerEvent where
  | updateTable (tableId now : Nat)
  | tick (circumstances : Circumstances)
  | push (tableId : Nat) (circumstances : Circumstances)
  | finish (runId now : Nat) (success : Bool)

/-- Set what a schedule remembers. -/
def FlowSchedule.withCursors (schedule : FlowSchedule) (cursors : ScheduleCursors) : FlowSchedule :=
  { schedule with toScheduleCursors := cursors }

def FlowSchedule.modifyCursors (id : Nat) (change : ScheduleCursors → ScheduleCursors)
    (schedule : FlowSchedule) : FlowSchedule :=
  if schedule.id = id then schedule.withCursors (change schedule.toScheduleCursors) else schedule

@[simp]
theorem FlowSchedule.modifyCursors_id (id : Nat) (change : ScheduleCursors → ScheduleCursors)
    (schedule : FlowSchedule) : (schedule.modifyCursors id change).id = schedule.id := by
  rw [modifyCursors]
  split <;> rfl

variable (db : Database)

def Database.modifyCursors (id : Nat) (change : ScheduleCursors → ScheduleCursors) : Database :=
  { db with
    schedules := db.schedules.map (FlowSchedule.modifyCursors id change)
    distinctSchedules := by
      rw [List.map_map]
      have same : FlowSchedule.id ∘ FlowSchedule.modifyCursors id change = FlowSchedule.id :=
        funext (FlowSchedule.modifyCursors_id id change)
      rw [same]
      exact db.distinctSchedules }

def Database.getFlow (registrationId : Nat) : Option FlowRegistration :=
  db.registrations.find? fun flow => flow.id = registrationId

def Database.getTable (tableId : Nat) : Option CatalogTable :=
  db.tables.find? fun table => table.id = tableId

def Database.flowRuns : List FlowRun :=
  db.runs.map ScheduledRun.toFlowRun

def Database.nextRunId : Nat :=
  Catalog.nextRunId db.flowRuns

def Database.recordRun (path : LaunchPath) (flow : FlowRegistration)
    (scheduleId now : Nat) : Database :=
  { db with
    runs := db.runs ++ [{
      toFlowRun := (PendingLaunch.mk path flow).run db.nextRunId now
      scheduleId := some scheduleId
      pid := none
      success := none }] }

def Database.modifyRun (runId : Nat) (change : ScheduledRun → ScheduledRun) : Database :=
  { db with runs := db.runs.map fun run => if run.id = runId then change run else run }

def ScheduledRun.enterProcess (now : Nat) (pid : Option Nat) (run : ScheduledRun) : ScheduledRun :=
  match pid with
  | some pid => { run with pid := some pid }
  | none => { run with endedAt := some now, success := some false }

def Database.enterProcess (runId now : Nat) (pid : Option Nat) : Database :=
  db.modifyRun runId (ScheduledRun.enterProcess now pid)

variable (circumstances : Circumstances)

/-- The launch of a schedule, unless its flow is missing or has an active run. The run is recorded
and committed before its process starts. -/
def maybeLaunch (session : Session Database) (schedule : FlowSchedule) : Session Database × Bool :=
  let now := circumstances.clock schedule.id
  match session.current.getFlow schedule.registrationId with
  | none => (session, false)
  | some flow =>
    if hasActiveRunOfRegistration session.current.flowRuns flow then (session, false)
    else
      let runId := session.current.nextRunId
      let recorded := (session.modify fun db =>
        (db.recordRun .schedulerTick flow schedule.id now).modifyCursors schedule.id
          fun cursors => { cursors with lastTriggeredAt := some now }).commit
      let pid := circumstances.spawn schedule.id
      ((recorded.modify fun db => db.enterProcess runId now pid).commit, pid.isSome)

def FlowSchedule.intervalPassed (schedule : FlowSchedule) (now : Nat) : Bool :=
  match schedule.intervalSeconds, schedule.lastTriggeredAt with
  | none, _ => false
  | some _, none => true
  | some seconds, some last => seconds - ((now : Int) - last) ≤ 0

def attendInterval (session : Session Database) (schedule : FlowSchedule) : Session Database :=
  if schedule.intervalPassed (circumstances.clock schedule.id) then
    (maybeLaunch circumstances session schedule).1
  else session

variable (croniter : FlowSchedule → Nat → Option Nat)
  (session : Session Database) (schedule : FlowSchedule)

/-- A schedule that launches at the times of an expression. The local time is given if the next time
of the expression after the last slot has passed. -/
def attendCron (circumstances : Circumstances)
    (session : Session Database) (schedule : FlowSchedule) : Session Database :=
  match croniter schedule (circumstances.clock schedule.id) with
  | none => session
  | some slot =>
    match maybeLaunch circumstances session schedule with
    | (launched, true) =>
      (launched.modify fun db => db.modifyCursors schedule.id fun cursors =>
        { cursors with lastCronSlot := some slot }).commit
    | (passed, false) => passed

def laterThan (updated : Nat) : Option Nat → Bool
  | none => true
  | some seen => seen < updated

def Database.unseenUpdate : Option Nat := do
  let table ← db.getTable (← schedule.triggerTableId)
  let updated ← table.updatedAt
  if laterThan updated schedule.lastTriggerTableUpdatedAt then some updated else none

def Database.moveCursor (scheduleId : Nat) (updated : Option Nat) : Database :=
  db.modifyCursors scheduleId fun cursors => { cursors with lastTriggerTableUpdatedAt := updated }

def attendTableTrigger : Session Database :=
  match session.current.unseenUpdate schedule with
  | none => session
  | some updated =>
    (maybeLaunch circumstances
      (session.modify fun db => db.moveCursor schedule.id (some updated)) schedule).1

/-- All of at least two tables were updated since the last launch. -/
def Database.setUpdated : Bool :=
  let tableIds := (db.triggerTables.filter fun link => link.1 = schedule.id).map Prod.snd
  2 ≤ tableIds.length ∧ tableIds.all fun tableId =>
    match (db.getTable tableId).bind CatalogTable.updatedAt with
    | none => false
    | some updated => laterThan updated schedule.lastTriggeredAt

/-- A schedule that watches several tables. -/
def attendTableSetTrigger
    : Session Database :=
  if session.current.setUpdated schedule then (maybeLaunch circumstances session schedule).1
  else session

variable (scheduleType : ScheduleType)

def Database.enabledOf : List FlowSchedule :=
  db.schedules.filter fun schedule => schedule.enabled && schedule.scheduleType = scheduleType

def processSchedules
    (attend : Session Database → FlowSchedule → Session Database) (session : Session Database) :
    Session Database :=
  (session.current.enabledOf scheduleType).foldl attend session

def processIntervalSchedules : Session Database → Session Database :=
  processSchedules .interval (attendInterval circumstances)

def processCronSchedules (circumstances : Circumstances) : Session Database → Session Database :=
  processSchedules .cron (attendCron croniter circumstances)

def processTableTriggerSchedules : Session Database → Session Database :=
  processSchedules .tableTrigger (attendTableTrigger circumstances)

def processTableSetTriggerSchedules : Session Database → Session Database :=
  processSchedules .tableSetTrigger (attendTableSetTrigger circumstances)

def Database.tick (db : Database) (circumstances : Circumstances) : Database :=
  let session := processIntervalSchedules circumstances (.opened db)
  let session := processCronSchedules croniter circumstances session
  let session := processTableTriggerSchedules circumstances session
  (processTableSetTriggerSchedules circumstances session).close

variable (tableId : Nat)

def Database.listTableTriggerSchedulesForTable : List FlowSchedule :=
  (db.enabledOf .tableTrigger).filter fun schedule => schedule.triggerTableId = some tableId

def Database.spawnFlowRun (circumstances : Circumstances) (flow : FlowRegistration)
    (scheduleId : Nat) : Database :=
  (db.recordRun .pushTrigger flow scheduleId (circumstances.clock scheduleId)).enterProcess
    db.nextRunId (circumstances.clock scheduleId) (circumstances.spawn scheduleId)

variable (tableUpdatedAt : Option Nat)

def fireSchedule (db : Database)
    (schedule : FlowSchedule) : Database :=
  match db.getFlow schedule.registrationId with
  | none => db
  | some flow =>
    if hasActiveRunOfUuid db.flowRuns flow then db
    else
      let now := circumstances.clock schedule.id
      let moved := db.modifyCursors schedule.id fun cursors =>
        { cursors with lastTriggeredAt := some now, lastTriggerTableUpdatedAt := tableUpdatedAt }
      moved.spawnFlowRun circumstances flow schedule.id

def fireTableTriggerSchedules
    (db : Database) : Database :=
  (db.listTableTriggerSchedulesForTable tableId).foldl
    (fireSchedule circumstances tableUpdatedAt) db

/-- Give a table new data. -/
def Database.updateTable (now : Nat) : Database :=
  { db with
    tables := db.tables.map fun table =>
      if table.id = tableId then { table with updatedAt := some now } else table }

def Database.finishRun (runId now : Nat) (success : Bool) : Database :=
  db.modifyRun runId fun run => { run with endedAt := some now, success := some success }

def Database.step (db : Database) : TriggerEvent → Database
  | .updateTable tableId now => db.updateTable tableId now
  | .tick circumstances => db.tick croniter circumstances
  | .push tableId circumstances =>
    match db.getTable tableId with
    | none => db
    | some table => fireTableTriggerSchedules circumstances tableId table.updatedAt db
  | .finish runId now success => db.finishRun runId now success

def LaunchedBetween (before after : Database) (schedule : FlowSchedule) : Prop :=
  ∃ run ∈ after.runs, run.id ∉ before.runs.map (·.id) ∧
    run.registrationId = some schedule.registrationId ∧ run.scheduleId = some schedule.id ∧
    run.pid.isSome

def NoneLost (before after : Database) : Prop :=
  ∀ earlier ∈ before.schedules, ∀ schedule ∈ after.schedules, earlier.id = schedule.id →
    schedule.enabled = true → schedule.scheduleType = .tableTrigger →
    ∀ updated, schedule.lastTriggerTableUpdatedAt = some updated →
      laterThan updated earlier.lastTriggerTableUpdatedAt = true →
      LaunchedBetween before after schedule

/-- A schedule is launched at its turn: its flow is there and has no active run, and no process
started for an earlier schedule of the flow that was due. -/
def Database.LaunchesAt (path : LaunchPath) (due : FlowSchedule → Bool)
    (spawn : Nat → Option Nat) (earlier : List FlowSchedule) (schedule : FlowSchedule) : Prop :=
  due schedule = true ∧ ∃ flow, db.getFlow schedule.registrationId = some flow ∧
    path.hasActiveRun db.flowRuns flow = false ∧
    ∀ other ∈ earlier, due other = true → other.registrationId = schedule.registrationId →
      spawn other.id = none

def Database.isDue (croniter : FlowSchedule → Nat → Option Nat)
    (circumstances : Circumstances) (schedule : FlowSchedule) : Bool :=
  match schedule.scheduleType with
  | .interval => schedule.intervalPassed (circumstances.clock schedule.id)
  | .cron => (croniter schedule (circumstances.clock schedule.id)).isSome
  | .tableTrigger => (db.unseenUpdate schedule).isSome
  | .tableSetTrigger => db.setUpdated schedule

def Database.tickOrder : List FlowSchedule :=
  db.enabledOf .interval ++ db.enabledOf .cron ++ db.enabledOf .tableTrigger ++
    db.enabledOf .tableSetTrigger

/-- A step loses no update: cursors reach updates by launches, and a new update is found. -/
def Database.Keeps (db : Database) (event : TriggerEvent) : Prop :=
  NoneLost db (db.step croniter event) ∧
    ∀ tableId now, event = .updateTable tableId now → ∀ schedule ∈ db.schedules,
      schedule.enabled = true → schedule.scheduleType = .tableTrigger →
      schedule.triggerTableId = some tableId →
      (db.step croniter event).unseenUpdate schedule = some now

/-- A process starts for each schedule whose update is pushed or found, unless it is passed over;
after a tick has passed over such a schedule it launches no other; and a table that is watched gets
new data later than what the schedules have seen. -/
def Database.Serves (db : Database) : TriggerEvent → Prop
  | .tick circumstances =>
    let launches := db.LaunchesAt .schedulerTick (db.isDue croniter circumstances)
      circumstances.spawn
    ∀ earlier schedule later, db.tickOrder = earlier ++ schedule :: later →
      schedule.scheduleType = .tableTrigger → (db.unseenUpdate schedule).isSome →
      (launches earlier schedule → circumstances.spawn schedule.id ≠ none) ∧
      (¬ launches earlier schedule → ∀ between other rest, later = between ++ other :: rest →
        ¬ launches (earlier ++ schedule :: between) other)
  | .push tableId circumstances =>
    ∀ earlier schedule later,
      db.listTableTriggerSchedulesForTable tableId = earlier ++ schedule :: later →
      (db.unseenUpdate schedule).isSome →
      db.LaunchesAt .pushTrigger (fun _ => true) circumstances.spawn earlier schedule →
      circumstances.spawn schedule.id ≠ none
  | .updateTable tableId now =>
    ∀ schedule ∈ db.schedules, schedule.enabled = true → schedule.scheduleType = .tableTrigger →
      schedule.triggerTableId = some tableId →
      (db.getTable tableId).isSome ∧ laterThan now schedule.lastTriggerTableUpdatedAt
  | .finish _ _ _ => True

end Flowfile.Scheduler

import Flowfile.TableTriggers

/-!
# Which updates of tables are lost

Both paths take the schedules one after the other. What a turn does to the rows depends on the runs
that earlier turns left active, and those are the runs of schedules whose process started; so the
schedules that launch, and with them everything a tick or a push stores, can be read off the rows it
starts from.
-/

namespace Flowfile.Scheduler

open Catalog Library.EventRuns Library.Sessions List
open Database (flowRuns getFlow unseenUpdate getTable setUpdated tickOrder step)

section

variable {db : Database} {path : LaunchPath} {flow : FlowRegistration}

theorem lt_nextRunId {run : ScheduledRun} (mem : run ∈ db.runs) : run.id < db.nextRunId := by
  rw [Database.nextRunId, Catalog.nextRunId, flowRuns, Nat.lt_succ_iff]
  have listed : run.id ∈ (db.runs.map ScheduledRun.toFlowRun).map FlowRun.id := by
    rw [map_map]
    exact mem_map_of_mem mem
  cases largest : ((db.runs.map ScheduledRun.toFlowRun).map FlowRun.id).max? with
  | none =>
    rw [List.max?_eq_none_iff.mp largest] at listed
    cases listed
  | some id => exact (List.max?_eq_some_iff.mp largest).2 _ listed

def launchedRun (path : LaunchPath) (flow : FlowRegistration) (runId scheduleId now : Nat)
    (pid : Option Nat) : ScheduledRun :=
  ScheduledRun.enterProcess now pid
    ⟨(PendingLaunch.mk path flow).run runId now, some scheduleId, none, none⟩

theorem launch_runs (scheduleId now : Nat) (pid : Option Nat) :
    ((db.recordRun path flow scheduleId now).enterProcess db.nextRunId now pid).runs =
      db.runs ++ [launchedRun path flow db.nextRunId scheduleId now pid] := by
  have others : db.runs.map (fun run =>
      if run.id = db.nextRunId then ScheduledRun.enterProcess now pid run else run) = db.runs := by
    rw [map_congr_left (g := id), map_id]
    intro run mem
    rw [if_neg (Nat.ne_of_lt (lt_nextRunId mem))]
    rfl
  rw [Database.enterProcess, Database.modifyRun, Database.recordRun]
  dsimp only
  rw [map_append, others, map_singleton]
  exact congrArg (db.runs ++ [·]) (if_pos rfl)

variable (path flow) (runId scheduleId now : Nat) (pid : Option Nat)

@[simp]
theorem launchedRun_id : (launchedRun path flow runId scheduleId now pid).id = runId := by
  cases pid <;> rfl

@[simp]
theorem launchedRun_registrationId :
    (launchedRun path flow runId scheduleId now pid).registrationId = some flow.id := by
  cases pid <;> rfl

@[simp]
theorem launchedRun_scheduleId :
    (launchedRun path flow runId scheduleId now pid).scheduleId = some scheduleId := by
  cases pid <;> rfl

@[simp]
theorem launchedRun_pid : (launchedRun path flow runId scheduleId now pid).pid = pid := by
  cases pid <;> rfl

@[simp]
theorem launchedRun_active :
    (launchedRun path flow runId scheduleId now pid).active = pid.isSome := by
  cases pid <;> rfl

theorem hasActiveRun_launched {other : FlowRegistration} (runs : List FlowRun)
    (known : flow ∈ db.registrations) (otherKnown : other ∈ db.registrations) :
    path.hasActiveRun (runs ++ [(launchedRun path flow runId scheduleId now pid).toFlowRun]) other =
      true ↔ path.hasActiveRun runs other = true ∨ other = flow ∧ pid.isSome = true := by
  have sameId : flow.id = other.id ↔ other = flow :=
    ⟨fun same => inj_on_of_nodup_map db.distinctIds otherKnown known same.symm,
      fun same => by rw [same]⟩
  have sameUuid : flow.flowUuid = other.flowUuid ↔ other = flow :=
    ⟨fun same => inj_on_of_nodup_map db.distinctUuids otherKnown known same.symm,
      fun same => by rw [same]⟩
  have active := launchedRun_active path flow runId scheduleId now pid
  have uuid : path ≠ .schedulerTick →
      (launchedRun path flow runId scheduleId now pid).flowUuid = some flow.flowUuid := by
    intro catalog
    cases pid <;> cases path <;> first | rfl | exact absurd rfl catalog
  cases path with
  | schedulerTick =>
    simp only [LaunchPath.hasActiveRun, hasActiveRunOfRegistration, any_append,
      Bool.or_eq_true, any_cons, any_nil, Bool.or_false, launchedRun_registrationId,
      Option.some.injEq,
      active, Bool.and_eq_true, decide_eq_true_eq, sameId]
  | pushTrigger | triggerNow | runNow =>
    simp only [LaunchPath.hasActiveRun, hasActiveRunOfUuid, any_append, Bool.or_eq_true,
      any_cons, any_nil, Bool.or_false, uuid (by decide), Option.some.injEq,
      active, Bool.and_eq_true, decide_eq_true_eq, sameUuid]

end

def Database.LaunchesNow (db : Database) (path : LaunchPath) (due : FlowSchedule → Bool)
    (schedule : FlowSchedule) : Prop :=
  due schedule = true ∧ ∃ flow, db.getFlow schedule.registrationId = some flow ∧
    path.hasActiveRun db.flowRuns flow = false

/-- What the turn of a schedule does to the rows. Its cursor is set to what is given, if anything
is. -/
structure Turn (path : LaunchPath) (spawn : Nat → Option Nat) (launches : Prop)
    (cursor : Option (Option Nat)) (db : Database) (schedule : FlowSchedule)
    (after : Database) : Prop where
  registrations : after.registrations = db.registrations
  tables : after.tables = db.tables
  triggerTables : after.triggerTables = db.triggerTables
  schedules : ∃ change : ScheduleCursors → ScheduleCursors,
    after.schedules = db.schedules.map (FlowSchedule.modifyCursors schedule.id change) ∧
      ∀ cursors, (change cursors).lastTriggerTableUpdatedAt =
        cursor.getD cursors.lastTriggerTableUpdatedAt
  launched : launches → ∃ flow now, db.getFlow schedule.registrationId = some flow ∧
    after.runs = db.runs ++ [launchedRun path flow db.nextRunId schedule.id now (spawn schedule.id)]
  passed : ¬ launches → after.runs = db.runs

variable {cursor : Option (Option Nat)}

section

variable {path : LaunchPath} {spawn : Nat → Option Nat} {launches : Prop} {db after : Database}
  {schedule : FlowSchedule}

/-- Two changes of what a schedule remembers are one. -/
theorem map_modifyCursors (schedules : List FlowSchedule) (id : Nat)
    (first second : ScheduleCursors → ScheduleCursors) :
    (schedules.map (FlowSchedule.modifyCursors id first)).map
        (FlowSchedule.modifyCursors id second) =
      schedules.map (FlowSchedule.modifyCursors id (second ∘ first)) := by
  rw [map_map]
  apply map_congr_left
  intro row _
  by_cases same : row.id = id
  · simp [FlowSchedule.modifyCursors, FlowSchedule.withCursors, same]
  · simp [FlowSchedule.modifyCursors, same]

/-- No change. -/
theorem map_modifyCursors_id (schedules : List FlowSchedule) (id : Nat) :
    schedules.map (FlowSchedule.modifyCursors id fun cursors => cursors) = schedules := by
  rw [map_congr_left (g := fun row => row), map_id']
  intro row _
  rw [FlowSchedule.modifyCursors]
  split <;> rfl

theorem Turn.idle (passes : ¬ launches) : Turn path spawn launches none db schedule db where
  registrations := rfl
  tables := rfl
  triggerTables := rfl
  schedules := ⟨fun cursors => cursors, (map_modifyCursors_id _ _).symm, fun _ => rfl⟩
  launched := fun launch => absurd launch passes
  passed := fun _ => rfl

theorem Turn.move (passes : ¬ launches) (updated : Option Nat) :
    Turn path spawn launches (some updated) db schedule (db.moveCursor schedule.id updated) where
  registrations := rfl
  tables := rfl
  triggerTables := rfl
  schedules := ⟨_, rfl, fun _ => rfl⟩
  launched := fun launch => absurd launch passes
  passed := fun _ => rfl

theorem Turn.launch {flow : FlowRegistration} (launch : launches)
    (found : db.getFlow schedule.registrationId = some flow) (now : Nat)
    (change : ScheduleCursors → ScheduleCursors) {cursor : Option (Option Nat)}
    (sets : ∀ cursors, (change cursors).lastTriggerTableUpdatedAt =
      cursor.getD cursors.lastTriggerTableUpdatedAt) :
    Turn path spawn launches cursor db schedule
      (((db.recordRun path flow schedule.id now).modifyCursors schedule.id change).enterProcess
        db.nextRunId now (spawn schedule.id)) where
  registrations := rfl
  tables := rfl
  triggerTables := rfl
  schedules := ⟨change, rfl, sets⟩
  launched := fun _ => ⟨flow, now, found, launch_runs _ _ _⟩
  passed := fun passes => absurd launch passes

theorem Turn.afterMove {updated : Option Nat}
    (turn : Turn path spawn launches none (db.moveCursor schedule.id updated) schedule after) :
    Turn path spawn launches (some updated) db schedule after :=
  { turn with
    schedules := by
      obtain ⟨change, schedules, keeps⟩ := turn.schedules
      exact ⟨_, schedules.trans (map_modifyCursors _ _ _ _), fun _ => keeps _⟩ }

theorem Turn.andThen
    (turn : Turn path spawn launches cursor db schedule after)
    {change : ScheduleCursors → ScheduleCursors}
    (keeps : ∀ cursors, (change cursors).lastTriggerTableUpdatedAt =
      cursors.lastTriggerTableUpdatedAt) :
    Turn path spawn launches cursor db schedule (after.modifyCursors schedule.id change) :=
  { turn with
    schedules := by
      obtain ⟨first, schedules, sets⟩ := turn.schedules
      refine ⟨change ∘ first, ?_, fun cursors => (keeps _).trans (sets cursors)⟩
      rw [Database.modifyCursors]
      dsimp only
      rw [schedules, map_modifyCursors] }

end

section

variable (croniter : FlowSchedule → Nat → Option Nat) (circumstances : Circumstances)
  (session : Session Database) (schedule : FlowSchedule)

/-- The turn of a schedule in a tick. -/
def attend : Session Database :=
  match schedule.scheduleType with
  | .interval => attendInterval circumstances session schedule
  | .cron => attendCron croniter circumstances session schedule
  | .tableTrigger => attendTableTrigger circumstances session schedule
  | .tableSetTrigger => attendTableSetTrigger circumstances session schedule

def Database.tickCursor (db : Database) : Option (Option Nat) :=
  if schedule.scheduleType = .tableTrigger then (db.unseenUpdate schedule).map some else none

variable {session schedule}

theorem maybeLaunch_passed (busy : ∀ flow,
    session.current.getFlow schedule.registrationId = some flow →
      hasActiveRunOfRegistration session.current.flowRuns flow = true) :
    maybeLaunch circumstances session schedule = (session, false) := by
  rw [maybeLaunch]
  cases found : session.current.getFlow schedule.registrationId with
  | none => rfl
  | some flow => exact if_pos (busy flow found)

/-- A launch ends with everything committed. -/
theorem maybeLaunch_launched {flow : FlowRegistration}
    (found : session.current.getFlow schedule.registrationId = some flow)
    (idle : hasActiveRunOfRegistration session.current.flowRuns flow = false) :
    maybeLaunch circumstances session schedule =
      (.opened (((session.current.recordRun .schedulerTick flow schedule.id
          (circumstances.clock schedule.id)).modifyCursors schedule.id fun cursors =>
            { cursors with lastTriggeredAt := some (circumstances.clock schedule.id) }).enterProcess
          session.current.nextRunId (circumstances.clock schedule.id)
          (circumstances.spawn schedule.id)),
        (circumstances.spawn schedule.id).isSome) := by
  rw [maybeLaunch, found]
  exact if_neg (by rw [idle]; exact Bool.false_ne_true)

structure TickTurn (launches : Prop) (cursor : Option (Option Nat)) (start : Database)
    (result : Session Database) : Prop where
  turn : Turn .schedulerTick circumstances.spawn launches cursor start schedule result.current
  stored : launches → result.committed = result.current
  unstored : ¬ launches → result.committed = session.committed

theorem TickTurn.undue (undue : session.current.isDue croniter circumstances schedule = false) :
    @TickTurn circumstances session schedule
      (session.current.LaunchesNow .schedulerTick (session.current.isDue croniter circumstances)
        schedule)
      (session.current.tickCursor schedule) session.current session := by
  have passes : ¬ session.current.LaunchesNow .schedulerTick
      (session.current.isDue croniter circumstances) schedule := by
    rintro ⟨due, _⟩
    rw [undue] at due
    cases due
  have unmoved : session.current.tickCursor schedule = none := by
    rw [Database.tickCursor]
    split
    case isTrue isType =>
      rw [Database.isDue, isType] at undue
      rw [Option.isSome_eq_false_iff, Option.isNone_iff_eq_none] at undue
      rw [undue]
      rfl
    case isFalse => rfl
  rw [unmoved]
  exact ⟨.idle passes, fun launch => absurd launch passes, fun _ => rfl⟩

theorem TickTurn.due (due : session.current.isDue croniter circumstances schedule = true)
    (other : schedule.scheduleType ≠ .tableTrigger) :
    @TickTurn circumstances session schedule
      (session.current.LaunchesNow .schedulerTick (session.current.isDue croniter circumstances)
        schedule)
      (session.current.tickCursor schedule) session.current
      (maybeLaunch circumstances session schedule).1 := by
  rw [Database.tickCursor, if_neg other]
  by_cases launch : session.current.LaunchesNow .schedulerTick
    (session.current.isDue croniter circumstances) schedule
  · obtain ⟨_, flow, found, idle⟩ := id launch
    rw [maybeLaunch_launched circumstances found idle]
    exact ⟨.launch launch found _ _ fun _ => rfl, fun _ => rfl, fun passes => absurd launch passes⟩
  · rw [maybeLaunch_passed circumstances]
    · exact ⟨.idle launch, fun launches => absurd launches launch, fun _ => rfl⟩
    · intro flow found
      by_contra idle
      exact launch ⟨due, flow, found, Bool.eq_false_iff.mpr idle⟩

theorem attend_spec : @TickTurn circumstances session schedule
    (session.current.LaunchesNow .schedulerTick (session.current.isDue croniter circumstances)
      schedule)
    (session.current.tickCursor schedule) session.current
    (attend croniter circumstances session schedule) := by
  cases isType : schedule.scheduleType with
  | interval =>
    have sameDue : session.current.isDue croniter circumstances schedule =
        schedule.intervalPassed (circumstances.clock schedule.id) := by
      rw [Database.isDue, isType]
    rw [attend, isType]
    dsimp only
    rw [attendInterval, ← sameDue]
    split
    case isTrue due => exact .due croniter circumstances due (by rw [isType]; nofun)
    case isFalse undue => exact .undue croniter circumstances (by simpa using undue)
  | tableSetTrigger =>
    have sameDue : session.current.isDue croniter circumstances schedule =
        session.current.setUpdated schedule := by
      rw [Database.isDue, isType]
    rw [attend, isType]
    dsimp only
    rw [attendTableSetTrigger, ← sameDue]
    split
    case isTrue due => exact .due croniter circumstances due (by rw [isType]; nofun)
    case isFalse undue => exact .undue croniter circumstances (by simpa using undue)
  | cron =>
    have sameDue : session.current.isDue croniter circumstances schedule =
        (croniter schedule (circumstances.clock schedule.id)).isSome := by
      rw [Database.isDue, isType]
    rw [attend, isType]
    dsimp only
    rw [attendCron]
    cases slot : croniter schedule (circumstances.clock schedule.id) with
    | none => exact .undue croniter circumstances (by rw [sameDue, slot]; rfl)
    | some slot =>
    have due : session.current.isDue croniter circumstances schedule = true := by
      rw [sameDue, slot]
      rfl
    by_cases launch : session.current.LaunchesNow .schedulerTick
      (session.current.isDue croniter circumstances) schedule
    · obtain ⟨_, flow, found, idle⟩ := id launch
      have noTable : session.current.tickCursor schedule = none := by
        rw [Database.tickCursor, if_neg (by rw [isType]; nofun)]
      rw [noTable, maybeLaunch_launched circumstances found idle]
      have launched := @Turn.launch .schedulerTick circumstances.spawn _ _ _ _ launch found
        (circumstances.clock schedule.id)
        (fun cursors => { cursors with
          lastTriggeredAt := some (circumstances.clock schedule.id) }) none fun _ => rfl
      dsimp only
      split
      case h_1 result =>
        obtain ⟨rfl, _⟩ := Prod.mk.inj result
        exact ⟨launched.andThen fun _ => rfl, fun _ => rfl, fun passes => absurd launch passes⟩
      case h_2 result =>
        obtain ⟨rfl, _⟩ := Prod.mk.inj result
        exact ⟨launched, fun _ => rfl, fun passes => absurd launch passes⟩
    · have plain := TickTurn.due croniter circumstances due (by rw [isType]; nofun)
      rw [maybeLaunch_passed circumstances] at plain ⊢
      · exact plain
      all_goals
        intro flow found
        by_contra idle
        exact launch ⟨due, flow, found, Bool.eq_false_iff.mpr idle⟩
  | tableTrigger =>
    have sameDue : session.current.isDue croniter circumstances schedule =
        (session.current.unseenUpdate schedule).isSome := by
      rw [Database.isDue, isType]
    rw [attend, isType]
    dsimp only
    rw [attendTableTrigger]
    cases unseen : session.current.unseenUpdate schedule with
    | none => exact .undue croniter circumstances (by rw [sameDue, unseen]; rfl)
    | some updated =>
    have moves : session.current.tickCursor schedule = some (some updated) := by
      rw [Database.tickCursor, if_pos isType, unseen]
      rfl
    rw [moves]
    dsimp only
    let moved := session.modify fun db => db.moveCursor schedule.id (some updated)
    by_cases launch : session.current.LaunchesNow .schedulerTick
      (session.current.isDue croniter circumstances) schedule
    · obtain ⟨_, flow, found, idle⟩ := id launch
      rw [@maybeLaunch_launched circumstances moved schedule flow found idle]
      have launched := @Turn.launch .schedulerTick circumstances.spawn _
        (session.current.moveCursor schedule.id (some updated)) schedule flow launch found
        (circumstances.clock schedule.id)
        (fun cursors => { cursors with
          lastTriggeredAt := some (circumstances.clock schedule.id) }) none fun _ => rfl
      exact ⟨launched.afterMove, fun _ => rfl, fun passes => absurd launch passes⟩
    · rw [@maybeLaunch_passed circumstances moved schedule]
      · exact ⟨.move launch _, fun launches => absurd launches launch, fun _ => rfl⟩
      · intro flow found
        by_contra idle
        refine launch ⟨?_, flow, found, Bool.eq_false_iff.mpr idle⟩
        rw [sameDue, unseen]
        rfl

end

theorem fireSchedule_spec (circumstances : Circumstances) (tableUpdatedAt : Option Nat)
    (db : Database) (schedule : FlowSchedule) :
    ∃ cursor, Turn .pushTrigger circumstances.spawn
        (db.LaunchesNow .pushTrigger (fun _ => true) schedule) cursor db schedule
        (fireSchedule circumstances tableUpdatedAt db schedule) ∧
      (db.LaunchesNow .pushTrigger (fun _ => true) schedule → cursor = some tableUpdatedAt) ∧
      (¬ db.LaunchesNow .pushTrigger (fun _ => true) schedule → cursor = none) := by
  rw [fireSchedule]
  cases found : db.getFlow schedule.registrationId with
  | none =>
    have passes : ¬ db.LaunchesNow .pushTrigger (fun _ => true) schedule := by
      rintro ⟨_, flow, isFlow, _⟩
      rw [found] at isFlow
      cases isFlow
    exact ⟨none, .idle passes, fun launch => absurd launch passes, fun _ => rfl⟩
  | some flow =>
  dsimp only
  cases busy : hasActiveRunOfUuid db.flowRuns flow with
  | true =>
    have passes : ¬ db.LaunchesNow .pushTrigger (fun _ => true) schedule := by
      rintro ⟨_, other, isFlow, idle⟩
      rw [found] at isFlow
      cases isFlow
      rw [LaunchPath.hasActiveRun, busy] at idle
      cases idle
    rw [if_pos rfl]
    exact ⟨none, .idle passes, fun launch => absurd launch passes, fun _ => rfl⟩
  | false =>
    have launch : db.LaunchesNow .pushTrigger (fun _ => true) schedule :=
      ⟨rfl, flow, found, busy⟩
    rw [if_neg Bool.false_ne_true]
    have launched := @Turn.launch .pushTrigger circumstances.spawn _ db schedule flow launch found
      (circumstances.clock schedule.id)
      (fun cursors => { cursors with
        lastTriggeredAt := some (circumstances.clock schedule.id)
        lastTriggerTableUpdatedAt := tableUpdatedAt }) (some tableUpdatedAt) fun _ => rfl
    exact ⟨_, launched, fun _ => rfl, fun passes => absurd launch passes⟩

/-- What the turns of some schedules do to the rows, when the cursors of those that move are set to
the given values. -/
structure Served (path : LaunchPath) (due : FlowSchedule → Bool) (spawn : Nat → Option Nat)
    (moves : List FlowSchedule → FlowSchedule → Prop) (value : FlowSchedule → Option Nat)
    (db : Database) (turns : List FlowSchedule) (after : Database) : Prop where
  registrations : after.registrations = db.registrations
  tables : after.tables = db.tables
  triggerTables : after.triggerTables = db.triggerTables
  schedules : ∃ cursors : FlowSchedule → ScheduleCursors,
    after.schedules = db.schedules.map (fun row => row.withCursors (cursors row)) ∧
    ∀ row ∈ db.schedules, (row ∉ turns → cursors row = row.toScheduleCursors) ∧
      ∀ earlier later, turns = earlier ++ row :: later →
        (moves earlier row → (cursors row).lastTriggerTableUpdatedAt = value row) ∧
        (¬ moves earlier row →
          (cursors row).lastTriggerTableUpdatedAt = row.lastTriggerTableUpdatedAt)
  active : ∀ flow ∈ db.registrations, path.hasActiveRun after.flowRuns flow = true ↔
    path.hasActiveRun db.flowRuns flow = true ∨ ∃ other ∈ turns, due other = true ∧
      other.registrationId = flow.id ∧ (spawn other.id).isSome = true
  kept : ∀ run ∈ db.runs, run ∈ after.runs
  added : ∀ run ∈ after.runs, run ∈ db.runs ∨ ∃ earlier schedule later,
    turns = earlier ++ schedule :: later ∧ db.LaunchesAt path due spawn earlier schedule ∧
      run.scheduleId = some schedule.id ∧ run.pid = spawn schedule.id
  launched : ∀ earlier schedule later, turns = earlier ++ schedule :: later →
    db.LaunchesAt path due spawn earlier schedule → ∃ run ∈ after.runs,
      db.nextRunId ≤ run.id ∧ run.registrationId = some schedule.registrationId ∧
        run.scheduleId = some schedule.id ∧ run.pid = spawn schedule.id

variable {α : Type} {scheduleType : ScheduleType} {row : FlowSchedule} {updated : Nat}

section

variable {path : LaunchPath} {due : FlowSchedule → Bool} {spawn : Nat → Option Nat}
  {moves : List FlowSchedule → FlowSchedule → Prop} {value : FlowSchedule → Option Nat}
  {db after next : Database} {turns : List FlowSchedule} {schedule : FlowSchedule}

/-- Before the first turn. -/
theorem Served.start : Served path due spawn moves value db [] db where
  registrations := rfl
  tables := rfl
  triggerTables := rfl
  schedules := by
    refine ⟨FlowSchedule.toScheduleCursors, ?_, fun row _ => ⟨fun _ => rfl, ?_⟩⟩
    · exact (map_id' _).symm
    · intro earlier later split
      exact absurd split.symm (by simp)
  active := by simp
  kept := fun _ mem => mem
  added := fun _ mem => .inl mem
  launched := fun earlier _ later split => absurd split.symm (by simp)

variable {flow : FlowRegistration}

theorem getFlow_mem {registrationId : Nat} (found : db.getFlow registrationId = some flow) :
    flow ∈ db.registrations ∧ flow.id = registrationId :=
  ⟨mem_of_find?_eq_some found, by simpa using List.find?_some found⟩

theorem Served.launchesNow_iff (served : Served path due spawn moves value db turns after) :
    after.LaunchesNow path due schedule ↔ db.LaunchesAt path due spawn turns schedule := by
  have sameFlow : after.getFlow schedule.registrationId = db.getFlow schedule.registrationId := by
    rw [getFlow, getFlow, served.registrations]
  rw [Database.LaunchesNow, Database.LaunchesAt, sameFlow]
  refine and_congr_right fun _ => exists_congr fun flow => and_congr_right fun found => ?_
  obtain ⟨known, sameId⟩ := getFlow_mem found
  have active := served.active flow known
  rw [← Bool.not_eq_true, ← Bool.not_eq_true, active, not_or]
  refine and_congr_right fun _ => ?_
  constructor
  · intro none other mem isDue sameFlow
    by_contra started
    exact none ⟨other, mem, isDue, sameFlow.trans sameId.symm,
      Option.isSome_iff_ne_none.mpr started⟩
  · rintro none ⟨other, mem, isDue, sameFlow, started⟩
    rw [none other mem isDue (sameFlow.trans sameId)] at started
    cases started

theorem getFlow_of_mem (known : flow ∈ db.registrations) : db.getFlow flow.id = some flow := by
  cases found : db.getFlow flow.id with
  | none =>
    have missing := List.find?_eq_none.mp found flow known
    simp at missing
  | some other =>
    obtain ⟨otherKnown, sameId⟩ := getFlow_mem found
    rw [inj_on_of_nodup_map db.distinctIds otherKnown known sameId]

theorem nextRunId_le (kept : ∀ run ∈ db.runs, run ∈ after.runs) :
    db.nextRunId ≤ after.nextRunId := by
  have below := fun (run : ScheduledRun) mem => @lt_nextRunId after run (kept run mem)
  rw [Database.nextRunId, Catalog.nextRunId]
  cases largest : (db.flowRuns.map FlowRun.id).max? with
  | none => exact Nat.succ_le_succ (Nat.zero_le _)
  | some id =>
  have listed := (List.max?_eq_some_iff.mp largest).1
  rw [flowRuns, map_map] at listed
  obtain ⟨run, mem, rfl⟩ := mem_map.mp listed
  exact below run mem

theorem Turn.runs {launches : Prop} (turn : Turn path spawn launches cursor db schedule after) :
    (¬ launches ∧ after.runs = db.runs) ∨ launches ∧ ∃ flow now,
      db.getFlow schedule.registrationId = some flow ∧ after.runs = db.runs ++
        [launchedRun path flow db.nextRunId schedule.id now (spawn schedule.id)] := by
  by_cases launch : launches
  · exact .inr ⟨launch, turn.launched launch⟩
  · exact .inl ⟨launch, turn.passed launch⟩

theorem Served.active_next (served : Served path due spawn moves value db turns after)
    (turn : Turn path spawn (db.LaunchesAt path due spawn turns schedule) cursor after schedule
      next) (known : flow ∈ db.registrations) :
    path.hasActiveRun next.flowRuns flow = true ↔
      path.hasActiveRun after.flowRuns flow = true ∨ due schedule = true ∧
        schedule.registrationId = flow.id ∧ (spawn schedule.id).isSome = true := by
  obtain ⟨passes, same⟩ | ⟨⟨isDue, _⟩, other, now, found, added⟩ := turn.runs
  · rw [flowRuns, same, ← flowRuns]
    refine ⟨.inl, ?_⟩
    rintro (active | ⟨isDue, sameFlow, started⟩)
    · exact active
    · by_contra idle
      apply passes
      rw [← served.launchesNow_iff]
      refine ⟨isDue, flow, ?_, Bool.eq_false_iff.mpr idle⟩
      rw [getFlow, served.registrations, ← getFlow, sameFlow, getFlow_of_mem known]
  · obtain ⟨isKnown, sameId⟩ := getFlow_mem found
    rw [served.registrations] at isKnown
    rw [flowRuns, added, map_append, map_singleton,
      hasActiveRun_launched path other _ _ _ _ _ isKnown known, ← flowRuns]
    refine or_congr_right ?_
    constructor
    · rintro ⟨rfl, started⟩
      exact ⟨isDue, sameId.symm, started⟩
    · rintro ⟨_, sameFlow, started⟩
      have sameFlow : flow.id = other.id := sameFlow.symm.trans sameId.symm
      exact ⟨inj_on_of_nodup_map db.distinctIds known isKnown sameFlow, started⟩

theorem split_concat {items earlier later : List α} {item last : α}
    (split : items ++ [last] = earlier ++ item :: later) :
    (earlier = items ∧ item = last ∧ later = []) ∨
      ∃ rest, later = rest ++ [last] ∧ items = earlier ++ item :: rest := by
  cases later using List.reverseRecOn with
  | nil =>
    obtain ⟨rfl, same⟩ := append_inj' split rfl
    cases same
    exact .inl ⟨rfl, rfl, rfl⟩
  | append_singleton rest other =>
  rw [← cons_append, ← append_assoc] at split
  obtain ⟨rfl, same⟩ := append_inj' split rfl
  cases same
  exact .inr ⟨rest, rfl, rfl⟩

section

variable (served : Served path due spawn moves value db turns after)
include served

theorem Served.oneMore
    (turn : Turn path spawn (db.LaunchesAt path due spawn turns schedule) cursor after schedule
      next)
    (moved : moves turns schedule → cursor = some (value schedule))
    (unmoved : ¬ moves turns schedule → cursor = none) (isRow : schedule ∈ db.schedules)
    (fresh : schedule ∉ turns) :
    Served path due spawn moves value db (turns ++ [schedule]) next where
  registrations := turn.registrations.trans served.registrations
  tables := turn.tables.trans served.tables
  triggerTables := turn.triggerTables.trans served.triggerTables
  schedules := by
    obtain ⟨cursors, rows, each⟩ := served.schedules
    obtain ⟨change, nextRows, sets⟩ := turn.schedules
    refine ⟨fun row => if row.id = schedule.id then change (cursors row) else cursors row, ?_, ?_⟩
    · rw [nextRows, rows, map_map]
      apply map_congr_left
      intro row _
      rw [Function.comp_apply, FlowSchedule.modifyCursors]
      by_cases same : row.id = schedule.id
      · dsimp only
        rw [if_pos same, if_pos (show (row.withCursors (cursors row)).id = schedule.id from same)]
        rfl
      · dsimp only
        rw [if_neg same, if_neg (show ¬ (row.withCursors (cursors row)).id = schedule.id from same)]
    · intro row mem
      have sameRow : row.id = schedule.id → row = schedule :=
        inj_on_of_nodup_map db.distinctSchedules mem isRow
      obtain ⟨untouched, atTurn⟩ := each row mem
      dsimp only
      constructor
      · intro outside
        rw [mem_append, mem_singleton, not_or] at outside
        rw [if_neg fun same => outside.2 (sameRow same)]
        exact untouched outside.1
      · intro earlier later split
        obtain ⟨rfl, rfl, rfl⟩ | ⟨rest, rfl, rfl⟩ := split_concat split
        · rw [if_pos rfl, sets, untouched fresh]
          exact ⟨fun moves => by rw [moved moves]; rfl, fun stays => by rw [unmoved stays]; rfl⟩
        · rw [if_neg fun same => fresh (by rw [← sameRow same]; simp)]
          exact atTurn earlier rest rfl
  active := by
    intro flow known
    rw [served.active_next turn known, served.active flow known, or_assoc]
    refine or_congr_right ?_
    simp only [mem_append, mem_singleton, or_and_right, exists_or, exists_eq_left]
  kept := by
    intro run mem
    obtain ⟨_, same⟩ | ⟨_, _, _, _, added⟩ := turn.runs
    · rw [same]
      exact served.kept run mem
    · rw [added]
      exact mem_append_left _ (served.kept run mem)
  added := by
    intro run mem
    have before : run ∈ after.runs → run ∈ db.runs ∨ ∃ earlier other later,
        turns ++ [schedule] = earlier ++ other :: later ∧
          db.LaunchesAt path due spawn earlier other ∧
          run.scheduleId = some other.id ∧ run.pid = spawn other.id := by
      intro isEarlier
      refine (served.added run isEarlier).imp_right ?_
      rintro ⟨earlier, other, later, rfl, launch, sameSchedule, samePid⟩
      exact ⟨earlier, other, later ++ [schedule], by simp, launch, sameSchedule, samePid⟩
    obtain ⟨_, same⟩ | ⟨launch, flow, now, _, added⟩ := turn.runs
    · exact before (by rwa [← same])
    · rw [added, mem_append, mem_singleton] at mem
      obtain isEarlier | rfl := mem
      · exact before isEarlier
      · exact .inr ⟨turns, schedule, [], rfl, launch, by simp, by simp⟩
  launched := by
    intro earlier other later split launch
    obtain ⟨rfl, rfl, rfl⟩ | ⟨rest, rfl, rfl⟩ := split_concat split
    · obtain ⟨flow, now, found, added⟩ := turn.launched launch
      refine ⟨_, by rw [added]; exact mem_append_right _ (mem_singleton_self _), ?_⟩
      rw [launchedRun_id, launchedRun_registrationId, launchedRun_scheduleId, launchedRun_pid,
        (getFlow_mem found).2]
      exact ⟨nextRunId_le served.kept, rfl, rfl, rfl⟩
    · obtain ⟨run, mem, details⟩ := served.launched earlier other rest rfl launch
      refine ⟨run, ?_, details⟩
      obtain ⟨_, same⟩ | ⟨_, _, _, _, added⟩ := turn.runs
      · rwa [same]
      · rw [added]
        exact mem_append_left _ mem

theorem Served.enabledOf (others : ∀ row ∈ turns, row.scheduleType ≠ scheduleType) :
    after.enabledOf scheduleType = db.enabledOf scheduleType := by
  obtain ⟨cursors, rows, each⟩ := served.schedules
  rw [Database.enabledOf, Database.enabledOf, rows, filter_map]
  refine (map_congr_left fun row mem => ?_).trans (map_id' _)
  obtain ⟨isRow, isType⟩ := mem_filter.mp mem
  have outside : row ∉ turns := by
    intro inTurns
    have sameType : row.enabled = true ∧ row.scheduleType = scheduleType := by
      simpa [FlowSchedule.withCursors] using isType
    exact others row inTurns sameType.2
  rw [(each row isRow).1 outside]
  rfl

theorem Served.launchedBetween_iff (rows : ∀ row ∈ turns, row ∈ db.schedules)
    (distinct : turns.Nodup) {earlier later : List FlowSchedule}
    (split : turns = earlier ++ row :: later) (cursors : ScheduleCursors) :
    LaunchedBetween db after (row.withCursors cursors) ↔
      db.LaunchesAt path due spawn earlier row ∧ spawn row.id ≠ none := by
  rw [← Option.isSome_iff_ne_none]
  constructor
  · rintro ⟨run, mem, fresh, _, sameSchedule, started⟩
    obtain isOld | ⟨before, schedule, after, otherSplit, launch, scheduleId, pid⟩ :=
      served.added run mem
    · exact absurd (mem_map_of_mem isOld) fresh
    have sameId : schedule.id = row.id := by
      rw [scheduleId] at sameSchedule
      exact Option.some.inj sameSchedule
    have same : schedule = row := inj_on_of_nodup_map db.distinctSchedules
      (rows _ (by rw [otherSplit]; simp)) (rows _ (by rw [split]; simp)) sameId
    subst same
    rw [pid] at started
    have unique := otherSplit.symm.trans split
    have apart : schedule ∉ after ∧ schedule ∉ before := by
      rw [otherSplit, nodup_middle, nodup_cons, mem_append, not_or] at distinct
      exact distinct.1.symm
    obtain ⟨rfl, _⟩ := (append_cons_inj_of_notMem apart.2 apart.1).mp unique
    exact ⟨launch, started⟩
  · rintro ⟨launch, started⟩
    obtain ⟨run, mem, recent, registrationId, scheduleId, pid⟩ :=
      served.launched earlier row later split launch
    refine ⟨run, mem, ?_, registrationId, scheduleId, by rwa [pid]⟩
    intro isOld
    obtain ⟨old, isRun, sameId⟩ := mem_map.mp isOld
    have below := lt_nextRunId isRun
    omega

theorem Served.moved {earlier schedule : FlowSchedule} (isRow : earlier ∈ db.schedules)
    (mem : schedule ∈ after.schedules) (sameId : earlier.id = schedule.id)
    (reached : schedule.lastTriggerTableUpdatedAt = some updated)
    (unseen : laterThan updated earlier.lastTriggerTableUpdatedAt = true) :
    ∃ cursors before later, schedule = earlier.withCursors cursors ∧
      turns = before ++ earlier :: later ∧ moves before earlier ∧ value earlier = some updated := by
  obtain ⟨cursors, rows, each⟩ := served.schedules
  rw [rows] at mem
  obtain ⟨row, inRows, rfl⟩ := mem_map.mp mem
  have same : earlier = row :=
    inj_on_of_nodup_map db.distinctSchedules isRow inRows sameId
  subst same
  obtain ⟨untouched, atTurn⟩ := each earlier isRow
  have changed : earlier.lastTriggerTableUpdatedAt ≠ some updated := by
    intro seen
    rw [seen] at unseen
    simp [laterThan] at unseen
  have reached : (cursors earlier).lastTriggerTableUpdatedAt = some updated := reached
  have hadTurn : earlier ∈ turns := by
    by_contra outside
    rw [untouched outside] at reached
    exact changed reached
  obtain ⟨before, later, split⟩ := append_of_mem hadTurn
  have moved : moves before earlier := by
    by_contra stays
    rw [(atTurn before later split).2 stays] at reached
    exact changed reached
  refine ⟨_, before, later, rfl, split, moved, ?_⟩
  rw [← (atTurn before later split).1 moved]
  exact reached

theorem Served.reaches (isRow : row ∈ db.schedules) {before later : List FlowSchedule}
    (split : turns = before ++ row :: later) (moved : moves before row) :
    ∃ cursors, row.withCursors cursors ∈ after.schedules ∧
      cursors.lastTriggerTableUpdatedAt = value row := by
  obtain ⟨cursors, rows, each⟩ := served.schedules
  refine ⟨cursors row, ?_, ((each row isRow).2 before later split).1 moved⟩
  rw [rows]
  exact mem_map_of_mem isRow

end

end

theorem split_append {first second earlier later : List α} {item : α}
    (split : first ++ second = earlier ++ item :: later) :
    (∃ rest, first = earlier ++ item :: rest ∧ later = rest ++ second) ∨
      ∃ before, earlier = first ++ before ∧ second = before ++ item :: later := by
  obtain ⟨before, rfl, same⟩ | ⟨rest, rfl, same⟩ := append_eq_append_iff.mp split
  · exact .inr ⟨before, rfl, same⟩
  cases rest with
  | nil => exact .inr ⟨[], by simp, by simpa using same.symm⟩
  | cons head rest =>
    rw [cons_append, List.cons.injEq] at same
    obtain ⟨rfl, rfl⟩ := same
    exact .inl ⟨rest, rfl, rfl⟩

theorem unseenUpdate_later {db : Database} {schedule : FlowSchedule}
    (unseen : db.unseenUpdate schedule = some updated) :
    laterThan updated schedule.lastTriggerTableUpdatedAt = true := by
  simp only [unseenUpdate, Option.bind_eq_bind, Option.bind_eq_some_iff] at unseen
  obtain ⟨_, _, _, _, _, _, later⟩ := unseen
  split at later
  case isTrue isLater =>
    cases later
    exact isLater
  case isFalse => cases later

section

variable (croniter : FlowSchedule → Nat → Option Nat) (circumstances : Circumstances)
  {db : Database} {turns : List FlowSchedule}

/-- The rows after the turn of a schedule in a tick. -/
def attended (db : Database) (schedule : FlowSchedule) : Database :=
  (attend croniter circumstances (.opened db) schedule).current

theorem maybeLaunch_current (session : Session Database) (schedule : FlowSchedule) :
    (maybeLaunch circumstances session schedule).1.current =
        (maybeLaunch circumstances (.opened session.current) schedule).1.current ∧
      (maybeLaunch circumstances session schedule).2 =
        (maybeLaunch circumstances (.opened session.current) schedule).2 := by
  by_cases launches : ∃ flow, session.current.getFlow schedule.registrationId = some flow ∧
    hasActiveRunOfRegistration session.current.flowRuns flow = false
  · obtain ⟨flow, found, idle⟩ := launches
    rw [maybeLaunch_launched circumstances found idle,
      @maybeLaunch_launched circumstances (.opened session.current) schedule flow found idle]
    exact ⟨rfl, rfl⟩
  · have busy : ∀ flow, session.current.getFlow schedule.registrationId = some flow →
        hasActiveRunOfRegistration session.current.flowRuns flow = true := by
      intro flow found
      by_contra idle
      exact launches ⟨flow, found, Bool.eq_false_iff.mpr idle⟩
    rw [maybeLaunch_passed circumstances busy,
      @maybeLaunch_passed circumstances (.opened session.current) schedule busy]
    exact ⟨rfl, rfl⟩

/-- A turn depends on the rows of the session alone. -/
theorem attend_current (session : Session Database) (schedule : FlowSchedule) :
    (attend croniter circumstances session schedule).current =
      attended croniter circumstances session.current schedule := by
  have plain := maybeLaunch_current circumstances session schedule
  rw [attended, attend, attend]
  cases schedule.scheduleType with
  | interval =>
    dsimp only
    rw [attendInterval, attendInterval]
    split
    · exact plain.1
    · rfl
  | cron =>
    dsimp only
    rw [attendCron, attendCron]
    split
    · rfl
    · cases result : maybeLaunch circumstances session schedule with
      | mk launched started =>
        cases fresh : maybeLaunch circumstances (.opened session.current) schedule with
        | mk launchedFresh startedFresh =>
          rw [result, fresh] at plain
          obtain ⟨same, rfl⟩ := plain
          cases started with
          | true => exact congrArg (Database.modifyCursors · schedule.id _) same
          | false => exact same
  | tableTrigger =>
    dsimp only
    rw [attendTableTrigger, attendTableTrigger]
    dsimp only [Session.opened]
    split
    · rfl
    case h_2 updated _ =>
      let moved := fun db : Database => db.moveCursor schedule.id (some updated)
      exact (maybeLaunch_current circumstances (session.modify moved) schedule).1.trans
        (maybeLaunch_current circumstances ((Session.opened session.current).modify moved)
          schedule).1.symm
  | tableSetTrigger =>
    dsimp only
    rw [attendTableSetTrigger, attendTableSetTrigger]
    by_cases due : session.current.setUpdated schedule = true
    · rw [if_pos due,
        if_pos (show (Session.opened session.current).current.setUpdated schedule = true from due)]
      exact plain.1
    · have undue : ¬ (Session.opened session.current).current.setUpdated schedule = true := due
      rw [if_neg due, if_neg undue]
      rfl

/-- The turns of a tick store everything or nothing. -/
theorem attend_batched : Batched (attend croniter circumstances) (attended croniter circumstances)
    fun db schedule =>
      db.LaunchesNow .schedulerTick (db.isDue croniter circumstances) schedule where
  current := attend_current croniter circumstances
  stored := fun session schedule launch => by
    rw [(attend_spec croniter circumstances).stored launch, attend_current]
  unstored := fun session schedule passes =>
    (attend_spec croniter circumstances).unstored passes

theorem isDue_congr {after : Database} (tables : after.tables = db.tables)
    (triggerTables : after.triggerTables = db.triggerTables) :
    after.isDue croniter circumstances = db.isDue croniter circumstances ∧
      after.unseenUpdate = db.unseenUpdate := by
  have sameTable : after.getTable = db.getTable := by
    funext tableId
    rw [getTable, getTable, tables]
  have sameUpdate : after.unseenUpdate = db.unseenUpdate := by
    funext schedule
    rw [unseenUpdate, unseenUpdate, sameTable]
  refine ⟨?_, sameUpdate⟩
  funext schedule
  rw [Database.isDue, Database.isDue, sameUpdate, setUpdated, setUpdated, sameTable, triggerTables]

abbrev TickServed (db : Database) (turns : List FlowSchedule) (after : Database) : Prop :=
  Served .schedulerTick (db.isDue croniter circumstances) circumstances.spawn
    (fun _ row => row.scheduleType = .tableTrigger ∧ (db.unseenUpdate row).isSome)
    db.unseenUpdate db turns after

theorem tick_served (rows : ∀ row ∈ turns, row ∈ db.schedules) (distinct : turns.Nodup) :
    TickServed croniter circumstances db turns
      (turns.foldl (attended croniter circumstances) db) := by
  induction turns using List.reverseRecOn with
  | nil => exact .start
  | append_singleton turns schedule ih =>
    have served := ih (fun row mem => rows row (mem_append_left _ mem))
      (nodup_append.mp distinct).1
    have fresh : schedule ∉ turns := fun mem =>
      (nodup_append.mp distinct).2.2 schedule mem schedule (mem_singleton_self _) rfl
    rw [foldl_append, foldl_cons, foldl_nil]
    have spec := @attend_spec croniter circumstances
      (.opened (turns.foldl (attended croniter circumstances) db)) schedule
    obtain ⟨sameDue, sameUpdate⟩ := isDue_congr croniter circumstances served.tables
      served.triggerTables
    have turn := spec.turn
    dsimp only [Session.opened] at turn
    rw [sameDue] at turn
    have launches := propext (@Served.launchesNow_iff _ _ _ _ _ _ _ _ schedule served)
    rw [launches] at turn
    refine served.oneMore turn ?_ ?_ (rows schedule (by simp)) fresh
    · rintro ⟨isType, found⟩
      rw [Database.tickCursor, if_pos isType, sameUpdate]
      obtain ⟨updated, unseen⟩ := Option.isSome_iff_exists.mp found
      rw [unseen]
      rfl
    · intro stays
      rw [Database.tickCursor, sameUpdate]
      split
      case isTrue isType =>
        have seen : db.unseenUpdate schedule = none := by
          rw [← Option.not_isSome_iff_eq_none]
          exact fun found => stays ⟨isType, found⟩
        rw [seen]
        rfl
      case isFalse => rfl

theorem processSchedules_eq {scheduleType : ScheduleType}
    {attendType : Session Database → FlowSchedule → Session Database}
    (same : ∀ session schedule, schedule.scheduleType = scheduleType →
      attendType session schedule = attend croniter circumstances session schedule)
    (rows : ∀ row ∈ turns, row ∈ db.schedules) (distinct : turns.Nodup)
    (others : ∀ row ∈ turns, row.scheduleType ≠ scheduleType) :
    processSchedules scheduleType attendType
        (turns.foldl (attend croniter circumstances) (.opened db)) =
      (turns ++ db.enabledOf scheduleType).foldl (attend croniter circumstances) (.opened db) := by
  have served := tick_served croniter circumstances rows distinct
  rw [processSchedules, (attend_batched croniter circumstances).foldl_current, foldl_append]
  have unchanged := served.enabledOf others
  dsimp only [Session.opened]
  rw [unchanged]
  apply foldl_ext
  intro session row mem
  have isType := (mem_filter.mp mem).2
  rw [Bool.and_eq_true, decide_eq_true_eq] at isType
  exact same session row isType.2

theorem mem_enabledOf : row ∈ db.enabledOf scheduleType ↔
      row ∈ db.schedules ∧ row.enabled = true ∧ row.scheduleType = scheduleType := by
  rw [Database.enabledOf, mem_filter, Bool.and_eq_true, decide_eq_true_eq]

theorem nodup_enabledOf (db : Database) (scheduleType : ScheduleType) :
    (db.enabledOf scheduleType).Nodup :=
  (List.Nodup.of_map _ db.distinctSchedules).filter _

theorem disjoint_enabledOf {first second : ScheduleType} (different : first ≠ second) :
    (db.enabledOf first).Disjoint (db.enabledOf second) := by
  intro row inFirst inSecond
  exact different ((mem_enabledOf.mp inFirst).2.2.symm.trans (mem_enabledOf.mp inSecond).2.2)

theorem tickOrder_nodup (db : Database) : db.tickOrder.Nodup := by
  rw [tickOrder]
  have timed : (db.enabledOf .interval ++ db.enabledOf .cron).Nodup :=
    (nodup_enabledOf db _).append (nodup_enabledOf db _) (disjoint_enabledOf nofun)
  refine (timed.append (nodup_enabledOf db _) ?_).append (nodup_enabledOf db _) ?_
  · rw [disjoint_append_left]
    exact ⟨disjoint_enabledOf nofun, disjoint_enabledOf nofun⟩
  · rw [disjoint_append_left, disjoint_append_left]
    exact ⟨⟨disjoint_enabledOf nofun, disjoint_enabledOf nofun⟩, disjoint_enabledOf nofun⟩

theorem tickOrder_rows {row : FlowSchedule} (mem : row ∈ db.tickOrder) : row ∈ db.schedules := by
  simp only [tickOrder, mem_append, mem_enabledOf] at mem
  obtain ((mem | mem) | mem) | mem := mem <;> exact mem.1

theorem tickOrder_enabled {row : FlowSchedule} (mem : row ∈ db.tickOrder) : row.enabled = true := by
  simp only [tickOrder, mem_append, mem_enabledOf] at mem
  obtain ((mem | mem) | mem) | mem := mem <;> exact mem.2.1

theorem tick_eq : db.tick croniter circumstances =
    (db.tickOrder.foldl (attend croniter circumstances) (.opened db)).close := by
  have order := tickOrder_nodup db
  rw [tickOrder] at order
  have rows := fun row => @tickOrder_rows db row
  simp only [tickOrder, mem_append] at rows
  have intervals := @processSchedules_eq croniter circumstances db [] .interval
    (attendInterval circumstances)
    (fun session schedule isType => by rw [attend, isType])
    (fun row mem => absurd mem not_mem_nil) nodup_nil
    (fun row mem => absurd mem not_mem_nil)
  have crons := @processSchedules_eq croniter circumstances db (db.enabledOf .interval) .cron
    (attendCron croniter circumstances)
    (fun session schedule isType => by rw [attend, isType])
    (fun row mem => rows row (.inl (.inl (.inl mem)))) (nodup_enabledOf db _)
    (fun row mem => by rw [(mem_enabledOf.mp mem).2.2]; nofun)
  have tables := @processSchedules_eq croniter circumstances db
    (db.enabledOf .interval ++ db.enabledOf .cron) .tableTrigger
    (attendTableTrigger circumstances)
    (fun session schedule isType => by rw [attend, isType])
    (fun row mem => rows row (.inl (.inl (mem_append.mp mem))))
    (nodup_append.mp (nodup_append.mp order).1).1
    (fun row mem => by
      obtain mem | mem := mem_append.mp mem <;>
        rw [(mem_enabledOf.mp mem).2.2] <;> nofun)
  have sets := @processSchedules_eq croniter circumstances db
    (db.enabledOf .interval ++ db.enabledOf .cron ++ db.enabledOf .tableTrigger) .tableSetTrigger
    (attendTableSetTrigger circumstances)
    (fun session schedule isType => by rw [attend, isType])
    (fun row mem => rows row (.inl (by rwa [mem_append, mem_append] at mem)))
    (nodup_append.mp order).1
    (fun row mem => by
      rw [mem_append, mem_append] at mem
      obtain (mem | mem) | mem := mem <;>
        rw [(mem_enabledOf.mp mem).2.2] <;> nofun)
  rw [foldl_nil, nil_append] at intervals
  rw [Database.tick]
  dsimp only [processIntervalSchedules, processCronSchedules, processTableTriggerSchedules,
    processTableSetTriggerSchedules]
  rw [intervals, crons, tables, sets]
  rfl

theorem tick_prefix_served {turns rest : List FlowSchedule} (order : db.tickOrder = turns ++ rest) :
    TickServed croniter circumstances db turns
      (turns.foldl (attended croniter circumstances) db) := by
  have distinct := tickOrder_nodup db
  rw [order] at distinct
  refine tick_served croniter circumstances (fun row mem => tickOrder_rows ?_)
    (nodup_append.mp distinct).1
  rw [order]
  exact mem_append_left _ mem

/-- A tick loses no update exactly when it launches each schedule that it finds an update for, or
passes it over and launches none after it. -/
theorem noneLost_tick : NoneLost db (db.tick croniter circumstances) ↔
    db.Serves croniter (.tick circumstances) := by
  obtain ⟨written, dropped, order, closed, ends, quiet⟩ :=
    (attend_batched croniter circumstances).foldl_committed db db.tickOrder
  have served := tick_prefix_served croniter circumstances order
  have distinct := tickOrder_nodup db
  have rows := fun row => @tickOrder_rows db row
  rw [order] at distinct rows
  have launches : ∀ before item later, written ++ dropped = before ++ item :: later →
      ((before.foldl (attended croniter circumstances) db).LaunchesNow .schedulerTick
          ((before.foldl (attended croniter circumstances) db).isDue croniter circumstances) item ↔
        db.LaunchesAt .schedulerTick (db.isDue croniter circumstances) circumstances.spawn before
          item) := by
    intro before item later split
    have prior := tick_prefix_served croniter circumstances (order.trans split)
    rw [(isDue_congr croniter circumstances prior.tables prior.triggerTables).1]
    exact prior.launchesNow_iff
  rw [tick_eq, closed, Database.Serves, order]
  constructor
  · intro lossless earlier schedule later split isType found
    obtain ⟨rest, inWritten, rfl⟩ | ⟨before, rfl, inDropped⟩ := split_append split
    · obtain ⟨updated, unseen⟩ := Option.isSome_iff_exists.mp found
      have isRow : schedule ∈ db.schedules := rows schedule (by rw [split]; simp)
      have enabled := @tickOrder_enabled db schedule (by rw [order, split]; simp)
      obtain ⟨cursors, mem, reached⟩ := served.reaches isRow inWritten ⟨isType, found⟩
      have launched := lossless schedule isRow _ mem rfl enabled isType updated
        (reached.trans unseen) (unseenUpdate_later unseen)
      rw [served.launchedBetween_iff (fun row mem => rows row (mem_append_left _ mem))
        (nodup_append.mp distinct).1 inWritten] at launched
      exact ⟨fun _ => launched.2, fun passes => absurd launched.1 passes⟩
    · have passes : ∀ between item rest, dropped = between ++ item :: rest →
          ¬ db.LaunchesAt .schedulerTick (db.isDue croniter circumstances) circumstances.spawn
            (written ++ between) item := by
        intro between item rest isDropped launch
        refine quiet between item rest isDropped ?_
        rw [← foldl_append]
        exact (launches (written ++ between) item rest (by rw [isDropped, append_assoc])).mpr
          launch
      refine ⟨fun launch => absurd launch (passes before schedule later inDropped), ?_⟩
      rintro _ between other rest rfl
      rw [append_assoc]
      exact passes (before ++ schedule :: between) other rest (by rw [inDropped]; simp)
  · intro serves earlier isRow schedule mem sameId enabled isType updated reached unseen
    obtain ⟨cursors, before, later, rfl, split, ⟨isTrigger, found⟩, _⟩ :=
      served.moved isRow mem sameId reached unseen
    rw [served.launchedBetween_iff (fun row mem => rows row (mem_append_left _ mem))
      (nodup_append.mp distinct).1 split]
    have position : written ++ dropped = before ++ earlier :: (later ++ dropped) := by
      rw [split]
      simp
    obtain ⟨starts, silent⟩ := serves before earlier (later ++ dropped) position isTrigger found
    by_cases launch : db.LaunchesAt .schedulerTick (db.isDue croniter circumstances)
      circumstances.spawn before earlier
    · exact ⟨launch, starts launch⟩
    exfalso
    cases later using List.reverseRecOn with
    | nil =>
      exact launch ((launches before earlier _ position).mp (ends before earlier split))
    | append_singleton later last =>
    have lastSplit : written = (before ++ earlier :: later) ++ [last] := by
      rw [split]
      simp
    have lastLaunches := (launches (before ++ earlier :: later) last dropped
      (by rw [lastSplit]; simp)).mp (ends _ _ lastSplit)
    exact silent launch later last dropped (by simp) lastLaunches

end

variable {tableId : Nat} {table : CatalogTable}

section

variable {db : Database} (circumstances : Circumstances)

theorem push_served (tableUpdatedAt : Option Nat) {turns : List FlowSchedule}
    (rows : ∀ row ∈ turns, row ∈ db.schedules) (distinct : turns.Nodup) :
    Served .pushTrigger (fun _ => true) circumstances.spawn
      (db.LaunchesAt .pushTrigger (fun _ => true) circumstances.spawn) (fun _ => tableUpdatedAt) db
      turns (turns.foldl (fireSchedule circumstances tableUpdatedAt) db) := by
  induction turns using List.reverseRecOn with
  | nil => exact .start
  | append_singleton turns schedule ih =>
    have served := ih (fun row mem => rows row (mem_append_left _ mem))
      (nodup_append.mp distinct).1
    have fresh : schedule ∉ turns := fun mem =>
      (nodup_append.mp distinct).2.2 schedule mem schedule (mem_singleton_self _) rfl
    rw [foldl_append, foldl_cons, foldl_nil]
    obtain ⟨cursor, turn, moved, unmoved⟩ := fireSchedule_spec circumstances tableUpdatedAt
      (turns.foldl (fireSchedule circumstances tableUpdatedAt) db) schedule
    have launches := propext (@Served.launchesNow_iff _ _ _ _ _ _ _ _ schedule served)
    rw [launches] at turn moved unmoved
    exact served.oneMore turn moved unmoved (rows schedule (by simp)) fresh

theorem unseenUpdate_watched {schedule : FlowSchedule}
    (watches : schedule.triggerTableId = some tableId) (found : db.getTable tableId = some table)
    (updated : Nat) : db.unseenUpdate schedule = some updated ↔ table.updatedAt = some updated ∧
        laterThan updated schedule.lastTriggerTableUpdatedAt = true := by
  simp only [unseenUpdate, watches, found, Option.bind_eq_bind, Option.bind_some]
  cases isUpdated : table.updatedAt with
  | none => simp
  | some time =>
  rw [Option.bind_some]
  split
  case isTrue isLater =>
    constructor
    · intro same
      cases same
      exact ⟨rfl, isLater⟩
    · rintro ⟨same, _⟩
      exact same
  case isFalse notLater =>
    constructor
    · intro same
      cases same
    · rintro ⟨same, isLater⟩
      cases same
      exact absurd isLater notLater

theorem noneLost_push {croniter : FlowSchedule → Nat → Option Nat}
    (isTable : db.getTable tableId = some table) :
    NoneLost db (fireTableTriggerSchedules circumstances tableId table.updatedAt db) ↔
      db.Serves croniter (.push tableId circumstances) := by
  have watchers : ∀ row ∈ db.listTableTriggerSchedulesForTable tableId,
      (row ∈ db.schedules ∧ row.enabled = true ∧ row.scheduleType = .tableTrigger) ∧
        row.triggerTableId = some tableId := by
    intro row mem
    obtain ⟨isEnabled, watches⟩ := mem_filter.mp mem
    exact ⟨mem_enabledOf.mp isEnabled, of_decide_eq_true watches⟩
  have rows := fun row mem => (watchers row mem).1.1
  have distinct : (db.listTableTriggerSchedulesForTable tableId).Nodup :=
    (nodup_enabledOf db _).filter _
  have served := push_served circumstances table.updatedAt rows distinct
  rw [Database.Serves, fireTableTriggerSchedules]
  constructor
  · intro lossless earlier schedule later split found launch
    obtain ⟨⟨isRow, enabled, isType⟩, watches⟩ := watchers schedule (by rw [split]; simp)
    obtain ⟨updated, unseen⟩ := Option.isSome_iff_exists.mp found
    obtain ⟨isUpdated, isLater⟩ := (unseenUpdate_watched watches isTable updated).mp unseen
    obtain ⟨cursors, mem, reached⟩ := served.reaches isRow split launch
    have launched := lossless schedule isRow _ mem rfl enabled isType updated
      (reached.trans isUpdated) isLater
    rw [served.launchedBetween_iff rows distinct split] at launched
    exact launched.2
  · intro serves earlier isRow schedule mem sameId enabled isType updated reached unseen
    obtain ⟨cursors, before, later, rfl, split, launch, isUpdated⟩ :=
      served.moved isRow mem sameId reached unseen
    rw [served.launchedBetween_iff rows distinct split]
    obtain ⟨_, watches⟩ := watchers earlier (by rw [split]; simp)
    refine ⟨launch, serves before earlier later split ?_ launch⟩
    rw [(unseenUpdate_watched watches isTable updated).mpr ⟨isUpdated, unseen⟩]
    rfl

end

section

variable {croniter : FlowSchedule → Nat → Option Nat} {db after : Database}

theorem noneLost_of_schedules (same : after.schedules = db.schedules) : NoneLost db after := by
  intro earlier isRow schedule mem sameId _ _ updated reached unseen
  rw [same] at mem
  have sameRow : earlier = schedule :=
    inj_on_of_nodup_map db.distinctSchedules isRow mem sameId
  rw [sameRow, reached] at unseen
  simp [laterThan] at unseen

theorem getTable_updateTable (tableId now : Nat) : (db.updateTable tableId now).getTable tableId =
    (db.getTable tableId).map fun table => { table with updatedAt := some now } := by
  rw [getTable, Database.updateTable, List.find?_map, getTable]
  have sameTest : ((fun table : CatalogTable => decide (table.id = tableId)) ∘ fun table =>
      if table.id = tableId then { table with updatedAt := some now } else table) =
        fun table => decide (table.id = tableId) := by
    funext table
    rw [Function.comp_apply]
    split <;> rfl
  rw [sameTest]
  cases found : db.tables.find? fun table => decide (table.id = tableId) with
  | none => rfl
  | some table =>
    have sameId : table.id = tableId := by simpa using List.find?_some found
    rw [Option.map_some, Option.map_some, if_pos sameId]

theorem keeps_iff_serves (db : Database) (event : TriggerEvent) :
    db.Keeps croniter event ↔ db.Serves croniter event := by
  rw [Database.Keeps]
  cases event with
  | tick circumstances =>
    rw [step, noneLost_tick]
    exact and_iff_left nofun
  | finish runId now success =>
    exact iff_of_true ⟨noneLost_of_schedules rfl, nofun⟩ trivial
  | push tableId circumstances =>
    refine (and_iff_left nofun).trans ?_
    rw [step]
    cases isTable : db.getTable tableId with
    | some table => exact noneLost_push circumstances isTable
    | none =>
    refine iff_of_true (noneLost_of_schedules rfl) ?_
    intro earlier schedule later split found
    have mem : schedule ∈ db.listTableTriggerSchedulesForTable tableId := by
      rw [split]
      simp
    have watches := of_decide_eq_true (mem_filter.mp mem).2
    rw [unseenUpdate, watches] at found
    simp [isTable] at found
  | updateTable tableId now =>
    refine (and_iff_right (noneLost_of_schedules rfl)).trans ?_
    rw [step, Database.Serves]
    have found : ∀ schedule : FlowSchedule, schedule.triggerTableId = some tableId →
        ((db.updateTable tableId now).unseenUpdate schedule = some now ↔
          (db.getTable tableId).isSome ∧ laterThan now schedule.lastTriggerTableUpdatedAt) := by
      intro schedule watches
      have updated := @getTable_updateTable db tableId now
      cases isTable : db.getTable tableId with
      | none =>
        rw [isTable] at updated
        simp [unseenUpdate, watches, updated]
      | some table =>
        rw [isTable] at updated
        rw [unseenUpdate_watched watches updated]
        simp
    constructor
    · intro kept schedule mem enabled isType watches
      exact (found schedule watches).mp
        (kept tableId now rfl schedule mem enabled isType watches)
    · rintro later _ _ ⟨⟩ schedule mem enabled isType watches
      exact (found schedule watches).mpr (later schedule mem enabled isType watches)

end

structure Continues (before after : Database) : Prop where
  schedules : ∃ cursors : FlowSchedule → ScheduleCursors,
    after.schedules = before.schedules.map fun row => row.withCursors (cursors row)
  runs : ∀ run ∈ before.runs, ∃ later ∈ after.runs, later.id = run.id ∧
    later.registrationId = run.registrationId ∧ later.scheduleId = run.scheduleId ∧
      later.pid = run.pid

variable {cursors : ScheduleCursors}

section

variable {croniter : FlowSchedule → Nat → Option Nat} {start before db after : Database}
  {schedule : FlowSchedule} {now : Nat}

theorem Served.continues {path : LaunchPath} {due : FlowSchedule → Bool}
    {spawn : Nat → Option Nat} {moves : List FlowSchedule → FlowSchedule → Prop}
    {value : FlowSchedule → Option Nat} {turns : List FlowSchedule}
    (served : Served path due spawn moves value db turns after) : Continues db after := by
  obtain ⟨cursors, rows, _⟩ := served.schedules
  exact ⟨⟨cursors, rows⟩, fun run mem => ⟨run, served.kept run mem, rfl, rfl, rfl, rfl⟩⟩

/-- No change. -/
theorem Continues.refl (db : Database) : Continues db db :=
  ⟨⟨FlowSchedule.toScheduleCursors, (map_id' _).symm⟩,
    fun run mem => ⟨run, mem, rfl, rfl, rfl, rfl⟩⟩

/-- One change after the other. -/
theorem Continues.trans (first : Continues before db) (second : Continues db after) :
    Continues before after where
  schedules := by
    obtain ⟨cursors, rows⟩ := first.schedules
    obtain ⟨laterCursors, laterRows⟩ := second.schedules
    refine ⟨fun row => laterCursors (row.withCursors (cursors row)), ?_⟩
    rw [laterRows, rows, map_map]
    rfl
  runs := by
    intro run mem
    obtain ⟨middle, inMiddle, sameId, sameFlow, sameSchedule, samePid⟩ := first.runs run mem
    obtain ⟨later, inLater, nextId, nextFlow, nextSchedule, nextPid⟩ := second.runs middle inMiddle
    exact ⟨later, inLater, nextId.trans sameId, nextFlow.trans sameFlow,
      nextSchedule.trans sameSchedule, nextPid.trans samePid⟩

theorem step_continues (event : TriggerEvent) : Continues db (db.step croniter event) := by
  cases event with
  | tick circumstances =>
    obtain ⟨written, dropped, order, closed, _, _⟩ :=
      (attend_batched croniter circumstances).foldl_committed db db.tickOrder
    rw [step, tick_eq, closed]
    exact (tick_prefix_served croniter circumstances order).continues
  | push tableId circumstances =>
    rw [step]
    cases db.getTable tableId with
    | none => exact .refl db
    | some table =>
    have rows : ∀ row ∈ db.listTableTriggerSchedulesForTable tableId, row ∈ db.schedules :=
      fun row mem => (mem_enabledOf.mp (mem_filter.mp mem).1).1
    exact (push_served circumstances table.updatedAt rows
      ((nodup_enabledOf db _).filter _)).continues
  | updateTable tableId now => exact ⟨(Continues.refl db).schedules, (Continues.refl db).runs⟩
  | finish runId now success =>
    refine ⟨(Continues.refl db).schedules, fun run mem => ?_⟩
    refine ⟨_, mem_map_of_mem mem, ?_⟩
    dsimp only
    split <;> exact ⟨rfl, rfl, rfl, rfl⟩

theorem LaunchedBetween.later (launched : LaunchedBetween before db schedule)
    (continues : Continues db after) (cursors : ScheduleCursors) :
    LaunchedBetween before after (schedule.withCursors cursors) := by
  obtain ⟨run, mem, fresh, ofFlow, ofSchedule, started⟩ := launched
  obtain ⟨later, isRun, sameId, sameFlow, sameSchedule, samePid⟩ := continues.runs run mem
  exact ⟨later, isRun, by rwa [sameId], sameFlow.trans ofFlow, sameSchedule.trans ofSchedule,
    by rwa [samePid]⟩

theorem LaunchedBetween.earlier (launched : LaunchedBetween db after schedule)
    (continues : Continues before db) : LaunchedBetween before after schedule := by
  obtain ⟨run, mem, fresh, details⟩ := launched
  refine ⟨run, mem, fun isOld => fresh ?_, details⟩
  obtain ⟨old, isRun, sameId⟩ := mem_map.mp isOld
  obtain ⟨later, isLater, laterId, _⟩ := continues.runs old isRun
  exact mem_map.mpr ⟨later, isLater, laterId.trans sameId⟩

def PendingOrLaunched (before : Database) (now : Nat) (row : FlowSchedule) (db : Database) : Prop :=
  laterThan now row.lastTriggerTableUpdatedAt = true ∨ LaunchedBetween before db row

theorem pendingOrLaunched_step {event : TriggerEvent} (kept : db.Keeps croniter event)
    (continues : Continues before db) (enabled : schedule.enabled = true)
    (isType : schedule.scheduleType = .tableTrigger)
    (isRow : schedule.withCursors cursors ∈ db.schedules)
    (earlier : PendingOrLaunched before now (schedule.withCursors cursors) db)
    {laterCursors : ScheduleCursors}
    (isLater : schedule.withCursors laterCursors ∈ (db.step croniter event).schedules) :
    PendingOrLaunched before now (schedule.withCursors laterCursors) (db.step croniter event) := by
  obtain pending | launched := earlier
  · by_cases stays : laterThan now laterCursors.lastTriggerTableUpdatedAt = true
    · exact .inl stays
    right
    cases reached : laterCursors.lastTriggerTableUpdatedAt with
    | none =>
      rw [reached] at stays
      exact absurd rfl stays
    | some updated =>
    have passed : now ≤ updated := by
      rw [reached] at stays
      simpa [laterThan] using stays
    have unseen : laterThan updated cursors.lastTriggerTableUpdatedAt = true := by
      have pending : laterThan now cursors.lastTriggerTableUpdatedAt = true := pending
      cases seen : cursors.lastTriggerTableUpdatedAt with
      | none => rfl
      | some time =>
        rw [seen] at pending
        have below : time < now := by simpa [laterThan] using pending
        simpa [laterThan] using Nat.lt_of_lt_of_le below passed
    exact (kept.1 _ isRow _ isLater rfl enabled isType updated reached unseen).earlier continues
  · exact .inr (launched.later (step_continues event) laterCursors)

theorem pendingOrLaunched_run {events : List TriggerEvent}
    (kept : EachStep (step croniter) (Database.Keeps croniter) db events)
    (continues : Continues before db) (enabled : schedule.enabled = true)
    (isType : schedule.scheduleType = .tableTrigger)
    (isRow : schedule.withCursors cursors ∈ db.schedules)
    (earlier : PendingOrLaunched before now (schedule.withCursors cursors) db)
    (mem : row ∈ (events.foldl (step croniter) db).schedules) (sameId : row.id = schedule.id) :
    PendingOrLaunched before now row (events.foldl (step croniter) db) := by
  induction events generalizing db cursors with
  | nil =>
    have same : row = schedule.withCursors cursors :=
      inj_on_of_nodup_map db.distinctSchedules mem isRow sameId
    rw [same]
    exact earlier
  | cons event rest ih =>
    obtain ⟨laterCursors, rows⟩ := (@step_continues croniter db event).schedules
    have isLater : schedule.withCursors (laterCursors (schedule.withCursors cursors)) ∈
        (db.step croniter event).schedules := by
      rw [rows]
      exact mem_map.mpr ⟨_, isRow, rfl⟩
    exact ih kept.2 (continues.trans (step_continues event)) isLater
      (pendingOrLaunched_step kept.1 continues enabled isType isRow earlier isLater) mem

end

/-- Along every run each step keeps all updates exactly if it serves the schedules; and then every
update of a table is, for each enabled schedule that watches it, followed by a launch of its flow or
still pending. -/
theorem updates_kept (croniter : FlowSchedule → Nat → Option Nat) (start : Database)
    (events : List TriggerEvent) :
    (EachStep (step croniter) (Database.Keeps croniter) start events ↔
      EachStep (step croniter) (Database.Serves croniter) start events) ∧
    (EachStep (step croniter) (Database.Serves croniter) start events →
      ∀ earlier tableId now later, events = earlier ++ .updateTable tableId now :: later →
        let before := earlier.foldl (step croniter) start
        let after := events.foldl (step croniter) start
        ∀ schedule ∈ before.schedules, schedule.enabled = true →
          schedule.scheduleType = .tableTrigger → schedule.triggerTableId = some tableId →
          ∀ row ∈ after.schedules, row.id = schedule.id →
            PendingOrLaunched before now row after) := by
  have same : EachStep (step croniter) (Database.Keeps croniter) start events ↔
      EachStep (step croniter) (Database.Serves croniter) start events :=
    ⟨fun kept => kept.mono fun _ _ => (keeps_iff_serves _ _).mp,
      fun served => served.mono fun _ _ => (keeps_iff_serves _ _).mpr⟩
  refine ⟨same, ?_⟩
  rintro served earlier tableId now later rfl before after schedule isRow enabled isType watches row
    mem sameId
  have kept := (same.mpr served).drop
  have unseen := (served.drop.1 schedule isRow enabled isType watches).2
  have reached : after = (TriggerEvent.updateTable tableId now :: later).foldl
      (step croniter) before := foldl_append
  rw [reached] at mem ⊢
  exact pendingOrLaunched_run kept (.refl before) enabled isType isRow (.inl unseen) mem sameId

def watching (flow : Nat) : FlowSchedule :=
  ⟨⟨none, none, none⟩, flow, flow, true, .tableTrigger, none, none, none, some flow, 0⟩

def twoWatching (runs : List ScheduledRun) : Database where
  registrations := [⟨1, "3f2a"⟩, ⟨2, "77c1"⟩]
  distinctIds := by decide
  distinctUuids := by decide
  schedules := [watching 1, watching 2]
  distinctSchedules := by decide
  tables := [⟨1, some 0⟩, ⟨2, some 0⟩]
  triggerTables := []
  runs := runs

/-- Every process starts. -/
def allStart : Circumstances :=
  ⟨fun _ => 20, some⟩

theorem serves_tick_of_idle {croniter : FlowSchedule → Nat → Option Nat} {db : Database}
    {circumstances : Circumstances}
    (idle : ∀ row ∈ db.tickOrder, (db.getFlow row.registrationId).any fun flow =>
      !hasActiveRunOfRegistration db.flowRuns flow)
    (apart : (db.tickOrder.map (·.registrationId)).Nodup)
    (starts : ∀ row ∈ db.tickOrder, circumstances.spawn row.id ≠ none) :
    db.Serves croniter (.tick circumstances) := by
  intro earlier schedule later order isType found
  have mem : schedule ∈ db.tickOrder := by
    rw [order]
    simp
  refine ⟨fun _ => starts schedule mem, fun passes => absurd ?_ passes⟩
  obtain ⟨flow, isFlow, noRun⟩ := (Option.any_eq_true _ _).mp (idle schedule mem)
  refine ⟨?_, flow, isFlow, by simpa [LaunchPath.hasActiveRun] using noRun,
    fun other isEarlier _ sameFlow => ?_⟩
  · rw [Database.isDue, isType]
    exact found
  · have distinct := nodup_middle.mp (by rwa [order, map_append, map_cons] at apart)
    rw [nodup_cons, mem_append, not_or] at distinct
    exact absurd (mem_map.mpr ⟨other, isEarlier, sameFlow⟩) distinct.1.1

/-- Two updates of a table: the first is found by a tick, the second is pushed after the run of the
first has ended. -/
def twoUpdates : List TriggerEvent :=
  [.updateTable 1 10, .tick allStart, .finish 1 25 true, .updateTable 1 30, .push 1 allStart]

/-- Both updates are followed by launches. -/
theorem twoUpdates_kept : EachStep (step fun _ _ => none)
    (Database.Keeps fun _ _ => none) (twoWatching []) twoUpdates := by
  refine (updates_kept (fun _ _ => none) (twoWatching []) twoUpdates).1.mpr
    ⟨?_, ?_, trivial, ?_, ?_, trivial⟩
  · show ∀ schedule ∈ _, _
    decide +kernel
  · exact serves_tick_of_idle (by decide +kernel) (by decide +kernel) (by decide +kernel)
  · show ∀ schedule ∈ _, _
    decide +kernel
  · intro earlier schedule later _ _ _
    nofun

/-- The first schedule is passed over, since its flow runs, and the launch of the second one stores
its cursor. In a second run no process starts. In a third one a table gets new data twice at the
same time, while the run that the first update launched is active. -/
theorem twoWatching_lost : (¬ EachStep (step fun _ _ => none) (Database.Keeps fun _ _ => none)
      (twoWatching [⟨(PendingLaunch.mk .runNow ⟨1, "3f2a"⟩).run 1 5, none, some 7, none⟩])
      [.updateTable 1 10, .updateTable 2 10, .tick allStart]) ∧
    (¬ EachStep (step fun _ _ => none) (Database.Keeps fun _ _ => none) (twoWatching [])
      [.updateTable 1 10, .tick ⟨fun _ => 20, fun _ => none⟩]) ∧
    (¬ EachStep (step fun _ _ => none) (Database.Keeps fun _ _ => none) (twoWatching [])
      [.updateTable 1 10, .push 1 ⟨fun _ => 20, fun _ => none⟩]) ∧
    ¬ EachStep (step fun _ _ => none) (Database.Keeps fun _ _ => none) (twoWatching [])
      [.updateTable 1 10, .push 1 allStart, .updateTable 1 10] := by
  refine ⟨?_, ?_, ?_, ?_⟩
  · rintro ⟨_, _, ⟨kept, _⟩, _⟩
    have launched := kept (watching 1) (by decide +kernel)
      ((watching 1).withCursors ⟨none, none, some 10⟩) (by decide +kernel) rfl rfl rfl 10 rfl rfl
    revert launched
    unfold LaunchedBetween
    decide +kernel
  · rintro ⟨_, ⟨kept, _⟩, _⟩
    have launched := kept (watching 1) (by decide +kernel)
      ((watching 1).withCursors ⟨some 20, none, some 10⟩) (by decide +kernel) rfl rfl rfl 10 rfl rfl
    revert launched
    unfold LaunchedBetween
    decide +kernel
  · rintro ⟨_, ⟨kept, _⟩, _⟩
    have launched := kept (watching 1) (by decide +kernel)
      ((watching 1).withCursors ⟨some 20, none, some 10⟩) (by decide +kernel) rfl rfl rfl 10 rfl rfl
    revert launched
    unfold LaunchedBetween
    decide +kernel
  · rintro ⟨_, _, ⟨_, found⟩, _⟩
    have pending := found 1 10 rfl ((watching 1).withCursors ⟨some 20, none, some 10⟩)
      (by decide +kernel) rfl rfl rfl
    revert pending
    decide +kernel

end Flowfile.Scheduler

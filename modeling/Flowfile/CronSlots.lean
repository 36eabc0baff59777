import Flowfile.LostUpdates

/-!
# Slots of cron schedules

A cron schedule works with the time on the wall of its zone. Its cursor is the local time of its
last launch; without a cursor it goes by its last trigger, or else by its creation. It is due when
the next slot after this base has come, and a launch covers all slots up to now.

A process that does not start leaves the cursor where it is, and the slot is tried again in the next
tick. Without a cursor it is not: the trigger was recorded before the process started, and the slots
up to then are never launched.
-/

namespace Flowfile.Scheduler

open Catalog Library.EventRuns Library.Sessions List

/-- Time zones, as functions from absolute to local times, and the next time of an expression. -/
structure Timing where
  zoneInfo : String → Option (Nat → Nat)
  getNext : String → Nat → Option Nat

/-- The next time of an expression is the least slot after the base. -/
structure Timing.IsCroniter (timing : Timing) (slots : String → Nat → Prop) : Prop where
  least : ∀ expression base next, timing.getNext expression base = some next →
    slots expression next ∧ base < next ∧ ∀ slot, slots expression slot → base < slot → next ≤ slot
  found : ∀ expression base slot, slots expression slot → base < slot →
    (timing.getNext expression base).isSome

def FlowSchedule.zoneKey (schedule : FlowSchedule) : String :=
  if schedule.cronTimezone.getD "" = "" then "UTC" else schedule.cronTimezone.getD ""

def FlowSchedule.baseLocal (schedule : FlowSchedule) (zone : Nat → Nat) : Nat :=
  schedule.lastCronSlot.getD (zone (schedule.lastTriggeredAt.getD schedule.createdAt))

/-- The local time, if the schedule is due. -/
def Timing.dueAt (timing : Timing) (schedule : FlowSchedule) (now : Nat) : Option Nat := do
  let expression ← schedule.cronExpression
  guard (expression ≠ "")
  let zone ← timing.zoneInfo schedule.zoneKey
  let nextRun ← timing.getNext expression (schedule.baseLocal zone)
  if nextRun ≤ zone now then some (zone now) else none

def Database.cronSlot (db : Database) (id : Nat) : Option Nat :=
  (db.schedules.find? fun schedule => schedule.id = id).bind (·.lastCronSlot)

def Database.launchCount (db : Database) (id : Nat) : Nat :=
  db.runs.countP fun run => run.scheduleId = some id && run.pid.isSome

/-- The flow of a schedule is there and has no active run at its turn. -/
def Database.FreeAt (db : Database) (due : FlowSchedule → Bool) (spawn : Nat → Option Nat)
    (earlier : List FlowSchedule) (schedule : FlowSchedule) : Prop :=
  ∃ flow, db.getFlow schedule.registrationId = some flow ∧
    LaunchPath.schedulerTick.hasActiveRun db.flowRuns flow = false ∧
    ∀ other ∈ earlier, due other = true → other.registrationId = schedule.registrationId →
      spawn other.id = none

/-- The local time up to which slots were covered by the last launch, after one more step. -/
def coveredUntil (id since : Nat) (db after : Database) : Nat :=
  if db.launchCount id < after.launchCount id then (after.cronSlot id).getD since else since

/-- What a tick does for a cron schedule whose slots are covered until `since`. -/
structure CronTick (slots : Nat → Prop) (zone : Nat → Nat)
    (croniter : FlowSchedule → Nat → Option Nat) (circumstances : Circumstances) (id since : Nat)
    (db after : Database) : Prop where
  once : after.launchCount id ≤ db.launchCount id + 1
  advances : db.launchCount id < after.launchCount id → ∃ cursor,
    after.cronSlot id = some cursor ∧ since < cursor ∧
      ∀ old, db.cronSlot id = some old → old < cursor
  stays : ¬ db.launchCount id < after.launchCount id → after.cronSlot id = db.cronSlot id
  served : ∀ slot, slots slot → since < slot → slot ≤ zone (circumstances.clock id) →
    circumstances.spawn id ≠ none →
    (∀ earlier row later, db.tickOrder = earlier ++ row :: later → row.id = id →
      db.FreeAt (db.isDue croniter circumstances) circumstances.spawn earlier row) →
    after.launchCount id = db.launchCount id + 1

section

variable (timing : Timing) (slots : Nat → Prop) (zone : Nat → Nat) (id : Nat)

def CronKept : Nat → Database → List TriggerEvent → Prop
  | _, _, [] => True
  | since, db, .tick circumstances :: rest =>
    let after := db.step timing.dueAt (.tick circumstances)
    CronTick slots zone timing.dueAt circumstances id since db after ∧
      CronKept (coveredUntil id since db after) after rest
  | since, db, event :: rest => CronKept since (db.step timing.dueAt event) rest

/-- How many launches of the schedule cover a slot. -/
def timesCovered (slot : Nat) : Nat → Database → List TriggerEvent → Nat
  | _, _, [] => 0
  | since, db, .tick circumstances :: rest =>
    let after := db.step timing.dueAt (.tick circumstances)
    (if since < slot ∧ slot ≤ coveredUntil id since db after then 1 else 0) +
      timesCovered slot (coveredUntil id since db after) after rest
  | since, db, event :: rest => timesCovered slot since (db.step timing.dueAt event) rest

/-- No process fails to start for the schedule in a tick that finds it due without a cursor. -/
def FirstStarts (db : Database) : TriggerEvent → Prop
  | .tick circumstances => ∀ earlier row later, db.tickOrder = earlier ++ row :: later →
    row.id = id → row.lastCronSlot = none →
    db.LaunchesAt .schedulerTick (db.isDue timing.dueAt circumstances) circumstances.spawn earlier
      row → circumstances.spawn id ≠ none
  | _ => True

end

section

variable {croniter : FlowSchedule → Nat → Option Nat} {circumstances : Circumstances}
  {db after : Database} {row : FlowSchedule} {turns : List FlowSchedule}

theorem row_unique {other : FlowSchedule} (isRow : row ∈ db.schedules)
    (mem : other ∈ db.schedules) (same : other.id = row.id) : other = row :=
  inj_on_of_nodup_map db.distinctSchedules mem isRow same

theorem cronSlot_row (isRow : row ∈ db.schedules) : db.cronSlot row.id = row.lastCronSlot := by
  have found : db.schedules.find? (fun schedule => schedule.id = row.id) = some row := by
    cases found : db.schedules.find? (fun schedule => schedule.id = row.id) with
    | none => simpa using List.find?_eq_none.mp found row isRow
    | some other =>
      have same := List.find?_some found
      rw [row_unique isRow (mem_of_find?_eq_some found) (by simpa using same)]
  rw [Database.cronSlot, found, Option.bind_some]

theorem Turn.other {path : LaunchPath} {spawn : Nat → Option Nat} {launches : Prop}
    {cursor : Option (Option Nat)} {turn : FlowSchedule}
    (took : Turn path spawn launches cursor db turn after) (other : turn.id ≠ row.id)
    (isRow : row ∈ db.schedules) :
    row ∈ after.schedules ∧ after.launchCount row.id = db.launchCount row.id := by
  constructor
  · obtain ⟨change, rows, _⟩ := took.schedules
    rw [rows]
    exact mem_map.mpr ⟨row, isRow, if_neg other.symm⟩
  · obtain ⟨_, same⟩ | ⟨_, flow, now, _, added⟩ := took.runs
    · rw [Database.launchCount, same, Database.launchCount]
    · rw [Database.launchCount, added, countP_append]
      simp [Database.launchCount, other]

theorem attended_others (others : ∀ turn ∈ turns, turn.id ≠ row.id) (isRow : row ∈ db.schedules) :
    row ∈ (turns.foldl (attended croniter circumstances) db).schedules ∧
      (turns.foldl (attended croniter circumstances) db).launchCount row.id =
        db.launchCount row.id := by
  induction turns generalizing db with
  | nil => exact ⟨isRow, rfl⟩
  | cons turn rest ih =>
    have took := (@attend_spec croniter circumstances (.opened db) turn).turn
    obtain ⟨stays, count⟩ := took.other (others turn mem_cons_self) isRow
    obtain ⟨later, laterCount⟩ :=
      ih (fun other mem => others other (mem_cons_of_mem _ mem)) stays
    exact ⟨later, laterCount.trans count⟩

def cronCursors (croniter : FlowSchedule → Nat → Option Nat) (circumstances : Circumstances)
    (row : FlowSchedule) : ScheduleCursors :=
  { row.toScheduleCursors with
    lastTriggeredAt := some (circumstances.clock row.id)
    lastCronSlot := if (circumstances.spawn row.id).isSome then
      croniter row (circumstances.clock row.id) else row.lastCronSlot }

theorem attended_cron (isCron : row.scheduleType = .cron) (isRow : row ∈ db.schedules) :
    (db.LaunchesNow .schedulerTick (db.isDue croniter circumstances) row →
      row.withCursors (cronCursors croniter circumstances row) ∈
          (attended croniter circumstances db row).schedules ∧
        (attended croniter circumstances db row).launchCount row.id = db.launchCount row.id +
          if (circumstances.spawn row.id).isSome then 1 else 0) ∧
    (¬ db.LaunchesNow .schedulerTick (db.isDue croniter circumstances) row →
      attended croniter circumstances db row = db) := by
  have took := (@attend_spec croniter circumstances (.opened db) row).turn
  have due : db.isDue croniter circumstances row =
      (croniter row (circumstances.clock row.id)).isSome := by rw [Database.isDue, isCron]
  constructor
  · intro launch
    constructor
    · obtain ⟨isDue, flow, found, idle⟩ := launch
      rw [due] at isDue
      obtain ⟨slot, isSlot⟩ := Option.isSome_iff_exists.mp isDue
      rw [attended, attend, isCron]
      dsimp only
      rw [attendCron, isSlot]
      dsimp only
      rw [@maybeLaunch_launched circumstances (.opened db) row flow found idle]
      cases started : circumstances.spawn row.id with
      | none =>
        refine mem_map.mpr ⟨row, isRow, ?_⟩
        simp [FlowSchedule.modifyCursors, cronCursors, started]
      | some pid =>
        refine mem_map.mpr ⟨_, mem_map_of_mem isRow, ?_⟩
        simp [FlowSchedule.modifyCursors, FlowSchedule.withCursors, cronCursors, started, isSlot]
    · obtain ⟨flow, now, _, added⟩ := took.launched launch
      have counted : (attended croniter circumstances db row).runs = _ := added
      rw [Database.launchCount, counted, countP_append]
      simp [Database.launchCount, Session.opened, countP_singleton]
  · intro passes
    rw [attended, attend, isCron]
    dsimp only
    rw [attendCron]
    cases isSlot : croniter row (circumstances.clock row.id) with
    | none => rfl
    | some slot =>
    dsimp only
    rw [@maybeLaunch_passed circumstances (.opened db) row]
    · rfl
    · intro flow found
      by_contra idle
      exact passes ⟨by rw [due, isSlot]; rfl, flow, found, Bool.eq_false_iff.mpr idle⟩

theorem tick_cron {earlier later : List FlowSchedule} (isCron : row.scheduleType = .cron)
    (order : db.tickOrder = earlier ++ row :: later) :
    (db.LaunchesAt .schedulerTick (db.isDue croniter circumstances) circumstances.spawn earlier
        row →
      row.withCursors (cronCursors croniter circumstances row) ∈
          (db.tick croniter circumstances).schedules ∧
        (db.tick croniter circumstances).launchCount row.id = db.launchCount row.id +
          if (circumstances.spawn row.id).isSome then 1 else 0) ∧
    (¬ db.LaunchesAt .schedulerTick (db.isDue croniter circumstances) circumstances.spawn earlier
        row →
      row ∈ (db.tick croniter circumstances).schedules ∧
        (db.tick croniter circumstances).launchCount row.id = db.launchCount row.id) := by
  obtain ⟨written, dropped, parts, closed, _, quiet⟩ :=
    (attend_batched croniter circumstances).foldl_committed db db.tickOrder
  have rows : ∀ other ∈ earlier ++ row :: later, other ∈ db.schedules := fun other mem =>
    tickOrder_rows (order ▸ mem)
  have isRow := rows row (by simp)
  have distinct : row ∉ earlier ∧ row ∉ later := by
    have nodup := tickOrder_nodup db
    rw [order, nodup_middle, nodup_cons, mem_append, not_or] at nodup
    exact nodup.1
  have others : ∀ other ∈ earlier ++ row :: later, other ≠ row → other.id ≠ row.id :=
    fun other mem different same => different (row_unique isRow (rows other mem) same)
  have before : ∀ other ∈ earlier, other.id ≠ row.id := fun other mem =>
    others other (by simp [mem]) fun same => distinct.1 (same ▸ mem)
  have afterwards : ∀ other ∈ later, other.id ≠ row.id := fun other mem =>
    others other (by simp [mem]) fun same => distinct.2 (same ▸ mem)
  obtain ⟨stillRow, sameCount⟩ :=
    @attended_others croniter circumstances db row earlier before isRow
  have prior := tick_prefix_served croniter circumstances order
  have launches : (earlier.foldl (attended croniter circumstances) db).LaunchesNow .schedulerTick
      ((earlier.foldl (attended croniter circumstances) db).isDue croniter circumstances) row ↔
      db.LaunchesAt .schedulerTick (db.isDue croniter circumstances) circumstances.spawn earlier
        row := by
    rw [(isDue_congr croniter circumstances prior.tables prior.triggerTables).1]
    exact prior.launchesNow_iff
  obtain ⟨launched, passed⟩ := @attended_cron croniter circumstances _ row isCron stillRow
  rw [tick_eq, closed, ← launches, ← sameCount]
  obtain ⟨rest, rfl, rfl⟩ | ⟨between, rfl, rfl⟩ := split_append (parts.symm.trans order)
  · have restOthers : ∀ other ∈ rest, other.id ≠ row.id := fun other mem =>
      afterwards other (mem_append_left _ mem)
    rw [foldl_append, foldl_cons]
    constructor
    · intro launch
      obtain ⟨moved, count⟩ := launched launch
      obtain ⟨stays, laterCount⟩ := @attended_others croniter circumstances _
        (row.withCursors (cronCursors croniter circumstances row)) rest restOthers moved
      exact ⟨stays, laterCount.trans count⟩
    · intro passes
      rw [passed passes]
      exact attended_others restOthers stillRow
  · have unlaunched := quiet between row later rfl
    rw [← foldl_append] at unlaunched
    have writtenOthers : ∀ other ∈ written, other.id ≠ row.id := fun other mem =>
      before other (mem_append_left _ mem)
    refine ⟨fun launch => absurd launch unlaunched, fun _ => ?_⟩
    rw [sameCount]
    exact attended_others writtenOthers isRow

theorem step_untouched {event : TriggerEvent} (isCron : row.scheduleType = .cron)
    (isRow : row ∈ db.schedules) (other : ∀ circumstances, event ≠ .tick circumstances) :
    row ∈ (db.step croniter event).schedules := by
  cases event with
  | tick circumstances => exact absurd rfl (other circumstances)
  | updateTable tableId now => exact isRow
  | finish runId now success => exact isRow
  | push tableId circumstances =>
  rw [Database.step]
  cases db.getTable tableId with
  | none => exact isRow
  | some table =>
  have watching : ∀ turn ∈ db.listTableTriggerSchedulesForTable tableId,
      turn ∈ db.schedules ∧ turn.scheduleType = .tableTrigger := fun turn mem =>
    have enabled := mem_enabledOf.mp (mem_filter.mp mem).1
    ⟨enabled.1, enabled.2.2⟩
  obtain ⟨cursors, rows, each⟩ := (push_served circumstances table.updatedAt
    (fun turn mem => (watching turn mem).1) ((nodup_enabledOf db _).filter _)).schedules
  have outside : row ∉ db.listTableTriggerSchedulesForTable tableId := fun mem => by
    simpa [isCron] using (watching row mem).2
  dsimp only
  rw [fireTableTriggerSchedules, rows]
  refine mem_map.mpr ⟨row, isRow, ?_⟩
  rw [(each row isRow).1 outside]
  rfl

end

variable {events : List TriggerEvent}

section

variable {timing : Timing} {slots : String → Nat → Prop} {zone : Nat → Nat} {expression : String}
  {id since : Nat} {db : Database} {row : FlowSchedule}

/-- A cron schedule whose slots are covered until `since`. -/
structure CronRow (timing : Timing) (zone : Nat → Nat) (expression : String) (id since : Nat)
    (db : Database) (row : FlowSchedule) : Prop where
  isRow : row ∈ db.schedules
  sameId : row.id = id
  enabled : row.enabled = true
  isCron : row.scheduleType = .cron
  hasExpression : row.cronExpression = some expression
  filled : expression ≠ ""
  inZone : timing.zoneInfo row.zoneKey = some zone
  base : row.baseLocal zone = since

theorem CronRow.dueAt_eq (cron : CronRow timing zone expression id since db row) (now : Nat) :
    timing.dueAt row now = (timing.getNext expression since).bind fun nextRun =>
      if nextRun ≤ zone now then some (zone now) else none := by
  simp [Timing.dueAt, cron.hasExpression, cron.filled, cron.inZone, cron.base, guard]

theorem CronRow.due_iff (cron : CronRow timing zone expression id since db row)
    (isCroniter : timing.IsCroniter slots) {now localTime : Nat} :
    timing.dueAt row now = some localTime ↔
      localTime = zone now ∧ ∃ slot, slots expression slot ∧ since < slot ∧ slot ≤ zone now := by
  rw [cron.dueAt_eq, Option.bind_eq_some_iff]
  constructor
  · rintro ⟨nextRun, isNext, due⟩
    obtain ⟨isSlot, later, _⟩ := isCroniter.least expression since nextRun isNext
    split at due
    case isTrue come => exact ⟨(Option.some.inj due).symm, nextRun, isSlot, later, come⟩
    case isFalse => cases due
  · rintro ⟨rfl, slot, isSlot, later, come⟩
    obtain ⟨nextRun, isNext⟩ :=
      Option.isSome_iff_exists.mp (isCroniter.found expression since slot isSlot later)
    have least := (isCroniter.least expression since nextRun isNext).2.2 slot isSlot later
    exact ⟨nextRun, isNext, if_pos (Nat.le_trans least come)⟩

theorem CronRow.tick (cron : CronRow timing zone expression id since db row)
    (isCroniter : timing.IsCroniter slots) {circumstances : Circumstances}
    (firstStarts : FirstStarts timing id db (.tick circumstances)) :
    CronTick (slots expression) zone timing.dueAt circumstances id since db
        (db.tick timing.dueAt circumstances) ∧
      ∃ later, CronRow timing zone expression id
        (coveredUntil id since db (db.tick timing.dueAt circumstances))
        (db.tick timing.dueAt circumstances) later := by
  obtain rfl := cron.sameId
  have inOrder : row ∈ db.tickOrder := by
    simp [Database.tickOrder, mem_enabledOf, cron.isRow, cron.enabled, cron.isCron]
  obtain ⟨earlier, others, order⟩ := append_of_mem inOrder
  obtain ⟨launched, passed⟩ :=
    @tick_cron timing.dueAt circumstances db row earlier others cron.isCron order
  have slotBefore := cronSlot_row cron.isRow
  by_cases launch : db.LaunchesAt .schedulerTick (db.isDue timing.dueAt circumstances)
    circumstances.spawn earlier row
  · obtain ⟨moved, count⟩ := launched launch
    have slotAfter := cronSlot_row moved
    change (db.tick timing.dueAt circumstances).cronSlot row.id = _ at slotAfter
    obtain ⟨isDue, _⟩ := id launch
    rw [Database.isDue, cron.isCron] at isDue
    obtain ⟨localTime, found⟩ := Option.isSome_iff_exists.mp isDue
    obtain ⟨rfl, slot, isSlot, later, come⟩ := (cron.due_iff isCroniter).mp found
    cases started : circumstances.spawn row.id with
    | some pid =>
      have cursor : (cronCursors timing.dueAt circumstances row).lastCronSlot =
          some (zone (circumstances.clock row.id)) := by
        rw [cronCursors, started, found]
        rfl
      simp only [started, Option.isSome_some, if_true] at count
      replace slotAfter := slotAfter.trans cursor
      refine ⟨⟨Nat.le_of_eq count, fun _ => ⟨_, slotAfter, Nat.lt_of_lt_of_le later come, ?_⟩,
        fun same => absurd (by omega) same, fun _ _ _ _ _ _ => count⟩,
        _, moved, rfl, cron.enabled, cron.isCron, cron.hasExpression, cron.filled, cron.inZone, ?_⟩
      · intro old isOld
        have same : since = old := by
          rw [← cron.base, FlowSchedule.baseLocal, ← slotBefore, isOld]
          rfl
        omega
      · rw [coveredUntil, if_pos (by omega), slotAfter, FlowSchedule.baseLocal,
          FlowSchedule.withCursors, cursor]
        rfl
    | none =>
      have cursor : (cronCursors timing.dueAt circumstances row).lastCronSlot =
          row.lastCronSlot := by
        rw [cronCursors, started]
        rfl
      simp only [started, Option.isSome_none, Bool.false_eq_true, if_false, Nat.add_zero] at count
      refine ⟨⟨by omega, fun more => absurd more (by omega),
        fun _ => slotAfter.trans (cursor.trans slotBefore.symm),
        fun _ _ _ _ starts => absurd started starts⟩,
        _, moved, rfl, cron.enabled, cron.isCron, cron.hasExpression, cron.filled, cron.inZone, ?_⟩
      cases known : row.lastCronSlot with
      | none => exact absurd started (firstStarts earlier row others order rfl known launch)
      | some old =>
        rw [coveredUntil, if_neg (by omega), ← cron.base, FlowSchedule.baseLocal,
          FlowSchedule.withCursors, cursor, FlowSchedule.baseLocal, known]
        rfl
  · obtain ⟨stays, count⟩ := passed launch
    refine ⟨⟨by omega, fun more => absurd more (by omega),
      fun _ => (cronSlot_row stays).trans slotBefore.symm, ?_⟩,
      row, { cron with isRow := stays, base := ?_ }⟩
    · intro slot isSlot later come _ free
      refine absurd ⟨?_, free earlier row others order rfl⟩ launch
      rw [Database.isDue, cron.isCron]
      dsimp only
      rw [(cron.due_iff isCroniter).mpr ⟨rfl, slot, isSlot, later, come⟩]
      rfl
    · rw [coveredUntil, if_neg (by omega), cron.base]

theorem CronRow.kept
    (cron : CronRow timing zone expression id since db row) (isCroniter : timing.IsCroniter slots)
    (firstStarts : EachStep (Database.step timing.dueAt) (FirstStarts timing id) db events) :
    CronKept timing (slots expression) zone id since db events := by
  induction events generalizing db since row with
  | nil => trivial
  | cons event rest ih =>
    have untouched := @step_untouched timing.dueAt db row event cron.isCron cron.isRow
    cases event with
    | tick circumstances =>
      obtain ⟨ticked, later, laterCron⟩ := cron.tick isCroniter firstStarts.1
      exact ⟨ticked, ih laterCron firstStarts.2⟩
    | updateTable | push | finish =>
      exact ih { cron with isRow := untouched (by simp) } firstStarts.2

theorem timesCovered_le {covered : Nat → Prop}
    (kept : CronKept timing covered zone id since db events) (slot : Nat) :
    timesCovered timing id slot since db events ≤ if slot ≤ since then 0 else 1 := by
  induction events generalizing db since with
  | nil => simp [timesCovered]
  | cons event rest ih =>
    cases event with
    | tick circumstances =>
      obtain ⟨ticked, later⟩ := kept
      have next := ih later
      have grows : since ≤ coveredUntil id since db (db.tick timing.dueAt circumstances) := by
        rw [coveredUntil]
        split
        case isTrue launched =>
          obtain ⟨cursor, found, after, _⟩ := ticked.advances launched
          rw [Database.step] at found
          rw [found]
          exact Nat.le_of_lt after
        case isFalse => exact Nat.le_refl _
      simp only [timesCovered]
      rw [Database.step] at next ⊢
      split at next <;> split <;> split <;> omega
    | updateTable | push | finish => exact ih kept

end

/-- In a run in which the process of a cron schedule starts whenever it is launched without a
cursor, its cursor advances with each launch, each slot is covered at most once, and a slot that
has come is launched. -/
theorem cron_kept (timing : Timing) {slots : String → Nat → Prop}
    (isCroniter : timing.IsCroniter slots) (start : Database) {row : FlowSchedule}
    (isRow : row ∈ start.schedules) (enabled : row.enabled = true)
    (isCron : row.scheduleType = .cron) {expression : String}
    (hasExpression : row.cronExpression = some expression) (filled : expression ≠ "")
    {zone : Nat → Nat} (inZone : timing.zoneInfo row.zoneKey = some zone)
    (events : List TriggerEvent)
    (firstStarts : EachStep (Database.step timing.dueAt) (FirstStarts timing row.id) start events) :
    CronKept timing (slots expression) zone row.id (row.baseLocal zone) start events ∧
      ∀ slot, timesCovered timing row.id slot (row.baseLocal zone) start events ≤ 1 := by
  have cron : CronRow timing zone expression row.id (row.baseLocal zone) start row :=
    ⟨isRow, rfl, enabled, isCron, hasExpression, filled, inZone, rfl⟩
  have kept := cron.kept isCroniter firstStarts
  refine ⟨kept, fun slot => Nat.le_trans (timesCovered_le kept slot) ?_⟩
  split <;> omega

/-- Every minute is a slot, and local time is absolute time. -/
def minutely : Timing :=
  ⟨fun _ => some fun now => now, fun _ base => some ((base / 60 + 1) * 60)⟩

theorem minutely_isCroniter : minutely.IsCroniter fun _ slot => slot % 60 = 0 where
  least := by
    rintro _ base _ ⟨⟩
    refine ⟨by omega, by omega, fun slot isSlot later => by omega⟩
  found := fun _ _ _ _ _ => rfl

def everyMinute : Database where
  registrations := [⟨1, "3f2a"⟩]
  distinctIds := nodup_singleton _
  distinctUuids := nodup_singleton _
  schedules := [⟨⟨none, none, none⟩, 1, 1, true, .cron, none, some "* * * * *", none, none, 0⟩]
  distinctSchedules := nodup_singleton _
  tables := []
  triggerTables := []
  runs := []

theorem everyMinute_kept :
    CronKept minutely (fun slot => slot % 60 = 0) (fun now => now) 1 0 everyMinute
        [.tick ⟨fun _ => 61, some⟩, .tick ⟨fun _ => 90, some⟩] ∧
      ∀ slot, timesCovered minutely 1 slot 0 everyMinute
        [.tick ⟨fun _ => 61, some⟩, .tick ⟨fun _ => 90, some⟩] ≤ 1 :=
  cron_kept minutely minutely_isCroniter everyMinute mem_cons_self rfl rfl rfl
    (by decide) rfl _ ⟨fun _ _ _ _ _ _ _ => nofun, fun _ _ _ _ _ _ _ => nofun, trivial⟩

/-- The process of the first slot does not start; the next tick passes the slot over. -/
theorem firstSlot_lost : minutely.IsCroniter (fun _ slot => slot % 60 = 0) ∧
    ¬ CronKept minutely (fun slot => slot % 60 = 0) (fun now => now) 1 0 everyMinute
      [.tick ⟨fun _ => 61, fun _ => none⟩, .tick ⟨fun _ => 62, some⟩] := by
  refine ⟨minutely_isCroniter, ?_⟩
  rintro ⟨_, second, _⟩
  have since : coveredUntil 1 0 everyMinute
      (everyMinute.step minutely.dueAt (.tick ⟨fun _ => 61, fun _ => none⟩)) = 0 := by
    decide +kernel
  rw [since] at second
  have free : ∀ earlier row later, (everyMinute.step minutely.dueAt
      (.tick ⟨fun _ => 61, fun _ => none⟩)).tickOrder = earlier ++ row :: later → row.id = 1 →
      (everyMinute.step minutely.dueAt (.tick ⟨fun _ => 61, fun _ => none⟩)).FreeAt
        ((everyMinute.step minutely.dueAt (.tick ⟨fun _ => 61, fun _ => none⟩)).isDue
          minutely.dueAt ⟨fun _ => 62, some⟩) some earlier row := by
    intro earlier row later order _
    have listed : ∀ other ∈ (everyMinute.step minutely.dueAt
        (.tick ⟨fun _ => 61, fun _ => none⟩)).tickOrder, other.registrationId = 1 := by
      decide +kernel
    have alone : (everyMinute.step minutely.dueAt
        (.tick ⟨fun _ => 61, fun _ => none⟩)).tickOrder.length = 1 := by decide +kernel
    rw [order] at listed alone
    obtain rfl : earlier = [] := length_eq_zero_iff.mp (by simp at alone; omega)
    refine ⟨⟨1, "3f2a"⟩, ?_, by decide +kernel, by simp⟩
    rw [listed row (by simp)]
    decide +kernel
  have launched := second.served 60 (by decide) (by decide) (by decide) (by decide) free
  revert launched
  decide +kernel

end Flowfile.Scheduler

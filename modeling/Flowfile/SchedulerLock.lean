import Flowfile.Library.EventRuns
import Mathlib.Logic.Function.Basic

/-!
# The scheduler lock

Schedulers share one row of the database. To acquire the lock a scheduler takes the time, reads the
row and decides what to write; to release it, it reads the row and deletes it. Reads and commits of
different schedulers interleave freely, and the code does not look at the row again when it commits.

A scheduler believes that it holds the lock from the moment an acquisition succeeds until a later
one does not, or until it releases the lock or ends. Two schedulers that believe so with a recent
heartbeat each are what the lock is meant to prevent. They are prevented in every run in which each
decision, taken when the row was read, would be taken again when it is committed.
-/

namespace Flowfile.Scheduler

open Library.EventRuns

/-- Age in microseconds from which a heartbeat is stale. -/
def staleThreshold : Nat :=
  90 * 1000000

structure SchedulerLock (ι : Type) where
  holderId : ι
  startedAt : Nat
  heartbeatAt : Nat

/-- What a scheduler does about the row that it read. -/
inductive LockDecision where
  | insert
  | refresh
  | takeOver
  | decline
deriving DecidableEq

/-- Where an acquisition stands: not under way, before its read, or before its commit. -/
inductive Acquisition where
  | idle
  | started (now : Nat)
  | decided (now : Nat) (decision : LockDecision)

/-- A scheduler: its acquisition, whether it is about to delete the row, and the heartbeat of the
acquisition on which its belief to hold the lock rests. -/
structure Holder where
  acquisition : Acquisition
  releasing : Bool
  belief : Option Nat

/-- A scheduler that does nothing and does not believe to hold the lock. -/
def Holder.fresh : Holder :=
  ⟨.idle, false, none⟩

/-- The clock, the row and the schedulers. -/
structure World (ι : Type) where
  now : Nat
  lock : Option (SchedulerLock ι)
  scheduler : ι → Holder

def World.initial {ι : Type} (now : Nat) (lock : Option (SchedulerLock ι)) : World ι :=
  ⟨now, lock, fun _ => .fresh⟩

/-- What can happen next: time passes, a scheduler takes the next step of an acquisition or a
release, or a scheduler ends. -/
inductive LockEvent (ι : Type) where
  | wait (duration : Nat)
  | begin (self : ι)
  | read (self : ι)
  | commit (self : ι)
  | releaseRead (self : ι)
  | releaseCommit (self : ι)
  | exit (self : ι)

variable {ι : Type} [DecidableEq ι]

/-- The decision of an acquisition that began at a time, about the row that was read. -/
def decideLock (self : ι) (now : Nat) : Option (SchedulerLock ι) → LockDecision
  | none => .insert
  | some lock =>
    if lock.holderId = self then .refresh
    else if now > lock.heartbeatAt + staleThreshold then .takeOver
    else .decline

def World.update (world : World ι) (self : ι) (holder : Holder) : World ι :=
  { world with scheduler := Function.update world.scheduler self holder }

/-- An acquisition returns, with a heartbeat where it succeeds. -/
def World.returns (world : World ι) (self : ι) (belief : Option Nat) : World ι :=
  world.update self ⟨.idle, (world.scheduler self).releasing, belief⟩

/-- The commit of an acquisition. A second row is refused by the key of the table, and an update of
a row that is gone fails; both end the acquisition with an error. A refresh writes the heartbeat and
a takeover the whole row, whatever the row holds by then. -/
def World.commitAcquire (world : World ι) (self : ι) (now : Nat) (decision : LockDecision) :
    World ι :=
  match decision, world.lock with
  | .insert, none => { world.returns self (some now) with lock := some ⟨self, now, now⟩ }
  | .insert, some _ => world.returns self none
  | .refresh, some lock =>
    { world.returns self (some now) with lock := some { lock with heartbeatAt := now } }
  | .refresh, none => world.returns self none
  | .takeOver, some _ => { world.returns self (some now) with lock := some ⟨self, now, now⟩ }
  | .takeOver, none => world.returns self none
  | .decline, _ => world.returns self none

def World.readLock (world : World ι) (self : ι) (now : Nat) : World ι :=
  match decideLock self now world.lock with
  | .decline => world.returns self none
  | decision => world.update self { world.scheduler self with acquisition := .decided now decision }

/-- One step. Events that do not fit the state of the scheduler change nothing. -/
def World.step (world : World ι) : LockEvent ι → World ι
  | .wait duration => { world with now := world.now + duration }
  | .begin self =>
    match (world.scheduler self).acquisition with
    | .idle => world.update self { world.scheduler self with acquisition := .started world.now }
    | _ => world
  | .read self =>
    match (world.scheduler self).acquisition with
    | .started now => world.readLock self now
    | _ => world
  | .commit self =>
    match (world.scheduler self).acquisition with
    | .decided now decision => world.commitAcquire self now decision
    | _ => world
  | .releaseRead self =>
    if world.lock.any (fun lock => lock.holderId = self) then
      world.update self { world.scheduler self with releasing := true }
    else world.update self { world.scheduler self with belief := none }
  | .releaseCommit self =>
    if (world.scheduler self).releasing then
      { world.update self { world.scheduler self with releasing := false, belief := none } with
        lock := none }
    else world
  | .exit self => world.update self .fresh

def World.HoldsLock (world : World ι) (self : ι) : Prop :=
  ∃ heartbeat, (world.scheduler self).belief = some heartbeat ∧
    world.now ≤ heartbeat + staleThreshold

def World.MutuallyExclusive (world : World ι) : Prop :=
  ∀ first second, world.HoldsLock first → world.HoldsLock second → first = second

/-- At most one scheduler believes to hold the lock, with whatever heartbeat. -/
def World.OneBelieves (world : World ι) : Prop :=
  ∀ first second, (world.scheduler first).belief ≠ none → (world.scheduler second).belief ≠ none →
    first = second

/-- A release is about to delete the row of another scheduler. -/
def World.RemovesForeign (world : World ι) : LockEvent ι → Prop
  | .releaseCommit self => (world.scheduler self).releasing = true ∧
      ∃ lock, world.lock = some lock ∧ lock.holderId ≠ self
  | _ => False

def LockSafe (start : World ι) (events : List (LockEvent ι)) : Prop :=
  (∀ world ∈ statesAlong World.step start events, world.MutuallyExclusive) ∧
    EachStep World.step (fun world event => ¬ world.RemovesForeign event) start events

/-- The decision that is committed would be taken again on the row as it is now. An insert needs no
condition: the database refuses a second row. -/
def World.DecisionStands (world : World ι) : LockEvent ι → Prop
  | .commit self => ∀ now decision, (world.scheduler self).acquisition = .decided now decision →
      decision ≠ .insert → ∀ lock, world.lock = some lock →
        decideLock self now (some lock) = decision
  | .releaseCommit self => (world.scheduler self).releasing = true → ∀ lock,
      world.lock = some lock → lock.holderId = self
  | _ => True

def World.TakesFromEnded (world : World ι) : LockEvent ι → Prop
  | .commit self => ∀ now, (world.scheduler self).acquisition = .decided now .takeOver →
      ∀ lock, world.lock = some lock → (world.scheduler lock.holderId).belief = none
  | _ => True

section

variable {world : World ι} {self other : ι} {holder : Holder} {belief : Option Nat}

@[simp] theorem update_same : (world.update self holder).scheduler self = holder := by
  simp [World.update]

theorem update_other (distinct : other ≠ self) :
    (world.update self holder).scheduler other = world.scheduler other := by
  simp [World.update, Function.update_of_ne distinct]

end

/-- Acquisitions under way took the time in the past. -/
def World.TimesPast (world : World ι) : Prop :=
  ∀ self now, ((world.scheduler self).acquisition = .started now ∨
    ∃ decision, (world.scheduler self).acquisition = .decided now decision) → now ≤ world.now

section

variable {world : World ι} (past : world.TimesPast)
include past

theorem World.TimesPast.update {self : ι} {holder : Holder}
    (own : ∀ now, (holder.acquisition = .started now ∨
      ∃ decision, holder.acquisition = .decided now decision) → now ≤ world.now) :
    (world.update self holder).TimesPast := by
  intro other now underWay
  by_cases same : other = self
  · subst same
    rw [update_same] at underWay
    exact own now underWay
  · rw [update_other same] at underWay
    exact past other now underWay

theorem World.TimesPast.returns (self : ι)
    (belief : Option Nat) : (world.returns self belief).TimesPast := by
  apply past.update
  rintro now (started | ⟨_, decided⟩)
  · cases started
  · cases decided

theorem World.TimesPast.step (event : LockEvent ι) : (world.step event).TimesPast := by
  cases event with
  | wait duration =>
    intro self now underWay
    exact Nat.le_trans (past self now underWay) (Nat.le_add_right _ _)
  | begin self =>
    simp only [World.step]
    split
    · apply past.update
      rintro now (started | ⟨_, decided⟩)
      · cases started
        exact Nat.le_refl _
      · cases decided
    · exact past
  | read self =>
    simp only [World.step]
    split
    case h_1 now started =>
      have earlier := past self now (.inl started)
      rw [World.readLock]
      split
      · exact past.returns self none
      · apply past.update
        rintro later (isStarted | ⟨_, decided⟩)
        · cases isStarted
        · cases decided
          exact earlier
    case h_2 => exact past
  | commit self =>
    simp only [World.step]
    split
    case h_1 now decision _ =>
      unfold World.commitAcquire
      split <;> exact past.returns self _
    case h_2 => exact past
  | releaseRead self =>
    simp only [World.step]
    split <;> exact past.update fun now underWay => past self now underWay
  | releaseCommit self =>
    simp only [World.step]
    split
    · exact past.update fun now underWay => past self now underWay
    · exact past
  | exit self =>
    apply past.update
    rintro now (started | ⟨_, decided⟩)
    · cases started
    · cases decided

end

/-- Beliefs that count rest on the row. The heartbeats that count are a parameter: those that are
not stale, or all. -/
def World.Grounded (counts : Nat → Nat → Prop) (world : World ι) : Prop :=
  ∀ self heartbeat, (world.scheduler self).belief = some heartbeat →
    counts world.now heartbeat → ∃ startedAt, world.lock = some ⟨self, startedAt, heartbeat⟩

section

variable {counts : Nat → Nat → Prop} {world : World ι} {self : ι} {holder : Holder}

section

variable (grounded : world.Grounded counts)
include grounded

theorem World.Grounded.update
    (keeps : holder.belief = none ∨ holder.belief = (world.scheduler self).belief) :
    (world.update self holder).Grounded counts := by
  intro other heartbeat believes counted
  apply grounded other heartbeat _ counted
  by_cases same : other = self
  · subst same
    rw [update_same] at believes
    rcases keeps with dropped | kept
    · rw [dropped] at believes
      cases believes
    · rw [← kept]
      exact believes
  · rwa [update_other same] at believes

theorem World.Grounded.write {startedAt now : Nat}
    (free : ∀ lock, world.lock = some lock → lock.holderId ≠ self →
      (world.scheduler lock.holderId).belief = some lock.heartbeatAt →
        ¬ counts world.now lock.heartbeatAt) :
    ({ world.returns self (some now) with lock := some ⟨self, startedAt, now⟩ } :
      World ι).Grounded counts := by
  intro other heartbeat believes counted
  by_cases same : other = self
  · subst same
    refine ⟨startedAt, ?_⟩
    simp only [World.returns, update_same, Option.some.injEq] at believes
    rw [believes]
  · simp only [World.returns, update_other same] at believes
    obtain ⟨earlier, row⟩ := grounded other heartbeat believes counted
    exact absurd counted (free _ row same believes)

theorem World.Grounded.delete (own : ∀ lock, world.lock = some lock → lock.holderId = self)
    (dropped : holder.belief = none) :
    ({ world.update self holder with lock := none } : World ι).Grounded counts := by
  intro other heartbeat believes counted
  by_cases same : other = self
  · subst same
    rw [update_same, dropped] at believes
    cases believes
  · simp only [update_other same] at believes
    obtain ⟨startedAt, row⟩ := grounded other heartbeat believes counted
    exact absurd (own _ row) same

theorem World.Grounded.step
    (ages : ∀ {now later heartbeat}, now ≤ later → counts later heartbeat → counts now heartbeat)
    {event : LockEvent ι} (stands : world.DecisionStands event)
    (takes : ∀ self now lock, event = .commit self →
      (world.scheduler self).acquisition = .decided now .takeOver → world.lock = some lock →
        (world.scheduler lock.holderId).belief = some lock.heartbeatAt →
          ¬ counts world.now lock.heartbeatAt) :
    (world.step event).Grounded counts := by
  cases event with
  | wait duration =>
    intro self heartbeat believes counted
    exact grounded self heartbeat believes (ages (Nat.le_add_right _ _) counted)
  | begin self =>
    simp only [World.step]
    split
    · exact grounded.update (.inr rfl)
    · exact grounded
  | read self =>
    simp only [World.step]
    split
    · rw [World.readLock]
      split
      · exact grounded.update (.inl rfl)
      · exact grounded.update (.inr rfl)
    · exact grounded
  | commit self =>
    simp only [World.step]
    split
    case h_1 now decision decided =>
      have same := stands now decision decided
      unfold World.commitAcquire
      split
      case h_1 row => exact grounded.write fun lock isRow => by rw [row] at isRow; cases isRow
      case h_3 lock row =>
        -- the row is still that of the scheduler, so that no other belief rests on it
        have own : lock.holderId = self := by
          by_contra foreign
          have decision := same (by simp) lock row
          rw [decideLock, if_neg foreign] at decision
          split at decision <;> cases decision
        have rewritten := @World.Grounded.write _ _ _ _ self grounded lock.startedAt now
          fun other isRow foreign => by
            rw [row] at isRow
            cases isRow
            exact absurd own foreign
        rw [← own] at rewritten ⊢
        exact rewritten
      case h_5 lock row =>
        exact grounded.write fun other isRow _ believes =>
          takes self now other rfl decided isRow believes
      all_goals exact grounded.update (.inl rfl)
    case h_2 => exact grounded
  | releaseRead self =>
    simp only [World.step]
    split
    · exact grounded.update (.inr rfl)
    · exact grounded.update (.inl rfl)
  | releaseCommit self =>
    simp only [World.step]
    split
    case isTrue releasing => exact grounded.delete (stands releasing) rfl
    case isFalse => exact grounded
  | exit self => exact grounded.update (.inl rfl)

end

theorem taken_stale (past : world.TimesPast) {now : Nat} {lock : SchedulerLock ι}
    (stands : world.DecisionStands (.commit self))
    (decided : (world.scheduler self).acquisition = .decided now .takeOver)
    (row : world.lock = some lock) : ¬ world.now ≤ lock.heartbeatAt + staleThreshold := by
  have same := stands now .takeOver decided (by simp) lock row
  have earlier := past self now (.inr ⟨_, decided⟩)
  rw [decideLock] at same
  split at same
  · cases same
  · split at same
    case isTrue stale => omega
    case isFalse => cases same

end

def Recent (now heartbeat : Nat) : Prop :=
  now ≤ heartbeat + staleThreshold

omit [DecidableEq ι] in
/-- Where beliefs with a recent heartbeat rest on the row, one scheduler at most holds the lock. -/
theorem World.Grounded.mutuallyExclusive {world : World ι} (grounded : world.Grounded Recent) :
    world.MutuallyExclusive := by
  rintro first second ⟨firstHeartbeat, firstBelieves, firstRecent⟩
    ⟨secondHeartbeat, secondBelieves, secondRecent⟩
  obtain ⟨_, firstRow⟩ := grounded first firstHeartbeat firstBelieves firstRecent
  obtain ⟨_, secondRow⟩ := grounded second secondHeartbeat secondBelieves secondRecent
  rw [firstRow] at secondRow
  cases secondRow
  rfl

omit [DecidableEq ι] in
/-- Where all beliefs rest on the row, one scheduler at most believes to hold the lock. -/
theorem World.Grounded.oneBelieves {world : World ι}
    (grounded : world.Grounded fun _ _ => True) : world.OneBelieves := by
  intro first second firstBelieves secondBelieves
  obtain ⟨firstHeartbeat, firstSome⟩ := Option.ne_none_iff_exists'.mp firstBelieves
  obtain ⟨secondHeartbeat, secondSome⟩ := Option.ne_none_iff_exists'.mp secondBelieves
  obtain ⟨_, firstRow⟩ := grounded first firstHeartbeat firstSome trivial
  obtain ⟨_, secondRow⟩ := grounded second secondHeartbeat secondSome trivial
  rw [firstRow] at secondRow
  cases secondRow
  rfl

omit [DecidableEq ι] in
theorem initial_grounded (now : Nat) (lock : Option (SchedulerLock ι)) (counts : Nat → Nat → Prop) :
    (World.initial now lock).TimesPast ∧ (World.initial now lock).Grounded counts := by
  constructor
  · rintro self later (started | ⟨_, decided⟩)
    · cases started
    · cases decided
  · intro self heartbeat believes
    cases believes

/-- In every run in which decisions stand when they are committed, the lock is mutually exclusive
and no release removes the lock of another scheduler. Where besides locks are taken over only from
schedulers that no longer believe to hold them, at most one scheduler believes to hold the lock,
whatever the age of the heartbeats. -/
theorem schedulerLock_safe (now : Nat) (lock : Option (SchedulerLock ι))
    (events : List (LockEvent ι))
    (stands : EachStep World.step World.DecisionStands (World.initial now lock) events) :
    LockSafe (World.initial now lock) events ∧
      (EachStep World.step World.TakesFromEnded (World.initial now lock) events →
        ∀ world ∈ statesAlong World.step (World.initial now lock) events, world.OneBelieves) := by
  refine ⟨⟨?_, ?_⟩, ?_⟩
  · have along := stands.invariant_along
      (fun world => world.TimesPast ∧ world.Grounded Recent)
      (fun world event invariant stands => by
        obtain ⟨past, grounded⟩ := invariant
        refine ⟨past.step event, grounded.step ?_ stands ?_⟩
        · intro now later heartbeat earlier recent
          exact Nat.le_trans earlier recent
        · rintro self taken lock rfl decided row _
          exact taken_stale past stands decided row)
      (initial_grounded now lock Recent)
    exact fun world isAlong => (along world isAlong).2.mutuallyExclusive
  · apply stands.mono
    rintro world event stands removes
    cases event with
    | releaseCommit self =>
      obtain ⟨releasing, row, isRow, foreign⟩ := removes
      exact foreign (stands releasing row isRow)
    | _ => exact removes
  · intro takes
    have along := (stands.and takes).invariant_along
      (fun world => world.TimesPast ∧ world.Grounded fun _ _ => True)
      (fun world event invariant conditions => by
        obtain ⟨past, grounded⟩ := invariant
        refine ⟨past.step event, grounded.step (fun _ _ => trivial) conditions.1 ?_⟩
        rintro self taken lock rfl decided row believes
        rw [conditions.2 taken decided lock row] at believes
        cases believes)
      (initial_grounded now lock _)
    exact fun world isAlong => (along world isAlong).2.oneBelieves

/-- A lock left behind, one second after its heartbeat became stale. -/
def leftBehind : World Nat :=
  World.initial (staleThreshold + 1000000) (some ⟨0, 0, 0⟩)

theorem leftBehind_taken :
    LockSafe leftBehind [.begin 1, .read 1, .commit 1, .begin 1, .read 1, .begin 2, .read 2,
      .commit 1, .releaseRead 1, .releaseCommit 1] := by
  refine (schedulerLock_safe _ _ _ ?_).1
  refine ⟨trivial, trivial, ?_, trivial, trivial, trivial, trivial, ?_, trivial, ?_, trivial⟩
  · intro now decision decided _ lock row
    cases decided
    cases row
    decide
  · intro now decision decided _ lock row
    cases decided
    cases row
    decide
  · intro _ lock row
    cases row
    rfl

/-- Two schedulers read the lock that was left behind and both take it over. A scheduler that reads
the lock as its own before another one takes it over, releases the lock of the other. -/
theorem leftBehind_contended : (¬ ∀ events, LockSafe leftBehind events) ∧
      ¬ EachStep World.step (fun world event => ¬ world.RemovesForeign event) leftBehind
        [.releaseRead 0, .begin 1, .read 1, .commit 1, .releaseCommit 0] := by
  constructor
  · intro safe
    have exclusive := (safe [.begin 1, .begin 2, .read 1, .read 2, .commit 1, .commit 2]).1
      _ (List.mem_of_getElem? (i := 6) rfl)
    have same := exclusive 1 2 ⟨_, rfl, by decide⟩ ⟨_, rfl, by decide⟩
    cases same
  · rintro ⟨_, _, _, _, keeps, _⟩
    exact keeps ⟨rfl, _, rfl, by decide⟩

end Flowfile.Scheduler

import Flowfile.ArtifactStore

/-!
# Concurrent calls on one artifact

Calls on one artifact of a kernel run side by side. Each works on the memory and the index in
sections under a lock, and on the disk outside of them: a publication is saved after it is in
memory, a deletion reaches the disk after the artifact has left memory and index, and an artifact
that is loaded has left the index and is not yet in memory.

A get never yields what was published before something that had returned when it started, and no
deletion misses an artifact that is there, along every run in which a publication is saved before
anything later reaches the disk, an artifact that was loaded is still the current one when it is
stored, and no deletion looks for it while it is being loaded.

Only one of several loaders finds the artifact in the index, so the lock they also take is left out.
-/

namespace Flowfile.ArtifactRaces

open Function Library.EventRuns ArtifactStore List

/-- Where a call is: before the step named. Publications, deletions and clearings carry the number
they have been given in their section, gets the highest number that had returned when they
started. -/
inductive Call where
  | idle
  | publishing
  | saving (serial : Nat)
  | flagging (serial : Nat)
  | deleting
  | clearing
  | removing (serial : Nat)
  | getting (since : Nat)
  | checking (since : Nat)
  | locking (since : Nat)
  | loading (since : Nat)
  | storing (since object : Nat)
  | restoring (since : Nat)
  | reading (since : Nat)

/-- How a get or an unsuccessful deletion ended. -/
inductive Outcome where
  | got (since object : Nat)
  | absent (since : Nat)
  | missed (current : Option Nat)

inductive Operation where
  | publish
  | delete
  | clear
  | get

/-- One artifact: what memory, index and disk hold, objects being told apart by the number of their
publication, and the calls of the threads. Beside these stand the last number given out, the highest
that has returned, the highest that has reached the disk, the publication that is current, and the
outcomes so far. -/
structure Slot where
  memory : Option Nat
  indexed : Bool
  disk : Option Nat
  calls : Nat → Call
  serial : Nat
  returned : Nat
  written : Nat
  current : Option Nat
  outcomes : List Outcome

def Slot.initial : Slot := ⟨none, false, none, fun _ => .idle, 0, 0, 0, none, []⟩

namespace Slot

variable (slot : Slot) (thread : Nat)

def move (call : Call) : Slot :=
  { slot with calls := update slot.calls thread call }

/-- A call has ended. -/
def finish (outcome : Outcome) : Slot :=
  { slot.move thread .idle with outcomes := slot.outcomes ++ [outcome] }

def start : Operation → Slot
  | .publish => slot.move thread .publishing
  | .delete => slot.move thread .deleting
  | .clear => slot.move thread .clearing
  | .get => slot.move thread (.getting slot.returned)

def take : Slot :=
  { slot.move thread (.removing (slot.serial + 1)) with
    memory := none
    indexed := false
    serial := slot.serial + 1
    current := none }

/-- The next section or disk operation of a call. -/
def proceed : Slot :=
  match slot.calls thread with
  | .idle => slot
  | .publishing =>
    if slot.memory.isSome then slot.move thread .idle
    else
      { slot.move thread (.saving (slot.serial + 1)) with
        memory := some (slot.serial + 1)
        indexed := false
        serial := slot.serial + 1
        current := some (slot.serial + 1) }
  | .saving serial =>
    { slot.move thread (.flagging serial) with
      disk := some serial
      written := max slot.written serial }
  | .flagging serial => { slot.move thread .idle with returned := max slot.returned serial }
  | .deleting =>
    if slot.memory.isNone && !slot.indexed then slot.finish thread (.missed slot.current)
    else slot.take thread
  | .clearing => slot.take thread
  | .removing serial =>
    { slot.move thread .idle with
      disk := none
      written := max slot.written serial
      returned := max slot.returned serial }
  | .getting since =>
    match slot.memory with
    | some object => slot.finish thread (.got since object)
    | none =>
      if slot.indexed then slot.move thread (.checking since)
      else slot.finish thread (.absent since)
  | .checking since =>
    if slot.memory.isSome then slot.move thread (.reading since)
    else if slot.indexed then slot.move thread (.locking since)
    else slot.finish thread (.absent since)
  | .locking since =>
    if slot.memory.isSome then slot.move thread (.reading since)
    else if slot.indexed then { slot.move thread (.loading since) with indexed := false }
    else slot.finish thread (.absent since)
  | .loading since =>
    match slot.disk with
    | some object => slot.move thread (.storing since object)
    | none => slot.move thread (.restoring since)
  | .storing since object =>
    { slot.move thread (.reading since) with memory := some object }
  | .restoring since =>
    { slot.finish thread (.absent since) with indexed := slot.indexed || slot.memory.isNone }
  | .reading since =>
    match slot.memory with
    | some object => slot.finish thread (.got since object)
    | none => slot.finish thread (.absent since)

/-- The kernel starts again with what is on disk, and no call survives. -/
def restart : RecoveryMode → Slot
  | .eagerly =>
    { slot with
      memory := slot.disk
      indexed := false
      calls := fun _ => .idle
      current := slot.disk }
  | .lazily =>
    { slot with
      memory := none
      indexed := slot.disk.isSome
      calls := fun _ => .idle
      current := slot.disk }

end Slot

inductive Event where
  | start (thread : Nat) (operation : Operation)
  | proceed (thread : Nat)
  | restart (mode : RecoveryMode)

def Slot.step (slot : Slot) : Event → Slot
  | .start thread operation =>
    match slot.calls thread with
    | .idle => slot.start thread operation
    | _ => slot
  | .proceed thread => slot.proceed thread
  | .restart mode => slot.restart mode

/-- A get yields nothing older than what had returned when it started: after a deletion nothing
that was published before, after a publication no older object. And a deletion that found nothing
was right. -/
structure Slot.Linear (slot : Slot) : Prop where
  got : ∀ since object, .got since object ∈ slot.outcomes → since ≤ object
  missed : ∀ current, .missed current ∈ slot.outcomes → current = none

def Call.Holds : Call → Prop
  | .loading _ => True
  | .storing _ _ => True
  | .restoring _ => True
  | _ => False

/-- A publication is saved before anything later has reached the disk, what was loaded is stored
while it is current, and a deletion that finds nothing comes while nobody loads the artifact. -/
def Slot.Ordered (slot : Slot) : Event → Prop
  | .start _ _ => True
  | .proceed thread =>
    match slot.calls thread with
    | .saving serial => slot.written ≤ serial
    | .storing _ object => slot.current = some object
    | .deleting => slot.memory = none → slot.current ≠ none → ∀ other, ¬(slot.calls other).Holds
    | _ => True
  | .restart _ => True

/-- What is known of a call under way. -/
def Slot.Admits (slot : Slot) : Call → Prop
  | .idle | .publishing | .deleting | .clearing => True
  | .saving serial | .removing serial =>
    serial ≤ slot.serial ∧ ∀ object, slot.current = some object → serial ≤ object
  | .flagging serial =>
    serial ≤ slot.serial ∧ serial ≤ slot.written ∧
      ∀ object, slot.current = some object → serial ≤ object
  | .getting since | .checking since | .locking since | .loading since | .storing since _ |
    .restoring since | .reading since => since ≤ slot.returned

/-- The invariant of ordered runs. What is current is in memory, in the index or in the hands of a
loader, and neither it nor what is on disk is older than what has returned. -/
structure Slot.Sound (slot : Slot) : Prop where
  calls : ∀ thread, slot.Admits (slot.calls thread)
  memory : ∀ object, slot.memory = some object → slot.current = some object
  current : ∀ object, slot.current = some object → slot.returned ≤ object
  returned : slot.returned ≤ slot.written
  written : slot.written ≤ slot.serial
  disk : ∀ object, slot.disk = some object → slot.written ≤ object
  held : slot.current ≠ none →
    slot.memory ≠ none ∨ slot.indexed = true ∨ ∃ thread, (slot.calls thread).Holds
  linear : slot.Linear

variable {slot next : Slot} {thread : Nat} {call : Call}

/-- What is known of a call stays true as numbers grow and what is current is replaced. -/
theorem Slot.Admits.mono (admits : slot.Admits call)
    (serial : slot.serial ≤ next.serial) (returned : slot.returned ≤ next.returned)
    (written : slot.written ≤ next.written)
    (current : ∀ object, next.current = some object →
      slot.current = some object ∨ slot.serial ≤ object) : next.Admits call := by
  have kept : ∀ {number : Nat}, number ≤ slot.serial →
      (∀ object, slot.current = some object → number ≤ object) →
      ∀ object, next.current = some object → number ≤ object := by
    intro number bounded older object found
    rcases current object found with same | newer
    · exact older object same
    · exact Nat.le_trans bounded newer
  cases call with
  | idle => trivial
  | publishing => trivial
  | deleting => trivial
  | clearing => trivial
  | saving number => exact ⟨Nat.le_trans admits.1 serial, kept admits.1 admits.2⟩
  | removing number => exact ⟨Nat.le_trans admits.1 serial, kept admits.1 admits.2⟩
  | flagging number =>
    exact ⟨Nat.le_trans admits.1 serial, Nat.le_trans admits.2.1 written, kept admits.1 admits.2.2⟩
  | getting since => exact Nat.le_trans admits returned
  | checking since => exact Nat.le_trans admits returned
  | locking since => exact Nat.le_trans admits returned
  | loading since => exact Nat.le_trans admits returned
  | storing since object => exact Nat.le_trans admits returned
  | restoring since => exact Nat.le_trans admits returned
  | reading since => exact Nat.le_trans admits returned

theorem Slot.Sound.calls_of (sound : slot.Sound)
    (moved : next.calls = update slot.calls thread call) (admits : next.Admits call)
    (serial : slot.serial ≤ next.serial) (returned : slot.returned ≤ next.returned)
    (written : slot.written ≤ next.written)
    (current : ∀ object, next.current = some object →
      slot.current = some object ∨ slot.serial ≤ object) :
    ∀ other, next.Admits (next.calls other) := by
  intro other
  rw [moved]
  by_cases same : other = thread
  · rw [same, update_self]
    exact admits
  · rw [update_of_ne same]
    exact (sound.calls other).mono serial returned written current

/-- A call that goes on without losing the artifact leaves it in somebody's hands. -/
theorem holds_of_move (kept : (slot.calls thread).Holds → call.Holds)
    (holds : ∃ other, (slot.calls other).Holds) :
    ∃ other, (update slot.calls thread call other).Holds := by
  obtain ⟨other, held⟩ := holds
  refine ⟨other, ?_⟩
  by_cases same : other = thread
  · subst same
    rw [update_self]
    exact kept held
  · rwa [update_of_ne same]

/-- A call goes on and nothing else changes. -/
theorem Slot.Sound.move (sound : slot.Sound) (admits : slot.Admits call)
    (kept : (slot.calls thread).Holds → call.Holds) : (slot.move thread call).Sound :=
  { sound with
    calls := sound.calls_of rfl
      (admits.mono (Nat.le_refl _) (Nat.le_refl _) (Nat.le_refl _) fun _ => .inl)
      (Nat.le_refl _) (Nat.le_refl _) (Nat.le_refl _) fun _ => .inl
    held := fun present => by
      rcases sound.held present with memory | indexed | holds
      · exact .inl memory
      · exact .inr (.inl indexed)
      · exact .inr (.inr (holds_of_move kept holds))
    linear := ⟨sound.linear.got, sound.linear.missed⟩ }

variable {outcome : Outcome}

theorem Slot.Linear.append (linear : slot.Linear)
    (outcomes : next.outcomes = slot.outcomes ++ [outcome])
    (got : ∀ since object, outcome = .got since object → since ≤ object)
    (missed : ∀ current, outcome = .missed current → current = none) : next.Linear := by
  constructor
  · intro since object mem
    rw [outcomes] at mem
    rcases mem_append.mp mem with earlier | last
    · exact linear.got since object earlier
    · exact got since object (mem_singleton.mp last).symm
  · intro current mem
    rw [outcomes] at mem
    rcases mem_append.mp mem with earlier | last
    · exact linear.missed current earlier
    · exact missed current (mem_singleton.mp last).symm

section

variable (sound : slot.Sound) (free : ¬(slot.calls thread).Holds)
include sound free

theorem Slot.Sound.finish (got : ∀ since object, outcome = .got since object → since ≤ object)
    (missed : ∀ current, outcome = .missed current → current = none) :
    (slot.finish thread outcome).Sound := by
  have moved : (slot.move thread .idle).Sound :=
    sound.move trivial fun holds => absurd holds free
  exact { moved with linear := sound.linear.append rfl got missed }

/-- What a get finds in memory is no older than what had returned when it started. -/
theorem Slot.Sound.finish_got {since object : Nat} (known : since ≤ slot.returned)
    (found : slot.memory = some object) : (slot.finish thread (.got since object)).Sound := by
  refine sound.finish free (fun since' object' same => ?_) (by simp)
  obtain ⟨rfl, rfl⟩ := Outcome.got.inj same
  exact Nat.le_trans known (sound.current object (sound.memory object found))

theorem Slot.Sound.finish_absent {since : Nat} : (slot.finish thread (.absent since)).Sound :=
  sound.finish free (by simp) (by simp)

end

variable {serial : Nat}

section

variable (sound : slot.Sound)
include sound

theorem Slot.Sound.start (idle : slot.calls thread = .idle)
    (operation : Operation) : (slot.start thread operation).Sound := by
  have free : ∀ call : Call, (slot.calls thread).Holds → call.Holds := by
    intro call holds
    rw [idle] at holds
    exact holds.elim
  cases operation with
  | publish => exact sound.move trivial (free _)
  | delete => exact sound.move trivial (free _)
  | clear => exact sound.move trivial (free _)
  | get => exact sound.move (Nat.le_refl _) (free _)

theorem Slot.Sound.restart (mode : RecoveryMode) : (slot.restart mode).Sound := by
  have current : ∀ object, slot.disk = some object → slot.returned ≤ object :=
    fun object found => Nat.le_trans sound.returned (sound.disk object found)
  cases mode with
  | eagerly => exact { sound with
      calls := fun _ => trivial
      memory := fun _ found => found
      current := current
      held := fun present => .inl present
      linear := ⟨sound.linear.got, sound.linear.missed⟩ }
  | lazily => exact { sound with
      calls := fun _ => trivial
      memory := fun _ found => by cases found
      current := current
      held := fun present => .inr (.inl (Option.isSome_iff_ne_none.mpr present))
      linear := ⟨sound.linear.got, sound.linear.missed⟩ }

/-- The section of a deletion that has found the artifact, or of a clearing. -/
theorem Slot.Sound.take : (slot.take thread).Sound where
  calls := sound.calls_of rfl ⟨Nat.le_refl _, nofun⟩
    (Nat.le_succ _) (Nat.le_refl _) (Nat.le_refl _) nofun
  memory := nofun
  current := nofun
  returned := sound.returned
  written := Nat.le_succ_of_le sound.written
  disk := sound.disk
  held := fun present => absurd rfl present
  linear := ⟨sound.linear.got, sound.linear.missed⟩

/-- The section of a publication that has found nothing. -/
theorem Slot.Sound.publish : ({ slot.move thread (.saving (slot.serial + 1)) with
      memory := some (slot.serial + 1)
      indexed := false
      serial := slot.serial + 1
      current := some (slot.serial + 1) } : Slot).Sound where
  calls := sound.calls_of rfl
    ⟨Nat.le_refl _, fun _ same => Nat.le_of_eq (Option.some.inj same)⟩
    (Nat.le_succ _) (Nat.le_refl _) (Nat.le_refl _)
    fun _ same => .inr (Option.some.inj same ▸ Nat.le_succ _)
  memory := fun _ same => same
  current := fun _ same => Option.some.inj same ▸
    Nat.le_succ_of_le (Nat.le_trans sound.returned sound.written)
  returned := sound.returned
  written := Nat.le_succ_of_le sound.written
  disk := sound.disk
  held := fun _ => .inl (by simp)
  linear := ⟨sound.linear.got, sound.linear.missed⟩

theorem Slot.Sound.save
    (call : slot.calls thread = .saving serial) (ordered : slot.written ≤ serial) :
    ({ slot.move thread (.flagging serial) with
      disk := some serial
      written := max slot.written serial } : Slot).Sound := by
  have admits := sound.calls thread
  rw [call] at admits
  exact { sound with
    calls := sound.calls_of rfl ⟨admits.1, Nat.le_max_right _ _, admits.2⟩ (Nat.le_refl _)
      (Nat.le_refl _) (Nat.le_max_left _ _) fun _ => .inl
    returned := Nat.le_trans sound.returned (Nat.le_max_left _ _)
    written := Nat.max_le.mpr ⟨sound.written, admits.1⟩
    disk := fun _ same => Option.some.inj same ▸ Nat.max_le.mpr ⟨ordered, Nat.le_refl _⟩
    held := fun present => (sound.held present).imp_right (.imp_right
      (holds_of_move fun holds => (by rw [call] at holds; exact holds.elim)))
    linear := ⟨sound.linear.got, sound.linear.missed⟩ }

theorem Slot.Sound.flag (call : slot.calls thread = .flagging serial) :
    ({ slot.move thread .idle with returned := max slot.returned serial } : Slot).Sound := by
  have admits := sound.calls thread
  rw [call] at admits
  exact { sound with
    calls := sound.calls_of rfl trivial (Nat.le_refl _) (Nat.le_max_left _ _) (Nat.le_refl _)
      fun _ => .inl
    current := fun object found =>
      Nat.max_le.mpr ⟨sound.current object found, admits.2.2 object found⟩
    returned := Nat.max_le.mpr ⟨sound.returned, admits.2.1⟩
    held := fun present => (sound.held present).imp_right (.imp_right
      (holds_of_move fun holds => (by rw [call] at holds; exact holds.elim)))
    linear := ⟨sound.linear.got, sound.linear.missed⟩ }

theorem Slot.Sound.remove (call : slot.calls thread = .removing serial) :
    ({ slot.move thread .idle with
      disk := none
      written := max slot.written serial
      returned := max slot.returned serial } : Slot).Sound := by
  have admits := sound.calls thread
  rw [call] at admits
  exact {
    calls := sound.calls_of rfl trivial (Nat.le_refl _) (Nat.le_max_left _ _)
      (Nat.le_max_left _ _) fun _ => .inl
    memory := sound.memory
    current := fun object found =>
      Nat.max_le.mpr ⟨sound.current object found, admits.2 object found⟩
    returned := Nat.max_le.mpr
      ⟨Nat.le_trans sound.returned (Nat.le_max_left _ _), Nat.le_max_right _ _⟩
    written := Nat.max_le.mpr ⟨sound.written, admits.1⟩
    disk := fun _ impossible => by cases impossible
    held := fun present => (sound.held present).imp_right (.imp_right
      (holds_of_move fun holds => (by rw [call] at holds; exact holds.elim)))
    linear := ⟨sound.linear.got, sound.linear.missed⟩ }

theorem Slot.Sound.delete (call : slot.calls thread = .deleting)
    (ordered : slot.memory = none → slot.current ≠ none → ∀ other, ¬(slot.calls other).Holds) :
    (slot.proceed thread).Sound := by
  rw [Slot.proceed, call]
  dsimp only
  split
  case isFalse => exact sound.take
  case isTrue missing =>
    rw [Bool.and_eq_true, Option.isNone_iff_eq_none, Bool.not_eq_true'] at missing
    refine sound.finish (by simp [call, Call.Holds]) (by simp) fun current same => ?_
    obtain rfl := Outcome.missed.inj same
    by_contra present
    rcases sound.held present with memory | indexed | ⟨other, holds⟩
    · exact memory missing.1
    · exact absurd missing.2 (by simp [indexed])
    · exact ordered missing.1 present other holds

theorem Slot.Sound.proceed (ordered : slot.Ordered (.proceed thread)) :
    (slot.proceed thread).Sound := by
  have admits := sound.calls thread
  rw [Slot.Ordered] at ordered
  cases call : slot.calls thread with
  | idle =>
    rw [Slot.proceed, call]
    exact sound
  | publishing =>
    rw [Slot.proceed, call]
    dsimp only
    split
    · exact sound.move trivial (by simp [call, Call.Holds])
    · exact sound.publish
  | saving serial =>
    rw [call] at ordered
    rw [Slot.proceed, call]
    exact sound.save call ordered
  | flagging serial =>
    rw [Slot.proceed, call]
    exact sound.flag call
  | deleting =>
    rw [call] at ordered
    exact sound.delete call ordered
  | clearing =>
    rw [Slot.proceed, call]
    exact sound.take
  | removing serial =>
    rw [Slot.proceed, call]
    exact sound.remove call
  | getting since =>
    rw [call] at admits
    have free : ¬(slot.calls thread).Holds := by simp [call, Call.Holds]
    rw [Slot.proceed, call]
    dsimp only
    split
    case h_1 object found => exact sound.finish_got free admits found
    case h_2 =>
      split
      · exact sound.move admits fun holds => absurd holds free
      · exact sound.finish_absent free
  | checking since =>
    rw [call] at admits
    have free : ¬(slot.calls thread).Holds := by simp [call, Call.Holds]
    rw [Slot.proceed, call]
    dsimp only
    split
    · exact sound.move admits fun holds => absurd holds free
    · split
      · exact sound.move admits fun holds => absurd holds free
      · exact sound.finish_absent free
  | locking since =>
    rw [call] at admits
    have free : ¬(slot.calls thread).Holds := by simp [call, Call.Holds]
    rw [Slot.proceed, call]
    dsimp only
    split
    · exact sound.move admits fun holds => absurd holds free
    · split
      · have moved : (slot.move thread (.loading since)).Sound :=
          sound.move admits fun holds => absurd holds free
        exact { moved with
          held := fun _ => .inr (.inr ⟨thread, by simp [Slot.move, Call.Holds]⟩)
          linear := ⟨sound.linear.got, sound.linear.missed⟩ }
      · exact sound.finish_absent free
  | loading since =>
    rw [call] at admits
    rw [Slot.proceed, call]
    dsimp only
    split
    · exact sound.move admits fun _ => trivial
    · exact sound.move admits fun _ => trivial
  | storing since object =>
    rw [call] at admits ordered
    rw [Slot.proceed, call]
    exact { sound with
      calls := sound.calls_of rfl admits (Nat.le_refl _) (Nat.le_refl _) (Nat.le_refl _)
        fun _ => .inl
      memory := fun _ same => Option.some.inj same ▸ ordered
      held := fun _ => .inl (by simp)
      linear := ⟨sound.linear.got, sound.linear.missed⟩ }
  | restoring since =>
    rw [Slot.proceed, call]
    exact { sound with
      calls := sound.calls_of rfl trivial (Nat.le_refl _) (Nat.le_refl _) (Nat.le_refl _)
        fun _ => .inl
      held := fun _ => by
        -- What the loader could not read is in the index again, unless memory has it.
        cases memory : slot.memory with
        | none => exact .inr (.inl (by simp))
        | some object => exact .inl (by simp [Slot.finish, Slot.move, memory])
      linear := sound.linear.append rfl (by simp) (by simp) }
  | reading since =>
    rw [call] at admits
    have free : ¬(slot.calls thread).Holds := by simp [call, Call.Holds]
    rw [Slot.proceed, call]
    dsimp only
    split
    case h_1 object found => exact sound.finish_got free admits found
    case h_2 => exact sound.finish_absent free

theorem Slot.Sound.step (event : Event) (ordered : slot.Ordered event) :
    (slot.step event).Sound := by
  cases event with
  | start thread operation =>
    rw [Slot.step]
    split
    case h_1 idle => exact sound.start idle operation
    case h_2 => exact sound
  | proceed thread => exact sound.proceed ordered
  | restart mode => exact sound.restart mode

end

theorem sound_initial : Slot.initial.Sound where
  calls _ := trivial
  memory _ impossible := by cases impossible
  current _ impossible := by cases impossible
  returned := Nat.le_refl _
  written := Nat.le_refl _
  disk _ impossible := by cases impossible
  held present := absurd rfl present
  linear := ⟨by simp [Slot.initial], by simp [Slot.initial]⟩

/-- In every ordered run, whatever the threads and the order of their steps, gets and deletions see
what they must. -/
theorem linear_along (events : List Event)
    (ordered : EachStep Slot.step Slot.Ordered .initial events) :
    ∀ slot ∈ statesAlong Slot.step .initial events, slot.Linear := fun slot reached =>
  (ordered.invariant_along Slot.Sound (fun _ event sound ordered => sound.step event ordered)
    sound_initial slot reached).linear

/-- An artifact is published, the kernel starts again, a get loads it, and another thread deletes
it. -/
def orderedRun : List Event :=
  [.start 0 .publish, .proceed 0, .proceed 0, .proceed 0, .restart .lazily, .start 1 .get,
    .proceed 1, .proceed 1, .proceed 1, .proceed 1, .proceed 1, .proceed 1, .start 0 .delete,
    .proceed 0, .proceed 0, .start 1 .get, .proceed 1]

theorem orderedRun_linear : ∃ slot ∈ statesAlong Slot.step .initial orderedRun,
      slot.outcomes = [.got 1 1, .absent 2] ∧ slot.Linear :=
  ⟨_, mem_of_getLast? rfl, rfl, linear_along orderedRun
    ⟨trivial, trivial, Nat.zero_le _, trivial, trivial, trivial, trivial, trivial, trivial,
      trivial, rfl, trivial, trivial, fun missing => absurd missing (by decide), trivial, trivial,
      trivial, trivial⟩ _ (mem_of_getLast? rfl)⟩

theorem lateSave_notLinear : ¬∀ slot ∈ statesAlong Slot.step .initial
        [.start 0 .publish, .proceed 0, .start 1 .delete, .proceed 1, .proceed 1, .proceed 0,
          .proceed 0, .restart .eagerly, .start 2 .get, .proceed 2],
      slot.Linear := by
  intro linear
  have last := (linear _ (mem_of_getLast? rfl)).got 2 1 (mem_of_getLast? rfl)
  omega

end Flowfile.ArtifactRaces

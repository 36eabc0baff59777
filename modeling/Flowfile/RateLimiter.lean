import Flowfile.Library.SlidingWindows
import Mathlib.Algebra.Order.Ring.Rat
import Mathlib.Data.Finset.Dedup
import Mathlib.Data.Finset.Order
import Mathlib.Data.List.Induction
import Mathlib.Data.List.TakeWhile
import Mathlib.Data.PNat.Notation

/-!
# The rate limiter of the assistant's providers

A provider's calls are throttled by a limit for each minute, a limit for each day and a back-off
that its responses set. Both windows drop what is older than their span before they are judged, so
a call exactly that old stays in front of the window and, as the oldest one, opens it.
-/

namespace Flowfile.RateLimiter

open Library.SlidingWindows

/-- `_ProviderState`, the windows oldest call first. Instants are exact seconds. -/
structure ProviderState where
  rpmLimit : Option ℕ+
  rpdLimit : Option ℕ+
  rpmWindow : List ℚ := []
  rpdWindow : List ℚ := []
  nextAllowedAt : ℚ := 0

def dropOlderThan (window : List ℚ) (cutoff : ℚ) : List ℚ :=
  window.dropWhile (· < cutoff)

/-- One limit's part of the check: its window pruned, and the wait so far raised until the oldest
call expires once the limit is reached. -/
def checkLimit (span : ℚ) (limit : Option ℕ+) (window : List ℚ) (now wait : ℚ) : List ℚ × ℚ :=
  match limit with
  | none => (window, wait)
  | some limit =>
    match dropOlderThan window (now - span) with
    | [] => ([], wait)
    | oldest :: younger =>
      (oldest :: younger,
        if limit ≤ (oldest :: younger).length then max wait (oldest + span - now) else wait)

def record (limit : Option ℕ+) (window : List ℚ) (now : ℚ) : List ℚ :=
  if limit.isSome then window ++ [now] else window

def computeAndRecord (state : ProviderState) (now : ℚ) : ProviderState × ℚ :=
  let wait := if now < state.nextAllowedAt then max 0 (state.nextAllowedAt - now) else 0
  let (rpmWindow, wait) := checkLimit 60 state.rpmLimit state.rpmWindow now wait
  let (rpdWindow, wait) := checkLimit 86400 state.rpdLimit state.rpdWindow now wait
  if wait ≤ 0 then
    ({ state with
      rpmWindow := record state.rpmLimit rpmWindow now
      rpdWindow := record state.rpdLimit rpdWindow now }, 0)
  else
    ({ state with rpmWindow, rpdWindow }, wait)

def noteResponse (state : ProviderState) (now : ℚ) (retryAfterSeconds : Option ℚ) : ProviderState :=
  match retryAfterSeconds with
  | none => state
  | some seconds =>
    if seconds ≤ 0 then state
    else if state.nextAllowedAt < now + seconds then { state with nextAllowedAt := now + seconds }
    else state

inductive Event where
  | acquire (now : ℚ)
  | noteResponse (now : ℚ) (retryAfterSeconds : Option ℚ)

def Event.time : Event → ℚ
  | .acquire now => now
  | .noteResponse now _ => now

/-- The provider's state with the calls admitted so far, newest first. -/
structure Run where
  state : ProviderState
  admitted : List ℚ := []

/-- The wait that an attempt at the end of the run returns. -/
def Run.wait (run : Run) (now : ℚ) : ℚ :=
  (computeAndRecord run.state now).2

def Run.step (run : Run) : Event → Run
  | .acquire now =>
    ⟨(computeAndRecord run.state now).1,
      if run.wait now ≤ 0 then now :: run.admitted else run.admitted⟩
  | .noteResponse now retryAfterSeconds =>
    { run with state := noteResponse run.state now retryAfterSeconds }

def Run.after (rpmLimit rpdLimit : Option ℕ+) (events : List Event) : Run :=
  events.foldl Run.step { state := { rpmLimit, rpdLimit } }

open Run (step after)

/-- A call exactly its span old opens the window although the younger ones fill it. -/
def Crowded (span : ℚ) (limit : Option ℕ+) (window : List ℚ) (now : ℚ) : Prop :=
  now - span ∈ window ∧ ∃ bound ∈ limit, bound ≤ window.countP (now - span < ·)

variable {span now wait delay clock : ℚ} {limit : Option ℕ+} {bound : ℕ+} {window admitted : List ℚ}

/-- The limit is not reached, or its oldest call expires within the delay. -/
def Opens (span : ℚ) (limit : Option ℕ+) (window : List ℚ) (now delay : ℚ) : Prop :=
  ∀ bound ∈ limit, bound ≤ (dropOlderThan window (now - span)).length →
    ∃ oldest ∈ (dropOlderThan window (now - span)).head?, oldest + span ≤ now + delay

theorem checkLimit_wait : (checkLimit span limit window now wait).2 ≤ delay ↔
    wait ≤ delay ∧ Opens span limit window now delay := by
  cases limit with
  | none => simp [checkLimit, Opens]
  | some bound =>
    simp only [checkLimit, Opens, Option.mem_def, Option.some.injEq, forall_eq']
    cases dropOlderThan window (now - span) with
    | nil => simp
    | cons oldest younger =>
      by_cases full : bound ≤ (oldest :: younger).length
      · simp only [full, if_true, max_le_iff, sub_le_iff_le_add', List.head?_cons,
          Option.some.injEq, exists_eq_left', forall_const]
      · simp only [full, if_false, false_imp_iff, and_true]

theorem checkLimit_window : (checkLimit span limit window now wait).1 =
    if limit.isSome then dropOlderThan window (now - span) else window := by
  cases limit with
  | none => rfl
  | some bound =>
    rw [checkLimit]
    cases dropOlderThan window (now - span) <;> rfl

/-- A limit's window after an attempt. -/
def moved (span : ℚ) (limit : Option ℕ+) (window : List ℚ) (now : ℚ) (admits : Prop)
    [Decidable admits] : List ℚ :=
  if limit.isSome then
    dropOlderThan window (now - span) ++ if admits then [now] else []
  else window

theorem computeAndRecord_eq (state : ProviderState) (now : ℚ) :
    (computeAndRecord state now).1 = { state with
      rpmWindow := moved 60 state.rpmLimit state.rpmWindow now ((computeAndRecord state now).2 ≤ 0)
      rpdWindow := moved 86400 state.rpdLimit state.rpdWindow now
        ((computeAndRecord state now).2 ≤ 0) } ∧
    ∀ delay, (computeAndRecord state now).2 ≤ delay ↔
      0 ≤ delay ∧ state.nextAllowedAt ≤ now + delay ∧
        Opens 60 state.rpmLimit state.rpmWindow now delay ∧
        Opens 86400 state.rpdLimit state.rpdWindow now delay := by
  have backOff (delay : ℚ) : (if now < state.nextAllowedAt
      then max 0 (state.nextAllowedAt - now) else 0) ≤ delay ↔
      0 ≤ delay ∧ state.nextAllowedAt ≤ now + delay := by
    split
    · rw [max_le_iff, sub_le_iff_le_add']
    · exact ⟨fun nonneg => ⟨nonneg, by linarith⟩, And.left⟩
  generalize total : (checkLimit 86400 state.rpdLimit state.rpdWindow now
    (checkLimit 60 state.rpmLimit state.rpmWindow now
      (if now < state.nextAllowedAt then max 0 (state.nextAllowedAt - now) else 0)).2).2 = wait
  have bounded (delay : ℚ) : wait ≤ delay ↔ 0 ≤ delay ∧ state.nextAllowedAt ≤ now + delay ∧
      Opens 60 state.rpmLimit state.rpmWindow now delay ∧
      Opens 86400 state.rpdLimit state.rpdWindow now delay := by
    rw [← total, checkLimit_wait, checkLimit_wait, backOff]
    tauto
  have nonneg := ((bounded wait).mp le_rfl).1
  by_cases free : wait ≤ 0
  · have zero : wait = 0 := le_antisymm free nonneg
    simp only [computeAndRecord, total, if_pos free, checkLimit_window]
    refine ⟨?_, zero ▸ bounded⟩
    simp only [le_refl, if_true, record, moved]
    split <;> split <;> simp_all
  · simp only [computeAndRecord, total, if_neg free, checkLimit_window]
    exact ⟨by simp [moved, free], bounded⟩

/-- The window holds the admitted calls but for some that are older than the span. -/
structure Tracks (span : ℚ) (window admitted : List ℚ) (clock : ℚ) : Prop where
  recorded : ∃ dropped, admitted = (dropped ++ window).reverse ∧
    ∀ call ∈ dropped, call < clock - span
  inOrder : window.Pairwise (· ≤ ·)
  past : ∀ call ∈ admitted, call ≤ clock

theorem Tracks.countP_eq (tracks : Tracks span window admitted clock) {now : ℚ}
    (later : clock ≤ now) :
    admitted.countP (now - span < ·) = window.countP (now - span < ·) := by
  obtain ⟨dropped, rfl, old⟩ := tracks.recorded
  rw [List.countP_reverse, List.countP_append, Nat.add_eq_right, List.countP_eq_zero]
  intro call mem young
  linarith [old call mem, of_decide_eq_true young]

theorem Tracks.later (tracks : Tracks span window admitted clock) (later : clock ≤ now) :
    Tracks span window admitted now := by
  obtain ⟨dropped, rfl, old⟩ := tracks.recorded
  exact ⟨⟨dropped, rfl, fun call mem => by linarith [old call mem]⟩, tracks.inOrder,
    fun call mem => (tracks.past call mem).trans later⟩

theorem Tracks.pruned (tracks : Tracks span window admitted now) :
    Tracks span (dropOlderThan window (now - span)) admitted now := by
  obtain ⟨dropped, rfl, old⟩ := tracks.recorded
  refine ⟨⟨dropped ++ window.takeWhile (· < now - span), ?_, fun call mem => ?_⟩,
    tracks.inOrder.sublist (List.dropWhile_sublist _), tracks.past⟩
  · rw [dropOlderThan, List.append_assoc, List.takeWhile_append_dropWhile]
  · rcases List.mem_append.mp mem with before | taken
    · exact old call before
    · simpa using List.mem_takeWhile_imp taken

theorem Tracks.record (tracks : Tracks span window admitted now) :
    Tracks span (window ++ [now]) (now :: admitted) now := by
  obtain ⟨dropped, rfl, old⟩ := tracks.recorded
  have past (call : ℚ) (mem : call ∈ window) : call ≤ now :=
    tracks.past call (by simp [mem])
  refine ⟨⟨dropped, by simp, old⟩, List.pairwise_append.mpr ⟨tracks.inOrder, by simp, ?_⟩,
    List.forall_mem_cons.mpr ⟨le_rfl, tracks.past⟩⟩
  simpa using past

/-- A limit's window remembers the calls, and none of its spans holds too many of them. -/
def Watch (span : ℚ) (limit : Option ℕ+) (window admitted : List ℚ) (clock : ℚ) : Prop :=
  ∀ bound ∈ limit, Tracks span window admitted clock ∧ Sparse span bound admitted

theorem Watch.later (watch : Watch span limit window admitted clock) (later : clock ≤ now) :
    Watch span limit window admitted now :=
  fun bound limited => ⟨(watch bound limited).1.later later, (watch bound limited).2⟩

theorem head_of_pruned {cutoff oldest : ℚ}
    (isOldest : oldest ∈ (dropOlderThan window cutoff).head?) :
    oldest ∈ window ∧ cutoff ≤ oldest := by
  refine ⟨(List.dropWhile_sublist _).mem (List.mem_of_mem_head? isOldest), ?_⟩
  have kept := List.head?_dropWhile_not (· < cutoff) window
  rw [show (window.dropWhile (· < cutoff)).head? = some oldest from isOldest] at kept
  simpa using kept

theorem few_of_opens (tracks : Tracks span window admitted now)
    (opens : Opens span limit window now 0) (limited : bound ∈ limit)
    (uncrowded : ¬Crowded span limit window now) : admitted.countP (now - span < ·) < bound := by
  by_contra many
  rw [not_lt] at many
  obtain ⟨oldest, isOldest, expired⟩ := opens bound limited
    ((many.trans_eq (tracks.pruned.countP_eq le_rfl)).trans List.countP_le_length)
  obtain ⟨mem, notOlder⟩ := head_of_pruned isOldest
  refine uncrowded ⟨?_, bound, limited, tracks.countP_eq le_rfl ▸ many⟩
  rwa [show now - span = oldest by linarith]

theorem Watch.step (watch : Watch span limit window admitted now) {admits : Prop} [Decidable admits]
    (opens : admits → Opens span limit window now 0) (uncrowded : ¬Crowded span limit window now) :
    Watch span limit (moved span limit window now admits)
      (if admits then now :: admitted else admitted) now := by
  intro bound limited
  obtain ⟨tracks, sparse⟩ := watch bound limited
  rw [moved, if_pos (Option.isSome_of_mem limited)]
  by_cases free : admits
  · rw [if_pos free, if_pos free]
    exact ⟨tracks.pruned.record, few_of_opens tracks (opens free) limited uncrowded, sparse⟩
  · rw [if_neg free, if_neg free, List.append_nil]
    exact ⟨tracks.pruned, sparse⟩

theorem Watch.opens (watch : Watch span limit window admitted now) (waiting : 0 < wait)
    (within : Opens span limit window now wait) (uncrowded : ¬Crowded span limit window now)
    {since : List ℚ} (resumed : Watch span limit since admitted (now + wait)) :
    Opens span limit since (now + wait) 0 := by
  intro bound limited full
  obtain ⟨tracks, sparse⟩ := watch bound limited
  have later := (resumed bound limited).1.pruned
  set kept := dropOlderThan since (now + wait - span)
  match isKept : kept with
  | [] => exact absurd full (by simp)
  | oldest :: younger =>
    refine ⟨oldest, rfl, ?_⟩
    by_contra unexpired
    have all : admitted.countP (now + wait - span < ·) = (oldest :: younger).length := by
      rw [later.countP_eq le_rfl, List.countP_eq_length]
      intro call mem
      rcases List.mem_cons.mp mem with rfl | mem
      · exact decide_eq_true (by linarith)
      · exact decide_eq_true (by linarith [(List.pairwise_cons.mp later.inOrder).1 call mem])
    have weaker (call : ℚ) (young : decide (now + wait - span < call) = true) :
        decide (now - span < call) = true :=
      decide_eq_true (by linarith [of_decide_eq_true young])
    have many : bound ≤ admitted.countP (now - span < ·) :=
      (all ▸ full).trans (List.countP_mono_left fun call _ => weaker call)
    have young := tracks.countP_eq le_rfl
    obtain ⟨first, isFirst, expires⟩ := within bound limited
      ((many.trans_eq (tracks.pruned.countP_eq le_rfl)).trans List.countP_le_length)
    obtain ⟨_, recorded, _⟩ := tracks.recorded
    obtain ⟨mem, notOlder⟩ := head_of_pruned isFirst
    have fewer := countP_lt_countP weaker (show first ∈ admitted by simp [recorded, mem])
      (decide_eq_true (lt_of_le_of_ne notOlder fun same =>
        uncrowded ⟨same ▸ mem, bound, limited, young ▸ many⟩))
      (by simpa using by linarith)
    have := sparse.recent tracks.past
    have := all ▸ fewer
    omega

variable {rpm rpd : Option ℕ+} {events : List Event}

theorem noteResponse_eq (state : ProviderState) (now : ℚ) (retryAfterSeconds : Option ℚ) :
    ∃ nextAllowedAt, noteResponse state now retryAfterSeconds = { state with nextAllowedAt } := by
  unfold noteResponse
  split
  · exact ⟨_, rfl⟩
  · split
    · exact ⟨_, rfl⟩
    · split <;> exact ⟨_, rfl⟩

theorem after_concat (event : Event) :
    after rpm rpd (events ++ [event]) = (after rpm rpd events).step event :=
  List.foldl_concat ..

theorem after_limits (events : List Event) : (after rpm rpd events).state.rpmLimit = rpm ∧
    (after rpm rpd events).state.rpdLimit = rpd := by
  induction events using List.reverseRecOn with
  | nil => exact ⟨rfl, rfl⟩
  | append_singleton earlier event ih =>
    rw [after_concat]
    cases event with
    | acquire now =>
      rw [step, (computeAndRecord_eq _ now).1]
      exact ih
    | noteResponse now retryAfterSeconds =>
      obtain ⟨_, same⟩ := noteResponse_eq (after rpm rpd earlier).state now retryAfterSeconds
      rw [step, same]
      exact ih

/-- No attempt falls on a crowded instant of either limit. -/
def Uncrowded (rpm rpd : Option ℕ+) (events : List Event) : Prop :=
  ∀ before now later, events = before ++ .acquire now :: later →
    ¬Crowded 60 rpm (after rpm rpd before).state.rpmWindow now ∧
    ¬Crowded 86400 rpd (after rpm rpd before).state.rpdWindow now

theorem Uncrowded.earlier {later : List Event} (uncrowded : Uncrowded rpm rpd (events ++ later)) :
    Uncrowded rpm rpd events :=
  fun before now rest same => uncrowded before now (rest ++ later) (by simp [same])

structure Sound (rpm rpd : Option ℕ+) (run : Run) (clock : ℚ) : Prop where
  minute : Watch 60 rpm run.state.rpmWindow run.admitted clock
  day : Watch 86400 rpd run.state.rpdWindow run.admitted clock

theorem sound (inOrder : (events.map Event.time).Pairwise (· ≤ ·))
    (uncrowded : Uncrowded rpm rpd events) (past : ∀ event ∈ events, event.time ≤ now) :
    Sound rpm rpd (after rpm rpd events) now := by
  induction events using List.reverseRecOn generalizing now with
  | nil =>
    have empty (span : ℚ) : Tracks span [] [] now := ⟨⟨[], rfl, by simp⟩, .nil, by simp⟩
    exact ⟨fun _ _ => ⟨empty 60, trivial⟩, fun _ _ => ⟨empty 86400, trivial⟩⟩
  | append_singleton earlier event ih =>
    rw [List.map_append, List.pairwise_append] at inOrder
    have before : Sound rpm rpd (after rpm rpd earlier) event.time :=
      ih inOrder.1 uncrowded.earlier fun other mem =>
        inOrder.2.2 _ (List.mem_map_of_mem mem) _ (by simp)
    have turn : event.time ≤ now := past event (by simp)
    rw [after_concat]
    cases event with
    | acquire time =>
      obtain ⟨rpmFree, rpdFree⟩ := uncrowded earlier time [] rfl
      obtain ⟨isRpm, isRpd⟩ := @after_limits rpm rpd earlier
      obtain ⟨moves, waits⟩ := computeAndRecord_eq (after rpm rpd earlier).state time
      rw [isRpm, isRpd] at moves waits
      rw [step, moves]
      exact ⟨(before.minute.step (fun free => ((waits 0).mp free).2.2.1) rpmFree).later turn,
        (before.day.step (fun free => ((waits 0).mp free).2.2.2) rpdFree).later turn⟩
    | noteResponse time retryAfterSeconds =>
      obtain ⟨_, same⟩ := noteResponse_eq (after rpm rpd earlier).state time retryAfterSeconds
      rw [step, same]
      exact ⟨before.minute.later turn, before.day.later turn⟩

theorem sound_before {before later : List Event} {event : Event}
    (inOrder : ((before ++ event :: later).map Event.time).Pairwise (· ≤ ·))
    (uncrowded : Uncrowded rpm rpd (before ++ event :: later)) :
    Sound rpm rpd (after rpm rpd before) event.time := by
  rw [List.map_append, List.pairwise_append] at inOrder
  exact sound inOrder.1 uncrowded.earlier fun other mem =>
    inOrder.2.2 _ (List.mem_map_of_mem mem) _ (by simp)

/-- The second call comes when the first one is exactly a minute old. -/
theorem uncrowded_pair : Uncrowded (some 1) none [.acquire 0, .acquire 60] := by
  rintro before now later same
  rcases before with _ | ⟨first, _ | ⟨second, rest⟩⟩
  · exact ⟨fun crowded => List.not_mem_nil crowded.1, fun crowded => List.not_mem_nil crowded.1⟩
  · obtain ⟨rfl, rfl, -⟩ : _ ∧ _ ∧ _ := by simpa using same
    constructor
    · rintro ⟨_, bound, limited, many⟩
      cases limited
      revert many
      decide +kernel
    · rintro ⟨_, bound, limited, _⟩
      cases limited
  · simp at same

end Flowfile.RateLimiter

import Mathlib.Logic.Basic

/-!
# Runs of systems driven by events

A system takes one step per event. A run is judged state by state: an invariant holds along it when
every state it passes through, the first included, satisfies it. A step condition speaks about the
state before a step and the event.

If a step from a good state ends in a good state exactly when the condition holds, then a whole run
stays good exactly when each of its steps meets the condition. For a system whose steps may have
several outcomes, or none, the rule is the usual induction over the run.
-/

namespace Flowfile.Library.EventRuns

universe u v
variable {σ : Type u} {ε : Type v}

section

variable (step : σ → ε → σ)

/-- The states that a run passes through, in order. -/
def statesAlong (start : σ) : List ε → List σ
  | [] => [start]
  | event :: rest => start :: statesAlong (step start event) rest

/-- Every step of the run meets the condition in the state before it. -/
def EachStep (condition : σ → ε → Prop) (start : σ) : List ε → Prop
  | [] => True
  | event :: rest => condition start event ∧ EachStep condition (step start event) rest

/-- The first state of a run belongs to it. -/
theorem start_mem_statesAlong (start : σ) (events : List ε) :
    start ∈ statesAlong step start events := by
  cases events <;> simp [statesAlong]

theorem good_along_iff (good : σ → Prop) (condition : σ → ε → Prop)
    (exact : ∀ state event, good state → (good (step state event) ↔ condition state event))
    (start : σ) (initially : good start) (events : List ε) :
    (∀ state ∈ statesAlong step start events, good state) ↔
      EachStep step condition start events := by
  induction events generalizing start with
  | nil => simpa [statesAlong, EachStep] using initially
  | cons event rest ih =>
    simp only [statesAlong, EachStep, List.mem_cons, forall_eq_or_imp]
    constructor
    · rintro ⟨_, along⟩
      have next := along (step start event) (start_mem_statesAlong step _ _)
      exact ⟨(exact start event initially).mp next, (ih _ next).mp along⟩
    · rintro ⟨condition, later⟩
      have next := (exact start event initially).mpr condition
      exact ⟨initially, (ih _ next).mpr later⟩

/-- An invariant kept by every step holds in every state of every run. -/
theorem invariant_along (invariant : σ → Prop)
    (preserves : ∀ state event, invariant state → invariant (step state event))
    (start : σ) (initially : invariant start) (events : List ε) :
    ∀ state ∈ statesAlong step start events, invariant state := by
  induction events generalizing start with
  | nil => simpa [statesAlong] using initially
  | cons event rest ih =>
    simp only [statesAlong, List.mem_cons, forall_eq_or_imp]
    exact ⟨initially, ih _ (preserves start event initially)⟩

section

variable {step : σ → ε → σ} {condition : σ → ε → Prop} {start : σ} {events : List ε}
  (meets : EachStep step condition start events) (invariant : σ → Prop)
  (preserves : ∀ state event, invariant state → condition state event →
    invariant (step state event))
  (initially : invariant start)
include meets invariant preserves initially

theorem EachStep.invariant_along : ∀ state ∈ statesAlong step start events, invariant state := by
  induction events generalizing start with
  | nil => simpa [statesAlong] using initially
  | cons event rest ih =>
    simp only [statesAlong, List.mem_cons, forall_eq_or_imp]
    exact ⟨initially, ih meets.2 (preserves start event initially meets.1)⟩

theorem EachStep.within :
    EachStep step (fun state event => invariant state ∧ condition state event) start events := by
  induction events generalizing start with
  | nil => trivial
  | cons event rest ih =>
    exact ⟨⟨initially, meets.1⟩, ih meets.2 (preserves start event initially meets.1)⟩

end

/-- Conditions met by all steps are met together. -/
theorem EachStep.and {step : σ → ε → σ} {first second : σ → ε → Prop} {start : σ}
    {events : List ε} (meetsFirst : EachStep step first start events)
    (meetsSecond : EachStep step second start events) :
    EachStep step (fun state event => first state event ∧ second state event) start events := by
  induction events generalizing start with
  | nil => trivial
  | cons event rest ih =>
    exact ⟨⟨meetsFirst.1, meetsSecond.1⟩, ih meetsFirst.2 meetsSecond.2⟩

theorem EachStep.mono {step : σ → ε → σ} {condition weaker : σ → ε → Prop} {start : σ}
    {events : List ε} (meets : EachStep step condition start events)
    (weakens : ∀ state event, condition state event → weaker state event) :
    EachStep step weaker start events := by
  induction events generalizing start with
  | nil => trivial
  | cons event rest ih =>
    exact ⟨weakens _ _ meets.1, ih meets.2⟩

theorem EachStep.drop {step : σ → ε → σ} {condition : σ → ε → Prop} {start : σ}
    {earlier later : List ε} (meets : EachStep step condition start (earlier ++ later)) :
    EachStep step condition (earlier.foldl step start) later := by
  induction earlier generalizing start with
  | nil => exact meets
  | cons event rest ih => exact ih meets.2

end

section

variable (step : σ → ε → σ → Prop) (condition : σ → ε → Prop)

inductive Reached (start : σ) : σ → Prop
  | start : Reached start start
  | step {state next : σ} {event : ε} (earlier : Reached start state)
      (meets : condition state event) (taken : step state event next) : Reached start next

theorem Reached.invariant {step : σ → ε → σ → Prop} {condition : σ → ε → Prop} {start state : σ}
    (invariant : σ → Prop)
    (preserves : ∀ state event next, invariant state → condition state event →
      step state event next → invariant next)
    (initially : invariant start) (reached : Reached step condition start state) :
    invariant state := by
  induction reached with
  | start => exact initially
  | step _ meets taken ih => exact preserves _ _ _ ih meets taken

end

end Flowfile.Library.EventRuns

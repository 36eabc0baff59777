import Mathlib.Data.List.Basic

/-!
# Straight-line programs over names

A step computes values for the names it writes from the values of the names it reads, and fails
when one of them is unbound. A program runs its steps in order.

When every name is written before it is read, the environment a program ends in solves the equation
of each of its steps. Other programs whose steps solve the same equations, and that find what they
read, end in the same values, in whatever order they compute them.
-/

namespace Library.StraightLine

open List

variable {Name Value : Type} [DecidableEq Name]

/-- The values of the names that are bound. -/
abbrev Env (Name Value : Type) : Type := Name → Option Value

structure Step (Name Value : Type) where
  reads : List Name
  writes : List Name
  results : Env Name Value → Option (Name → Value)
  depends : ∀ {env other : Env Name Value}, (∀ name ∈ reads, env name = other name) →
    results env = results other
  needs : ∀ {env : Env Name Value} {name : Name}, name ∈ reads → env name = none →
    results env = none

def Step.run (step : Step Name Value) (env : Env Name Value) : Option (Env Name Value) :=
  (step.results env).map fun values name =>
    if name ∈ step.writes then some (values name) else env name

def runAll : List (Step Name Value) → Env Name Value → Option (Env Name Value)
  | [], env => some env
  | step :: rest, env => (step.run env).bind (runAll rest)

variable {step : Step Name Value} {steps : List (Step Name Value)}
  {env next start final : Env Name Value} {name : Name}

/-- What a step that succeeds has computed and bound. -/
theorem run_cases (ran : step.run env = some next) : ∃ values, step.results env = some values ∧
      ∀ name, next name = if name ∈ step.writes then some (values name) else env name := by
  obtain ⟨values, computed, rfl⟩ := Option.map_eq_some_iff.mp ran
  exact ⟨values, computed, fun _ => rfl⟩

/-- The first step of a program that succeeds, and the rest. -/
theorem runAll_cons (ran : runAll (step :: steps) env = some final) :
    ∃ next, step.run env = some next ∧ runAll steps next = some final :=
  Option.bind_eq_some_iff.mp ran

/-- Names a step does not write keep their values. -/
theorem run_frame (ran : step.run env = some next) (unwritten : name ∉ step.writes) :
    next name = env name := by
  obtain ⟨values, _, bound⟩ := run_cases ran
  rw [bound, if_neg unwritten]

/-- Names no step writes keep their values. -/
theorem runAll_frame (ran : runAll steps env = some final)
    (unwritten : ∀ step ∈ steps, name ∉ step.writes) : final name = env name := by
  induction steps generalizing env with
  | nil =>
    cases ran
    rfl
  | cons step rest ih =>
    obtain ⟨next, first, later⟩ := runAll_cons ran
    rw [ih later fun other mem =>
      unwritten other (mem_cons_of_mem _ mem)]
    exact run_frame first (unwritten step mem_cons_self)

/-- A program runs in two parts. -/
theorem runAll_append (before after : List (Step Name Value)) (env : Env Name Value) :
    runAll (before ++ after) env = (runAll before env).bind (runAll after) := by
  induction before generalizing env with
  | nil => rfl
  | cons step rest ih =>
    rw [cons_append, runAll, runAll]
    cases step.run env with
    | none => rfl
    | some next => exact ih next

def Ordered : List (Step Name Value) → Prop
  | [] => True
  | step :: rest =>
    (∀ name ∈ step.reads, ∀ later ∈ step :: rest, name ∉ later.writes) ∧ Ordered rest

omit [DecidableEq Name] in
theorem Ordered.drop {before after : List (Step Name Value)} (ordered : Ordered (before ++ after)) :
    Ordered after := by
  induction before with
  | nil => exact ordered
  | cons step rest ih => exact ih ordered.2

/-- In the last environment of an ordered program every step computes what it computed when it ran,
and the names it was the last to write are bound to that. -/
theorem Ordered.solves {before after : List (Step Name Value)}
    (ordered : Ordered (before ++ step :: after))
    (ran : runAll (before ++ step :: after) start = some final) :
    ∃ values, step.results final = some values ∧
      ∀ name ∈ step.writes, (∀ later ∈ after, name ∉ later.writes) →
        final name = some (values name) := by
  rw [runAll_append] at ran
  obtain ⟨env, _, along⟩ := Option.bind_eq_some_iff.mp ran
  obtain ⟨next, here, later⟩ := runAll_cons along
  obtain ⟨values, computed, bound⟩ := run_cases here
  refine ⟨values, ?_, fun name written unwritten => ?_⟩
  · rw [← computed]
    refine step.depends fun name read => ?_
    exact runAll_frame along (ordered.drop.1 name read)
  · rw [runAll_frame later unwritten, bound, if_pos written]

/-- A step whose results in an environment are what the environment says, for the names that
matter. -/
def Solves (final : Env Name Value) (matters : Name → Prop) (step : Step Name Value) : Prop :=
  ∃ values, step.results final = some values ∧
    ∀ name ∈ step.writes, matters name → final name = some (values name)

/-- Every step reads only names that are known, initially or because an earlier step wrote them. -/
def Available (matters : Name → Prop) : (Name → Prop) → List (Step Name Value) → Prop
  | _, [] => True
  | known, step :: rest =>
    (∀ name ∈ step.reads, known name) ∧
      Available matters (fun name => known name ∨ matters name ∧ name ∈ step.writes) rest

omit [DecidableEq Name] in
theorem Ordered.available {matters known : Name → Prop} (ordered : Ordered steps)
    (reads : ∀ step ∈ steps, ∀ name ∈ step.reads, matters name)
    (initial : ∀ name, matters name → (∀ step ∈ steps, name ∉ step.writes) → known name) :
    Available matters known steps := by
  induction steps generalizing known with
  | nil => trivial
  | cons step rest ih =>
    refine ⟨fun name read => ?_, ih ordered.2
      (fun other mem => reads other (mem_cons_of_mem _ mem)) fun name matter later => ?_⟩
    · exact initial name (reads step mem_cons_self name read) (ordered.1 name read)
    · by_cases written : name ∈ step.writes
      · exact .inr ⟨matter, written⟩
      · refine .inl (initial name matter fun other mem => ?_)
        rcases mem_cons.mp mem with rfl | inRest
        · exact written
        · exact later other inRest

theorem Solves.run {matters known : Name → Prop} (solves : Solves final matters step)
    (reads : ∀ name ∈ step.reads, known name) (important : ∀ name, known name → matters name)
    (agrees : ∀ name, known name → env name = final name) :
    ∃ next, step.run env = some next ∧
      ∀ name, known name ∨ matters name ∧ name ∈ step.writes → next name = final name := by
  obtain ⟨values, computed, bound⟩ := solves
  have same : step.results env = some values :=
    (step.depends fun name read => agrees name (reads name read)).trans computed
  refine ⟨fun name => if name ∈ step.writes then some (values name) else env name, ?_, ?_⟩
  · rw [Step.run, same]
    rfl
  · intro name settled
    dsimp only
    split
    case isTrue written =>
      have relevant : matters name := settled.elim (important name) And.left
      exact (bound name written relevant).symm
    case isFalse unwritten =>
      exact agrees name (settled.resolve_right fun both => unwritten both.2)

/-- A program whose steps solve the equations and find what they read ends in the same values. -/
theorem runAll_solves {matters known : Name → Prop}
    (solves : ∀ step ∈ steps, Solves final matters step) (available : Available matters known steps)
    (important : ∀ name, known name → matters name)
    (agrees : ∀ name, known name → env name = final name) :
    ∃ last, runAll steps env = some last ∧
      ∀ name, known name ∨ (matters name ∧ ∃ step ∈ steps, name ∈ step.writes) →
        last name = final name := by
  induction steps generalizing env known with
  | nil => exact ⟨env, rfl, fun name settled => agrees name (by simpa using settled)⟩
  | cons step rest ih =>
    obtain ⟨next, ran, nextAgrees⟩ :=
      (solves step mem_cons_self).run available.1 important agrees
    obtain ⟨last, ranRest, lastAgrees⟩ := ih
      (fun other mem => solves other (mem_cons_of_mem _ mem)) available.2
      (fun name settled => settled.elim (important name) And.left) nextAgrees
    refine ⟨last, ?_, fun name settled => lastAgrees name ?_⟩
    · rw [runAll, ran]
      exact ranRest
    · rcases settled with known | ⟨matter, writer, mem, written⟩
      · exact .inl (.inl known)
      · rcases mem_cons.mp mem with rfl | inRest
        · exact .inl (.inr ⟨matter, written⟩)
        · exact .inr ⟨matter, writer, inRest, written⟩

theorem runAll_unbound (unbound : env name = none) (unwritten : ∀ step ∈ steps, name ∉ step.writes)
    (read : ∃ step ∈ steps, name ∈ step.reads) : runAll steps env = none := by
  induction steps generalizing env with
  | nil =>
    obtain ⟨_, mem, _⟩ := read
    cases mem
  | cons step rest ih =>
    rw [runAll]
    cases ran : step.run env with
    | none => rfl
    | some next =>
    obtain ⟨values, computed, bound⟩ := run_cases ran
    have still : next name = none := by
      rw [bound, if_neg (unwritten step mem_cons_self), unbound]
    refine ih still
      (fun other mem => unwritten other (mem_cons_of_mem _ mem)) ?_
    obtain ⟨reader, mem, reads⟩ := read
    rcases mem_cons.mp mem with rfl | inRest
    · rw [reader.needs reads unbound] at computed
      cases computed
    · exact ⟨reader, inRest, reads⟩

end Library.StraightLine

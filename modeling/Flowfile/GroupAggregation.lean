import Mathlib.Data.List.Forall2
import Flowfile.FrameExpr

/-!
# Aggregations of grouped frames

Aggregations of groups become a native node when every grouping column and every expression looks
simple: it is not marked as complex, and its last aggregation is one that the node knows. The node
stores a source column, an aggregation and an output name for each of them. What is stored denotes
the expression itself exactly where the expression is a column with one aggregation and nothing else
but names around it.
-/

namespace Flowfile.Frame

open List
open Option (map_eq_some_iff bind_eq_some_iff map_some)

/-- Aggregations that the native node runs. -/
def nativeAggFuncs : List String :=
  ["sum", "max", "mean", "median", "min", "count", "n_unique", "first", "last", "std", "var",
    "concat"]

/-- One entry of the native node. -/
structure AggColl where
  oldName : String
  agg : String
  newName : String

/-- Build an entry. Without a new name grouping columns keep theirs and aggregated ones append the
aggregation. Without a source column or an aggregation it is rejected. -/
def AggColl.make (oldName agg newName : Option String) : Except Unit AggColl :=
  match oldName, agg with
  | some oldName, some agg =>
    .ok ⟨oldName, agg, newName.getD (if agg = "groupby" then oldName else oldName ++ "_" ++ agg)⟩
  | _, _ => .error ()

open AggColl (make)

inductive GroupKey where
  | name (value : String)
  | expr (value : Expr)
  | other

inductive AggExpr where
  | expr (value : Expr)
  | name (value : String)
  | other

/-- An aggregation with a name: an expression, a column, or a column with an aggregation. -/
inductive NamedAgg where
  | expr (value : Expr)
  | name (value : String)
  | exprWith (value : Expr) (agg : String)
  | nameWith (value agg : String)
  | other

/-- The column that an expression started from. -/
def Expr.oldName (self : Expr) : Option String :=
  orName self.initialColumnName self.columnName

/-- The aggregation is none or one that the native node runs. -/
def Expr.nativeAgg (self : Expr) : Bool :=
  self.aggFunc.all fun agg => agg ∈ nativeAggFuncs

/-- The entry of a grouping column. No entry means that the native node is not built. -/
def GroupKey.coll : GroupKey → Except Unit (Option AggColl)
  | .name value => return ← make (some value) (some "groupby") none
  | .expr value =>
    if value.isComplex then return none
    else return ← make value.oldName (some "groupby") value.columnName
  | .other => return none

/-- The entry of an aggregation without a name. -/
def AggExpr.coll : AggExpr → Except Unit (Option AggColl)
  | .expr value =>
    if value.isComplex || !value.nativeAgg then return none
    else if value.aggFunc.isSome then
      return ← make value.oldName value.aggFunc (orName value.columnName value.oldName)
    else return ← make value.columnName (some "first") none
  | .name value => return ← make (some value) (some "first") none
  | .other => return none

/-- The entry of an aggregation with a name. -/
def NamedAgg.coll (name : String) : NamedAgg → Except Unit (Option AggColl)
  | .expr value =>
    if value.isComplex || !value.nativeAgg then return none
    else return ← make value.oldName value.aggFunc (some name)
  | .name value => return ← make (some value) (some "first") (some name)
  | .exprWith value agg => return ← make value.oldName (some agg) (some name)
  | .nameWith value agg => return ← make (some value) (some agg) (some name)
  | .other => return none

def collectColls {ι : Type} (coll : ι → Except Unit (Option AggColl)) :
    List ι → Except Unit (Option (List AggColl))
  | [] => return some []
  | item :: rest => do
    match ← coll item with
    | none => return none
    | some first => return (← collectColls coll rest).map (first :: ·)

/-- The entries of the native node, where one is built. -/
def aggColls (maintainOrder : Bool) (byCols : List GroupKey) (aggExprs : List AggExpr)
    (namedAggExprs : List (String × NamedAgg)) : Except Unit (Option (List AggColl)) := do
  if maintainOrder then return none
  match ← collectColls GroupKey.coll byCols with
  | none => return none
  | some groups =>
    match ← collectColls AggExpr.coll aggExprs with
    | none => return none
    | some positional =>
      return (← collectColls (fun named => named.2.coll named.1) namedAggExprs).map fun named =>
        groups ++ positional ++ named

/-- The tree of an expression without the names given in it. -/
def PlExpr.bare : PlExpr → PlExpr
  | .col name => .col name
  | .lit value => .lit value
  | .binary operator left right => .binary operator left.bare right.bare
  | .invert operand => .invert operand.bare
  | .negate operand => .negate operand.bare
  | .ternary condition value otherwise => .ternary condition.bare value.bare otherwise.bare
  | .aliased operand _ => operand.bare
  | .cast operand dtype strict => .cast operand.bare dtype strict
  | .call receiver method => .call receiver.bare method
  | .filter receiver predicates => .filter receiver.bare predicates.bare
  | .over receiver partition mapping => .over receiver.bare partition.bare mapping
  | .overOrdered receiver partition order descending nullsLast mapping =>
    .overOrdered receiver.bare partition.bare order.bare descending nullsLast mapping
  | .also first rest => .also first.bare rest.bare

/-- A meaning of expressions on groups that does not depend on the names given in them. -/
structure Interpretation (β : Type) where
  value : PlExpr → β
  ignoresNames : ∀ expr, value expr = value expr.bare

/-- Two expressions make the same column under every interpretation. -/
def DenoteSame (first second : PlExpr) : Prop :=
  first.outputName = second.outputName ∧ ∀ (β : Type) (interpretation : Interpretation β),
      interpretation.value first = interpretation.value second

/-- The expression that an entry of the native node stands for. -/
def AggColl.plExpr (self : AggColl) : PlExpr :=
  if self.agg = "groupby" then .aliased (.col self.oldName) self.newName
  else .aliased (.call (.col self.oldName) (.plain self.agg)) self.newName

/-- The expression that a grouping column stands for. -/
def GroupKey.plExpr : GroupKey → Option PlExpr
  | .name value => some (.col value)
  | .expr value => value.expr
  | .other => none

/-- The expression that an aggregation without a name stands for. -/
def AggExpr.plExpr : AggExpr → Option PlExpr
  | .expr value => value.expr
  | .name value => some (.col value)
  | .other => none

/-- The expression that an aggregation with a name stands for. -/
def NamedAgg.plExpr (name : String) : NamedAgg → Option PlExpr
  | .expr value => value.expr.map fun expr => .aliased expr name
  | .name value => some (.aliased (.col value) name)
  | .exprWith value agg => value.expr.map fun expr => .aliased (.call expr (.plain agg)) name
  | .nameWith value agg => some (.aliased (.call (.col value) (.plain agg)) name)
  | .other => none

/-- The expressions that the arguments stand for, in the order of the entries. -/
def ownExprs (byCols : List GroupKey) (aggExprs : List AggExpr)
    (namedAggExprs : List (String × NamedAgg)) : List (Option PlExpr) :=
  byCols.map GroupKey.plExpr ++ aggExprs.map AggExpr.plExpr ++
    namedAggExprs.map fun named => named.2.plExpr named.1

/-- The entry makes the column that an argument stands for. -/
def AggColl.StandsFor (self : AggColl) (own : Option PlExpr) : Prop :=
  ∃ expr, own = some expr ∧ DenoteSame self.plExpr expr

/-- Each entry makes the column that its argument stands for. -/
def Faithful (colls : List AggColl) (own : List (Option PlExpr)) : Prop :=
  List.Forall₂ AggColl.StandsFor colls own

/-- Native aggregations that are methods of expressions. -/
def exprAggFuncs : List String :=
  ["sum", "max", "mean", "median", "min", "count", "n_unique", "first", "last", "std", "var"]

/-- The names given to a column and to what is made of it, in their order. -/
def PlExpr.given : PlExpr → List String
  | .col name => [name]
  | .aliased operand name => operand.given ++ [name]
  | .call receiver _ => receiver.given
  | _ => []

def PlExpr.Unnamed (self : PlExpr) : Prop :=
  ∀ name ∈ self.given, name = ""

/-- The expression is a column, perhaps under other names. A column without a name has none. -/
def Expr.isColumn (self : Expr) : Prop :=
  ∃ expr column, self.expr = some expr ∧ expr.bare = .col column ∧ (column ≠ "" ∨ expr.Unnamed)

/-- The expression is a column with one aggregation, perhaps under other names. A column without a
name has none. -/
def Expr.isAggregation (self : Expr) : Prop :=
  ∃ expr column, ∃ agg ∈ exprAggFuncs, self.expr = some expr ∧
    expr.bare = .call (.col column) (.plain agg) ∧ (column ≠ "" ∨ expr.Unnamed)

def GroupKey.Direct : GroupKey → Prop
  | .name _ => True
  | .expr value => value.isColumn
  | .other => False

/-- The aggregation is one of a column, and its result has a name if the column has. -/
def AggExpr.Direct : AggExpr → Prop
  | .expr value => value.isAggregation ∧
      ∀ expr, value.expr = some expr → expr.outputName ≠ "" ∨ expr.Unnamed
  | .name _ | .other => False

def NamedAgg.Direct : NamedAgg → Prop
  | .expr value => value.isAggregation
  | .exprWith value agg => value.isColumn ∧ agg ≠ "groupby"
  | .nameWith _ agg => agg ≠ "groupby"
  | .name _ | .other => False

/-- Expressions that stand for one of the library were built with the methods. Aggregations of
selectors stand for none. -/
def Expr.Known [Printable] (self : Expr) : Prop :=
  self.expr ≠ none → Built self

def GroupKey.Known [Printable] : GroupKey → Prop
  | .expr value => value.Known
  | _ => True

/-- The expression of an aggregation is known. -/
def AggExpr.Known [Printable] : AggExpr → Prop
  | .expr value => value.Known
  | _ => True

def NamedAgg.Known [Printable] : NamedAgg → Prop
  | .expr value | .exprWith value _ => value.Known
  | _ => True

/-- Dropping names twice. -/
theorem bare_bare (expr : PlExpr) : expr.bare.bare = expr.bare := by
  induction expr with
  | col | lit => rfl
  | binary _ _ _ left right => simp [PlExpr.bare, left, right]
  | invert _ operand | negate _ operand | cast _ _ _ operand => simp [PlExpr.bare, operand]
  | ternary _ _ _ condition value otherwise => simp [PlExpr.bare, condition, value, otherwise]
  | aliased _ _ operand => exact operand
  | call _ _ receiver => simp [PlExpr.bare, receiver]
  | filter _ _ receiver predicates => simp [PlExpr.bare, receiver, predicates]
  | «over» _ _ _ receiver partition => simp [PlExpr.bare, receiver, partition]
  | overOrdered _ _ _ _ _ _ receiver partition order =>
    simp [PlExpr.bare, receiver, partition, order]
  | also _ _ first rest => simp [PlExpr.bare, first, rest]

/-- Expressions make the same column under every interpretation exactly when their trees and their
output names agree. -/
theorem denoteSame_iff {first second : PlExpr} :
    DenoteSame first second ↔ first.outputName = second.outputName ∧ first.bare = second.bare := by
  constructor
  · rintro ⟨sameName, sameValue⟩
    exact ⟨sameName, sameValue PlExpr ⟨PlExpr.bare, fun expr => (bare_bare expr).symm⟩⟩
  · rintro ⟨sameName, sameTree⟩
    refine ⟨sameName, fun β interpretation => ?_⟩
    rw [interpretation.ignoresNames first, sameTree, ← interpretation.ignoresNames second]

/-- The tree of an entry. -/
theorem plExpr_bare (coll : AggColl) :
    coll.plExpr.bare = if coll.agg = "groupby" then .col coll.oldName
      else .call (.col coll.oldName) (.plain coll.agg) := by
  rw [AggColl.plExpr]
  split <;> rfl

theorem plExpr_outputName (coll : AggColl) : coll.plExpr.outputName = coll.newName := by
  rw [AggColl.plExpr]
  split <;> rfl

def PlExpr.Direct (self : PlExpr) : Prop :=
  ∃ column, self.bare = .col column ∨
    ∃ agg ∈ exprAggFuncs, self.bare = .call (.col column) (.plain agg)

/-- A name, unless it is missing or empty. -/
def nonempty (name : Option String) : Option String :=
  if name = some "" then none else name

def firstName (names : List String) : Option String :=
  names.find? (· ≠ "")

/-- Where an expression is a column, or one with an aggregation, it remembers the first name given,
and the aggregation. -/
def Expr.Remembers (self : Expr) : Prop :=
  ∀ expr, self.expr = some expr →
    (expr.Direct → nonempty self.initialColumnName = firstName expr.given) ∧
    ∀ column, ∀ agg ∈ exprAggFuncs, expr.bare = .call (.col column) (.plain agg) →
      self.aggFunc = some agg

/-- Choosing between names. -/
theorem nonempty_orName (first second : Option String) :
    nonempty (orName first second) = (nonempty first).or (nonempty second) := by
  rw [orName, nonempty.eq_def first]
  split
  · rfl
  · next given =>
    cases first with
    | none => rfl
    | some name => exact if_neg given

theorem firstName_append (names : List String) (name : String) :
    firstName (names ++ [name]) = (firstName names).or (nonempty (some name)) := by
  rw [firstName, List.find?_append, firstName, nonempty]
  congr 1
  by_cases empty : name = "" <;> simp [empty]

/-- No name but empty ones. -/
theorem firstName_none {expr : PlExpr} : firstName expr.given = none ↔ expr.Unnamed := by
  simp [firstName, PlExpr.Unnamed]

variable {column : String}

@[elab_as_elim]
theorem direct_induction {holds : PlExpr → Prop} (atColumn : holds (.col column))
    (underAlias : ∀ operand name, holds operand → holds (.aliased operand name))
    (underCall : ∀ receiver call, holds receiver → holds (.call receiver call)) {expr : PlExpr}
    (direct : expr.bare = .col column ∨ ∃ agg, expr.bare = .call (.col column) (.plain agg)) :
    holds expr := by
  induction expr with
  | col name =>
    obtain same | ⟨_, call⟩ := direct
    · injection same with same
      exact same ▸ atColumn
    · cases call
  | aliased operand name inner => exact underAlias operand name (inner direct)
  | call receiver call inner =>
    obtain column | ⟨agg, isAgg⟩ := direct
    · cases column
    · injection isAgg with isColumn _
      exact underCall receiver call (inner (.inl isColumn))
  | lit | binary | invert | negate | ternary | cast | filter | «over» | overOrdered | also =>
    obtain same | ⟨_, call⟩ := direct
    · cases same
    · cases call

theorem given_head {expr : PlExpr}
    (direct : expr.bare = .col column ∨ ∃ agg, expr.bare = .call (.col column) (.plain agg)) :
    ∃ rest, expr.given = column :: rest := by
  refine direct_induction ⟨[], rfl⟩ ?_ (fun _ _ given => given) direct
  rintro operand name ⟨rest, isRest⟩
  exact ⟨rest ++ [name], by rw [PlExpr.given, isRest, cons_append]⟩

theorem outputName_given {expr : PlExpr}
    (direct : expr.bare = .col column ∨ ∃ agg, expr.bare = .call (.col column) (.plain agg)) :
    expr.outputName ∈ expr.given :=
  direct_induction (mem_singleton_self column)
    (fun _ name _ => mem_append_right _ (mem_singleton_self name))
    (fun _ _ given => given) direct

theorem remembers_compound {self : Expr}
    (compound : ∀ expr, self.expr = some expr → ¬expr.Direct) : self.Remembers := by
  intro expr isExpr
  have apart := compound expr isExpr
  exact ⟨fun direct => absurd direct apart,
    fun column agg native isAgg => absurd ⟨column, .inr ⟨agg, native, isAgg⟩⟩ apart⟩

variable {call : Call}

theorem compound_call {receiver : PlExpr}
    (foreign : ∀ agg ∈ exprAggFuncs, call ≠ .plain agg) : ¬(PlExpr.call receiver call).Direct := by
  rintro ⟨column, isColumn | ⟨agg, native, isAgg⟩⟩
  · cases isColumn
  · injection isAgg with _ sameCall
    exact foreign agg native sameCall

def PlExpr.columnOrCall : PlExpr → Bool
  | .col _ | .call _ _ => true
  | _ => false

theorem PlExpr.not_direct {self : PlExpr} (apart : self.bare.columnOrCall = false) :
    ¬self.Direct := by
  rintro ⟨name, isColumn | ⟨agg, _, isAgg⟩⟩
  · rw [isColumn] at apart
    cases apart
  · rw [isAgg] at apart
    cases apart

open PlExpr (not_direct)

theorem Call.ne_plain (further : call.args ≠ [] ∨ call.kwargs ≠ []) :
    ∀ agg ∈ exprAggFuncs, call ≠ .plain agg := by
  rintro agg _ rfl
  exact further.elim (absurd rfl) (absurd rfl)

theorem exprAggFuncs_own : exprAggFuncs ⊆ ownMethods := by
  decide

variable {aggFunc ffRepr : Option String} {isComplex : Bool}

/-- Expressions made from trees that are not direct leave nothing to remember. -/
theorem remembers_map {operand : Option PlExpr} {build : PlExpr → PlExpr}
    (compound : ∀ operand, ¬(build operand).Direct) {columnName : Option String}
    {reprStr : String} {initialColumnName : Option String} :
    (Expr.make (operand.map build) columnName reprStr initialColumnName aggFunc isComplex
      ffRepr).Remembers := by
  apply remembers_compound
  intro expr made
  obtain ⟨operand, _, rfl⟩ := map_eq_some_iff.mp made
  exact compound operand

theorem conditional_cases [Printable] (steps : List ChainStep) {state : When}
    (start : state.branch ≠ .thenState []) :
    (steps.foldl When.step state).branch ≠ .thenState [] := by
  induction steps generalizing state with
  | nil => exact start
  | cons step rest inner =>
    apply inner
    cases step with
    | «then» value => exact fun same => by cases same
    | when condition =>
    show (state.when condition).branch ≠ .thenState []
    rw [When.when]
    split
    · exact start
    · exact fun same => by cases same
    · exact start

theorem start_cases [Printable] (condition : Operand) :
    (When.start condition).branch ≠ .thenState [] := by
  intro same
  cases same

variable {printed : Call}

section

variable [Printable] {self : Expr}

theorem remembers_next (foreign : ∀ agg ∈ exprAggFuncs, call ≠ .plain agg) :
    (self.createNextExpr call printed isComplex ffRepr).Remembers :=
  remembers_map fun _ => compound_call foreign

theorem remembers_namespace
    (spaced : call.space ≠ none) : (self.namespaceCall call printed ffRepr).Remembers := by
  apply remembers_map
  intro operand
  apply compound_call
  rintro agg _ rfl
  exact spaced rfl

/-- Where an expression is not direct, setting an aggregation leaves nothing to remember. -/
theorem remembers_set (foreign : ∀ agg ∈ exprAggFuncs, call ≠ .plain agg) :
    ((self.createNextExpr call printed isComplex ffRepr).withAggFunc aggFunc).Remembers :=
  remembers_map fun _ => compound_call foreign

theorem remembers_aggregate (remembers : self.Remembers) (named : self.Named) (name : String)
    (isComplex : Bool) (ffRepr : Option String) :
    ((self.createNextExpr (.plain name) (.plain name) isComplex ffRepr).withAggFunc
      (some name)).Remembers := by
  intro expr made
  obtain ⟨receiver, isReceiver, rfl⟩ := map_eq_some_iff.mp made
  constructor
  · rintro ⟨column, isColumn | ⟨agg, native, isAgg⟩⟩
    · cases isColumn
    · injection isAgg with isColumn _
      have kept := (remembers receiver isReceiver).1 ⟨column, .inl isColumn⟩
      show nonempty (orName self.initialColumnName self.columnName) = firstName receiver.given
      rw [nonempty_orName, kept]
      cases first : firstName receiver.given with
      | some name => rfl
      | none =>
      have empty : receiver.outputName = "" :=
        firstName_none.mp first _ (outputName_given (.inl isColumn))
      rw [named receiver isReceiver, empty]
      rfl
  · intro column agg native isAgg
    injection isAgg with _ sameCall
    injection sameCall with _ sameName _ _
    exact congrArg some sameName

theorem Built.remembers (built : Built self) : self.Remembers := by
  induction built with
  | col name =>
    intro expr made
    cases made
    refine ⟨fun _ => ?_, nofun⟩
    show nonempty (orName (some name) (some name)) = firstName [name]
    rw [nonempty_orName]
    by_cases empty : name = "" <;> simp [empty, nonempty, firstName]
  | lit value =>
    exact remembers_compound fun expr made => by cases made; exact not_direct rfl
  | aggFunction _ column =>
    intro expr made
    cases made
    refine ⟨fun _ => ?_, fun _ agg _ isAgg => ?_⟩
    · show nonempty (orName (some column) none) = firstName [column]
      rw [nonempty_orName]
      by_cases empty : column = "" <;> simp [empty, nonempty, firstName]
    · injection isAgg with _ sameCall
      injection sameCall with _ sameName _ _
      exact congrArg some sameName
  | aggregate built _ remembers => exact remembers_aggregate remembers built.named _ _ _
  | deviation _ _ _ _ => exact remembers_set (Call.ne_plain (.inr (cons_ne_nil _ _)))
  | cumCount _ _ _ => exact remembers_set (Call.ne_plain (.inr (cons_ne_nil _ _)))
  | operate _ operator _ made _ _ =>
    obtain ⟨left, _, rest⟩ := bind_eq_some_iff.mp made
    obtain ⟨right, _, result⟩ := bind_eq_some_iff.mp rest
    cases result
    exact remembers_compound fun expr made => by cases made; exact not_direct rfl
  | reflect _ _ _ _ => exact remembers_map fun _ => not_direct rfl
  | invert _ _ => exact remembers_map fun _ => not_direct rfl
  | neg _ _ => exact remembers_map fun _ => not_direct rfl
  | aliased _ name remembers =>
    intro expr made
    obtain ⟨operand, isOperand, rfl⟩ := map_eq_some_iff.mp made
    obtain ⟨kept, agg⟩ := remembers operand isOperand
    refine ⟨fun direct => ?_, agg⟩
    show nonempty (orName _ (some name)) = firstName (operand.given ++ [name])
    rw [nonempty_orName, firstName_append, kept direct]
  | cast _ _ _ _ => exact remembers_map fun _ => not_direct rfl
  | isNull _ _ => exact remembers_set (by decide)
  | isNotNull _ _ => exact remembers_set (by decide)
  | fillNull _ _ _ => exact remembers_set (Call.ne_plain (.inl (cons_ne_nil _ _)))
  | fillNan _ _ _ => exact remembers_set (Call.ne_plain (.inl (cons_ne_nil _ _)))
  | @numeric _ _ name listed _ =>
    have apart : ∀ numeric ∈ ["abs", "ceil", "floor"], ∀ agg ∈ exprAggFuncs, numeric ≠ agg := by
      decide
    exact remembers_next fun agg native same =>
      apart name listed agg native (congrArg Call.name same)
  | round _ _ _ => exact remembers_next (Call.ne_plain (.inl (cons_ne_nil _ _)))
  | argUnique _ _ => exact remembers_next (by decide)
  | argSort _ _ _ _ => exact remembers_next (Call.ne_plain (.inr (cons_ne_nil _ _)))
  | sort _ _ _ _ =>
    exact remembers_map fun _ => compound_call (Call.ne_plain (.inr (cons_ne_nil _ _)))
  | @wrapper _ _ _ name wrapped args kwargs made _ =>
    obtain ⟨_, _, result⟩ := bind_eq_some_iff.mp made
    have foreign : ∀ agg ∈ exprAggFuncs, (⟨none, name, args, kwargs⟩ : Call) ≠ .plain agg := by
      intro agg native same
      have sameName : name = agg := congrArg Call.name same
      exact wrapped (sameName ▸ exprAggFuncs_own native)
    cases result
    split
    · exact remembers_set foreign
    · exact remembers_next foreign
  | str _ _ _ _ _ => exact remembers_namespace nofun
  | stripCharsStart _ _ _ => exact remembers_namespace nofun
  | stripCharsEnd _ _ _ => exact remembers_namespace nofun
  | dt _ _ _ _ _ => exact remembers_namespace nofun
  | filter _ _ _ _ _ =>
    apply remembers_compound
    intro result made
    simp only [Expr.filter, Expr.make] at made
    split at made
    · cases made
      exact not_direct rfl
    · cases made
  | «over» _ _ _ _ _ _ _ _ _ =>
    apply remembers_compound
    intro result made
    obtain ⟨receiver, isReceiver, rest⟩ := bind_eq_some_iff.mp made
    obtain ⟨groups, _, last⟩ := bind_eq_some_iff.mp rest
    split at last
    · cases last
      exact not_direct rfl
    · obtain ⟨order, _, final⟩ := bind_eq_some_iff.mp last
      cases final
      exact not_direct rfl
  | @conditional condition otherwise steps _ _ _ _ _ _ =>
    apply remembers_compound
    intro result made
    have some_case := conditional_cases steps (start_cases condition)
    simp only [Frame.conditional, When.otherwise, Expr.make] at made
    split at made
    · next cases isCases =>
      cases made
      cases cases with
      | nil => exact absurd isCases some_case
      | cons first rest => exact not_direct rfl
    · cases made

/-- No method sets the aggregation that joins texts. -/
theorem Built.aggFunc_ne (built : Built self) : self.aggFunc ≠ some "concat" := by
  induction built with
  | aggFunction listed _ => exact fun same => by cases same; revert listed; decide
  | aggregate _ listed _ => exact fun same => by cases same; revert listed; decide
  | deviation _ listed _ _ => exact fun same => by cases same; revert listed; decide
  | operate _ operator _ made _ _ =>
    obtain ⟨left, _, rest⟩ := bind_eq_some_iff.mp made
    obtain ⟨right, _, result⟩ := bind_eq_some_iff.mp rest
    cases result
    exact nofun
  | wrapper _ _ made ne =>
    obtain ⟨_, _, result⟩ := bind_eq_some_iff.mp made
    cases result
    split
    · next listed => exact fun same => by cases same; revert listed; decide
    · exact ne
  | col | lit | cumCount | reflect | invert | neg | isNull | isNotNull | fillNull | fillNan | sort |
    «over» | conditional => exact nofun
  | aliased _ _ ne
  | cast _ _ _ ne
  | numeric _ _ ne
  | round _ _ ne
  | argUnique _ ne
  | argSort _ _ _ ne
  | str _ _ _ _ ne
  | stripCharsStart _ _ ne
  | stripCharsEnd _ _ ne
  | dt _ _ _ _ ne
  | filter _ _ _ ne _ => exact ne

end

variable {agg : String}

section

variable {self : Expr} {expr : PlExpr}

theorem oldName_column (isExpr : self.expr = some expr) (remembers : self.Remembers)
    (named : self.Named)
    (direct : expr.bare = .col column ∨
      ∃ agg ∈ exprAggFuncs, expr.bare = .call (.col column) (.plain agg)) :
    self.oldName = some column ↔ column ≠ "" ∨ expr.Unnamed := by
  have isDirect : expr.bare = .col column ∨ ∃ agg, expr.bare = .call (.col column) (.plain agg) :=
    direct.imp_right fun ⟨agg, _, isAgg⟩ => ⟨agg, isAgg⟩
  obtain ⟨rest, given⟩ := given_head isDirect
  have kept := (remembers expr isExpr).1 ⟨column, direct⟩
  have isOld : self.oldName = (firstName expr.given).or (some expr.outputName) := by
    rw [Expr.oldName, named expr isExpr, ← kept, nonempty, orName]
    split <;> rfl
  by_cases empty : column = ""
  · cases first : firstName expr.given with
    | none =>
      have unnamed := firstName_none.mp first
      have output := unnamed _ (outputName_given isDirect)
      simp [isOld, first, output, empty, unnamed]
    | some name =>
      have filled : name ≠ "" := by simpa using List.find?_some first
      have unnamed : ¬expr.Unnamed := fun unnamed => by
        rw [firstName_none.mpr unnamed] at first
        cases first
      simp [isOld, first, empty, unnamed, filled]
  · have first : firstName expr.given = some column := by
      simp [firstName, given, empty]
    simp [isOld, first, empty]

variable {coll : AggColl}

/-- An entry stands for a tree exactly where names and trees agree. -/
theorem denoteSame_coll : DenoteSame coll.plExpr expr ↔ coll.newName = expr.outputName ∧
      (if coll.agg = "groupby" then PlExpr.col coll.oldName
        else .call (.col coll.oldName) (.plain coll.agg)) = expr.bare := by
  rw [denoteSame_iff, plExpr_outputName, plExpr_bare]

/-- An entry has a source column and an aggregation. -/
theorem make_ok {oldName agg newName : Option String}
    (made : (do return ← make oldName agg newName : Except Unit (Option AggColl)) =
      .ok (some coll)) :
    oldName = some coll.oldName ∧ agg = some coll.agg ∧ coll.newName = newName.getD
      (if coll.agg = "groupby" then coll.oldName else coll.oldName ++ "_" ++ coll.agg) := by
  cases oldName with
  | none => cases made
  | some oldName =>
  cases agg with
  | none => cases made
  | some agg =>
    cases made
    exact ⟨rfl, rfl, rfl⟩

/-- Native aggregations are methods of expressions, but for the one that joins texts. -/
theorem mem_exprAggFuncs (native : agg ∈ nativeAggFuncs) (apart : agg ≠ "concat") :
    agg ∈ exprAggFuncs := by
  revert apart
  revert agg
  decide

theorem standsFor_some : coll.StandsFor (some expr) ↔ DenoteSame coll.plExpr expr := by
  simp [AggColl.StandsFor]

/-- An entry stands for nothing else. -/
theorem not_standsFor_none : ¬coll.StandsFor none :=
  nofun

theorem groupby_not_native : "groupby" ∉ nativeAggFuncs := by
  decide

theorem nativeAgg_mem (simple : ¬(self.isComplex || !self.nativeAgg) = true)
    (isAgg : self.aggFunc = some agg) : agg ∈ nativeAggFuncs := by
  simp only [Bool.or_eq_true, Bool.not_eq_true', not_or, Bool.not_eq_false] at simple
  have native := simple.2
  rw [Expr.nativeAgg, isAgg] at native
  exact of_decide_eq_true native

theorem append_first_ne (name : String) : name ++ "_" ++ "first" ≠ name := by
  intro same
  have lengths := congrArg String.length same
  have one : "_".length = 1 := rfl
  simp only [String.length_append] at lengths
  omega

end

section

variable [Printable] {self : Expr} {old : String}

section

variable {expr : PlExpr} (built : Built self) (isExpr : self.expr = some expr)
include built isExpr

theorem Built.column_iff (isOld : self.oldName = some old) :
    PlExpr.col old = expr.bare ↔ self.isColumn := by
  have started {column : String} (isColumn : expr.bare = .col column) :
      self.oldName = some column ↔ column ≠ "" ∨ expr.Unnamed :=
    oldName_column isExpr built.remembers built.named (.inl isColumn)
  constructor
  · exact fun same => ⟨expr, old, isExpr, same.symm, (started same.symm).mp isOld⟩
  · rintro ⟨other, column, isOther, isColumn, kept⟩
    cases isExpr.symm.trans isOther
    cases isOld.symm.trans ((started isColumn).mpr kept)
    exact isColumn.symm

/-- The aggregation of the column that an expression started from is its tree exactly where it is
one of a column. -/
theorem Built.aggregation_iff {agg : String} (isOld : self.oldName = some old)
    (isAgg : self.aggFunc = some agg) (native : agg ∈ nativeAggFuncs) :
    PlExpr.call (.col old) (.plain agg) = expr.bare ↔ self.isAggregation := by
  have listed : agg ∈ exprAggFuncs :=
    mem_exprAggFuncs native fun same => built.aggFunc_ne (same ▸ isAgg)
  have started {column other : String} (listed : other ∈ exprAggFuncs)
      (isCall : expr.bare = .call (.col column) (.plain other)) :
      self.oldName = some column ↔ column ≠ "" ∨ expr.Unnamed :=
    oldName_column isExpr built.remembers built.named (.inr ⟨other, listed, isCall⟩)
  constructor
  · exact fun same =>
      ⟨expr, old, agg, listed, isExpr, same.symm, (started listed same.symm).mp isOld⟩
  · rintro ⟨another, column, other, otherListed, isAnother, isCall, kept⟩
    cases isExpr.symm.trans isAnother
    cases isOld.symm.trans ((started otherListed isCall).mpr kept)
    cases isAgg.symm.trans ((built.remembers expr isExpr).2 _ other otherListed isCall)
    exact isCall.symm

theorem Built.unnamed_iff (isOld : self.oldName = some old) (direct : self.isAggregation) :
    old = "" ↔ expr.Unnamed := by
  obtain ⟨other, column, agg, listed, isOther, isCall, kept⟩ := direct
  cases isExpr.symm.trans isOther
  have isColumn := (oldName_column isExpr built.remembers built.named
    (.inr ⟨agg, listed, isCall⟩)).mpr kept
  cases isOld.symm.trans isColumn
  constructor
  · exact fun empty => kept.resolve_left (absurd empty)
  · intro unnamed
    obtain ⟨rest, given⟩ := given_head (.inr ⟨agg, isCall⟩)
    exact unnamed old (by rw [given]; exact mem_cons_self)

end

variable {coll : AggColl}

theorem groupKey_stands {key : GroupKey} (known : key.Known)
    (made : key.coll = .ok (some coll)) : coll.StandsFor key.plExpr ↔ key.Direct := by
  cases key with
  | other => cases made
  | name value =>
    cases made
    exact iff_of_true ⟨_, rfl, denoteSame_coll.mpr ⟨rfl, rfl⟩⟩ trivial
  | expr value =>
  rw [GroupKey.coll] at made
  split at made
  · cases made
  · obtain ⟨isOld, isAgg, isNew⟩ := make_ok made
    injection isAgg with isAgg
    cases isExpr : value.expr with
    | none =>
      rw [GroupKey.plExpr, isExpr]
      exact iff_of_false not_standsFor_none fun ⟨_, _, isSome, _⟩ => by
        cases isExpr.symm.trans isSome
    | some expr =>
    have built : Built value := known (by rw [isExpr]; nofun)
    have named : coll.newName = expr.outputName := by
      rw [isNew, built.named expr isExpr]
      rfl
    rw [GroupKey.plExpr, isExpr, standsFor_some, denoteSame_coll, ← isAgg, if_pos rfl,
      and_iff_right named]
    exact built.column_iff isExpr isOld

/-- The entry of an aggregation stands for it exactly where it is one of a column. -/
theorem aggExpr_stands {item : AggExpr} (known : item.Known)
    (made : item.coll = .ok (some coll)) : coll.StandsFor item.plExpr ↔ item.Direct := by
  cases item with
  | other => cases made
  | name value =>
    cases made
    rw [AggExpr.plExpr, standsFor_some, denoteSame_coll]
    exact iff_of_false (fun same => append_first_ne value same.1) id
  | expr value =>
  rw [AggExpr.coll] at made
  split at made
  · cases made
  · next simple =>
    cases isExpr : value.expr with
    | none =>
      rw [AggExpr.plExpr, isExpr]
      exact iff_of_false not_standsFor_none fun ⟨⟨_, _, _, _, isSome, _⟩, _⟩ => by
        cases isExpr.symm.trans isSome
    | some expr =>
    have built : Built value := known (by rw [isExpr]; nofun)
    have named := built.named expr isExpr
    rw [AggExpr.plExpr, isExpr, standsFor_some, denoteSame_coll]
    split at made
    · obtain ⟨isOld, isAgg, isNew⟩ := make_ok made
      have native : coll.agg ∈ nativeAggFuncs := nativeAgg_mem simple isAgg
      have apart : coll.agg ≠ "groupby" := fun same => groupby_not_native (same ▸ native)
      have isName : coll.newName =
          if expr.outputName = "" then coll.oldName else expr.outputName := by
        rw [isNew, named, isOld, orName]
        simp only [Option.some.injEq]
        split <;> rfl
      rw [if_neg apart, built.aggregation_iff isExpr isOld isAgg native, isName, and_comm]
      refine and_congr_right fun direct => ?_
      have unnamed := built.unnamed_iff isExpr isOld direct
      constructor
      · intro same other isOther
        cases isExpr.symm.trans isOther
        by_cases output : expr.outputName = ""
        · rw [if_pos output, output] at same
          exact .inr (unnamed.mp same)
        · exact .inl output
      · intro filled
        split
        · next output =>
          rw [output]
          exact unnamed.mpr ((filled expr isExpr).resolve_left (absurd output))
        · rfl
    · next unset =>
      obtain ⟨isOld, isAgg, isNew⟩ := make_ok made
      injection isAgg with isAgg
      have started : expr.outputName = coll.oldName := Option.some.inj (named.symm.trans isOld)
      rw [isNew, ← isAgg, started]
      refine iff_of_false (fun same => append_first_ne _ same.1) fun direct => ?_
      obtain ⟨⟨other, column, agg, listed, isOther, isCall, _⟩, _⟩ := direct
      cases isExpr.symm.trans isOther
      have isSet := (built.remembers expr isExpr).2 column agg listed isCall
      exact unset (by rw [isSet]; rfl)

theorem namedAgg_stands {name : String} {item : NamedAgg} (known : item.Known)
    (made : item.coll name = .ok (some coll)) :
    coll.StandsFor (item.plExpr name) ↔ item.Direct := by
  cases item with
  | other => cases made
  | name value =>
    cases made
    rw [NamedAgg.plExpr, standsFor_some, denoteSame_coll]
    exact iff_of_false (fun same => by cases same.2) id
  | nameWith value agg =>
    cases made
    rw [NamedAgg.plExpr, standsFor_some, denoteSame_coll]
    refine (and_iff_right rfl).trans ?_
    show (if agg = "groupby" then _ else _) = _ ↔ agg ≠ "groupby"
    split
    · next same => exact iff_of_false nofun (absurd same)
    · next apart => exact iff_of_true rfl apart
  | expr value =>
    rw [NamedAgg.coll] at made
    split at made
    · cases made
    · next simple =>
      obtain ⟨isOld, isAgg, isNew⟩ := make_ok made
      have native : coll.agg ∈ nativeAggFuncs := nativeAgg_mem simple isAgg
      have apart : coll.agg ≠ "groupby" := fun same => groupby_not_native (same ▸ native)
      cases isExpr : value.expr with
      | none =>
        rw [NamedAgg.plExpr, isExpr]
        exact iff_of_false not_standsFor_none fun ⟨_, _, _, _, isSome, _⟩ => by
          cases isExpr.symm.trans isSome
      | some expr =>
      have built : Built value := known (by rw [isExpr]; nofun)
      rw [NamedAgg.plExpr, isExpr, map_some, standsFor_some, denoteSame_coll, if_neg apart]
      exact (and_iff_right isNew).trans (built.aggregation_iff isExpr isOld isAgg native)
  | exprWith value agg =>
    obtain ⟨isOld, isAgg, isNew⟩ := make_ok made
    injection isAgg with isAgg
    cases isExpr : value.expr with
    | none =>
      rw [NamedAgg.plExpr, isExpr]
      exact iff_of_false not_standsFor_none fun ⟨⟨_, _, isSome, _⟩, _⟩ => by
        cases isExpr.symm.trans isSome
    | some expr =>
    have built : Built value := known (by rw [isExpr]; nofun)
    rw [NamedAgg.plExpr, isExpr, map_some, standsFor_some, denoteSame_coll, ← isAgg]
    refine (and_iff_right isNew).trans ?_
    show (if agg = "groupby" then _ else _) = _ ↔ value.isColumn ∧ agg ≠ "groupby"
    rw [← built.column_iff isExpr isOld]
    split
    · next same => exact iff_of_false nofun fun direct => direct.2 same
    · next apart =>
      constructor
      · intro same
        injection same with same _
        exact ⟨same, apart⟩
      · intro direct
        rw [direct.1]
        rfl

end

variable {ι : Type} {items : List ι} {colls : List AggColl}
  {coll : ι → Except Unit (Option AggColl)}

theorem collectColls_ok (collected : collectColls coll items = .ok (some colls)) :
    List.Forall₂ (fun entry item => coll item = .ok (some entry)) colls items := by
  induction items generalizing colls with
  | nil =>
    cases collected
    exact .nil
  | cons item rest inner =>
    rw [collectColls] at collected
    cases first : coll item with
    | error failure =>
      rw [first] at collected
      cases collected
    | ok entry =>
    rw [first] at collected
    cases entry with
    | none => cases collected
    | some entry =>
    cases others : collectColls coll rest with
    | error failure =>
      rw [others] at collected
      cases collected
    | ok made =>
    rw [others] at collected
    cases made with
    | none => cases collected
    | some made =>
      cases collected
      exact .cons first (inner others)

theorem faithful_map
    {own : ι → Option PlExpr} {Direct : ι → Prop}
    (made : List.Forall₂ (fun entry item => coll item = .ok (some entry)) colls items)
    (stands : ∀ item ∈ items, ∀ entry, coll item = .ok (some entry) →
      (entry.StandsFor (own item) ↔ Direct item)) :
    Faithful colls (items.map own) ↔ ∀ item ∈ items, Direct item := by
  induction made with
  | nil => exact iff_of_true .nil nofun
  | cons first _ inner =>
    rw [Faithful, map_cons, forall₂_cons, forall_mem_cons, stands _ mem_cons_self _ first]
    exact and_congr_right fun _ =>
      inner fun item mem => stands item (mem_cons_of_mem _ mem)

theorem faithful_append {more : List AggColl} {own further : List (Option PlExpr)}
    (lengths : colls.length = own.length) :
    Faithful (colls ++ more) (own ++ further) ↔ Faithful colls own ∧ Faithful more further := by
  induction colls generalizing own with
  | nil =>
    cases eq_nil_of_length_eq_zero lengths.symm
    exact (and_iff_right .nil).symm
  | cons coll rest inner =>
    cases own with
    | nil => cases lengths
    | cons expr others =>
      rw [Faithful, cons_append, cons_append, forall₂_cons, Faithful, forall₂_cons, and_assoc]
      exact and_congr_right fun _ => inner (Nat.succ.inj lengths)

theorem aggColls_ok {maintainOrder : Bool} {byCols : List GroupKey} {aggExprs : List AggExpr}
    {namedAggExprs : List (String × NamedAgg)}
    (native : aggColls maintainOrder byCols aggExprs namedAggExprs = .ok (some colls)) :
    ∃ groups positional named, colls = groups ++ positional ++ named ∧
      collectColls GroupKey.coll byCols = .ok (some groups) ∧
      collectColls AggExpr.coll aggExprs = .ok (some positional) ∧
      collectColls (fun item => item.2.coll item.1) namedAggExprs = .ok (some named) := by
  rw [aggColls] at native
  cases maintainOrder with
  | true => cases native
  | false =>
  match groupColls : collectColls GroupKey.coll byCols with
  | .error _ | .ok none => rw [groupColls] at native; cases native
  | .ok (some groups) =>
    match aggs : collectColls AggExpr.coll aggExprs with
    | .error _ | .ok none => rw [groupColls, aggs] at native; cases native
    | .ok (some positional) =>
      match names : collectColls (fun item => item.2.coll item.1) namedAggExprs with
      | .error _ | .ok none => rw [groupColls, aggs, names] at native; cases native
      | .ok (some named) =>
        rw [groupColls, aggs, names] at native
        cases native
        exact ⟨groups, positional, named, rfl, rfl, rfl, names⟩

section

/-- All characters are printed as they are. -/
local instance plainText : Printable := ⟨fun _ => true⟩

def positiveSum : Expr :=
  ((col "x").filter ((col "y").operate .gt (.plain (.integer 0))).toList []).sum

end

end Flowfile.Frame

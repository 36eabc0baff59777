import Flowfile.FrameExpr
import Flowfile.Library.Assignments

/-!
# Adding columns to a frame

Columns are added by a chain of formula nodes when every expression has a formula, and by one code
node otherwise. A formula node sees the columns that those before it have made; the code node, as
the library, computes all columns from the frame as it is. The routes agree exactly where no
expression changes because of the columns made before it.
-/

namespace Flowfile.Frame

open Library.ColumnFrames Library.TracedFrames Library.Assignments List

/-- How expressions of the library and formulas are evaluated on tables of one height. An expression
depends on the columns that it reads. -/
structure Evaluation (α : Type) where
  expression : PlExpr → Table String α → Option α
  formula : String → Table String α → Option α
  readsOnly : ∀ expr first second,
    (∀ name ∈ expr.rootNames, dictGet first name = dictGet second name) →
      expression expr first = expression expr second

section

variable [Printable] {α : Type} (evaluation : Evaluation α)

/-- Plain values are taken as literals. -/
def Operand.asExpr : Operand → Expr
  | .expr value => value
  | .plain value => lit value

/-- The expressions that are added: the positional ones and the named ones under their names. -/
def actualExprs (exprs : List Operand) (namedExprs : List (String × Operand)) : List Expr :=
  exprs.map Operand.asExpr ++ namedExprs.map fun named => named.2.asExpr.alias named.1

/-- Whether the expression goes into a formula node. -/
def Expr.hasFormula (self : Expr) : Bool :=
  self.ffRepr.isSome && self.columnName.isSome

def withFlowfileFormula (table : Table String α) (formula outputColumnName : String) :
    Option (Table String α) :=
  (evaluation.formula formula table).map (assign table outputColumnName)

/-- The columns that an expression reads. -/
def Expr.reads (self : Expr) : List String :=
  (self.expr.map PlExpr.rootNames).getD []

def Expr.assignment (self : Expr) : Assignment String α where
  target := self.columnName.getD ""
  value := fun table => self.expr.bind fun expr => evaluation.expression expr table
  reads := self.reads
  readsOnly := by
    intro first second agree
    rw [Expr.reads] at agree
    cases isExpr : self.expr with
    | none => rfl
    | some expr =>
      rw [isExpr] at agree
      exact evaluation.readsOnly expr first second agree

def polarsWithColumns (exprs : List Expr) (table : Table String α) : Option (Table String α) :=
  atOnce (exprs.map (Expr.assignment evaluation)) table

def withColumns (exprs : List Operand) (namedExprs : List (String × Operand))
    (table : Table String α) : Option (Table String α) :=
  let actual := actualExprs exprs namedExprs
  if actual.all Expr.hasFormula then
    actual.foldlM (fun frame expr => withFlowfileFormula evaluation frame (expr.ffRepr.getD "")
      (expr.columnName.getD "")) table
  else polarsWithColumns evaluation actual table

def FormulasDenote (exprs : List Expr) : Prop :=
  ∀ self ∈ exprs, ∀ formula, self.ffRepr = some formula → ∀ table,
    evaluation.formula formula table = self.expr.bind fun expr => evaluation.expression expr table

def outputNames (exprs : List Expr) : List String :=
  exprs.map fun self => self.columnName.getD ""

variable {evaluation} {exprs : List Operand} {namedExprs : List (String × Operand)}
  {table result : Table String α}

omit [Printable] in
theorem formulas_oneByOne {actual : List Expr} (denote : FormulasDenote evaluation actual)
    (formulas : actual.all Expr.hasFormula = true) :
    actual.foldlM (fun frame expr => withFlowfileFormula evaluation frame (expr.ffRepr.getD "")
      (expr.columnName.getD "")) table =
        oneByOne (actual.map (Expr.assignment evaluation)) table := by
  induction actual generalizing table with
  | nil => rfl
  | cons self rest ih =>
    rw [all_cons, Bool.and_eq_true] at formulas
    obtain ⟨hasFormula, others⟩ := formulas
    rw [Expr.hasFormula, Bool.and_eq_true] at hasFormula
    obtain ⟨formula, isFormula⟩ := Option.isSome_iff_exists.mp hasFormula.1
    have denotes := denote self mem_cons_self formula isFormula table
    have onward := fun next : Table String α => @ih next
      (fun other inRest => denote other (mem_cons_of_mem _ inRest)) others
    simp only [oneByOne] at onward ⊢
    rw [map_cons, foldlM_cons, foldlM_cons, withFlowfileFormula, isFormula,
      Option.getD_some, denotes]
    congr 1
    funext next
    exact onward next

/-- The expressions that are added can be built where those given can. -/
theorem actualExprs_built
    (built : ∀ operand ∈ exprs ++ namedExprs.map Prod.snd, ∀ value, operand = .expr value →
      Built value) : ∀ self ∈ actualExprs exprs namedExprs, Built self := by
  have asExpr : ∀ operand ∈ exprs ++ namedExprs.map Prod.snd, Built operand.asExpr := by
    intro operand mem
    cases operand with
    | expr value => exact built _ mem value rfl
    | plain value => exact .lit value
  intro self mem
  rcases mem_append.mp mem with positional | named
  · obtain ⟨operand, isOperand, rfl⟩ := mem_map.mp positional
    exact asExpr operand (mem_append_left _ isOperand)
  · obtain ⟨given, isGiven, rfl⟩ := mem_map.mp named
    exact (asExpr given.2 (mem_append_right _ (mem_map_of_mem isGiven))).aliased given.1

theorem polarsWithColumns_column {actual : List Expr} (distinct : (outputNames actual).Nodup)
    (made : polarsWithColumns evaluation actual table = some result) {self : Expr}
    (mem : self ∈ actual) (built : Built self) {expr : PlExpr} (isExpr : self.expr = some expr) :
    dictGet result expr.outputName = evaluation.expression expr table := by
  obtain ⟨before, after, rfl⟩ := append_of_mem mem
  rw [outputNames, map_append, map_cons, nodup_append] at distinct
  rw [polarsWithColumns, map_append, map_cons] at made
  have unique : (self.assignment evaluation).target ∉
      (after.map (Expr.assignment evaluation)).map Assignment.target := by
    rw [map_map]
    exact (nodup_cons.mp distinct.2.1).1
  have left := atOnce_column unique made
  have target : (self.assignment evaluation).target = expr.outputName := by
    rw [Expr.assignment, built.named expr isExpr]
    rfl
  have value : (self.assignment evaluation).value table = evaluation.expression expr table := by
    show (self.expr.bind fun expr => evaluation.expression expr table) = _
    rw [isExpr]
    rfl
  rw [← target, ← value]
  exact left

end

section

/-- Texts print as they are. -/
local instance plainTexts : Printable := ⟨fun _ => true⟩

/-- The part of the library and of formulas that copies columns. -/
def copies : Evaluation Int where
  expression := fun expr table =>
    match expr with
    | .col name | .aliased (.col name) _ => dictGet table name
    | _ => none
  formula := fun formula table =>
    ((names table).find? fun name => formula = "[" ++ name ++ "]").bind (dictGet table)
  readsOnly := by
    intro expr first second agree
    split
    · exact agree _ (by simp [PlExpr.rootNames])
    · exact agree _ (by simp [PlExpr.rootNames])
    · rfl

def twoColumns : Table String Int :=
  [("a", 1), ("b", 2)]

theorem copies_formula (name : String) (table : Table String Int) :
    copies.formula ("[" ++ name ++ "]") table = dictGet table name := by
  have named : ∀ other, ("[" ++ name ++ "]" = "[" ++ other ++ "]") ↔ other = name := by
    intro other
    constructor
    · intro same
      rw [String.append_assoc, String.append_assoc] at same
      exact ((String.append_left_inj _).mp ((String.append_right_inj _).mp same)).symm
    · rintro rfl
      rfl
  show ((names table).find? fun other => "[" ++ name ++ "]" = "[" ++ other ++ "]").bind
    (dictGet table) = _
  simp only [named]
  cases found : (names table).find? fun other => decide (other = name) with
  | none =>
    rw [List.find?_eq_none] at found
    have absent : name ∉ names table := fun mem => by simpa using found name mem
    exact (dictGet_of_not_mem absent).symm
  | some other =>
    have same : other = name := by simpa using List.find?_some found
    rw [same]
    rfl

/-- Copies of both columns. -/
def copied : List (String × Operand) :=
  [("c", .expr (col "a")), ("d", .expr (col "b"))]

/-- Both columns under the name of the other. -/
def swapped : List (String × Operand) :=
  [("a", .expr (col "b")), ("b", .expr (col "a"))]

end

end Flowfile.Frame

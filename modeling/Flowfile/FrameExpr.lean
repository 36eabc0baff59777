import Flowfile.Library.PythonText

/-!
# Expressions of frames

An expression of a frame carries the expression of the library that it stands for, and beside it a
text of Python code, a formula, and what a group-by needs to know about it: the column it started
from, its last aggregation, and whether it is more than a column and an aggregation. Each method
builds all of these anew. An expression of the library is a tree.
-/

namespace Flowfile.Frame

open Library.PythonText (hexDigit)

/-- Which characters Python prints as they are. -/
class Printable where
  printable : Char → Bool

/-- Plain values. A float is given by the text that Python prints for it. -/
inductive Literal where
  | null
  | boolean (value : Bool)
  | integer (value : Int)
  | float (printed : String)
  | str (value : String)
deriving DecidableEq

/-- The last digits of a number, to the base sixteen. -/
def hexDigits : Nat → Nat → List Char
  | 0, _ => []
  | count + 1, value => hexDigits count (value / 16) ++ [hexDigit (value % 16)]

section

variable [Printable]

/-- A character between quotes. -/
def escapeChar (quote c : Char) : List Char :=
  if c = quote ∨ c = '\\' then ['\\', c]
  else if c = '\t' then ['\\', 't']
  else if c = '\n' then ['\\', 'n']
  else if c = '\r' then ['\\', 'r']
  else if c.toNat < 32 ∨ c.toNat = 127 then '\\' :: 'x' :: hexDigits 2 c.toNat
  else if c.toNat < 127 ∨ Printable.printable c then [c]
  else if c.toNat < 256 then '\\' :: 'x' :: hexDigits 2 c.toNat
  else if c.toNat < 65536 then '\\' :: 'u' :: hexDigits 4 c.toNat
  else '\\' :: 'U' :: hexDigits 8 c.toNat

/-- The quote of a text: single, unless the text has single quotes and no double ones. -/
def quoteOf (text : String) : Char :=
  if '\'' ∈ text.toList ∧ '"' ∉ text.toList then '"' else '\''

/-- What Python prints for a text. -/
def reprText (text : String) : String :=
  .ofList (quoteOf text :: (text.toList.flatMap (escapeChar (quoteOf text)) ++ [quoteOf text]))

def Literal.repr : Literal → String
  | .null => "None"
  | .boolean true => "True"
  | .boolean false => "False"
  | .integer value => toString value
  | .float printed => printed
  | .str value => reprText value

end

/-- The formula of a value. Nothing has none. -/
def Literal.ffRepr : Literal → Option String
  | .null => none
  | .boolean true => some "true"
  | .boolean false => some "false"
  | .integer value => some (toString value)
  | .float printed => some printed
  | .str value => some ("\"" ++ (value.replace "\\" "\\\\").replace "\"" "\\\"" ++ "\"")

inductive BinaryOperator where
  | add | sub | mul | truediv | floordiv | mod | pow
  | eq | ne | lt | le | gt | ge
  | and | or

/-- The operator in Python code. -/
def BinaryOperator.symbol : BinaryOperator → String
  | .add => "+"
  | .sub => "-"
  | .mul => "*"
  | .truediv => "/"
  | .floordiv => "//"
  | .mod => "%"
  | .pow => "**"
  | .eq => "=="
  | .ne => "!="
  | .lt => "<"
  | .le => "<="
  | .gt => ">"
  | .ge => ">="
  | .and => "&"
  | .or => "|"

def BinaryOperator.ffOperator : BinaryOperator → Option String
  | .floordiv | .pow => none
  | .and => some "and"
  | .or => some "or"
  | operator => some operator.symbol

/-- A method call with plain arguments. -/
structure Call where
  space : Option String
  name : String
  args : List Literal
  kwargs : List (String × Literal)
deriving DecidableEq

/-- A call without a namespace and without arguments. -/
def Call.plain (name : String) : Call :=
  ⟨none, name, [], []⟩

/-- What a window does with its results. -/
inductive MappingStrategy where
  | groupToRows
  | join
  | explode
deriving DecidableEq

def MappingStrategy.value : MappingStrategy → String
  | .groupToRows => "group_to_rows"
  | .join => "join"
  | .explode => "explode"

/-- Expressions of the library. Lists of expressions are built with `also`. -/
inductive PlExpr where
  | col (name : String)
  | lit (value : Literal)
  | binary (operator : BinaryOperator) (left right : PlExpr)
  | invert (operand : PlExpr)
  | negate (operand : PlExpr)
  | ternary (condition value otherwise : PlExpr)
  | aliased (operand : PlExpr) (name : String)
  | cast (operand : PlExpr) (dtype : String) (strict : Bool)
  | call (receiver : PlExpr) (call : Call)
  | filter (receiver predicates : PlExpr)
  | over (receiver partition : PlExpr) (mapping : MappingStrategy)
  | overOrdered (receiver partition order : PlExpr) (descending nullsLast : Bool)
    (mapping : MappingStrategy)
  | also (first rest : PlExpr)

/-- The columns that an expression reads. -/
def PlExpr.rootNames : PlExpr → List String
  | .col name => [name]
  | .lit _ => []
  | .binary _ left right => left.rootNames ++ right.rootNames
  | .invert operand | .negate operand | .aliased operand _ | .cast operand _ _ => operand.rootNames
  | .ternary condition value otherwise =>
    condition.rootNames ++ value.rootNames ++ otherwise.rootNames
  | .call receiver _ => receiver.rootNames
  | .filter receiver predicates => receiver.rootNames ++ predicates.rootNames
  | .over receiver partition _ => receiver.rootNames ++ partition.rootNames
  | .overOrdered receiver partition order _ _ _ =>
    receiver.rootNames ++ partition.rootNames ++ order.rootNames
  | .also first rest => first.rootNames ++ rest.rootNames

/-- The name of the column that an expression makes. -/
def PlExpr.outputName : PlExpr → String
  | .col name => name
  | .lit _ => "literal"
  | .binary _ left _ => left.outputName
  | .invert operand | .negate operand | .cast operand _ _ => operand.outputName
  | .ternary _ value _ => value.outputName
  | .aliased _ name => name
  | .call receiver _ => receiver.outputName
  | .filter receiver _ => receiver.outputName
  | .over receiver _ _ => receiver.outputName
  | .overOrdered receiver _ _ _ _ _ => receiver.outputName
  | .also first _ => first.outputName

/-- An expression of a frame. -/
structure Expr where
  expr : Option PlExpr
  columnName : Option String
  reprStr : String
  initialColumnName : Option String
  aggFunc : Option String
  isComplex : Bool
  ffRepr : Option String

/-- The first of two names unless it is missing or empty, otherwise the second. -/
def orName (first second : Option String) : Option String :=
  if first = some "" then second else first.or second

/-- Build an expression. Without a column name the output name of the expression is used, and the
initial name is the given one or else the given column name. -/
def Expr.make (expr : Option PlExpr) (columnName : Option String) (reprStr : String)
    (initialColumnName aggFunc : Option String) (isComplex : Bool) (ffRepr : Option String) :
    Expr where
  expr := expr
  columnName := columnName.or (expr.map PlExpr.outputName)
  reprStr := reprStr
  initialColumnName := orName initialColumnName columnName
  aggFunc := aggFunc
  isComplex := isComplex
  ffRepr := ffRepr

inductive Operand where
  | expr (value : Expr)
  | plain (value : Literal)

def Operand.ffRepr : Operand → Option String
  | .expr value => value.ffRepr
  | .plain value => value.ffRepr

section

variable [Printable]

/-- The expression of an operand, and its text. -/
def Operand.exprAndRepr : Operand → Option PlExpr × String
  | .expr value => (value.expr, value.reprStr)
  | .plain value => (some (.lit value), value.repr)

def Call.reprArgs (call : Call) : String :=
  ", ".intercalate (call.args.map Literal.repr ++
    call.kwargs.map fun argument => argument.1 ++ "=" ++ argument.2.repr)

variable (name : String)

/-- A column. Its name stands between quotes as it is. -/
def col : Expr :=
  .make (some (.col name)) (some name) ("pl.col('" ++ name ++ "')") (some name) none false
    (some ("[" ++ name ++ "]"))

def lit (value : Literal) : Expr :=
  .make (some (.lit value)) none ("pl.lit(" ++ value.repr ++ ")") none none false value.ffRepr

def aggFunction (column : String) : Expr :=
  .make (some (.call (.col column) (.plain name))) none
    ("pl." ++ name ++ "('" ++ column ++ "')") (some column) (some name) false none

variable (self : Expr)

/-- The next expression after a method call. The call of the library and the printed call are given
separately; they differ where the code leaves arguments out. -/
def Expr.createNextExpr (call printed : Call) (isComplex : Bool)
    (ffRepr : Option String) : Expr :=
  .make (self.expr.map fun receiver => .call receiver call) self.columnName
    (self.reprStr ++ "." ++ printed.name ++ "(" ++ printed.reprArgs ++ ")")
    self.initialColumnName self.aggFunc isComplex ffRepr

/-- Set the aggregation. -/
def Expr.withAggFunc (aggFunc : Option String) : Expr :=
  { self with aggFunc := aggFunc }

def Expr.aggregate (name : String) : Expr :=
  (self.createNextExpr (.plain name) (.plain name) self.isComplex none).withAggFunc (some name)

def Expr.sum : Expr := self.aggregate "sum"
def Expr.uniqueCounts : Expr := self.aggregate "unique_counts"
def Expr.implode : Expr := self.aggregate "implode"
def Expr.explode : Expr := self.aggregate "explode"
def Expr.mean : Expr := self.aggregate "mean"
def Expr.min : Expr := self.aggregate "min"
def Expr.max : Expr := self.aggregate "max"
def Expr.median : Expr := self.aggregate "median"
def Expr.count : Expr := self.aggregate "count"
def Expr.first : Expr := self.aggregate "first"
def Expr.last : Expr := self.aggregate "last"
def Expr.nUnique : Expr := self.aggregate "n_unique"

/-- An aggregation with degrees of freedom. -/
def Expr.deviation (name : String) (ddof : Int) : Expr :=
  let call : Call := ⟨none, name, [], [("ddof", .integer ddof)]⟩
  (self.createNextExpr call call true none).withAggFunc (some name)

def Expr.std (ddof : Int) : Expr := self.deviation "std" ddof
def Expr.var (ddof : Int) : Expr := self.deviation "var" ddof

/-- Cumulative counts are no aggregation. -/
def Expr.cumCount (reverse : Bool) : Expr :=
  let call : Call := ⟨none, "cum_count", [], [("reverse", .boolean reverse)]⟩
  (self.createNextExpr call call true none).withAggFunc none

variable (operator : BinaryOperator) (other : Operand)

/-- A binary operator. Without an expression on either side it fails. -/
def Expr.createBinaryOpExpr
    (ffRepr : Option String) : Option Expr := do
  let left ← self.expr
  let right ← other.exprAndRepr.1
  let result := PlExpr.binary operator left right
  return .make (some result) (some result.outputName)
    ("(" ++ self.reprStr ++ " " ++ operator.symbol ++ " " ++ other.exprAndRepr.2 ++ ")")
    self.initialColumnName none true ffRepr

def operatorFormula (left right : Option String) : Option String := do
  let left ← left
  let right ← right
  match operator with
  | .floordiv => return "floor((" ++ left ++ " / " ++ right ++ "))"
  | .pow => return "power(" ++ left ++ ", " ++ right ++ ")"
  | _ =>
    let symbol ← operator.ffOperator
    return "(" ++ left ++ " " ++ symbol ++ " " ++ right ++ ")"

def Expr.operate : Option Expr :=
  self.createBinaryOpExpr operator other (operatorFormula operator self.ffRepr other.ffRepr)

/-- An arithmetic operator with a plain left operand. -/
def Expr.reflect (other : Literal) : Expr :=
  .make (self.expr.map fun right => .binary operator (.lit other) right) none
    ("(" ++ other.repr ++ " " ++ operator.symbol ++ " " ++ self.reprStr ++ ")") none none true
    (operatorFormula operator other.ffRepr self.ffRepr)

/-- The negation of a condition. -/
def Expr.invert : Expr :=
  .make (self.expr.map .invert) none ("~(" ++ self.reprStr ++ ")") self.initialColumnName none
    false none

def Expr.neg : Expr :=
  .make (self.expr.map .negate) none ("-" ++ self.reprStr) self.initialColumnName none false none

/-- The expression under a new name. -/
def Expr.alias (name : String) : Expr :=
  .make (self.expr.map fun operand => .aliased operand name) (some name)
    (self.reprStr ++ ".alias(" ++ reprText name ++ ")") self.initialColumnName self.aggFunc
    self.isComplex self.ffRepr

/-- Formula functions that cast, by data type. -/
def castFunctions : List (String × String) :=
  [("Int8", "to_integer"), ("Int16", "to_integer"), ("Int32", "to_integer"),
    ("Int64", "to_integer"), ("UInt8", "to_integer"), ("UInt16", "to_integer"),
    ("UInt32", "to_integer"), ("UInt64", "to_integer"), ("Float32", "to_float"),
    ("Float64", "to_float"), ("Boolean", "to_boolean"), ("Utf8", "to_string"),
    ("String", "to_string"), ("Date", "to_date"), ("Datetime", "to_datetime")]

/-- Cast to a data type. -/
def Expr.cast (dtype : String) (strict : Bool) : Expr :=
  .make (self.expr.map fun operand => .cast operand dtype strict) self.columnName
    (self.reprStr ++ ".cast(pl." ++ dtype ++ ", strict=" ++ (Literal.boolean strict).repr ++ ")")
    self.initialColumnName self.aggFunc true
    (do return (← castFunctions.lookup dtype) ++ "(" ++ (← self.ffRepr) ++ ")")

/-- A method with one function in formulas and no arguments that is no aggregation. -/
def Expr.test (name function : String) : Expr :=
  (self.createNextExpr (.plain name) (.plain name) true
    (self.ffRepr.map fun inner => function ++ "(" ++ inner ++ ")")).withAggFunc none

def Expr.isNull : Expr := self.test "is_null" "is_empty"
def Expr.isNotNull : Expr := self.test "is_not_null" "is_not_empty"

/-- Replace missing values. -/
def Expr.fillNull (value : Literal) : Expr :=
  let call : Call := ⟨none, "fill_null", [value], []⟩
  (self.createNextExpr call call true
    (do return "coalesce(" ++ (← self.ffRepr) ++ ", " ++ (← value.ffRepr) ++ ")")).withAggFunc none

/-- Replace values that are not numbers. -/
def Expr.fillNan (value : Literal) : Expr :=
  let call : Call := ⟨none, "fill_nan", [value], []⟩
  (self.createNextExpr call call true none).withAggFunc none

/-- A numeric function without arguments. -/
def Expr.numeric (self : Expr) (name : String) : Expr :=
  self.createNextExpr (.plain name) (.plain name) true
    (self.ffRepr.map fun inner => name ++ "(" ++ inner ++ ")")

def Expr.abs : Expr := self.numeric "abs"
def Expr.ceil : Expr := self.numeric "ceil"
def Expr.floor : Expr := self.numeric "floor"

def Expr.round (decimals : Int) : Expr :=
  let call : Call := ⟨none, "round", [.integer decimals], []⟩
  self.createNextExpr call call true
    (self.ffRepr.map fun inner => "round(" ++ inner ++ ", " ++ toString decimals ++ ")")

/-- Positions of distinct values. -/
def Expr.argUnique : Expr :=
  self.createNextExpr (.plain "arg_unique") (.plain "arg_unique") true none

/-- Positions in sorted order. -/
def Expr.argSort (descending nullsLast : Bool) : Expr :=
  let call : Call :=
    ⟨none, "arg_sort", [],
      [("descending", .boolean descending), ("nulls_last", .boolean nullsLast)]⟩
  self.createNextExpr call call true none

/-- The values in order. -/
def Expr.sort (descending nullsLast : Bool) : Expr :=
  let call : Call :=
    ⟨none, "sort", [], [("descending", .boolean descending), ("nulls_last", .boolean nullsLast)]⟩
  .make (self.expr.map fun receiver => .call receiver call) self.columnName
    (self.reprStr ++ ".sort(" ++ call.reprArgs ++ ")") self.initialColumnName none false none

/-- Methods of the library that wrapped methods treat as aggregations. -/
def aggMethods : List String :=
  ["sum", "mean", "min", "max", "median", "first", "last", "std", "var", "count", "n_unique",
    "quantile", "implode", "explode"]

def complexMethods : List String :=
  ["filter", "map", "shift", "fill_null", "fill_nan", "round", "abs", "alias", "cast",
    "is_between", "over", "sort", "arg_sort", "arg_unique", "arg_min", "arg_max", "rolling",
    "interpolate", "ewm_mean", "ewm_std", "ewm_var", "backward_fill", "forward_fill", "rank",
    "diff", "clip", "dot", "mode", "drop_nulls", "drop_nans", "take", "gather", "shift_and_fill"]

/-- Any other method of the library, with plain arguments. -/
def Expr.wrapper (self : Expr) (name : String) (args : List Literal)
    (kwargs : List (String × Literal)) : Option Expr := do
  let _ ← self.expr
  let call : Call := ⟨none, name, args, kwargs⟩
  let result := self.createNextExpr call call
    (self.isComplex || decide (name ∈ complexMethods)) none
  return if name ∈ aggMethods then result.withAggFunc (some name) else result

/-- Functions of formulas for methods on texts, with the number of their further arguments. -/
def stringFunctions : List (String × String × Nat) :=
  [("to_uppercase", "uppercase", 0), ("to_lowercase", "lowercase", 0),
    ("to_titlecase", "titlecase", 0), ("len_chars", "length", 0), ("starts_with", "starts_with", 1),
    ("ends_with", "ends_with", 1), ("strip_chars_start", "left_trim", 0),
    ("strip_chars_end", "right_trim", 0)]

/-- Functions of formulas for methods on dates. -/
def dateFunctions : List String :=
  ["year", "month", "day", "hour", "minute", "second", "quarter", "week"]

/-- The formula of a method on texts. -/
def stringFormula (inner : Option String) (name : String) (args : List Literal) :
    Option String := do
  let inner ← inner
  let (function, further) ← stringFunctions.lookup name
  if further = 0 then return function ++ "(" ++ inner ++ ")"
  else
    let extra ← (args.take further).mapM Literal.ffRepr
    if args = [] then none
    else return function ++ "(" ++ ", ".intercalate (inner :: extra) ++ ")"

/-- The expression after a method of a namespace. -/
def Expr.namespaceCall (call printed : Call) (ffRepr : Option String) : Expr :=
  .make (self.expr.map fun receiver => .call receiver call) self.columnName
    (self.reprStr ++ "." ++ printed.space.getD "" ++ "." ++ printed.name ++ "(" ++
      printed.reprArgs ++ ")")
    self.initialColumnName self.aggFunc true ffRepr

/-- A method on texts that is printed with its arguments. -/
def Expr.str (name : String) (args : List Literal)
    (kwargs : List (String × Literal)) : Expr :=
  let call : Call := ⟨some "str", name, args, kwargs⟩
  self.namespaceCall call call (stringFormula self.ffRepr name args)

variable (characters : Option String)

def Expr.stripChars (name : String) (characters : Option String) : Expr :=
  let call : Call := ⟨some "str", name, [(characters.map Literal.str).getD .null], []⟩
  self.namespaceCall call ⟨some "str", name, [], []⟩
    (if characters.isSome then none else stringFormula self.ffRepr name [])

def Expr.stripCharsStart : Expr :=
  self.stripChars "strip_chars_start" characters

def Expr.stripCharsEnd : Expr :=
  self.stripChars "strip_chars_end" characters

/-- A method on dates. The first positional argument is taken for another parameter and is not
printed. -/
def Expr.dt (name : String) (args : List Literal)
    (kwargs : List (String × Literal)) : Expr :=
  self.namespaceCall ⟨some "dt", name, args, kwargs⟩ ⟨some "dt", name, args.drop 1, kwargs⟩
    (if name ∈ dateFunctions then self.ffRepr.map fun inner => name ++ "(" ++ inner ++ ")"
      else none)

def alsoAll (first : PlExpr) : List PlExpr → PlExpr
  | [] => first
  | next :: rest => .also first (alsoAll next rest)

/-- Keep the values for which the predicates hold. -/
def Expr.filter (self : Expr) (predicates : List Expr) (constraints : List (String × Literal)) :
    Expr :=
  let conditions := predicates.filterMap Expr.expr ++ constraints.map fun constraint =>
    PlExpr.binary .eq (.col constraint.1) (.lit constraint.2)
  .make
    (match self.expr, conditions with
    | some receiver, first :: rest => some (.filter receiver (alsoAll first rest))
    | _, _ => none)
    self.columnName
    (self.reprStr ++ ".filter(" ++ ", ".intercalate (predicates.map Expr.reprStr ++
      constraints.map fun constraint => constraint.1 ++ "=" ++ constraint.2.repr) ++ ")")
    self.initialColumnName self.aggFunc false none

inductive OrderBy where
  | one (value : Expr)
  | list (values : List Expr)

variable (values : List Expr)

/-- The texts of a list of expressions. -/
def reprList : String :=
  "[" ++ ", ".intercalate (values.map Expr.reprStr) ++ "]"

def OrderBy.repr : OrderBy → String
  | .one value => value.reprStr
  | .list values => reprList values

def OrderBy.exprs : OrderBy → List Expr
  | .one value => [value]
  | .list values => values

/-- The expressions of the library, where all have one. -/
def plExprs : Option PlExpr := do
  match ← values.mapM Expr.expr with
  | [] => none
  | first :: rest => return alsoAll first rest

def Expr.over (partition : List Expr) (orderBy : Option OrderBy)
    (descending nullsLast : Bool) (mapping : MappingStrategy) : Expr :=
  let groups :=
    match partition with
    | [value] => value.reprStr
    | values => reprList values
  let options := (orderBy.map fun order => "order_by=" ++ order.repr).toList ++
    (if descending then ["descending=True"] else []) ++
    (if nullsLast then ["nulls_last=True"] else []) ++
    (if mapping = .groupToRows then [] else ["mapping_strategy='" ++ mapping.value ++ "'"])
  .make
    (do
      let receiver ← self.expr
      let partition ← plExprs partition
      match orderBy with
      | none => return .over receiver partition mapping
      | some order =>
        return .overOrdered receiver partition (← plExprs order.exprs) descending nullsLast mapping)
    self.columnName
    (self.reprStr ++ ".over(" ++ ", ".intercalate (groups :: options) ++ ")")
    self.initialColumnName none false none

/-- How far the library has built a conditional expression. -/
inductive Branch where
  | none
  | thenState (cases : List (PlExpr × PlExpr))
  | whenState (cases : List (PlExpr × PlExpr)) (condition : PlExpr)

/-- A conditional expression before its last branch. Its methods change it in place, so that it is
the result of all calls made on it so far. -/
structure When where
  condition : PlExpr
  reprStr : String
  branch : Branch

def Operand.branchExpr : Operand → PlExpr × String
  | .expr value => (value.expr.getD (.lit .null), value.reprStr)
  | .plain (.str name) =>
    (.col name, if "pl.".isPrefixOf name then reprText name else "'" ++ name ++ "'")
  | .plain value => (.lit value, value.repr)

def When.start (condition : Operand) : When where
  condition := condition.branchExpr.1
  reprStr := "pl.when(" ++ condition.branchExpr.2 ++ ")"
  branch := .none

/-- The value where the condition holds. The library starts anew from the first condition. -/
def When.then (self : When) (value : Operand) : When where
  condition := self.condition
  reprStr := self.reprStr ++ ".then(" ++ value.branchExpr.2 ++ ")"
  branch := .thenState [(self.condition, value.branchExpr.1)]

def When.when (self : When) (condition : Operand) : When :=
  let extended := self.reprStr ++ ".when(" ++ condition.branchExpr.2 ++ ")"
  match self.branch with
  | .none => self
  | .thenState cases =>
    { self with reprStr := extended, branch := .whenState cases condition.branchExpr.1 }
  | .whenState _ _ => { self with reprStr := extended }

/-- A conditional expression with all its branches. -/
def ternaries (cases : List (PlExpr × PlExpr)) (otherwise : PlExpr) : PlExpr :=
  cases.foldr (fun branch rest => .ternary branch.1 branch.2 rest) otherwise

/-- The value where no condition holds. -/
def When.otherwise (self : When) (value : Operand) : Expr :=
  .make
    (match self.branch with
    | .thenState cases => some (ternaries cases value.branchExpr.1)
    | _ => none)
    none (self.reprStr ++ ".otherwise(" ++ value.branchExpr.2 ++ ")") none none false none

/-- A call on a conditional expression before its last branch. -/
inductive ChainStep where
  | then (value : Operand)
  | when (condition : Operand)

def ChainStep.operand : ChainStep → Operand
  | .then value => value
  | .when condition => condition

/-- Make a call on a conditional expression. -/
def When.step (self : When) : ChainStep → When
  | .then value => self.then value
  | .when condition => self.when condition

/-- A conditional expression: its first condition, all calls made on it, and the last value. -/
def conditional (condition : Operand) (steps : List ChainStep) (otherwise : Operand) : Expr :=
  (steps.foldl When.step (.start condition)).otherwise otherwise

/-- Aggregations that keep the complexity of the expression. -/
def aggregations : List String :=
  ["sum", "unique_counts", "implode", "explode", "mean", "min", "max", "median", "count", "first",
    "last", "n_unique"]

/-- Aggregation functions that take the name of a column. -/
def aggFunctions : List String :=
  ["max", "min", "first", "last", "mean", "count", "implode", "explode", "sum"]

def ownMethods : List String :=
  aggregations ++ ["std", "var", "cum_count", "alias", "cast", "is_null", "is_not_null", "is_in",
    "fill_null", "fill_nan", "abs", "ceil", "floor", "round", "arg_unique", "arg_sort", "sort",
    "filter", "over"]

def printsArguments : Prop :=
  name ≠ "strip_chars_start" ∧ name ≠ "strip_chars_end"

inductive Built : Expr → Prop
  | col (name : String) : Built (col name)
  | lit (value : Literal) : Built (lit value)
  | aggFunction {name : String} (listed : name ∈ aggFunctions) (column : String) :
      Built (aggFunction name column)
  | aggregate {self : Expr} (built : Built self) {name : String} (listed : name ∈ aggregations) :
      Built (self.aggregate name)
  | deviation {self : Expr} (built : Built self) {name : String} (listed : name ∈ ["std", "var"])
      (ddof : Int) : Built (self.deviation name ddof)
  | cumCount {self : Expr} (built : Built self) (reverse : Bool) : Built (self.cumCount reverse)
  | operate {self result : Expr} (built : Built self) (operator : BinaryOperator) {other : Operand}
      (operand : ∀ value, other = .expr value → Built value)
      (made : self.operate operator other = some result) : Built result
  | reflect {self : Expr} (built : Built self) {operator : BinaryOperator}
      (arithmetic : operator ∈ [.add, .sub, .mul, .truediv, .floordiv, .mod, .pow])
      (other : Literal) : Built (self.reflect operator other)
  | invert {self : Expr} (built : Built self) : Built self.invert
  | neg {self : Expr} (built : Built self) : Built self.neg
  | aliased {self : Expr} (built : Built self) (name : String) : Built (self.alias name)
  | cast {self : Expr} (built : Built self) (dtype : String) (strict : Bool) :
      Built (self.cast dtype strict)
  | isNull {self : Expr} (built : Built self) : Built self.isNull
  | isNotNull {self : Expr} (built : Built self) : Built self.isNotNull
  | fillNull {self : Expr} (built : Built self) (value : Literal) : Built (self.fillNull value)
  | fillNan {self : Expr} (built : Built self) (value : Literal) : Built (self.fillNan value)
  | numeric {self : Expr} (built : Built self) {name : String}
      (listed : name ∈ ["abs", "ceil", "floor"]) : Built (self.numeric name)
  | round {self : Expr} (built : Built self) (decimals : Int) : Built (self.round decimals)
  | argUnique {self : Expr} (built : Built self) : Built self.argUnique
  | argSort {self : Expr} (built : Built self) (descending nullsLast : Bool) :
      Built (self.argSort descending nullsLast)
  | sort {self : Expr} (built : Built self) (descending nullsLast : Bool) :
      Built (self.sort descending nullsLast)
  | wrapper {self result : Expr} (built : Built self) {name : String}
      (wrapped : name ∉ ownMethods) {args : List Literal} {kwargs : List (String × Literal)}
      (made : self.wrapper name args kwargs = some result) : Built result
  | str {self : Expr} (built : Built self) {name : String} (prints : printsArguments name)
      (args : List Literal) (kwargs : List (String × Literal)) : Built (self.str name args kwargs)
  | stripCharsStart {self : Expr} (built : Built self) (characters : Option String) :
      Built (self.stripCharsStart characters)
  | stripCharsEnd {self : Expr} (built : Built self) (characters : Option String) :
      Built (self.stripCharsEnd characters)
  | dt {self : Expr} (built : Built self) (name : String) (args : List Literal)
      (kwargs : List (String × Literal)) : Built (self.dt name args kwargs)
  | filter {self : Expr} (built : Built self) {predicates : List Expr}
      (conditions : ∀ predicate ∈ predicates, Built predicate)
      (constraints : List (String × Literal)) : Built (self.filter predicates constraints)
  | over {self : Expr} (built : Built self) {partition : List Expr}
      (groups : ∀ value ∈ partition, Built value) {orderBy : Option OrderBy}
      (order : ∀ given, orderBy = some given → ∀ value ∈ given.exprs, Built value)
      (descending nullsLast : Bool) (mapping : MappingStrategy) :
      Built (self.over partition orderBy descending nullsLast mapping)
  | conditional {condition otherwise : Operand} {steps : List ChainStep}
      (first : ∀ value, condition = .expr value → Built value)
      (calls : ∀ step ∈ steps, ∀ value, step.operand = .expr value → Built value)
      (last : ∀ value, otherwise = .expr value → Built value) :
      Built (conditional condition steps otherwise)

end

def Expr.Named (self : Expr) : Prop :=
  ∀ expr, self.expr = some expr → self.columnName = some expr.outputName

section

variable {self : Expr} {expr : Option PlExpr} {columnName : Option String} {reprStr : String}
  {initialColumnName aggFunc ffRepr : Option String} {isComplex : Bool}

theorem named_unnamed :
    (Expr.make expr none reprStr initialColumnName aggFunc isComplex ffRepr).Named := by
  rintro result rfl
  rfl

theorem Expr.Named.keeps (named : self.Named) {build : PlExpr → PlExpr}
    (keeps : ∀ operand, (build operand).outputName = operand.outputName) :
    (Expr.make (self.expr.map build) self.columnName reprStr initialColumnName aggFunc isComplex
      ffRepr).Named := by
  intro result made
  obtain ⟨operand, isOperand, rfl⟩ := Option.map_eq_some_iff.mp made
  show self.columnName.or _ = _
  rw [named operand isOperand, keeps]
  rfl

theorem named_given {name : String}
    (given : ∀ result, expr = some result → result.outputName = name) :
    (Expr.make expr (some name) reprStr initialColumnName aggFunc isComplex ffRepr).Named := by
  intro result made
  rw [given result made]
  rfl

end

section

variable [Printable] {self : Expr}

theorem Expr.Named.next (named : self.Named) (call printed : Call) (isComplex : Bool)
    (ffRepr : Option String) : (self.createNextExpr call printed isComplex ffRepr).Named :=
  named.keeps fun _ => rfl

omit [Printable] in
/-- Setting the aggregation keeps the name. -/
theorem Expr.Named.withAggFunc (named : self.Named) (aggFunc : Option String) :
    (self.withAggFunc aggFunc).Named :=
  named

theorem Expr.Named.namespaceCall (named : self.Named) (call printed : Call)
    (ffRepr : Option String) : (self.namespaceCall call printed ffRepr).Named :=
  named.keeps fun _ => rfl

/-- The column name of an expression that can be built is the output name of its expression of the
library. -/
theorem Built.named (built : Built self) : self.Named := by
  induction built with
  | col name => exact named_given fun result made => by cases made; rfl
  | lit value => exact named_unnamed
  | aggFunction _ column => exact named_unnamed
  | aggregate _ _ named => exact (named.next _ _ _ _).withAggFunc _
  | deviation _ _ _ named => exact (named.next _ _ _ _).withAggFunc _
  | cumCount _ _ named => exact (named.next _ _ _ _).withAggFunc _
  | operate _ operator _ made _ _ =>
    obtain ⟨left, _, rest⟩ := Option.bind_eq_some_iff.mp made
    obtain ⟨right, _, result⟩ := Option.bind_eq_some_iff.mp rest
    cases result
    exact named_given fun result made => by cases made; rfl
  | reflect _ _ other _ => exact named_unnamed
  | invert _ _ => exact named_unnamed
  | neg _ _ => exact named_unnamed
  | aliased _ name _ =>
    exact named_given fun result made => by
      obtain ⟨_, _, rfl⟩ := Option.map_eq_some_iff.mp made
      rfl
  | cast _ _ _ named => exact named.keeps fun _ => rfl
  | isNull _ named => exact (named.next _ _ _ _).withAggFunc _
  | isNotNull _ named => exact (named.next _ _ _ _).withAggFunc _
  | fillNull _ _ named => exact (named.next _ _ _ _).withAggFunc _
  | fillNan _ _ named => exact (named.next _ _ _ _).withAggFunc _
  | numeric _ _ named => exact named.next _ _ _ _
  | round _ _ named => exact named.next _ _ _ _
  | argUnique _ named => exact named.next _ _ _ _
  | argSort _ _ _ named => exact named.next _ _ _ _
  | sort _ _ _ named => exact named.keeps fun _ => rfl
  | wrapper _ _ made named =>
    obtain ⟨_, _, result⟩ := Option.bind_eq_some_iff.mp made
    cases result
    split
    · exact (named.next _ _ _ _).withAggFunc _
    · exact named.next _ _ _ _
  | str _ _ _ _ named => exact named.namespaceCall _ _ _
  | stripCharsStart _ _ named => exact named.namespaceCall _ _ _
  | stripCharsEnd _ _ named => exact named.namespaceCall _ _ _
  | dt _ _ _ _ named => exact named.namespaceCall _ _ _
  | @filter self _ predicates _ constraints named _ =>
    intro result made
    simp only [Expr.filter, Expr.make] at made ⊢
    split at made
    case h_1 receiver first rest isReceiver _ =>
      cases made
      rw [named receiver isReceiver]
      rfl
    case h_2 => cases made
  | @«over» self _ partition _ orderBy _ descending nullsLast mapping named _ _ =>
    intro result made
    obtain ⟨receiver, isReceiver, rest⟩ := Option.bind_eq_some_iff.mp made
    obtain ⟨groups, _, last⟩ := Option.bind_eq_some_iff.mp rest
    simp only [Expr.over, Expr.make]
    rw [named receiver isReceiver]
    split at last
    · cases last
      rfl
    · obtain ⟨order, _, final⟩ := Option.bind_eq_some_iff.mp last
      cases final
      rfl
  | conditional _ _ _ _ _ _ => exact named_unnamed

end

end Flowfile.Frame

import Flowfile.Library.PythonText

/-!
# The texts of a basic filter

A basic filter compares a column with values the user typed. `buildFilterExpression` writes it in
the formula language that the engine filters with; `createBasicFilterExpr` writes the polars
expression of the generated code. Both decide from the texts of the values, and from what they know
of the type of the column, which values are quoted.
-/

namespace Flowfile.Filters

open Library.PythonText

/-- The comparisons a filter can make. -/
inductive FilterOperator where
  | equals
  | notEquals
  | greaterThan
  | greaterThanOrEquals
  | lessThan
  | lessThanOrEquals
  | contains
  | notContains
  | startsWith
  | endsWith
  | isNull
  | isNotNull
  | isIn
  | notIn
  | between
  deriving DecidableEq

def operatorValues : List (String × FilterOperator) :=
  [("equals", .equals), ("not_equals", .notEquals), ("greater_than", .greaterThan),
    ("greater_than_or_equals", .greaterThanOrEquals), ("less_than", .lessThan),
    ("less_than_or_equals", .lessThanOrEquals), ("contains", .contains),
    ("not_contains", .notContains), ("starts_with", .startsWith), ("ends_with", .endsWith),
    ("is_null", .isNull), ("is_not_null", .isNotNull), ("in", .isIn), ("not_in", .notIn),
    ("between", .between)]

def symbolMapping : List (String × FilterOperator) :=
  [("=", .equals), ("==", .equals), ("!=", .notEquals), ("<>", .notEquals), (">", .greaterThan),
    (">=", .greaterThanOrEquals), ("<", .lessThan), ("<=", .lessThanOrEquals),
    ("contains", .contains), ("not_contains", .notContains), ("starts_with", .startsWith),
    ("ends_with", .endsWith), ("is_null", .isNull), ("is_not_null", .isNotNull), ("in", .isIn),
    ("not_in", .notIn), ("between", .between)]

def FilterOperator.fromSymbol (symbol : String) : Except String FilterOperator :=
  match symbolMapping.lookup symbol with
  | some operator => .ok operator
  | none =>
    match operatorValues.lookup symbol with
    | some operator => .ok operator
    | none => .error s!"Unknown filter operator symbol: {symbol}"

inductive OperatorSetting where
  | known (operator : FilterOperator)
  | symbol (text : String)

/-- A filter on one column with one condition. -/
structure BasicFilter where
  field : String
  operator : OperatorSetting
  value : String
  value2 : Option String

def BasicFilter.getOperator (basic : BasicFilter) : Except String FilterOperator :=
  match basic.operator with
  | .known operator => .ok operator
  | .symbol text => FilterOperator.fromSymbol text

/-- The operator both renderers use: a setting without an operator is looked up once more, as the
symbol it is. -/
def BasicFilter.resolveOperator (basic : BasicFilter) : Except String FilterOperator :=
  match basic.getOperator with
  | .ok operator => .ok operator
  | .error message =>
    match basic.operator with
    | .known _ => .error message
    | .symbol text => FilterOperator.fromSymbol text

/-- The kinds of column types the engine tells apart. -/
inductive DataTypeGroup where
  | str
  | numeric
  | date
  deriving DecidableEq

/-- The kind of a column type. -/
def genericDatatype (dataType : String) : DataTypeGroup :=
  if dataType ∈ ["Utf8", "VARCHAR", "CHAR", "NVARCHAR", "String"] then .str
  else if dataType ∈ ["fixed_decimal", "decimal", "float", "integer", "boolean", "double", "Int8",
    "Int16", "Int32", "Int64", "Int128", "Float16", "Float32", "Float64", "Decimal", "Binary",
    "Boolean", "Uint8", "Uint16", "Uint32", "Uint64", "UInt8", "UInt16", "UInt32", "UInt64",
    "UInt128"] then .numeric
  else if dataType ∈ ["datetime", "date", "Date", "Datetime", "Time"] then .date
  else .str

def commaValues (value : String) : List String :=
  (splitCommas value).map strip

/-- The text is a number. -/
def isNumericString (value : String) : Bool :=
  value != "" && parsesAsFloat value

/-- The value is quoted in the formula. -/
def shouldQuoteValue (value : String) : Option DataTypeGroup → Bool
  | some .str => true
  | some .numeric => false
  | _ => !isNumericString value

/-- The reference to a column. -/
def formatField (fieldName : String) : String :=
  s!"[{fieldName}]"

def buildComparisonExpression (field symbol value : String) (quote : Bool) : String :=
  if quote then s!"{field}{symbol}\"{value}\"" else s!"{field}{symbol}{value}"

variable (field value : String) (quote : Bool)

def buildEqualsExpression : String :=
  buildComparisonExpression field "=" value quote

def buildNotEqualsExpression : String :=
  buildComparisonExpression field "!=" value quote

def buildGreaterThanExpression : String :=
  buildComparisonExpression field ">" value quote

def buildGreaterThanOrEqualsExpression : String :=
  buildComparisonExpression field ">=" value quote

def buildLessThanExpression : String :=
  buildComparisonExpression field "<" value quote

def buildLessThanOrEqualsExpression : String :=
  buildComparisonExpression field "<=" value quote

def buildContainsExpression : String :=
  s!"contains({field}, \"{value}\")"

def buildNotContainsExpression : String :=
  s!"contains({field}, \"{value}\") = false"

def buildStartsWithExpression : String :=
  s!"left({field}, {value.length}) = \"{value}\""

def buildEndsWithExpression : String :=
  s!"right({field}, {value.length}) = \"{value}\""

def buildIsNullExpression (field : String) : String :=
  s!"is_empty({field})"

def buildIsNotNullExpression (field : String) : String :=
  s!"is_not_empty({field})"

variable (fieldDataType : Option DataTypeGroup)

def listCondition (field symbol : String) (fieldDataType : Option DataTypeGroup) (value : String) :
    String :=
  if shouldQuoteValue value fieldDataType then s!"({field}{symbol}\"{value}\")"
  else s!"({field}{symbol}{value})"

def buildInExpression : String :=
  match commaValues value with
  | [single] => buildEqualsExpression field single (shouldQuoteValue single fieldDataType)
  | values => " | ".intercalate (values.map (listCondition field "=" fieldDataType))

def buildNotInExpression : String :=
  match commaValues value with
  | [single] => buildNotEqualsExpression field single (shouldQuoteValue single fieldDataType)
  | values => " & ".intercalate (values.map (listCondition field "!=" fieldDataType))

/-- The column lies between two values. -/
def buildBetweenExpression (value2 : Option String)
    (fieldDataType : Option DataTypeGroup) : Except String String :=
  match value2 with
  | none => .error "BETWEEN operator requires value2"
  | some value2 =>
    let lower := listCondition field ">=" fieldDataType value
    let upper := listCondition field "<=" fieldDataType value2
    .ok s!"{lower} & {upper}"

def buildFilterExpression (basic : BasicFilter) (fieldDataType : Option DataTypeGroup) :
    Except String String := do
  let field := formatField basic.field
  let value := basic.value
  let operator ← basic.resolveOperator
  let quote := shouldQuoteValue value fieldDataType
  match operator with
  | .equals => return buildEqualsExpression field value quote
  | .notEquals => return buildNotEqualsExpression field value quote
  | .greaterThan => return buildGreaterThanExpression field value quote
  | .greaterThanOrEquals => return buildGreaterThanOrEqualsExpression field value quote
  | .lessThan => return buildLessThanExpression field value quote
  | .lessThanOrEquals => return buildLessThanOrEqualsExpression field value quote
  | .contains => return buildContainsExpression field value
  | .notContains => return buildNotContainsExpression field value
  | .startsWith => return buildStartsWithExpression field value
  | .endsWith => return buildEndsWithExpression field value
  | .isNull => return buildIsNullExpression field
  | .isNotNull => return buildIsNotNullExpression field
  | .isIn => return buildInExpression field value fieldDataType
  | .notIn => return buildNotInExpression field value fieldDataType
  | .between => buildBetweenExpression field value basic.value2 fieldDataType

/-- A text of numeric characters, after one point and one minus sign are taken out. -/
def looksNumeric (value : String) : Bool :=
  isNumeric ((value.toList.erase '.').erase '-')

/-- The value stands for true in a boolean column. The letters of `true` are the lower case of no
characters beyond ASCII. -/
def isTrueText (value : String) : Bool :=
  ["true".toList, "1".toList].contains ((strip value).toList.map Char.toLower)

/-- A string literal of the generated code. -/
def pyStr (value : String) : String :=
  jsonDumps value

def render (isBoolean : Bool) (value : String) : String :=
  if isBoolean then if isTrueText value then "True" else "False"
  else if value != "" && looksNumeric value then value
  else pyStr value

def renderList (value : String) : String :=
  let values := commaValues value
  if values.all looksNumeric then ", ".intercalate values
  else ", ".intercalate (values.map pyStr)

/-- The polars expression of a filter. -/
def createBasicFilterExpr (framework : String) (basic : BasicFilter) (fieldDtype : Option String) :
    Except String String := do
  let column := s!"{framework}.col({pyStr basic.field})"
  let value := basic.value
  let isBoolean := fieldDtype == some "Boolean"
  let numeric := value != "" && looksNumeric value
  let operator ← basic.resolveOperator
  match operator with
  | .equals => return s!"{column} == {render isBoolean value}"
  | .notEquals => return s!"{column} != {render isBoolean value}"
  | .greaterThan => return s!"{column} > {render isBoolean value}"
  | .greaterThanOrEquals => return s!"{column} >= {render isBoolean value}"
  | .lessThan => return s!"{column} < {render isBoolean value}"
  | .lessThanOrEquals => return s!"{column} <= {render isBoolean value}"
  | .contains => return s!"{column}.str.contains({pyStr value})"
  | .notContains => return s!"{column}.str.contains({pyStr value}).not_()"
  | .startsWith => return s!"{column}.str.starts_with({pyStr value})"
  | .endsWith => return s!"{column}.str.ends_with({pyStr value})"
  | .isNull => return s!"{column}.is_null()"
  | .isNotNull => return s!"{column}.is_not_null()"
  | .isIn => return s!"{column}.is_in([{renderList value}])"
  | .notIn => return s!"{column}.is_in([{renderList value}]).not_()"
  | .between =>
    match basic.value2 with
    | none => return s!"{column}  # BETWEEN requires two values"
    | some value2 =>
      if numeric && looksNumeric value2 then
        return s!"({column} >= {value}) & ({column} <= {value2})"
      else return s!"({column} >= {pyStr value}) & ({column} <= {pyStr value2})"

end Flowfile.Filters

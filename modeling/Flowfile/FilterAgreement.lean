import Flowfile.FilterExpressions

/-!
# Generated filters against the filters of the engine

A filter is a predicate on a column with literals in it. Both renderers write templates with a place
for each value: what stands in a place is an operand. The templates have the texts the renderers
write, and they denote a predicate when every operand is a literal.

How the formula language reads an operand is not part of the repository. The code relies on what its
documentation says about strings and column references; where a value is written bare, the result is
relative to what the language reads there.
-/

namespace Flowfile.Filters

open Library.PythonText List

/-- The comparisons of a column with one value. -/
inductive Comparison where
  | equal
  | notEqual
  | greater
  | greaterOrEqual
  | less
  | lessOrEqual
  deriving DecidableEq

/-- A condition on the values of a column. -/
inductive Predicate where
  | oneOf (values : List Literal)
  | noneOf (values : List Literal)
  | ordered (comparison : Comparison) (bound : Literal)
  | contains (pattern : Literal)
  | notContains (pattern : Literal)
  | startsWith (start : Literal)
  | endsWith (ending : Literal)
  | isNull
  | isNotNull
  | between (lower upper : Literal)

structure ColumnFilter where
  column : String
  predicate : Predicate

def Comparison.predicate : Comparison → Literal → Predicate
  | .equal, value => .oneOf [value]
  | .notEqual, value => .noneOf [value]
  | comparison, value => .ordered comparison value

/-- What the code relies on of the formula language, as its documentation has it: strings stand
between quotes and end at the next one, everything but a string is bare, and a column is referred to
by its name in brackets. -/
structure FormulaLanguage where
  /-- The literal a text is. -/
  literal : String → Option Literal
  /-- The column a text refers to. -/
  column : String → Option String
  literal_quoted : ∀ value : String,
    literal s!"\"{value}\"" = if '"' ∈ value.toList then none else some (.text value)
  literal_text : ∀ text value, literal text = some (.text value) → value.length < text.length
  column_bracketed : ∀ name : String,
    column s!"[{name}]" = some name ↔ name ≠ "" ∧ ']' ∉ name.toList

inductive Formula where
  | compare (comparison : Comparison) (operand : String)
  | contains (operand : String)
  | notContains (operand : String)
  | left (length : Nat) (operand : String)
  | right (length : Nat) (operand : String)
  | isEmpty
  | isNotEmpty
  | anyEqual (operands : List String)
  | noneEqual (operands : List String)
  | range (lower upper : String)

def Comparison.symbol : Comparison → String
  | .equal => "="
  | .notEqual => "!="
  | .greater => ">"
  | .greaterOrEqual => ">="
  | .less => "<"
  | .lessOrEqual => "<="

def Formula.text (field : String) : Formula → String
  | .compare comparison operand => s!"{field}{comparison.symbol}{operand}"
  | .contains operand => s!"contains({field}, {operand})"
  | .notContains operand => s!"contains({field}, {operand}) = false"
  | .left length operand => s!"left({field}, {length}) = {operand}"
  | .right length operand => s!"right({field}, {length}) = {operand}"
  | .isEmpty => s!"is_empty({field})"
  | .isNotEmpty => s!"is_not_empty({field})"
  | .anyEqual operands => " | ".intercalate (operands.map fun operand => s!"({field}={operand})")
  | .noneEqual operands => " & ".intercalate (operands.map fun operand => s!"({field}!={operand})")
  | .range lower upper => s!"({field}>={lower})" ++ " & " ++ s!"({field}<={upper})"

/-- The condition of a formula, when its operands are literals. The first or last characters of a
text are compared with a text of their number. -/
def Formula.predicate (language : FormulaLanguage) : Formula → Option Predicate
  | .compare comparison operand => (language.literal operand).map comparison.predicate
  | .contains operand => (language.literal operand).map .contains
  | .notContains operand => (language.literal operand).map .notContains
  | .left length operand =>
    match language.literal operand with
    | some (.text value) => if value.length = length then some (.startsWith (.text value)) else none
    | _ => none
  | .right length operand =>
    match language.literal operand with
    | some (.text value) => if value.length = length then some (.endsWith (.text value)) else none
    | _ => none
  | .isEmpty => some .isNull
  | .isNotEmpty => some .isNotNull
  | .anyEqual operands => (operands.mapM language.literal).map .oneOf
  | .noneEqual operands => (operands.mapM language.literal).map .noneOf
  | .range lower upper => do
    return .between (← language.literal lower) (← language.literal upper)

def formulaOperand (fieldDataType : Option DataTypeGroup) (value : String) : String :=
  if shouldQuoteValue value fieldDataType then s!"\"{value}\"" else value

def operatorFormula (basic : BasicFilter) (fieldDataType : Option DataTypeGroup) :
    FilterOperator → Except String Formula
  | .equals => .ok (.compare .equal (formulaOperand fieldDataType basic.value))
  | .notEquals => .ok (.compare .notEqual (formulaOperand fieldDataType basic.value))
  | .greaterThan => .ok (.compare .greater (formulaOperand fieldDataType basic.value))
  | .greaterThanOrEquals =>
    .ok (.compare .greaterOrEqual (formulaOperand fieldDataType basic.value))
  | .lessThan => .ok (.compare .less (formulaOperand fieldDataType basic.value))
  | .lessThanOrEquals => .ok (.compare .lessOrEqual (formulaOperand fieldDataType basic.value))
  | .contains => .ok (.contains s!"\"{basic.value}\"")
  | .notContains => .ok (.notContains s!"\"{basic.value}\"")
  | .startsWith => .ok (.left basic.value.length s!"\"{basic.value}\"")
  | .endsWith => .ok (.right basic.value.length s!"\"{basic.value}\"")
  | .isNull => .ok .isEmpty
  | .isNotNull => .ok .isNotEmpty
  | .isIn =>
    match commaValues basic.value with
    | [single] => .ok (.compare .equal (formulaOperand fieldDataType single))
    | values => .ok (.anyEqual (values.map (formulaOperand fieldDataType)))
  | .notIn =>
    match commaValues basic.value with
    | [single] => .ok (.compare .notEqual (formulaOperand fieldDataType single))
    | values => .ok (.noneEqual (values.map (formulaOperand fieldDataType)))
  | .between =>
    match basic.value2 with
    | none => .error "BETWEEN operator requires value2"
    | some value2 =>
      .ok (.range (formulaOperand fieldDataType basic.value) (formulaOperand fieldDataType value2))

def formulaOf (basic : BasicFilter) (fieldDataType : Option DataTypeGroup) :
    Except String Formula :=
  basic.resolveOperator.bind (operatorFormula basic fieldDataType)

variable (field : String)

theorem buildComparisonExpression_text (symbol value : String)
    (fieldDataType : Option DataTypeGroup) :
    buildComparisonExpression field symbol value (shouldQuoteValue value fieldDataType) =
      s!"{field}{symbol}{formulaOperand fieldDataType value}" := by
  unfold buildComparisonExpression formulaOperand
  split <;> simp [String.append_assoc, toString]

theorem listCondition_text (symbol value : String) (fieldDataType : Option DataTypeGroup) :
    listCondition field symbol fieldDataType value =
      s!"({field}{symbol}{formulaOperand fieldDataType value})" := by
  unfold listCondition formulaOperand
  split <;> simp [String.append_assoc, toString]

/-- A search is written with the quoted value as its operand. -/
theorem buildContainsExpression_text (value : String) :
    buildContainsExpression field value = (Formula.contains s!"\"{value}\"").text field := by
  apply String.toList_inj.mp
  simp [buildContainsExpression, Formula.text, toString]

/-- A negated search is written with the quoted value as its operand. -/
theorem buildNotContainsExpression_text (value : String) : buildNotContainsExpression field value =
      (Formula.notContains s!"\"{value}\"").text field := by
  apply String.toList_inj.mp
  simp [buildNotContainsExpression, Formula.text, toString]

/-- A comparison of the first characters is written with the quoted value as its operand. -/
theorem buildStartsWithExpression_text (value : String) : buildStartsWithExpression field value =
      (Formula.left value.length s!"\"{value}\"").text field := by
  apply String.toList_inj.mp
  simp [buildStartsWithExpression, Formula.text, toString]

/-- A comparison of the last characters is written with the quoted value as its operand. -/
theorem buildEndsWithExpression_text (value : String) : buildEndsWithExpression field value =
      (Formula.right value.length s!"\"{value}\"").text field := by
  apply String.toList_inj.mp
  simp [buildEndsWithExpression, Formula.text, toString]

theorem buildFilterExpression_text (basic : BasicFilter) (fieldDataType : Option DataTypeGroup) :
    buildFilterExpression basic fieldDataType =
      (formulaOf basic fieldDataType).map (Formula.text (formatField basic.field)) := by
  unfold buildFilterExpression formulaOf
  cases basic.resolveOperator with
  | error message => rfl
  | ok operator =>
  have compared := fun symbol value => congrArg (Except.ok (ε := String))
    (buildComparisonExpression_text (formatField basic.field) symbol value fieldDataType)
  have listed : ∀ symbol (values : List String),
      values.map (listCondition (formatField basic.field) symbol fieldDataType) =
        (values.map (formulaOperand fieldDataType)).map fun operand =>
          s!"({formatField basic.field}{symbol}{operand})" := by
    intro symbol values
    simp [listCondition_text]
  change _ = (operatorFormula basic fieldDataType operator).map _
  cases operator with
  | equals => exact compared "=" basic.value
  | notEquals => exact compared "!=" basic.value
  | greaterThan => exact compared ">" basic.value
  | greaterThanOrEquals => exact compared ">=" basic.value
  | lessThan => exact compared "<" basic.value
  | lessThanOrEquals => exact compared "<=" basic.value
  | contains => exact congrArg Except.ok (buildContainsExpression_text _ _)
  | notContains => exact congrArg Except.ok (buildNotContainsExpression_text _ _)
  | startsWith => exact congrArg Except.ok (buildStartsWithExpression_text _ _)
  | endsWith => exact congrArg Except.ok (buildEndsWithExpression_text _ _)
  | isNull | isNotNull => rfl
  | isIn =>
    change Except.ok (buildInExpression _ _ _) = _
    simp only [operatorFormula, buildInExpression]
    rcases commaValues basic.value with _ | ⟨first, _ | ⟨second, rest⟩⟩
    · rfl
    · exact compared "=" first
    · exact congrArg (fun texts => Except.ok (" | ".intercalate texts)) (listed "=" _)
  | notIn =>
    change Except.ok (buildNotInExpression _ _ _) = _
    simp only [operatorFormula, buildNotInExpression]
    rcases commaValues basic.value with _ | ⟨first, _ | ⟨second, rest⟩⟩
    · rfl
    · exact compared "!=" first
    · exact congrArg (fun texts => Except.ok (" & ".intercalate texts)) (listed "!=" _)
  | between =>
    change buildBetweenExpression _ _ _ _ = _
    simp only [operatorFormula, buildBetweenExpression, listCondition_text]
    cases basic.value2 with
    | none => rfl
    | some value2 => rfl

inductive PolarsExpression where
  | compare (comparison : Comparison) (operand : String)
  | contains (operand : String)
  | notContains (operand : String)
  | startsWith (operand : String)
  | endsWith (operand : String)
  | isNull
  | isNotNull
  | isIn (operands : List String)
  | notIn (operands : List String)
  | between (lower upper : String)
  /-- The column alone, with a comment behind it. -/
  | column

/-- The operator of a comparison in Python, between its blanks. -/
def Comparison.operator : Comparison → String
  | .equal => " == "
  | .notEqual => " != "
  | .greater => " > "
  | .greaterOrEqual => " >= "
  | .less => " < "
  | .lessOrEqual => " <= "

def PolarsExpression.text (column : String) : PolarsExpression → String
  | .compare comparison operand => s!"{column}{comparison.operator}{operand}"
  | .contains operand => s!"{column}.str.contains({operand})"
  | .notContains operand => s!"{column}.str.contains({operand}).not_()"
  | .startsWith operand => s!"{column}.str.starts_with({operand})"
  | .endsWith operand => s!"{column}.str.ends_with({operand})"
  | .isNull => s!"{column}.is_null()"
  | .isNotNull => s!"{column}.is_not_null()"
  | .isIn operands => column ++ ".is_in([" ++ ", ".intercalate operands ++ "])"
  | .notIn operands => column ++ ".is_in([" ++ ", ".intercalate operands ++ "]).not_()"
  | .between lower upper => s!"({column} >= {lower}) & ({column} <= {upper})"
  | .column => s!"{column}  # BETWEEN requires two values"

def PolarsExpression.predicate : PolarsExpression → Option Predicate
  | .compare comparison operand => (readLiteral operand).map comparison.predicate
  | .contains operand => (readLiteral operand).map .contains
  | .notContains operand => (readLiteral operand).map .notContains
  | .startsWith operand => (readLiteral operand).map .startsWith
  | .endsWith operand => (readLiteral operand).map .endsWith
  | .isNull => some .isNull
  | .isNotNull => some .isNotNull
  | .isIn operands => (operands.mapM readLiteral).map .oneOf
  | .notIn operands => (operands.mapM readLiteral).map .noneOf
  | .between lower upper => do
    return .between (← readLiteral lower) (← readLiteral upper)
  | .column => none

def polarsOperand (bare : Bool) (value : String) : String :=
  if bare then value else pyStr value

def listLooksNumeric (value : String) : Bool :=
  (commaValues value).all looksNumeric

def operatorExpression (basic : BasicFilter) (isBoolean : Bool) : FilterOperator → PolarsExpression
  | .equals => .compare .equal (render isBoolean basic.value)
  | .notEquals => .compare .notEqual (render isBoolean basic.value)
  | .greaterThan => .compare .greater (render isBoolean basic.value)
  | .greaterThanOrEquals => .compare .greaterOrEqual (render isBoolean basic.value)
  | .lessThan => .compare .less (render isBoolean basic.value)
  | .lessThanOrEquals => .compare .lessOrEqual (render isBoolean basic.value)
  | .contains => .contains (pyStr basic.value)
  | .notContains => .notContains (pyStr basic.value)
  | .startsWith => .startsWith (pyStr basic.value)
  | .endsWith => .endsWith (pyStr basic.value)
  | .isNull => .isNull
  | .isNotNull => .isNotNull
  | .isIn =>
    .isIn ((commaValues basic.value).map (polarsOperand (listLooksNumeric basic.value)))
  | .notIn =>
    .notIn ((commaValues basic.value).map (polarsOperand (listLooksNumeric basic.value)))
  | .between =>
    match basic.value2 with
    | none => .column
    | some value2 =>
      let bare := looksNumeric basic.value && looksNumeric value2
      .between (polarsOperand bare basic.value) (polarsOperand bare value2)

def expressionOf (basic : BasicFilter) (fieldDtype : Option String) :
    Except String PolarsExpression :=
  basic.resolveOperator.map (operatorExpression basic (fieldDtype == some "Boolean"))

theorem looksNumeric_nonempty (value : String) :
    (value != "" && looksNumeric value) = looksNumeric value := by
  by_cases empty : value = ""
  · subst empty
    rfl
  · simp [empty]

theorem renderList_text (value : String) : renderList value =
      ", ".intercalate ((commaValues value).map (polarsOperand (listLooksNumeric value))) := by
  simp only [renderList, listLooksNumeric]
  split
  · rename_i numeric
    have bare : polarsOperand true = id := rfl
    simp [numeric, bare]
  · rename_i other
    have strings : polarsOperand false = pyStr := rfl
    rw [Bool.not_eq_true] at other
    simp [other, strings]

theorem createBasicFilterExpr_text (framework : String) (basic : BasicFilter)
    (fieldDtype : Option String) :
    createBasicFilterExpr framework basic fieldDtype = (expressionOf basic fieldDtype).map
        (PolarsExpression.text s!"{framework}.col({pyStr basic.field})") := by
  unfold createBasicFilterExpr expressionOf
  cases basic.resolveOperator with
  | error message => rfl
  | ok operator =>
  change _ = Except.ok ((operatorExpression basic (fieldDtype == some "Boolean") operator).text _)
  cases operator with
  | isIn =>
    simp only [operatorExpression, PolarsExpression.text, ← renderList_text]
    rfl
  | notIn =>
    simp only [operatorExpression, PolarsExpression.text, ← renderList_text]
    rfl
  | between =>
    simp only [looksNumeric_nonempty, operatorExpression]
    cases basic.value2 with
    | none => rfl
    | some value2 =>
      cases numeric : looksNumeric basic.value && looksNumeric value2 <;>
        simp [polarsOperand, PolarsExpression.text, numeric] <;> rfl
  | _ => rfl

def Formula.filter (language : FormulaLanguage) (field : String) (formula : Formula) :
    Option ColumnFilter := do
  return ⟨← language.column (formatField field), ← formula.predicate language⟩

def PolarsExpression.filter (field : String) (expression : PolarsExpression) :
    Option ColumnFilter :=
  match readLiteral (pyStr field) with
  | some (.text name) => expression.predicate.map (ColumnFilter.mk name)
  | _ => none

/-- For a filter on a column of a type, both renderers write the same condition with literals for
the values, or neither of them writes anything. -/
def FiltersAgree (language : FormulaLanguage) (basic : BasicFilter) (dataType : String) : Prop :=
  match formulaOf basic (some (genericDatatype dataType)), expressionOf basic (some dataType) with
  | .ok formula, .ok expression =>
    ∃ filter, formula.filter language basic.field = some filter ∧
      expression.filter basic.field = some filter
  | .error _, .error _ => True
  | _, _ => False

/-- Both languages read a value as the same literal: it is a string in both and has no quote in it,
or it is bare in both and a number they agree on. -/
def OperandAlike (language : FormulaLanguage) (group : DataTypeGroup) (bare : Bool)
    (value : String) : Prop :=
  if shouldQuoteValue value (some group) then bare = false ∧ '"' ∉ value.toList
  else bare = true ∧
    ∃ number, readNumber value.toList = some number ∧ language.literal value = some number

def ValuesAlike (language : FormulaLanguage) (basic : BasicFilter) (dataType : String) :
    FilterOperator → Prop
  | .equals | .notEquals | .greaterThan | .greaterThanOrEquals | .lessThan | .lessThanOrEquals =>
    if dataType = "Boolean" then
      language.literal basic.value = some (.boolean (isTrueText basic.value))
    else
      OperandAlike language (genericDatatype dataType) (looksNumeric basic.value) basic.value
  | .contains | .notContains | .startsWith | .endsWith => '"' ∉ basic.value.toList
  | .isNull | .isNotNull => True
  | .isIn | .notIn =>
    ∀ value ∈ commaValues basic.value,
      OperandAlike language (genericDatatype dataType) (listLooksNumeric basic.value) value
  | .between =>
    ∃ value2, basic.value2 = some value2 ∧ ∀ value ∈ [basic.value, value2],
        OperandAlike language (genericDatatype dataType)
          (looksNumeric basic.value && looksNumeric value2) value

/-- Both languages read a filter alike: the name of its column can stand between brackets, and the
values are read alike. A setting without an operator is refused by both. -/
def ReadAlike (language : FormulaLanguage) (basic : BasicFilter) (dataType : String) : Prop :=
  match basic.resolveOperator with
  | .error _ => True
  | .ok operator =>
    (basic.field ≠ "" ∧ ']' ∉ basic.field.toList) ∧ ValuesAlike language basic dataType operator

variable {Value : Type} (comparison : Comparison) {formula : Formula}
  {fieldDataType : Option DataTypeGroup} {operator : FilterOperator}

section

variable {language : FormulaLanguage} {basic : BasicFilter} {dataType value : String}
  {group : DataTypeGroup} {bare : Bool}

theorem readLiteral_looksNumeric (numeric : looksNumeric value = true) :
    readLiteral value = readNumber value.toList := by
  have characters : ∀ c ∈ value.toList, c ≠ '.' → c ≠ '-' → isNumericChar c = true := by
    intro c mem point minus
    simp only [looksNumeric, isNumeric, Bool.and_eq_true, all_eq_true] at numeric
    exact numeric.2 c ((mem_erase_of_ne minus).mpr ((mem_erase_of_ne point).mpr mem))
  have absent : ∀ c, isNumericChar c = false → c ≠ '.' → c ≠ '-' → c ∉ value.toList := by
    intro c other point minus mem
    rw [characters c mem point minus] at other
    cases other
  exact readLiteral_of_characters (absent '"' (by decide +kernel) (by decide) (by decide))
    (absent 'T' (by decide +kernel) (by decide) (by decide))
    (absent 'F' (by decide +kernel) (by decide) (by decide))

theorem operandAlike_iff (numeric : bare = true → looksNumeric value = true) :
    (∃ literal, language.literal (formulaOperand (some group) value) = some literal ∧
      readLiteral (polarsOperand bare value) = some literal) ↔
      OperandAlike language group bare value := by
  unfold OperandAlike formulaOperand polarsOperand
  by_cases quoted : shouldQuoteValue value (some group) = true
  · rw [if_pos quoted, if_pos quoted, language.literal_quoted]
    cases bare with
    | false =>
      simp only [Bool.false_eq_true, if_false, pyStr, readLiteral_jsonDumps, true_and]
      by_cases quote : '"' ∈ value.toList <;> simp [quote]
    | true =>
    simp only [if_true, Bool.true_eq_false, false_and, iff_false]
    rintro ⟨literal, text, number⟩
    rw [readLiteral_looksNumeric (numeric rfl)] at number
    split at text
    · cases text
    · cases text
      exact readNumber_ne_text _ _ number
  · rw [if_neg quoted, if_neg quoted]
    cases bare with
    | false =>
      simp only [Bool.false_eq_true, if_false, pyStr, readLiteral_jsonDumps, false_and, iff_false]
      rintro ⟨literal, read, same⟩
      cases same
      exact absurd (language.literal_text value value read) (lt_irrefl _)
    | true =>
      simp only [if_true, true_and, readLiteral_looksNumeric (numeric rfl)]
      exact exists_congr fun _ => and_comm

/-- Two literals make the same condition exactly when they are the same. -/
theorem map_alike {Condition : Type} {condition : Value → Condition}
    (injective : Function.Injective condition) (first second : Option Value) :
    (∃ result, first.map condition = some result ∧ second.map condition = some result) ↔
      ∃ value, first = some value ∧ second = some value := by
  constructor
  · rintro ⟨_, left, right⟩
    obtain ⟨value, rfl, rfl⟩ := Option.map_eq_some_iff.mp left
    obtain ⟨other, rfl, same⟩ := Option.map_eq_some_iff.mp right
    exact ⟨value, rfl, congrArg some (injective same)⟩
  · rintro ⟨value, rfl, rfl⟩
    exact ⟨condition value, rfl, rfl⟩

theorem mapM_alike (first second : String → Option Value) (values : List String) :
    (∃ results, values.mapM first = some results ∧ values.mapM second = some results) ↔
      ∀ value ∈ values, ∃ result, first value = some result ∧ second value = some result := by
  induction values with
  | nil => simp
  | cons value rest ih =>
    simp only [mem_cons, forall_eq_or_imp, ← ih, mapM_cons, Option.bind_eq_bind,
      Option.pure_def, Option.bind_eq_some_iff, Option.some.injEq]
    constructor
    · rintro ⟨_, ⟨head, read, tail, reads, rfl⟩, head', read', tail', reads', same⟩
      obtain ⟨rfl, rfl⟩ := List.cons.inj same
      exact ⟨⟨head', read, read'⟩, tail', reads, reads'⟩
    · rintro ⟨⟨head, read, read'⟩, tail, reads, reads'⟩
      exact ⟨head :: tail, ⟨head, read, tail, reads, rfl⟩, head, read', tail, reads', rfl⟩

/-- A comparison makes different conditions from different values. -/
theorem Comparison.predicate_injective : Function.Injective comparison.predicate := by
  intro first second same
  cases comparison <;> simpa [Comparison.predicate] using same

theorem comparison_alike : (∃ predicate, (Formula.compare comparison
        (formulaOperand (some (genericDatatype dataType)) value)).predicate language =
          some predicate ∧
      (PolarsExpression.compare comparison (render (dataType == "Boolean") value)).predicate =
        some predicate) ↔
      if dataType = "Boolean" then language.literal value = some (.boolean (isTrueText value))
      else OperandAlike language (genericDatatype dataType) (looksNumeric value) value := by
  simp only [Formula.predicate, PolarsExpression.predicate]
  rw [map_alike comparison.predicate_injective]
  by_cases boolean : dataType = "Boolean"
  · subst boolean
    have bare : formulaOperand (some (genericDatatype "Boolean")) value = value := rfl
    have rendered : readLiteral (render true value) = some (.boolean (isTrueText value)) := by
      unfold render
      cases isTrueText value <;> rfl
    simp only [bare, beq_self_eq_true, rendered, if_true]
    constructor
    · rintro ⟨literal, read, same⟩
      rw [read, same]
    · exact fun read => ⟨_, read, rfl⟩
  · have rendered : render (dataType == "Boolean") value =
        polarsOperand (looksNumeric value) value := by
      simp [render, boolean, looksNumeric_nonempty, polarsOperand]
    rw [if_neg boolean, rendered]
    exact operandAlike_iff id

theorem quoted_alike {condition : Literal → Predicate} (injective : Function.Injective condition) :
    (∃ predicate, (language.literal s!"\"{value}\"").map condition = some predicate ∧
      (readLiteral (pyStr value)).map condition = some predicate) ↔ '"' ∉ value.toList := by
  rw [map_alike injective, language.literal_quoted, pyStr, readLiteral_jsonDumps]
  by_cases quote : '"' ∈ value.toList <;> simp [quote]

theorem list_alike {condition : List Literal → Predicate} (injective : Function.Injective condition)
    (values : List String) (numeric : bare = true → values.all looksNumeric = true) :
    (∃ predicate, ((values.map (formulaOperand (some group))).mapM language.literal).map condition =
        some predicate ∧
      ((values.map (polarsOperand bare)).mapM readLiteral).map condition = some predicate) ↔
      ∀ value ∈ values, OperandAlike language group bare value := by
  rw [map_alike injective, mapM_map, mapM_map, mapM_alike]
  refine forall₂_congr fun value mem => operandAlike_iff fun isBare => ?_
  exact all_eq_true.mp (numeric isBare) value mem

theorem inFormula_predicate (written : operatorFormula basic fieldDataType .isIn = .ok formula) :
    formula.predicate language =
      (((commaValues basic.value).map (formulaOperand fieldDataType)).mapM
        language.literal).map .oneOf := by
  simp only [operatorFormula] at written
  rcases values : commaValues basic.value with _ | ⟨first, _ | ⟨second, rest⟩⟩ <;>
    rw [values] at written <;> cases written
  · rfl
  · cases read : language.literal (formulaOperand fieldDataType first) <;>
      simp [Formula.predicate, read, Comparison.predicate]
  · rfl

/-- The formula of an excluded list holds the list, also when it is a comparison with its only
value. -/
theorem notInFormula_predicate
    (written : operatorFormula basic fieldDataType .notIn = .ok formula) :
    formula.predicate language =
      (((commaValues basic.value).map (formulaOperand fieldDataType)).mapM
        language.literal).map .noneOf := by
  simp only [operatorFormula] at written
  rcases values : commaValues basic.value with _ | ⟨first, _ | ⟨second, rest⟩⟩ <;>
    rw [values] at written <;> cases written
  · rfl
  · cases read : language.literal (formulaOperand fieldDataType first) <;>
      simp [Formula.predicate, read, Comparison.predicate]
  · rfl

/-- The first characters are compared with a text of their number. -/
theorem left_predicate : (Formula.left value.length s!"\"{value}\"").predicate language =
      (language.literal s!"\"{value}\"").map .startsWith := by
  simp only [Formula.predicate, language.literal_quoted]
  by_cases quote : '"' ∈ value.toList <;> simp [quote]

/-- The last characters are compared with a text of their number. -/
theorem right_predicate : (Formula.right value.length s!"\"{value}\"").predicate language =
      (language.literal s!"\"{value}\"").map .endsWith := by
  simp only [Formula.predicate, language.literal_quoted]
  by_cases quote : '"' ∈ value.toList <;> simp [quote]

theorem range_alike {lower upper : String}
    (numeric : bare = true → [lower, upper].all looksNumeric = true) :
    (∃ predicate, (Formula.range (formulaOperand (some group) lower)
        (formulaOperand (some group) upper)).predicate language = some predicate ∧
      (PolarsExpression.between (polarsOperand bare lower)
        (polarsOperand bare upper)).predicate = some predicate) ↔
      ∀ value ∈ [lower, upper], OperandAlike language group bare value := by
  have each := fun value (member : value ∈ [lower, upper]) =>
    @operandAlike_iff language value group bare fun isBare =>
      all_eq_true.mp (numeric isBare) value member
  simp only [mem_cons, not_mem_nil, or_false, forall_eq_or_imp, forall_eq] at each ⊢
  rw [← each.1, ← each.2]
  simp only [Formula.predicate, PolarsExpression.predicate, Option.bind_eq_bind, Option.pure_def,
    Option.bind_eq_some_iff, Option.some.injEq]
  constructor
  · rintro ⟨_, ⟨first, read, second, reads, rfl⟩, first', read', second', reads', same⟩
    cases same
    exact ⟨⟨_, read, read'⟩, _, reads, reads'⟩
  · rintro ⟨⟨first, read, read'⟩, second, reads, reads'⟩
    exact ⟨_, ⟨first, read, second, reads, rfl⟩, first, read', second, reads', rfl⟩

theorem predicates_alike_iff
    (written : operatorFormula basic (some (genericDatatype dataType)) operator = .ok formula) :
    (∃ predicate, formula.predicate language = some predicate ∧
      (operatorExpression basic (dataType == "Boolean") operator).predicate = some predicate) ↔
      ValuesAlike language basic dataType operator := by
  cases operator with
  | equals | notEquals | greaterThan | greaterThanOrEquals | lessThan | lessThanOrEquals =>
    cases written
    exact comparison_alike _
  | contains | notContains =>
    cases written
    exact quoted_alike fun _ _ same => by cases same; rfl
  | startsWith =>
    cases written
    rw [left_predicate]
    exact quoted_alike fun _ _ same => by cases same; rfl
  | endsWith =>
    cases written
    rw [right_predicate]
    exact quoted_alike fun _ _ same => by cases same; rfl
  | isNull | isNotNull =>
    cases written
    exact ⟨fun _ => trivial, fun _ => ⟨_, rfl, rfl⟩⟩
  | isIn =>
    rw [inFormula_predicate written]
    exact list_alike (fun _ _ same => by cases same; rfl) _ id
  | notIn =>
    rw [notInFormula_predicate written]
    exact list_alike (fun _ _ same => by cases same; rfl) _ id
  | between =>
    simp only [operatorFormula] at written
    cases given : basic.value2 with
    | none =>
      rw [given] at written
      cases written
    | some value2 =>
    rw [given] at written
    cases written
    simp only [operatorExpression, given, ValuesAlike, Option.some.injEq, exists_eq_left']
    refine range_alike fun isBare => ?_
    simpa [and_comm] using isBare

end

theorem operatorFormula_error {basic : BasicFilter} {message : String}
    (refused : operatorFormula basic fieldDataType operator = .error message) :
    operator = .between ∧ basic.value2 = none := by
  cases operator with
  | isIn | notIn =>
    simp only [operatorFormula] at refused
    split at refused <;> cases refused
  | between =>
    simp only [operatorFormula] at refused
    cases given : basic.value2 with
    | none => exact ⟨rfl, rfl⟩
    | some value2 =>
      rw [given] at refused
      cases refused
  | _ => cases refused

theorem filters_agree_iff (language : FormulaLanguage) (basic : BasicFilter) (dataType : String) :
    FiltersAgree language basic dataType ↔ ReadAlike language basic dataType := by
  unfold FiltersAgree ReadAlike formulaOf expressionOf
  cases basic.resolveOperator with
  | error message => exact Iff.rfl
  | ok operator =>
  simp only [Except.bind, Except.map]
  cases written : operatorFormula basic (some (genericDatatype dataType)) operator with
  | error message =>
    obtain ⟨rfl, missing⟩ := operatorFormula_error written
    simp [ValuesAlike, missing]
  | ok formula =>
  have column : language.column (formatField basic.field) = some basic.field ↔ _ :=
    language.column_bracketed basic.field
  have generated : ∀ expression : PolarsExpression, expression.filter basic.field =
      expression.predicate.map (ColumnFilter.mk basic.field) := by
    intro expression
    simp [PolarsExpression.filter, pyStr, readLiteral_jsonDumps]
  rw [← column, ← predicates_alike_iff written]
  simp only [generated]
  constructor
  · rintro ⟨filter, engine, code⟩
    obtain ⟨predicate, condition, rfl⟩ := Option.map_eq_some_iff.mp code
    simp only [Formula.filter, Option.bind_eq_bind, Option.pure_def, Option.bind_eq_some_iff,
      Option.some.injEq] at engine
    obtain ⟨name, reference, other, read, same⟩ := engine
    cases same
    exact ⟨reference, predicate, read, condition⟩
  · rintro ⟨reference, predicate, read, condition⟩
    refine ⟨⟨basic.field, predicate⟩, ?_, Option.map_eq_some_iff.mpr ⟨_, condition, rfl⟩⟩
    simp [Formula.filter, reference, read]

/-- A string from behind its opening quote. -/
def closedBy (quote : Char) (rest : List Char) : Option Literal :=
  if rest.getLast? = some quote ∧ quote ∉ rest.dropLast then
    some (.text (.ofList rest.dropLast))
  else none

def documentedLiteral (text : String) : Option Literal :=
  match text.toList with
  | [] => none
  | first :: rest =>
    if first = '"' ∨ first = Char.ofNat 39 then closedBy first rest
    else if text = "true" then some (.boolean true)
    else if text = "false" then some (.boolean false)
    else readNumber (first :: rest)

/-- The documented references: a name in brackets. -/
def documentedColumn (text : String) : Option String :=
  match text.toList with
  | '[' :: rest =>
    if rest.getLast? = some ']' ∧ rest.dropLast ≠ [] ∧ ']' ∉ rest.dropLast then
      some (.ofList rest.dropLast)
    else none
  | _ => none

def documentedLanguage : FormulaLanguage where
  literal := documentedLiteral
  column := documentedColumn
  literal_quoted value := by
    have characters : s!"\"{value}\"".toList = '"' :: (value.toList ++ ['"']) := by
      simp [toString]
    by_cases quote : '"' ∈ value.toList <;>
      simp [documentedLiteral, characters, closedBy, quote, String.ofList_toList]
  literal_text text value read := by
    unfold documentedLiteral at read
    split at read
    · cases read
    · rename_i first rest characters
      split at read
      · unfold closedBy at read
        split at read
        · rename_i closed
          cases read
          have whole := congrArg List.length characters
          have ends : rest ≠ [] := by
            rintro rfl
            simp at closed
          simp only [String.length_toList, length_cons] at whole
          simp only [String.length_ofList, length_dropLast, whole]
          omega
        · cases read
      · split at read
        · cases read
        · split at read
          · cases read
          · exact absurd read (readNumber_ne_text _ _)
  column_bracketed name := by
    have characters : s!"[{name}]".toList = '[' :: (name.toList ++ [']']) := by
      simp [toString]
    by_cases bracket : ']' ∈ name.toList <;>
      simp [documentedColumn, characters, bracket, String.ofList_toList]

/-- A number is compared with a column of whole numbers. -/
theorem ageFilter_agrees :
    FiltersAgree documentedLanguage ⟨"age", .known .greaterThan, "30", none⟩ "Int64" := by
  refine (filters_agree_iff _ _ _).mpr ⟨⟨by decide, by decide⟩, ?_⟩
  exact ⟨by decide +kernel, .integer 30, by decide +kernel, by decide +kernel⟩

/-- A text of digits is compared with a text column: the engine quotes it, and the generated code
compares with a number. -/
theorem digitsText_disagrees :
    buildFilterExpression ⟨"code", .known .equals, "123", none⟩ (some (genericDatatype "String")) =
        .ok "[code]=\"123\"" ∧
      createBasicFilterExpr "pl" ⟨"code", .known .equals, "123", none⟩ (some "String") =
        .ok "pl.col(\"code\") == 123" ∧
      ∀ language, ¬ FiltersAgree language ⟨"code", .known .equals, "123", none⟩ "String" := by
  refine ⟨by decide +kernel, by decide +kernel, fun language agree => ?_⟩
  obtain ⟨_, bare, _⟩ := (filters_agree_iff _ _ _).mp agree
  revert bare
  decide +kernel

end Flowfile.Filters

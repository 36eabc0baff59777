import Flowfile.Library.RowFrames
import Flowfile.Library.SplitTexts

/-!
# Transforms of rows: the engine and the generated code

A column of texts is split into rows, columns become rows, or rows get numbers. The engine makes its
calls on a table; the generated code makes calls of its own, written from the same settings. Both
are described by the calls they make.

The generated code knows of fixed separators and of listed columns only, puts the two numbers that
are added to a count into one, and takes the new column out of the names of the input.
-/

namespace Flowfile.CodeGen

open Library.RowFrames List
open Option (map_some bind_some bind_eq_bind map_none)

variable {D V : Type}

structure TextToRowsInput where
  columnToSplit : String
  outputColumnName : Option String := none
  splitByFixedValue : Option Bool := some true
  splitFixedValue : Option String := some ","
  splitByColumn : Option String := none

inductive DataTypeSelector where
  | float
  | all
  | date
  | numeric
  | string

inductive DataTypeSelectorMode where
  | dataType
  | column

structure UnpivotInput where
  indexColumns : List String := []
  valueColumns : List String := []
  dataTypeSelector : Option DataTypeSelector := none
  dataTypeSelectorMode : DataTypeSelectorMode := .column

structure RecordIdInput where
  outputColumnName : String := "record_id"
  offset : Int := 1
  groupBy : Option Bool := some false
  groupByColumns : Option (List String) := some []

inductive RowTransform where
  | textToRows (input : TextToRowsInput)
  | unpivot (input : UnpivotInput)
  | recordId (input : RecordIdInput)

variable (input : TextToRowsInput)

def TextToRowsInput.split : Option (List (Call D)) := do
  let outputColumnName := (input.outputColumnName.filter (· ≠ "")).getD input.columnToSplit
  let splitValue ← if input.splitByFixedValue = some true then
      some (.literal (input.splitFixedValue.map String.toList))
    else input.splitByColumn.map .column
  return [.withColumn (.split input.columnToSplit splitValue) outputColumnName,
    .explode outputColumnName]

/-- The types that the settings select, if they go by types. -/
def UnpivotInput.dataTypeSelectorExpr (selectors : DataTypeSelector → D → Bool)
    (input : UnpivotInput) : Option (D → Bool) :=
  match input.dataTypeSelectorMode with
  | .dataType => some (selectors (input.dataTypeSelector.getD .all))
  | .column => none

def UnpivotInput.engineOn (selectors : DataTypeSelector → D → Bool) (input : UnpivotInput) :
    Option (Picked D) :=
  match input.dataTypeSelectorExpr selectors with
  | some picks => some (.selected picks)
  | none => some (.listed input.valueColumns)

def UnpivotInput.unpivot (selectors : DataTypeSelector → D → Bool) (input : UnpivotInput) :
    List (Call D) :=
  [.unpivot (input.engineOn selectors) (some input.indexColumns) none none]

def RecordIdInput.addGroupedRecordId (input : RecordIdInput) (groups columns : List String) :
    List (Call D) :=
  [.withColumn (.literal 1) input.outputColumnName,
    .withColumn (.cumCount input.outputColumnName groups [.plus input.offset, .minus 1])
      input.outputColumnName,
    .select (input.outputColumnName :: columns)]

def RecordIdInput.addSimpleRecordId (input : RecordIdInput) : List (Call D) :=
  [.withRowIndex input.outputColumnName input.offset]

def RecordIdInput.addRecordId (input : RecordIdInput) (columns : List String) :
    Option (List (Call D)) :=
  if input.groupBy = some true then
    match input.groupByColumns with
    | none => none
    | some groups =>
      if 0 < groups.length then some (input.addGroupedRecordId groups columns)
      else some input.addSimpleRecordId
  else some input.addSimpleRecordId

def RowTransform.engine (selectors : DataTypeSelector → D → Bool) (columns : List String) :
    RowTransform → Option (List (Call D))
  | .textToRows input => input.split
  | .unpivot input => some (input.unpivot selectors)
  | .recordId input => input.addRecordId columns

/-- The calls of the code for splitting a column. A separator that is missing is written as a name
that nothing has. -/
def handleTextToRows : Option (List (Call D)) := do
  let splitSep ← input.splitFixedValue
  let explodeCol := match input.outputColumnName.filter (· ≠ "") with
    | some name => if name ≠ input.columnToSplit then name else input.columnToSplit
    | none => input.columnToSplit
  return [.withColumn (.split input.columnToSplit (.literal (some splitSep.toList))) explodeCol,
    .explode explodeCol]

def UnpivotInput.writtenOn (input : UnpivotInput) : Option (Picked D) :=
  if input.valueColumns ≠ [] then some (.listed input.valueColumns) else none

def handleUnpivot (input : UnpivotInput) : List (Call D) :=
  let index := if input.indexColumns ≠ [] then some input.indexColumns else none
  [.unpivot input.writtenOn index (some "variable") (some "value")]

/-- The shift of a count, which starts at one. -/
def offsetExpr (offset : Int) : List Shift :=
  let delta := offset - 1
  if delta = 0 then [] else if 0 < delta then [.plus delta] else [.minus delta.natAbs]

def handleRecordId (input : RecordIdInput) (columns : List String) : List (Call D) :=
  match input.groupByColumns with
  | some (group :: groups) =>
    if input.groupBy = some true then
      [.withColumn (.literal 1) input.outputColumnName,
        .withColumn (.cumCount input.outputColumnName (group :: groups) (offsetExpr input.offset))
          input.outputColumnName,
        .select (input.outputColumnName ::
          columns.filter fun column => column ≠ input.outputColumnName)]
    else [.withRowIndex input.outputColumnName input.offset]
  | _ => [.withRowIndex input.outputColumnName input.offset]

def RowTransform.generated (columns : List String) : RowTransform → Option (List (Call D))
  | .textToRows input => handleTextToRows input
  | .unpivot input => some (handleUnpivot input)
  | .recordId input => some (handleRecordId input columns)

structure InputColumns (D : Type) where
  names : List String
  type : String → D
  distinct : names.Nodup
  nonempty : names ≠ []

def InputColumns.frame (columns : InputColumns D) (rows : List (Row V)) : Frame D V :=
  ⟨columns.names, columns.type, rows⟩

section

variable (values : Values D V) (columns : InputColumns D)

def WellTyped (rows : List (Row V)) : Prop :=
  ∀ row ∈ rows, ∀ name ∈ columns.names, values.fits (columns.type name) (row name)

def IsText (name : String) : Prop :=
  name ∈ columns.names ∧ columns.type name = values.string

variable [DecidableEq D] [DecidableEq V]

/-- The table that calls lead to. -/
def computed (rows : List (Row V)) (chain : Option (List (Call D))) :
    Option (List String × List (List (Cell V))) :=
  (chain.bind ((columns.frame rows).calls values)).map Frame.shown

def ComputesAlike (selectors : DataTypeSelector → D → Bool) (transform : RowTransform) : Prop :=
  ∀ rows, WellTyped values columns rows →
    computed values columns rows (transform.engine selectors columns.names) =
      computed values columns rows (transform.generated columns.names)

/-- The separator is fixed and there is one, or both fail. -/
def TextToRowsInput.Agrees (input : TextToRowsInput) : Prop :=
  IsText values columns input.columnToSplit →
    if input.splitByFixedValue = some true then
      input.splitFixedValue = none → values.splitsByNull = false
    else input.splitFixedValue = none ∧
      ∀ name, input.splitByColumn = some name → ¬IsText values columns name

/-- The columns that become rows are the same, in the same order, or both fail. -/
def UnpivotInput.Agrees (selectors : DataTypeSelector → D → Bool) (input : UnpivotInput) : Prop :=
  (columns.frame []).unpivoted values (input.engineOn selectors) input.indexColumns
      "variable" "value" =
    (columns.frame []).unpivoted values input.writtenOn input.indexColumns "variable" "value"

/-- Groups are listed, the numbers make a new column, and adding the offset and taking one off is
what the code writes; or both fail. -/
def RecordIdInput.Agrees (input : RecordIdInput) : Prop :=
  input.groupBy = some true → match input.groupByColumns with
    | none => input.outputColumnName ∈ columns.names ∨ input.offset < 0
    | some groups => groups ≠ [] → groups ⊆ input.outputColumnName :: columns.names →
      input.outputColumnName ∉ columns.names ∧ ∀ count : Nat, 0 < count →
        values.subtract (values.add count input.offset) 1 =
          (offsetExpr input.offset).foldl (Shift.apply values) (count : Int)

def RowTransform.Agrees (selectors : DataTypeSelector → D → Bool) : RowTransform → Prop
  | .textToRows input => input.Agrees values columns
  | .unpivot input => input.Agrees values columns selectors
  | .recordId input => input.Agrees values columns

end

/-- Where the parts go. -/
def TextToRowsInput.outName : String :=
  (input.outputColumnName.filter (· ≠ "")).getD input.columnToSplit

def TextToRowsInput.splitBy (separator : Separator) : List (Call D) :=
  [.withColumn (.split input.columnToSplit separator) input.outName, .explode input.outName]

def TextToRowsInput.engineSeparator : Option Separator :=
  if input.splitByFixedValue = some true then
    some (.literal (input.splitFixedValue.map String.toList))
  else input.splitByColumn.map .column

theorem split_eq :
    (input.split : Option (List (Call D))) = input.engineSeparator.map input.splitBy := by
  rw [TextToRowsInput.split, TextToRowsInput.engineSeparator]
  split
  · rfl
  · cases input.splitByColumn <;> rfl

def TextToRowsInput.writtenSeparator : Option Separator :=
  input.splitFixedValue.map fun value => .literal (some value.toList)

open TextToRowsInput (engineSeparator writtenSeparator)

theorem handleTextToRows_eq : (handleTextToRows input : Option (List (Call D))) =
      input.writtenSeparator.map input.splitBy := by
  have out : (match input.outputColumnName.filter (· ≠ "") with
      | some name => if name ≠ input.columnToSplit then name else input.columnToSplit
      | none => input.columnToSplit) = input.outName := by
    rw [TextToRowsInput.outName]
    cases input.outputColumnName.filter (· ≠ "") with
    | none => rfl
    | some name =>
      by_cases same : name = input.columnToSplit
      · simp [same]
      · simp [same]
  rw [handleTextToRows, out, writtenSeparator]
  cases input.splitFixedValue <;> rfl

def splitFrame (values : Values D V) (columns : InputColumns D) (input : TextToRowsInput)
    (rows : List (Row V)) (separators : List (Cell V)) : Frame D V :=
  ((columns.frame rows).setColumn input.outName values.list
    (List.zipWith (fun row cell => splitCell values (row input.columnToSplit) cell) rows
      separators)).explodeRows values input.outName

variable {values : Values D V} {columns : InputColumns D} [DecidableEq D] [DecidableEq V]
  {input : TextToRowsInput} (rows : List (Row V))

theorem computed_splitBy (isText : IsText values columns input.columnToSplit)
    (rows : List (Row V)) (separator : Option Separator) :
    computed values columns rows (separator.map input.splitBy) =
      (separator.bind ((columns.frame rows).separators values)).map fun separators =>
        (splitFrame values columns input rows separators).shown := by
  have inFrame : input.columnToSplit ∈ (columns.frame rows).names ∧
      (columns.frame rows).type input.columnToSplit = values.string := isText
  cases separator with
  | none => rfl
  | some separator =>
    rw [computed, map_some, bind_some, TextToRowsInput.splitBy, Frame.calls_split,
      Frame.evaluate, if_pos inFrame, Option.map_map, Option.map_map]
    rfl

theorem computed_splitBy_none (notText : ¬IsText values columns input.columnToSplit)
    (rows : List (Row V)) (separator : Option Separator) :
    computed values columns rows (separator.map input.splitBy) = none := by
  cases separator with
  | none => rfl
  | some separator =>
  have inFrame : ¬(input.columnToSplit ∈ (columns.frame rows).names ∧
    (columns.frame rows).type input.columnToSplit = values.string) := notText
  rw [computed, map_some, bind_some, TextToRowsInput.splitBy, Frame.calls_split,
    Frame.evaluate, if_neg inFrame]
  rfl

def letterRow (values : Values D V) (columns : InputColumns D) (letter : Char) : Row V :=
  fun name => if columns.type name = values.string then .text [letter] else .null

omit [DecidableEq V] in
theorem letterRow_wellTyped (letter : Char) :
    WellTyped values columns [letterRow values columns letter] := by
  intro row mem name _
  rw [mem_singleton.mp mem, letterRow]
  split
  case isTrue isString => exact isString ▸ values.fits_text _
  case isFalse => exact values.fits_null _

omit [DecidableEq D] [DecidableEq V] in
theorem parts_of_shown {row : Row V} {first second : Cell V}
    (same : (splitFrame values columns input [row] [first]).shown =
      (splitFrame values columns input [row] [second]).shown) :
    (splitCell values (row input.columnToSplit) first).exploded =
      (splitCell values (row input.columnToSplit) second).exploded := by
  have parts (separator : Cell V) : (splitFrame values columns input [row] [separator]).rows.map
          (fun row => row input.outName) =
        (splitCell values (row input.columnToSplit) separator).exploded := by
    rw [splitFrame, Frame.explodeRows, Frame.setColumn, InputColumns.frame]
    simp [Function.comp_def]
  have mem : input.outName ∈ (splitFrame values columns input [row] [first]).names :=
    Frame.mem_setColumn (columns.frame [row]) input.outName values.list
      [splitCell values (row input.columnToSplit) first]
  have cells := shown_column same mem
  rwa [parts, parts] at cells

variable {name : String}

omit [DecidableEq V] in
theorem separators_column {rows : List (Row V)} :
    (IsText values columns name → (columns.frame rows).separators values (.column name) =
      some (rows.map fun row => row name)) ∧
    (¬IsText values columns name → (columns.frame rows).separators values (.column name) = none) :=
  ⟨fun isText => if_pos isText, fun notText => if_neg notText⟩

omit [DecidableEq V] in
theorem letterRow_differs {text : String} {letter : Char}
    (isText : IsText values columns input.columnToSplit) (isName : IsText values columns name)
    (apart : text.toList ≠ [letter]) :
    (splitFrame values columns input [letterRow values columns letter]
        [letterRow values columns letter name]).shown ≠
      (splitFrame values columns input [letterRow values columns letter]
        [.text text.toList]).shown := by
  intro same
  have cell {name : String} (isText : IsText values columns name) :
      letterRow values columns letter name = .text [letter] := if_pos isText.2
  have parts := parts_of_shown same
  rw [cell isText, cell isName, splitCell, splitCell] at parts
  have inSecond : (.text [letter] : Cell V) ∈
      (Cell.texts (values.split [letter] text.toList)).exploded :=
    text_mem_exploded.mpr (letter_mem_split values apart)
  rw [← parts, text_mem_exploded] at inSecond
  exact letter_not_mem_split values letter inSecond

variable (selectors : DataTypeSelector → D → Bool)

/-- The generated code splits like the engine exactly when both separators are the same or both
fail. -/
theorem textToRows_iff :
    ComputesAlike values columns selectors (.textToRows input) ↔ input.Agrees values columns := by
  rw [ComputesAlike, TextToRowsInput.Agrees]
  simp only [RowTransform.engine, RowTransform.generated, split_eq, handleTextToRows_eq]
  constructor
  · intro alike isText
    have noRows := alike [] (fun _ mem => absurd mem not_mem_nil)
    rw [computed_splitBy isText, computed_splitBy isText, engineSeparator,
      writtenSeparator] at noRows
    split
    case isTrue fixed =>
      intro missing
      rw [if_pos fixed, missing] at noRows
      by_contra accepted
      rw [Bool.not_eq_false] at accepted
      simp [Frame.separators, accepted] at noRows
    case isFalse notFixed =>
      rw [if_neg notFixed] at noRows
      cases value : input.splitFixedValue with
      | none =>
        refine ⟨rfl, fun name named isName => ?_⟩
        simp [value, named, separators_column.1 isName] at noRows
      | some text =>
      exfalso
      cases named : input.splitByColumn with
      | none => simp [value, named, Frame.separators] at noRows
      | some name =>
      by_cases isName : IsText values columns name
      · obtain ⟨letter, apart⟩ : ∃ letter, text.toList ≠ [letter] := by
          by_cases isA : text.toList = ['a']
          · exact ⟨'b', isA ▸ by decide⟩
          · exact ⟨'a', isA⟩
        have row := alike _ (letterRow_wellTyped letter)
        rw [computed_splitBy isText, computed_splitBy isText, engineSeparator,
          writtenSeparator, if_neg notFixed, value, named, map_some,
          bind_some, separators_column.1 isName] at row
        exact letterRow_differs isText isName apart (Option.some.inj row)
      · rw [value, named, map_some, bind_some, separators_column.2 isName] at noRows
        simp [Frame.separators] at noRows
  · intro agrees rows _
    by_cases isText : IsText values columns input.columnToSplit
    · have agree := agrees isText
      rw [computed_splitBy isText, computed_splitBy isText, engineSeparator,
        writtenSeparator]
      split at agree
      case isTrue fixed =>
        rw [if_pos fixed]
        cases value : input.splitFixedValue with
        | none => simp [Frame.separators, agree value]
        | some text => rfl
      case isFalse notFixed =>
        rw [if_neg notFixed, agree.1]
        cases named : input.splitByColumn with
        | none => rfl
        | some name => simp [separators_column.2 (agree.2 name named)]
    · rw [computed_splitBy_none isText, computed_splitBy_none isText]

variable {index : List String}

section

variable {unpivotInput : UnpivotInput}

theorem computed_unpivot (on : Option (Picked D))
    (index : Option (List String)) (variableName valueName : Option String) :
    computed values columns rows (some [.unpivot on index variableName valueName]) =
      ((columns.frame []).unpivoted values on (index.getD []) (variableName.getD "variable")
        (valueName.getD "value")).map fun made =>
          ((columns.frame rows).melt values made.1 made.2 (index.getD [])
            (variableName.getD "variable") (valueName.getD "value")).shown := by
  have same : (columns.frame rows).unpivoted values on (index.getD [])
      (variableName.getD "variable") (valueName.getD "value") =
        (columns.frame []).unpivoted values on (index.getD []) (variableName.getD "variable")
          (valueName.getD "value") := rfl
  rw [computed, bind_some, Frame.calls, foldlM_cons, Frame.call]
  dsimp only
  rw [same]
  cases (columns.frame []).unpivoted values on (index.getD []) (variableName.getD "variable")
    (valueName.getD "value") <;> rfl

omit [DecidableEq D] [DecidableEq V] in
theorem columns_of_shown {first second : List String × D} {row : Row V}
    (same : ((columns.frame [row]).melt values first.1 first.2 index "variable" "value").shown =
      ((columns.frame [row]).melt values second.1 second.2 index "variable" "value").shown) :
    first.1 = second.1 := by
  have written (made : List String × D) :
      ((columns.frame [row]).melt values made.1 made.2 index "variable" "value").rows.map
        (fun row => row "variable") = made.1.map fun name => .text name.toList := by
    rw [Frame.melt, InputColumns.frame]
    simp only [map_flatMap, map_cons, map_nil]
    exact map_eq_flatMap.symm
  have mem : "variable" ∈
      ((columns.frame [row]).melt values first.1 first.2 index "variable" "value").names :=
    mem_append_right _ mem_cons_self
  have cells := shown_column same mem
  rw [written, written] at cells
  refine map_injective_iff.mpr ?_ cells
  intro name other equal
  exact String.toList_injective (Cell.text.inj equal)

omit [DecidableEq D] [DecidableEq V] in
theorem common_of_unpivoted {on : Option (Picked D)}
    {variableName valueName : String} {made : List String × D}
    (found : (columns.frame ([] : List (Row V))).unpivoted values on index variableName valueName =
      some made) : values.supertype (made.1.map columns.type) = some made.2 := by
  rw [Frame.unpivoted, bind_eq_bind, Option.bind_eq_some_iff] at found
  obtain ⟨picked, _, found⟩ := found
  rw [bind_eq_bind, Option.bind_eq_some_iff] at found
  obtain ⟨common, isCommon, found⟩ := found
  split at found
  · cases found
    exact isCommon
  · cases found

/-- The generated code makes rows of the columns that the engine makes rows of. -/
theorem unpivot_iff : ComputesAlike values columns selectors (.unpivot unpivotInput) ↔
      unpivotInput.Agrees values columns selectors := by
  have index : (if unpivotInput.indexColumns ≠ [] then some unpivotInput.indexColumns
      else none).getD [] = unpivotInput.indexColumns := by
    split
    · rfl
    case isFalse empty => exact (of_not_not empty).symm
  rw [ComputesAlike, UnpivotInput.Agrees]
  simp only [RowTransform.engine, RowTransform.generated, UnpivotInput.unpivot, handleUnpivot,
    computed_unpivot, index, Option.getD_some, Option.getD_none]
  constructor
  · intro alike
    have nullRow : WellTyped values columns [fun _ => .null] := fun row mem _ _ =>
      mem_singleton.mp mem ▸ values.fits_null _
    have same := alike _ nullRow
    cases engine : (columns.frame []).unpivoted values (unpivotInput.engineOn selectors)
        unpivotInput.indexColumns "variable" "value" with
    | none =>
      rw [engine, map_none, eq_comm, Option.map_eq_none_iff] at same
      exact same.symm
    | some made =>
      rw [engine, map_some, eq_comm, Option.map_eq_some_iff] at same
      obtain ⟨other, written, shown⟩ := same
      have picked := columns_of_shown shown
      have common := (common_of_unpivoted written).symm.trans
        (picked ▸ common_of_unpivoted engine)
      rw [written]
      exact congrArg some (Prod.ext picked.symm (Option.some.inj common).symm)
  · intro agrees rows _
    rw [agrees]

end

variable {groups : List String}

section

variable {recordIdInput : RecordIdInput}

def numbers (values : Values D V) (columns : InputColumns D) (name : String)
    (groups : List String) (rows : List (Row V)) (shifts : List Shift) :
    List String × List (List (Cell V)) :=
  Frame.shown { (columns.frame rows).counted values name groups shifts with
    names := name :: columns.names }

theorem computed_grouped : computed values columns rows
        (some (recordIdInput.addGroupedRecordId groups columns.names)) =
      if groups ⊆ recordIdInput.outputColumnName :: columns.names ∧
          recordIdInput.outputColumnName ∉ columns.names then
        some (numbers values columns recordIdInput.outputColumnName groups rows
          [.plus recordIdInput.offset, .minus 1])
      else none := by
  have fresh : (recordIdInput.outputColumnName :: columns.names).Nodup ↔
      recordIdInput.outputColumnName ∉ columns.names :=
    nodup_cons.trans (and_iff_left columns.distinct)
  have names : (columns.frame rows).names = columns.names := rfl
  rw [computed, bind_some, RecordIdInput.addGroupedRecordId, Frame.calls_count, names]
  by_cases made : groups ⊆ recordIdInput.outputColumnName :: columns.names ∧
      recordIdInput.outputColumnName ∉ columns.names
  · rw [if_pos made, if_pos ⟨made.1, List.Subset.refl _, fresh.mpr made.2⟩]
    rfl
  · rw [if_neg made, if_neg fun all => made ⟨all.1, fresh.mp all.2.2⟩]
    rfl

def writtenGroups (name : String) (groups columns : List String) (shifts : List Shift) :
    List (Call D) :=
  [.withColumn (.literal 1) name, .withColumn (.cumCount name groups shifts) name,
    .select (name :: columns.filter fun column => column ≠ name)]

/-- The generated code puts the numbers in the place of a column of the name. -/
theorem computed_written (shifts : List Shift) :
    computed values columns rows (some (writtenGroups name groups columns.names shifts)) =
      if groups ⊆ name :: columns.names then
        some (Frame.shown { (columns.frame rows).counted values name groups shifts with
          names := name :: columns.names.filter fun column => column ≠ name })
      else none := by
  have names : (columns.frame rows).names = columns.names := rfl
  have chosen : (name :: columns.names.filter fun column => column ≠ name) ⊆
      name :: columns.names := cons_subset_cons _ filter_sublist.subset
  have distinct : (name :: columns.names.filter fun column => column ≠ name).Nodup :=
    nodup_cons.mpr ⟨by simp, columns.distinct.filter _⟩
  rw [computed, bind_some, writtenGroups, Frame.calls_count, names]
  by_cases known : groups ⊆ name :: columns.names
  · rw [if_pos known, if_pos ⟨known, chosen, distinct⟩]
    rfl
  · rw [if_neg known, if_neg fun all => known all.1]
    rfl

omit [DecidableEq D] in
theorem numbers_alike_iff {first second : List Shift} : (∀ rows, WellTyped values columns rows →
      numbers values columns name groups rows first =
        numbers values columns name groups rows second) ↔
      ∀ count : Nat, 0 < count → first.foldl (Shift.apply values) (count : Int) =
        second.foldl (Shift.apply values) (count : Int) := by
  constructor
  · intro alike count positive
    obtain ⟨count, rfl⟩ := Nat.exists_eq_succ_of_ne_zero (Nat.ne_of_gt positive)
    have nullRows : WellTyped values columns (List.replicate (count + 1) fun _ => .null) :=
      fun row mem _ _ => eq_of_mem_replicate mem ▸ values.fits_null _
    have cells := @shown_column _ _ _ _ (alike _ nullRows) name mem_cons_self
    dsimp only at cells
    rw [Frame.counted_cells, Frame.counted_cells, map_inj_left] at cells
    exact Cell.number.inj (cells _ (Frame.mem_groupCounts_replicate rfl))
  · intro same rows _
    have counted : (columns.frame rows).counted values name groups first =
        (columns.frame rows).counted values name groups second := by
      rw [Frame.counted, Frame.counted]
      refine congrArg _ (map_congr_left fun count mem => ?_)
      obtain ⟨number, positive, rfl⟩ := Frame.groupCounts_pos count mem
      exact congrArg Cell.number (same number positive)
    rw [numbers, numbers, counted]

theorem computed_rowIndex_none {offset : Int} :
    computed values columns rows (some [.withRowIndex name offset]) = none ↔
      name ∈ columns.names ∨ offset < 0 := by
  have names : (columns.frame rows).names = columns.names := rfl
  rw [computed, bind_some, Frame.calls, foldlM_cons, Frame.call, names]
  by_cases fresh : name ∉ columns.names ∧ 0 ≤ offset
  · rw [if_pos fresh]
    simp [fresh.1, fresh.2]
  rw [if_neg fresh]
  simp only [bind_eq_bind, Option.bind_none, map_none, true_iff]
  by_contra neither
  rw [not_or, not_lt] at neither
  exact fresh neither

theorem grouped_iff (listed : groups ≠ []) : (∀ rows, WellTyped values columns rows →
      computed values columns rows (some (recordIdInput.addGroupedRecordId groups columns.names)) =
        computed values columns rows (some (writtenGroups recordIdInput.outputColumnName groups
          columns.names (offsetExpr recordIdInput.offset)))) ↔
      (groups ≠ [] → groups ⊆ recordIdInput.outputColumnName :: columns.names →
        recordIdInput.outputColumnName ∉ columns.names ∧ ∀ count : Nat, 0 < count →
          values.subtract (values.add count recordIdInput.offset) 1 =
            (offsetExpr recordIdInput.offset).foldl (Shift.apply values) (count : Int)) := by
  simp only [computed_grouped, computed_written]
  by_cases known : groups ⊆ recordIdInput.outputColumnName :: columns.names
  · by_cases fresh : recordIdInput.outputColumnName ∉ columns.names
    · have others : (columns.names.filter fun column =>
          column ≠ recordIdInput.outputColumnName) = columns.names :=
        filter_eq_self.mpr fun column mem =>
          decide_eq_true fun same => fresh (same ▸ mem)
      simp only [if_pos known, if_pos (And.intro known fresh), others, Option.some.injEq]
      refine Iff.trans numbers_alike_iff ?_
      exact ⟨fun same _ _ => ⟨fresh, same⟩, fun agrees => (agrees listed known).2⟩
    · simp only [if_pos known, if_neg fun both : _ ∧ _ => fresh both.2]
      constructor
      · intro alike
        cases alike [] (fun _ mem => absurd mem not_mem_nil)
      · exact fun agrees => absurd (agrees listed known).1 fresh
  · simp only [if_neg known, if_neg fun both : _ ∧ _ => known both.1]
    exact ⟨fun _ _ inside => absurd inside known, fun _ _ _ => trivial⟩

/-- The generated code numbers rows like the engine exactly when the numbers make a new column and
the shift is the same, or both fail. -/
theorem recordId_iff : ComputesAlike values columns selectors (.recordId recordIdInput) ↔
      recordIdInput.Agrees values columns := by
  rw [ComputesAlike, RecordIdInput.Agrees]
  simp only [RowTransform.engine, RowTransform.generated, RecordIdInput.addRecordId, handleRecordId]
  by_cases grouped : recordIdInput.groupBy = some true
  · cases listed : recordIdInput.groupByColumns with
    | none =>
      simp only [grouped, if_true, forall_const]
      constructor
      · intro alike
        have noRows := alike [] (fun _ mem => absurd mem not_mem_nil)
        exact (computed_rowIndex_none []).mp noRows.symm
      · exact fun fails rows _ => ((computed_rowIndex_none rows).mpr fails).symm
    | some groups =>
      cases groups with
      | nil => simp [grouped, RecordIdInput.addSimpleRecordId]
      | cons group groups =>
        simp only [grouped, if_true, length_cons, Nat.succ_pos, forall_const]
        exact grouped_iff (cons_ne_nil _ _)
  · cases listed : recordIdInput.groupByColumns with
    | none => simp [grouped, RecordIdInput.addSimpleRecordId]
    | some groups => cases groups <;> simp [grouped, RecordIdInput.addSimpleRecordId]

end

/-- The generated code computes the table of the engine exactly when both split by the same
separator, make rows of the same columns, and number groups in a new column with the same shift, or
both fail. -/
theorem rowTransforms_alike_iff (selectors : DataTypeSelector → D → Bool)
    (transform : RowTransform) :
    ComputesAlike values columns selectors transform ↔
      transform.Agrees values columns selectors := by
  cases transform with
  | textToRows input => exact textToRows_iff selectors
  | unpivot input => exact unpivot_iff selectors
  | recordId input => exact recordId_iff selectors

/-- Types of columns. -/
inductive PlainType where
  | string
  | list
  | unsigned
deriving DecidableEq

/-- Values of an engine where an empty list stands for all columns but the index, columns have a
common type only when they are of one type, and numbers do not wrap around. -/
def plainValues : Values PlainType Empty where
  string := .string
  list := .list
  index := .unsigned
  fits
    | _, .null => True
    | .string, .text _ => True
    | .list, .texts _ => True
    | .unsigned, .number value => 0 ≤ value
    | _, _ => False
  fits_null type := by cases type <;> trivial
  fits_text _ := trivial
  listed columns index names :=
    some (if names = [] then columns.filter fun column => column ∉ index else names)
  supertype
    | [] => some .string
    | first :: rest => if rest.all (· = first) then some first else none
  cast _ cell := cell
  split := Library.SplitTexts.splitText
  split_joined := Library.SplitTexts.splitText_joined
  split_parted text _ := Library.SplitTexts.splitText_parted text
  splitsByNull := true
  add := (· + ·)
  subtract := (· - ·)

def separatorColumns : InputColumns PlainType where
  names := ["text", "separator"]
  type _ := .string
  distinct := by decide
  nonempty := by decide

def splitBySeparators : RowTransform :=
  .textToRows {
    columnToSplit := "text"
    outputColumnName := some "part"
    splitByFixedValue := some false
    splitByColumn := some "separator" }

def plainSelectors : DataTypeSelector → PlainType → Bool
  | .all, _ => true
  | .string, type => type = .string
  | _, _ => false

/-- The generated code cuts at commas although the settings name a column of separators. -/
theorem separators_ignored :
    ¬ComputesAlike plainValues separatorColumns plainSelectors splitBySeparators := by
  intro alike
  let row : Row Empty := fun name => .text (if name = "separator" then [';'] else ['a', ';', 'b'])
  have typed : WellTyped plainValues separatorColumns [row] := fun other mem _ _ =>
    mem_singleton.mp mem ▸ trivial
  have parts := congrArg (Option.map fun shown => shown.2.length) (alike [row] typed)
  exact absurd parts (by decide)

end Flowfile.CodeGen

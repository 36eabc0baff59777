import Flowfile.Library.ColumnFrames

/-!
# Join settings and the predicted schema

The settings of a join list columns of both sides with a new name and a flag whether they
are kept, the pairs of key columns and the strategy. Columns that the settings do not
mention are kept. Key columns are marked. Where kept names of both sides overlap, the right
ones get a suffix, as often as needed.

The prediction puts the listed columns into the order of the schema, the last entry of a
column deciding, and lists the kept ones of the left side and then of the right side.
Types matter only in that the key columns of a pair must be of one group.
-/

namespace Flowfile.Join

open Library.ColumnFrames List

inductive DataTypeGroup where
  | numeric
  | str
  | date
deriving DecidableEq

structure FlowfileColumn where
  columnName : String
  dataType : String

/-- Types that count as numbers. -/
def numericTypes : List String :=
  ["fixed_decimal", "decimal", "float", "integer", "boolean", "double", "Int8", "Int16", "Int32",
    "Int64", "Int128", "Float16", "Float32", "Float64", "Decimal", "Binary", "Boolean", "Uint8",
    "Uint16", "Uint32", "Uint64", "UInt8", "UInt16", "UInt32", "UInt64", "UInt128"]

def FlowfileColumn.genericDatatype (column : FlowfileColumn) : DataTypeGroup :=
  if column.dataType ∈ ["Utf8", "VARCHAR", "CHAR", "NVARCHAR", "String"] then .str
  else if column.dataType ∈ numericTypes then .numeric
  else if column.dataType ∈ ["datetime", "date", "Date", "Datetime", "Time"] then .date
  else .str

structure TableSchema where
  columns : List FlowfileColumn
  distinct : (columns.map FlowfileColumn.columnName).Nodup

def TableSchema.names (schema : TableSchema) : List String :=
  schema.columns.map FlowfileColumn.columnName

def TableSchema.find (schema : TableSchema) (name : String) : Option FlowfileColumn :=
  dictGet (schema.columns.map fun column => (column.columnName, column)) name

/-- One listed column. -/
structure SelectInput where
  oldName : String
  newName : String
  joinKey : Bool
  isAvailable : Bool
  keep : Bool

/-- A column listed without settings of its own. -/
def SelectInput.ofColumn (name : String) : SelectInput :=
  ⟨name, name, false, true, true⟩

/-- A pair of key columns. -/
structure JoinMap where
  leftCol : String
  rightCol : String

inductive JoinKeyStrategy where
  | inner
  | left
  | right
  | full
  | semi
  | anti
  | outer
deriving DecidableEq

structure JoinInput where
  joinMapping : List JoinMap
  leftSelect : List SelectInput
  rightSelect : List SelectInput
  how : JoinKeyStrategy

/-- Whether a column takes part in the join. -/
def SelectInput.selected (select : SelectInput) : Bool :=
  select.keep || select.joinKey

open SelectInput (newName selected oldName joinKey ofColumn)

variable (selects : List SelectInput)

/-- New names of the kept columns. -/
def getNewCols : List String :=
  (selects.filter SelectInput.keep).map newName

/-- New names of the columns that take part, by old name. -/
def getRenameTable : List (String × String) :=
  (selects.filter fun select => select.isAvailable && select.selected).map fun select =>
    (select.oldName, select.newName)

def getSelectCols : List String :=
  (selects.filter selected).map oldName

def getJoinKeySelects : List SelectInput :=
  selects.filter joinKey

def withMissing (columns : List String) : List SelectInput :=
  selects ++ (columns.filter fun name => name ∉ selects.map oldName).map
    ofColumn

def markKeys (keys : List String) (selects : List SelectInput) : List SelectInput :=
  selects.map fun select => { select with joinKey := decide (select.oldName ∈ keys) }

def orderBy (columns : List String) (selects : List SelectInput) : List SelectInput :=
  columns.filterMap (dictGet (selects.map fun select => (select.oldName, select)))

variable (leftCols rightCols : List String)

/-- Append the columns of both tables that are not listed. -/
def JoinInput.ensureAllColumnsHaveSelect (input : JoinInput) : JoinInput :=
  { input with
    leftSelect := withMissing input.leftSelect leftCols
    rightSelect := withMissing input.rightSelect rightCols }

variable (input : JoinInput)

def JoinInput.setJoinKeys : JoinInput :=
  { input with
    leftSelect := markKeys (input.joinMapping.map JoinMap.leftCol) input.leftSelect
    rightSelect := markKeys (input.joinMapping.map JoinMap.rightCol) input.rightSelect }

def JoinInput.ensureRightUnselect : JoinInput :=
  if input.how = .semi ∨ input.how = .anti then
    { input with rightSelect := input.rightSelect.map fun select => { select with keep := false } }
  else input

/-- The settings that prediction and execution both start from. -/
def JoinInput.complete (input : JoinInput) : JoinInput :=
  ((input.setJoinKeys.ensureAllColumnsHaveSelect leftCols
    rightCols).setJoinKeys).ensureRightUnselect

/-- Kept names that both sides have. -/
def JoinInput.getOverlappingColumns : List String :=
  (getNewCols input.leftSelect).filter fun name => name ∈ getNewCols input.rightSelect

def addSuffix (overlapping : List String) (name : String) : String :=
  if name ∈ overlapping then name ++ "_right" else name

/-- A column under another name. -/
def SelectInput.retitle (change : String → String) (select : SelectInput) : SelectInput :=
  { select with newName := change select.newName }

open SelectInput (ofColumn retitle)

/-- Rename columns of the right side until no kept names overlap. -/
def JoinInput.resolveOverlaps : Nat → JoinInput → JoinInput
  | 0, input => input
  | rounds + 1, input =>
    if input.getOverlappingColumns.isEmpty then input
    else resolveOverlaps rounds
      { input with rightSelect :=
          input.rightSelect.map (retitle (addSuffix input.getOverlappingColumns)) }

open JoinInput (resolveOverlaps setJoinKeys complete ensureRightUnselect)

def longest (names : List String) : Nat :=
  (names.map String.length).foldr max 0

/-- Rename columns of the right side to avoid conflicts. An overlapping name has grown in
every round and cannot be longer than the kept names of the left side. -/
def JoinInput.autoRename : JoinInput :=
  resolveOverlaps (longest (getNewCols input.leftSelect) + 1) input.setJoinKeys

def JoinInput.appendKeysPredicted : JoinInput :=
  let missing (keys : List String) (selects : List SelectInput) : List SelectInput :=
    (keys.filter fun name => name ∉ selects.map oldName).map fun name =>
      { ofColumn name with keep := false, joinKey := true }
  { input with
    leftSelect := input.leftSelect ++ missing (input.joinMapping.map JoinMap.leftCol)
      input.leftSelect
    rightSelect := input.rightSelect ++ missing (input.joinMapping.map JoinMap.rightCol)
      input.rightSelect }

def JoinInput.orderBySchemas (input : JoinInput) : JoinInput :=
  { input with
    leftSelect := orderBy leftCols input.leftSelect
    rightSelect := orderBy rightCols input.rightSelect }

def predictedColumns (schema : TableSchema) (selects : List SelectInput) : List FlowfileColumn :=
  selects.filterMap fun select =>
    (schema.find select.oldName).bind fun column =>
      if select.keep then some ⟨select.newName, column.dataType⟩ else none

def calculateJoinSchema (left right : TableSchema)
    (autoGenerateSelection : Bool) : List FlowfileColumn :=
  let manager := (input.complete left.names right.names).appendKeysPredicted
  let manager := manager.orderBySchemas left.names right.names
  let manager := if autoGenerateSelection then manager.autoRename else manager
  predictedColumns left manager.leftSelect ++ predictedColumns right manager.rightSelect

theorem longest_le_iff (names : List String) (bound : Nat) :
    longest names ≤ bound ↔ ∀ name ∈ names, name.length ≤ bound := by
  induction names with
  | nil => simp [longest]
  | cons name rest ih =>
    have unfolded : longest (name :: rest) = max name.length (longest rest) := rfl
    rw [unfolded, Nat.max_le, ih]
    simp

theorem longest_congr {names others : List String}
    (same : ∀ name, name ∈ names ↔ name ∈ others) : longest names = longest others := by
  apply Nat.le_antisymm
  · rw [longest_le_iff]
    exact fun name mem =>
      (longest_le_iff others _).mp (Nat.le_refl _) name ((same name).mp mem)
  · rw [longest_le_iff]
    exact fun name mem =>
      (longest_le_iff names _).mp (Nat.le_refl _) name ((same name).mpr mem)

/-- Kept names of retitled columns. -/
theorem getNewCols_retitle (change : String → String) (selects : List SelectInput) :
    getNewCols (selects.map (retitle change)) = (getNewCols selects).map change := by
  simp only [getNewCols, filter_map, map_map]
  rfl

variable {name : String}

/-- Overlapping names are kept names of both sides. -/
theorem mem_getOverlappingColumns {input : JoinInput} : name ∈ input.getOverlappingColumns ↔
      name ∈ getNewCols input.leftSelect ∧ name ∈ getNewCols input.rightSelect := by
  simp [JoinInput.getOverlappingColumns]

/-- When no names overlap, nothing is renamed any more. -/
theorem resolveOverlaps_done {input : JoinInput} (done : input.getOverlappingColumns = [])
    (rounds : Nat) : input.resolveOverlaps rounds = input := by
  cases rounds with
  | zero => rfl
  | succ rounds => simp [resolveOverlaps, done]

theorem resolveOverlaps_disjoint (rounds grown : Nat) (input : JoinInput)
    (long : ∀ name ∈ input.getOverlappingColumns, grown ≤ name.length)
    (enough : longest (getNewCols input.leftSelect) < grown + rounds) :
    (input.resolveOverlaps rounds).getOverlappingColumns = [] := by
  induction rounds generalizing grown input with
  | zero =>
    rw [resolveOverlaps, eq_nil_iff_forall_not_mem]
    intro name overlaps
    have bounded := (longest_le_iff _ _).mp (Nat.le_refl _) name
      (mem_getOverlappingColumns.mp overlaps).1
    have reached := long name overlaps
    omega
  | succ rounds ih =>
    rw [resolveOverlaps]
    split
    case isTrue done => simpa using done
    case isFalse =>
      apply ih (grown + 6)
      · intro name overlaps
        obtain ⟨inLeft, inRight⟩ := mem_getOverlappingColumns.mp overlaps
        simp only [getNewCols_retitle] at inRight
        obtain ⟨old, oldKept, rfl⟩ := mem_map.mp inRight
        by_cases overlapped : old ∈ input.getOverlappingColumns
        · have reached := long old overlapped
          have suffix : "_right".length = 6 := by decide
          simp only [addSuffix, overlapped, if_true, String.length_append, suffix]
          omega
        · -- A name without suffix overlapped before already.
          simp only [addSuffix, overlapped, if_false] at inLeft
          exact absurd (mem_getOverlappingColumns.mpr ⟨inLeft, oldKept⟩) overlapped
      · dsimp only
        omega

/-- After automatic renaming no kept name belongs to both sides. -/
theorem autoRename_disjoint : input.autoRename.getOverlappingColumns = [] := by
  apply resolveOverlaps_disjoint _ 0
  · exact fun _ _ => Nat.zero_le _
  · have kept : getNewCols input.setJoinKeys.leftSelect = getNewCols input.leftSelect := by
      simp only [getNewCols, setJoinKeys, markKeys, filter_map, map_map]
      rfl
    rw [kept]
    omega

/-! ## Names after automatic renaming

Whether a kept column of the right side is renamed depends only on the names kept on the
left side: it gets suffixes until its name is free. -/

/-- A name with as many suffixes as it takes to be free, at most a number of them. -/
def freeTitle (taken : List String) : Nat → String → String
  | 0, name => name
  | rounds + 1, name =>
    if name ∈ taken then freeTitle taken rounds (name ++ "_right") else name

theorem freeTitle_of_not_mem {taken : List String} (free : name ∉ taken)
    (rounds : Nat) : freeTitle taken rounds name = name := by
  cases rounds with
  | zero => rfl
  | succ rounds => simp [freeTitle, free]

/-- Only which names are taken matters. -/
theorem freeTitle_congr {taken others : List String}
    (same : ∀ name, name ∈ taken ↔ name ∈ others) (rounds : Nat) (name : String) :
    freeTitle taken rounds name = freeTitle others rounds name := by
  induction rounds generalizing name with
  | zero => rfl
  | succ rounds ih => simp [freeTitle, same, ih]

theorem retitle_retitle (first second : String → String) :
    (selects.map (retitle first)).map (retitle second) =
      selects.map (retitle (second ∘ first)) := by
  rw [map_map]
  rfl

theorem resolveOverlaps_titles (rounds : Nat) (input : JoinInput) : ∃ change : String → String,
      input.resolveOverlaps rounds =
        { input with rightSelect := input.rightSelect.map (retitle change) } ∧
      ∀ name ∈ getNewCols input.rightSelect,
        change name = freeTitle (getNewCols input.leftSelect) rounds name := by
  induction rounds generalizing input with
  | zero =>
    refine ⟨id, ?_, fun _ _ => rfl⟩
    have unchanged : input.rightSelect.map (retitle id) = input.rightSelect :=
      map_id _
    rw [unchanged, resolveOverlaps]
  | succ rounds ih =>
    by_cases done : input.getOverlappingColumns = []
    · refine ⟨id, ?_, ?_⟩
      · have unchanged : input.rightSelect.map (retitle id) = input.rightSelect :=
          map_id _
        rw [unchanged, resolveOverlaps_done done]
      · intro name kept
        have free : name ∉ getNewCols input.leftSelect := by
          intro taken
          have overlaps := mem_getOverlappingColumns.mpr ⟨taken, kept⟩
          simp [done] at overlaps
        rw [freeTitle_of_not_mem free, id_eq]
    · obtain ⟨change, renamed, titles⟩ := ih
        { input with rightSelect :=
            input.rightSelect.map (retitle (addSuffix input.getOverlappingColumns)) }
      refine ⟨change ∘ addSuffix input.getOverlappingColumns, ?_, ?_⟩
      · rw [resolveOverlaps, if_neg (by simpa using done), renamed]
        simp only [retitle_retitle]
      · intro name kept
        dsimp only at titles
        rw [getNewCols_retitle] at titles
        rw [Function.comp_apply, titles _ (mem_map_of_mem kept), freeTitle]
        by_cases taken : name ∈ getNewCols input.leftSelect
        · have overlaps := mem_getOverlappingColumns.mpr ⟨taken, kept⟩
          rw [if_pos taken, addSuffix, if_pos overlaps]
        · have apart : name ∉ input.getOverlappingColumns :=
            fun overlaps => taken (mem_getOverlappingColumns.mp overlaps).1
          rw [if_neg taken, addSuffix, if_neg apart, freeTitle_of_not_mem taken]

/-- The name under which a kept column of the right side ends up. -/
def rightTitle (autoGenerateSelection : Bool) (taken : List String) (name : String) : String :=
  if autoGenerateSelection then freeTitle taken (longest taken + 1) name else name

/-- Only which names are taken matters. -/
theorem rightTitle_congr {taken others : List String} (autoGenerateSelection : Bool)
    (same : ∀ name, name ∈ taken ↔ name ∈ others) (name : String) :
    rightTitle autoGenerateSelection taken name = rightTitle autoGenerateSelection others name := by
  rw [rightTitle, rightTitle, longest_congr same, freeTitle_congr same]

theorem markKeys_of_marked {keys : List String} {selects : List SelectInput}
    (marked : ∀ select ∈ selects, select.joinKey = decide (select.oldName ∈ keys)) :
    markKeys keys selects = selects := by
  rw [markKeys]
  conv_rhs => rw [← map_id selects]
  apply map_congr_left
  intro select mem
  rw [← marked select mem]
  rfl

variable (keys columns : List String)

def completed (selects : List SelectInput) : List SelectInput :=
  markKeys keys (withMissing selects columns)

theorem markKeys_withMissing (selects : List SelectInput) :
    markKeys keys (withMissing (markKeys keys selects) columns) =
      completed keys columns selects := by
  have names : (markKeys keys selects).map oldName =
      selects.map oldName := by
    rw [markKeys, map_map]
    rfl
  rw [completed, withMissing, names]
  simp only [withMissing, markKeys, map_append, map_map]
  rfl

theorem complete_leftSelect (input : JoinInput) : (input.complete leftCols rightCols).leftSelect =
      completed (input.joinMapping.map JoinMap.leftCol) leftCols input.leftSelect := by
  rw [← markKeys_withMissing, complete, ensureRightUnselect]
  split <;> rfl

theorem ensureRightUnselect_rightSelect : input.ensureRightUnselect.rightSelect =
      if input.how = .semi ∨ input.how = .anti then
        input.rightSelect.map fun select => { select with keep := false }
      else input.rightSelect := by
  rw [ensureRightUnselect, apply_ite JoinInput.rightSelect]

theorem complete_rightSelect (input : JoinInput) : (input.complete leftCols rightCols).rightSelect =
      if input.how = .semi ∨ input.how = .anti then
        (completed (input.joinMapping.map JoinMap.rightCol) rightCols input.rightSelect).map
          fun select => { select with keep := false }
      else completed (input.joinMapping.map JoinMap.rightCol) rightCols input.rightSelect := by
  rw [← markKeys_withMissing, complete, ensureRightUnselect_rightSelect]
  rfl

/-- Completing changes neither the strategy nor the pairs. -/
theorem complete_rest (input : JoinInput) : (input.complete leftCols rightCols).how = input.how ∧
      (input.complete leftCols rightCols).joinMapping = input.joinMapping := by
  rw [complete, ensureRightUnselect]
  split <;> exact ⟨rfl, rfl⟩

theorem mem_completed {keys columns : List String} {selects : List SelectInput}
    (mem : name ∈ columns) :
    name ∈ (completed keys columns selects).map oldName := by
  have names : (completed keys columns selects).map oldName =
      (withMissing selects columns).map oldName := by
    rw [completed, markKeys, map_map]
    rfl
  rw [names, withMissing, map_append, mem_append]
  by_cases listed : name ∈ selects.map oldName
  · exact .inl listed
  · refine .inr (mem_map.mpr ⟨ofColumn name, ?_, rfl⟩)
    exact mem_map_of_mem (mem_filter.mpr ⟨mem, by simpa using listed⟩)

theorem completed_marked {keys columns : List String} {selects : List SelectInput} :
    ∀ select ∈ completed keys columns selects,
      select.joinKey = decide (select.oldName ∈ keys) := by
  intro select mem
  obtain ⟨listed, _, rfl⟩ := mem_map.mp mem
  rfl

theorem complete_unselected {input : JoinInput}
    (filtering : input.how = .semi ∨ input.how = .anti) :
    ∀ select ∈ (input.complete leftCols rightCols).rightSelect, select.keep = false := by
  intro select mem
  rw [complete_rightSelect, if_pos filtering] at mem
  obtain ⟨_, _, rfl⟩ := mem_map.mp mem
  rfl

theorem complete_leftMarked {leftCols rightCols : List String} {input : JoinInput} :
    ∀ select ∈ (input.complete leftCols rightCols).leftSelect,
      select.joinKey = decide (select.oldName ∈
        (input.complete leftCols rightCols).joinMapping.map JoinMap.leftCol) := by
  rw [complete_leftSelect, (complete_rest leftCols rightCols input).2]
  exact completed_marked

theorem complete_rightMarked {leftCols rightCols : List String} {input : JoinInput} :
    ∀ select ∈ (input.complete leftCols rightCols).rightSelect,
      select.joinKey = decide (select.oldName ∈
        (input.complete leftCols rightCols).joinMapping.map JoinMap.rightCol) := by
  rw [complete_rightSelect, (complete_rest leftCols rightCols input).2]
  intro select mem
  split at mem
  case isTrue =>
    obtain ⟨listed, inCompleted, rfl⟩ := mem_map.mp mem
    exact completed_marked listed inCompleted
  case isFalse => exact completed_marked select mem

theorem mem_complete_left {leftCols rightCols : List String} {input : JoinInput}
    (mem : name ∈ leftCols) :
    name ∈ (input.complete leftCols rightCols).leftSelect.map oldName := by
  rw [complete_leftSelect]
  exact mem_completed mem

theorem mem_complete_right {leftCols rightCols : List String} {input : JoinInput} {name : String}
    (mem : name ∈ rightCols) :
    name ∈ (input.complete leftCols rightCols).rightSelect.map oldName := by
  rw [complete_rightSelect]
  split
  case isTrue =>
    rw [map_map]
    exact mem_completed mem
  case isFalse => exact mem_completed mem

section

variable {input : JoinInput}
  (left : ∀ select ∈ input.leftSelect,
    select.joinKey = decide (select.oldName ∈ input.joinMapping.map JoinMap.leftCol))
  (right : ∀ select ∈ input.rightSelect,
    select.joinKey = decide (select.oldName ∈ input.joinMapping.map JoinMap.rightCol))
include left right

theorem setJoinKeys_of_marked : input.setJoinKeys = input := by
  rw [setJoinKeys, markKeys_of_marked left, markKeys_of_marked right]

/-- Automatic renaming of settings whose keys are marked. -/
theorem autoRename_titles (autoGenerateSelection : Bool) : ∃ change : String → String,
      (if autoGenerateSelection then input.autoRename else input) =
        { input with rightSelect := input.rightSelect.map (retitle change) } ∧
      ∀ name ∈ getNewCols input.rightSelect,
        change name = rightTitle autoGenerateSelection (getNewCols input.leftSelect) name := by
  cases autoGenerateSelection with
  | false =>
    refine ⟨id, ?_, fun _ _ => rfl⟩
    have unchanged : input.rightSelect.map (retitle id) = input.rightSelect :=
      map_id _
    rw [unchanged]
    rfl
  | true =>
    rw [if_pos rfl, JoinInput.autoRename, setJoinKeys_of_marked left right]
    exact resolveOverlaps_titles _ input

end

theorem TableSchema.find_isSome {schema : TableSchema} :
    (schema.find name).isSome = true ↔ name ∈ schema.names := by
  constructor
  · intro found
    obtain ⟨column, found⟩ := Option.isSome_iff_exists.mp found
    obtain ⟨listed, mem, same⟩ := mem_map.mp (mem_of_dictGet found)
    obtain ⟨rfl, _⟩ := Prod.mk.inj same
    exact mem_map_of_mem mem
  · intro mem
    obtain ⟨column, inColumns, rfl⟩ := mem_map.mp mem
    have found : schema.find column.columnName = some column := by
      apply dictGet_of_mem
      · intro other inTable
        obtain ⟨owner, ownerMember, same⟩ := mem_map.mp inTable
        obtain ⟨sameName, rfl⟩ := Prod.mk.inj same
        exact eq_of_name schema.distinct ownerMember inColumns sameName
      · exact mem_map.mpr ⟨column, inColumns, rfl⟩
    rw [found, Option.isSome_some]

def keptColumns (columns : List String) (selects : List SelectInput) : List String :=
  (selects.filter SelectInput.keep).map oldName ++
    columns.filter fun name => name ∉ selects.map oldName

/-- The columns of a table whose last entry keeps them, and those that are not listed, in the
order of the table. -/
def keptInOrder (columns : List String) (selects : List SelectInput) : List String :=
  columns.filter fun name =>
    (dictGet (selects.map fun select => (select.oldName, select.keep)) name).getD true

theorem kept_completed (selects : List SelectInput) :
    ((completed keys columns selects).filter SelectInput.keep).map oldName =
      keptColumns columns selects := by
  have missing : ((columns.filter fun name => name ∉ selects.map oldName).map
      ofColumn).filter SelectInput.keep =
        (columns.filter fun name => name ∉ selects.map oldName).map
          ofColumn := by
    rw [filter_eq_self]
    intro select mem
    obtain ⟨name, _, rfl⟩ := mem_map.mp mem
    rfl
  have unmarked : ((completed keys columns selects).filter SelectInput.keep).map
      oldName = ((withMissing selects columns).filter SelectInput.keep).map
        oldName := by
    rw [completed, markKeys, filter_map, map_map]
    rfl
  rw [unmarked, withMissing, filter_append, map_append, missing, keptColumns, map_map]
  congr 1
  exact map_id _

theorem dictGet_completed (keys : List String) {columns : List String}
    (selects : List SelectInput) (mem : name ∈ columns) :
    dictGet ((completed keys columns selects).map fun select => (select.oldName, select.keep))
        name =
      some ((dictGet (selects.map fun select => (select.oldName, select.keep))
        name).getD true) := by
  have split : (completed keys columns selects).map (fun select => (select.oldName, select.keep)) =
      selects.map (fun select => (select.oldName, select.keep)) ++
        (columns.filter fun name => name ∉ selects.map oldName).map
          fun name => (name, true) := by
    rw [completed, markKeys, map_map, withMissing, map_append, map_map]
    rfl
  rw [split, dictGet_append]
  by_cases listed : name ∈ selects.map oldName
  · rw [dictGet_of_not_mem, Option.none_or]
    · cases found : dictGet (selects.map fun select => (select.oldName, select.keep)) name with
      | some keep => rfl
      | none =>
        rw [dictGet, lookup_eq_none_iff] at found
        obtain ⟨select, inSelects, rfl⟩ := mem_map.mp listed
        have differs := found (select.oldName, select.keep)
          (mem_reverse.mpr (mem_map_of_mem inSelects))
        simp at differs
    · intro inMissing
      obtain ⟨pair, inTable, rfl⟩ := mem_map.mp inMissing
      obtain ⟨other, inColumns, rfl⟩ := mem_map.mp inTable
      obtain ⟨_, unlisted⟩ := mem_filter.mp inColumns
      exact absurd listed (by simpa using unlisted)
  · have absent : dictGet (selects.map fun select => (select.oldName, select.keep)) name =
        none := by
      apply dictGet_of_not_mem
      rwa [map_map]
    rw [absent, Option.or_none, Option.getD_none]
    apply dictGet_of_mem
    · intro other inTable
      obtain ⟨_, _, same⟩ := mem_map.mp inTable
      exact (Prod.mk.inj same).2.symm
    · exact mem_map_of_mem (mem_filter.mpr ⟨mem, by simpa using listed⟩)

/-- Entries that are found belong to the column. -/
theorem mem_orderBy {columns : List String} {selects : List SelectInput} {select : SelectInput}
    (mem : select ∈ orderBy columns selects) :
    select ∈ selects ∧ select.oldName ∈ columns := by
  obtain ⟨name, inColumns, found⟩ := mem_filterMap.mp mem
  obtain ⟨owner, inSelects, same⟩ := mem_map.mp (mem_of_dictGet found)
  obtain ⟨rfl, rfl⟩ := Prod.mk.inj same
  exact ⟨inSelects, inColumns⟩

theorem kept_orderBy (selects : List SelectInput) :
    ((orderBy columns (completed keys columns selects)).filter SelectInput.keep).map
      oldName = keptInOrder columns selects := by
  have ordered : ∀ names : List String, (∀ name ∈ names, name ∈ columns) →
      ((names.filterMap (dictGet ((completed keys columns selects).map fun select =>
        (select.oldName, select)))).filter SelectInput.keep).map oldName =
          names.filter fun name =>
            (dictGet (selects.map fun select => (select.oldName, select.keep)) name).getD true := by
    intro names known
    induction names with
    | nil => rfl
    | cons name rest ih =>
      have others := ih fun other inRest =>
        known other (mem_cons_of_mem _ inRest)
      have kept := dictGet_completed keys selects (known name mem_cons_self)
      rw [dictGet_map, Option.map_eq_some_iff] at kept
      obtain ⟨select, found, keep⟩ := kept
      obtain ⟨_, _, same⟩ := mem_map.mp (mem_of_dictGet found)
      obtain ⟨sameName, rfl⟩ := Prod.mk.inj same
      rw [filterMap_cons, found, filter_cons, filter_cons, ← keep]
      split
      case isTrue => rw [map_cons, sameName, others]
      case isFalse => exact others
  exact ordered columns fun _ mem => mem

end Flowfile.Join

import Flowfile.JoinSettings
import Mathlib.Data.List.Infix
import Mathlib.Data.List.Sort
import Mathlib.Data.Prod.Lex
import Mathlib.Data.String.Basic

/-!
# Selecting columns: the engine and the generated statement

A select node lists columns of its input with a new name, a flag whether the column is kept
and, possibly, a type. The engine drops the columns that are not kept, adds the ones nobody
mentions when it is told to, changes types, renames, and puts the result into the order of
the listed positions. The generated statement is one `select` of the kept columns as listed,
or nothing at all when no column is kept.

Both sides are described by the columns of their result: the name, the column it comes from and how
its type is changed. Evaluating the text of a type is left to polars.
-/

namespace Flowfile.CodeGen

open Library.ColumnFrames List

structure PolarsType where
  base : String
  arguments : String
deriving DecidableEq

/-- A class without arguments. -/
def PolarsType.plain (base : String) : PolarsType := ⟨base, ""⟩

/-- Types with names of their own. -/
def dtypeToPl : List (String × PolarsType) :=
  [("int", .plain "Int64"), ("integer", .plain "Int64"), ("char", .plain "String"),
    ("fixed decimal", .plain "Float32"), ("double", .plain "Float64"), ("float", .plain "Float64"),
    ("bool", .plain "Boolean"), ("byte", .plain "UInt8"), ("bit", .plain "Binary"),
    ("date", .plain "Date"), ("datetime", .plain "Datetime"), ("string", .plain "String"),
    ("str", .plain "String"), ("time", .plain "Time")]

/-- The type the engine reads from a text. -/
def getPolarsType (safeEvalPlType : String → Option PolarsType) (dtype : String) : PolarsType :=
  if "pl.".toList <:+: dtype.toList then (safeEvalPlType dtype).getD (.plain "String")
  else match dictGet dtypeToPl dtype.toLower with
    | some polarsType => polarsType
    | none => (safeEvalPlType dtype).getD (.plain "String")

/-- The type the generator writes for a text. -/
def getPolarsDtype (dtype : String) : PolarsType :=
  (dictGet [("String", .plain "String"), ("Integer", .plain "Int64"), ("Double", .plain "Float64"),
    ("Boolean", .plain "Boolean"), ("Date", .plain "Date"), ("Datetime", .plain "Datetime"),
    ("Float32", .plain "Float32"), ("Float64", .plain "Float64"), ("Int32", .plain "Int32"),
    ("Int64", .plain "Int64"), ("Utf8", PolarsType.plain "String")] dtype).getD (.plain "String")

/-- A change of type. A strict cast fails on values that do not fit. -/
inductive Conversion where
  | cast (target : PolarsType) (strict : Bool)
  | toDatetime
  | toDate
deriving DecidableEq

/-- The class of the type a change leads to. -/
def Conversion.target : Conversion → String
  | .cast target _ => target.base
  | .toDatetime => "Datetime"
  | .toDate => "Date"

/-- How the engine turns a column into a type. -/
def definePlColTransformation (target : PolarsType) : Conversion :=
  if target.base = "Datetime" then .toDatetime
  else if target.base = "Date" then .toDate
  else .cast target false

/-- One listed column of a select node. -/
structure SelectInput extends Join.SelectInput where
  dataType : Option String
  dataTypeChange : Bool
  isAltered : Bool
  position : Option Int

/-- The text of the type as the engine reads it. -/
def SelectInput.polarsType (dataType : String) : String :=
  if dataType.toLower = "string" then "Utf8"
  else if dataType.toLower = "integer" then "Int64"
  else if dataType.toLower = "double" then "Float64"
  else dataType

/-- The columns of a table with their types. -/
structure InputSchema where
  columns : List (String × PolarsType)
  distinct : (columns.map Prod.fst).Nodup

def InputSchema.names (schema : InputSchema) : List String :=
  schema.columns.map Prod.fst

def InputSchema.base (schema : InputSchema) (name : String) : Option String :=
  (dictGet schema.columns name).map PolarsType.base

/-- A column of the result: its name, the column it comes from and the change of its type. -/
structure OutputColumn where
  name : String
  source : String
  conversion : Option Conversion
deriving DecidableEq

def OutputColumn.same (name : String) : OutputColumn := ⟨name, name, none⟩

/-- Why a selection fails. -/
inductive SelectError where
  | frame (error : FrameError String)
  /-- The engine looks up the type of a column the table does not have. -/
  | noType (name : String)
deriving DecidableEq

/-- A result is a table only when its names are distinct. -/
def requireTable (columns : List OutputColumn) : Except SelectError (List OutputColumn) :=
  if (columns.map OutputColumn.name).Nodup then .ok columns else .error (.frame .duplicate)

def place (ref : List String) (name : String) : ℕ ×ₗ String :=
  toLex (ref.idxOf name, name)

def matchOrder (columns : List OutputColumn) (ref : List String) : List OutputColumn :=
  columns.insertionSort fun first second => place ref first.name ≤ place ref second.name

/-- The listed columns by position, those without one counting as zero. -/
def sortByPosition (renames : List SelectInput) : List SelectInput :=
  renames.insertionSort fun first second => first.position.getD 0 ≤ second.position.getD 0

def orderOf (schema : InputSchema) (renames : List SelectInput) : List String :=
  (sortByPosition renames).map (fun rename => rename.newName) ++ schema.names

def changeColumnType (safeEvalPlType : String → Option PolarsType) (schema : InputSchema)
    (rename : SelectInput) : Option Conversion :=
  match rename.dataType with
  | none => none
  | some dataType =>
    let target := getPolarsType safeEvalPlType (SelectInput.polarsType dataType)
    if some target.base = schema.base rename.oldName then none
    else some (definePlColTransformation target)

/-- Whether the engine renames a kept column. A column that another entry drops is missing
from the columns it renames. -/
def renamable (schema : InputSchema) (renames : List SelectInput) (keepMissing : Bool)
    (rename : SelectInput) : Bool :=
  let dropped := if keepMissing then (renames.filter fun other => !other.keep).map fun other =>
      other.oldName
    else schema.names.filter fun name => name ∉ renames.map fun other => other.oldName
  let mapping := schema.names.filter fun name => name ∉ dropped
  (decide (rename.newName ≠ rename.oldName) || decide (rename.newName ∉ mapping)) &&
    decide (rename.oldName ∈ mapping)

/-- Columns of the input that no entry mentions, when these are kept. -/
def keepCols (schema : InputSchema) (renames : List SelectInput) (keepMissing : Bool) :
    List String :=
  if keepMissing then
    schema.names.filter fun name => name ∉ renames.map fun rename => rename.oldName
  else []

/-- Kept entries whose column exists. -/
def present (schema : InputSchema) (kept : List SelectInput) : List SelectInput :=
  kept.filter fun rename => rename.oldName ∈ schema.names

def renamedColumn (safeEvalPlType : String → Option PolarsType) (schema : InputSchema)
    (renames : List SelectInput) (keepMissing : Bool) (rename : SelectInput) : OutputColumn where
  name := if renamable schema renames keepMissing rename then rename.newName else rename.oldName
  source := rename.oldName
  conversion := changeColumnType safeEvalPlType schema rename

/-- The entries the engine takes into account. -/
def available (selectInputs : List SelectInput) : List SelectInput :=
  selectInputs.filter fun rename => rename.isAvailable

def keptEntries (selectInputs : List SelectInput) : List SelectInput :=
  (available selectInputs).filter fun rename => rename.keep

/-- The columns of the engine before they are put into order. -/
def renamedColumns (safeEvalPlType : String → Option PolarsType) (schema : InputSchema)
    (selectInputs : List SelectInput) (keepMissing : Bool) : List OutputColumn :=
  (present schema (keptEntries selectInputs)).map
      (renamedColumn safeEvalPlType schema (available selectInputs) keepMissing) ++
    (keepCols schema (available selectInputs) keepMissing).map OutputColumn.same

def doSelect (safeEvalPlType : String → Option PolarsType) (schema : InputSchema)
    (selectInputs : List SelectInput) (keepMissing : Bool) :
    Except SelectError (List OutputColumn) := do
  let renames := available selectInputs
  let kept := keptEntries selectInputs
  let _ ← requireTable ((present schema kept).map (fun rename => .same rename.oldName) ++
    (keepCols schema renames keepMissing).map .same)
  match kept.find? fun rename =>
      rename.dataType.isSome && decide (rename.oldName ∉ schema.names) with
  | some rename => .error (.noType rename.oldName)
  | none =>
    let renamed ← requireTable (renamedColumns safeEvalPlType schema selectInputs keepMissing)
    .ok (matchOrder renamed (orderOf schema renames))

/-- The change of type the generator writes for a listed column. A cast to the class the
column already has changes nothing. -/
def writtenCast (schema : InputSchema) (select : SelectInput) : Option Conversion :=
  match select.dataType with
  | none => none
  | some dataType =>
    if (select.dataTypeChange || select.isAltered) && decide (dataType ≠ "") then
      let target := getPolarsDtype dataType
      if some target.base = schema.base select.oldName then none else some (.cast target true)
    else none

/-- A column of the generated statement. -/
def writtenColumn (schema : InputSchema) (select : SelectInput) : OutputColumn :=
  ⟨select.newName, select.oldName, writtenCast schema select⟩

/-- The table the generated statement yields. -/
def handleSelect (schema : InputSchema) (selectInputs : List SelectInput) :
    Except SelectError (List OutputColumn) :=
  let selected := selectInputs.filter fun select => select.isAvailable && select.keep
  if selected = [] then .ok (schema.names.map OutputColumn.same)
  else match selected.find? fun select => select.oldName ∉ schema.names with
    | some select => .error (.frame (.columnNotFound select.oldName))
    | none => requireTable (selected.map (writtenColumn schema))

/-- A column of the result, of whose change of type only a part is looked at. -/
def OutputColumn.seen {β : Type} (see : Option Conversion → β) (column : OutputColumn) :
    String × String × β :=
  (column.name, column.source, see column.conversion)

def OrderedByPosition (schema : InputSchema) (renames : List SelectInput) (names : List String) :
    Prop :=
  names.Pairwise fun first second =>
    (orderOf schema renames).idxOf first < (orderOf schema renames).idxOf second

/-- When the generated statement selects what the engine selects. -/
def SelectsAlike {β : Type} (see : Option Conversion → β)
    (safeEvalPlType : String → Option PolarsType) (schema : InputSchema)
    (selectInputs : List SelectInput) (keepMissing : Bool) : Prop :=
  let renames := available selectInputs
  let kept := keptEntries selectInputs
  let listed := renames.map fun rename => rename.oldName
  if kept = [] then
    (∀ name ∈ schema.names, keepMissing = true ∧ name ∉ listed) ∧
      OrderedByPosition schema renames schema.names
  else
    (∀ rename ∈ kept, rename.oldName ∈ schema.names) ∧
      (keepMissing = true → (∀ name ∈ schema.names, name ∈ listed) ∧
        ∀ rename ∈ kept, rename.newName ≠ rename.oldName →
          ∀ other ∈ renames, other.keep = false → other.oldName ≠ rename.oldName) ∧
      OrderedByPosition schema renames (kept.map fun rename => rename.newName) ∧
      ∀ rename ∈ kept, see (changeColumnType safeEvalPlType schema rename) =
        see (writtenCast schema rename)

section
variable {β : Type} (see : Option Conversion → β)

theorem matchOrder_seen (columns : List OutputColumn) (ref : List String) :
    (matchOrder columns ref).map (OutputColumn.seen see) =
      (columns.map (OutputColumn.seen see)).insertionSort fun first second =>
        place ref first.1 ≤ place ref second.1 :=
  map_insertionSort _ _ _ _ fun _ _ _ _ => Iff.rfl

theorem sorted_iff {entries : List (String × String × β)} {ref : List String}
    (distinct : (entries.map Prod.fst).Nodup) (listed : ∀ entry ∈ entries, entry.1 ∈ ref) :
    entries.insertionSort (fun first second => place ref first.1 ≤ place ref second.1) = entries ↔
      (entries.map Prod.fst).Pairwise fun first second =>
        ref.idxOf first < ref.idxOf second := by
  have total : Std.Total fun first second : String × String × β =>
      place ref first.1 ≤ place ref second.1 := ⟨fun _ _ => le_total _ _⟩
  have transitive : IsTrans (String × String × β) fun first second =>
      place ref first.1 ≤ place ref second.1 := ⟨fun _ _ _ => le_trans⟩
  rw [pairwise_map]
  constructor
  · intro same
    have ordered := pairwise_insertionSort (fun first second : String × String × β =>
      place ref first.1 ≤ place ref second.1) entries
    rw [same] at ordered
    rw [List.Nodup, pairwise_map] at distinct
    apply (ordered.and distinct).imp_of_mem
    rintro first second firstIn secondIn ⟨before, apart⟩
    rcases Prod.Lex.le_iff.mp before with less | ⟨equal, _⟩
    · exact less
    · exact absurd ((idxOf_inj (listed first firstIn)).mp equal) apart
  · intro increasing
    apply List.Pairwise.insertionSort_eq
    exact increasing.imp fun less => Prod.Lex.le_iff.mpr (.inl less)

end

variable {result : List OutputColumn} {rename : SelectInput}

section
variable {safeEvalPlType : String → Option PolarsType} {schema : InputSchema}
  {selectInputs : List SelectInput} {keepMissing : Bool}

/-- A table is accepted as it is when its names are distinct. -/
theorem requireTable_ok {columns : List OutputColumn} : requireTable columns = .ok result ↔
      (columns.map OutputColumn.name).Nodup ∧ result = columns := by
  rw [requireTable]
  split <;> simp_all [eq_comm]

variable {columns : List OutputColumn}

theorem doSelect_ok (ran : doSelect safeEvalPlType schema selectInputs keepMissing = .ok columns) :
    ((renamedColumns safeEvalPlType schema selectInputs keepMissing).map
        OutputColumn.source).Nodup ∧
      ((renamedColumns safeEvalPlType schema selectInputs keepMissing).map
        OutputColumn.name).Nodup ∧
      columns = matchOrder (renamedColumns safeEvalPlType schema selectInputs keepMissing)
        (orderOf schema (available selectInputs)) := by
  rw [doSelect, bind_ok] at ran
  obtain ⟨_, selecting, ran⟩ := ran
  have distinct := (requireTable_ok.mp selecting).1
  split at ran
  · cases ran
  · rw [bind_ok] at ran
    obtain ⟨_, retitled, ordering⟩ := ran
    obtain ⟨named, rfl⟩ := requireTable_ok.mp retitled
    refine ⟨?_, named, (Except.ok.inj ordering).symm⟩
    rw [renamedColumns, map_append, map_map, map_map]
    rw [map_append, map_map, map_map] at distinct
    exact distinct

/-- The generator goes by the same entries as the engine. -/
theorem selected_eq : selectInputs.filter (fun select => select.isAvailable && select.keep) =
    keptEntries selectInputs := by
  rw [keptEntries, available, filter_filter]
  simp only [Bool.and_comm]

theorem handleSelect_nothing (nothing : keptEntries selectInputs = []) :
    handleSelect schema selectInputs = .ok (schema.names.map OutputColumn.same) := by
  rw [handleSelect, selected_eq, nothing]
  rfl

theorem handleSelect_ok (something : keptEntries selectInputs ≠ []) :
    handleSelect schema selectInputs = .ok result ↔
      (∀ rename ∈ keptEntries selectInputs, rename.oldName ∈ schema.names) ∧
        ((keptEntries selectInputs).map fun rename => rename.newName).Nodup ∧
        result = (keptEntries selectInputs).map (writtenColumn schema) := by
  rw [handleSelect, selected_eq, if_neg something]
  split
  case h_1 rename found =>
    have mem := mem_of_find?_eq_some found
    have missing := List.find?_some found
    simp only [reduceCtorEq, false_iff]
    rintro ⟨exist, _⟩
    exact of_decide_eq_true missing (exist rename mem)
  case h_2 found =>
    have exist : ∀ rename ∈ keptEntries selectInputs, rename.oldName ∈ schema.names := by
      simpa using found
    rw [requireTable_ok, map_map]
    exact ⟨fun accepted => ⟨exist, accepted⟩, fun accepted => accepted.2⟩

theorem mem_keepCols {name : String} : name ∈ keepCols schema (available selectInputs) keepMissing ↔
      name ∈ schema.names ∧ keepMissing = true ∧
        name ∉ (available selectInputs).map fun rename => rename.oldName := by
  cases keepMissing <;> simp [keepCols]

/-- They are all columns when no column is mentioned and unmentioned ones are kept. -/
theorem keepCols_all
    (unlisted : ∀ name ∈ schema.names, keepMissing = true ∧
      name ∉ (available selectInputs).map fun rename => rename.oldName) :
    keepCols schema (available selectInputs) keepMissing = schema.names := by
  rw [keepCols]
  split
  case isTrue =>
    apply filter_eq_self.mpr
    intro name mem
    exact decide_eq_true (unlisted name mem).2
  case isFalse drops =>
    symm
    apply eq_nil_iff_forall_not_mem.mpr
    intro name mem
    exact drops (unlisted name mem).1

theorem renamedColumn_name {rename : SelectInput} (mem : rename ∈ keptEntries selectInputs)
    (present : rename.oldName ∈ schema.names) :
    (renamedColumn safeEvalPlType schema (available selectInputs) keepMissing rename).name =
        rename.newName ↔
      (keepMissing = true → rename.newName ≠ rename.oldName →
        ∀ other ∈ available selectInputs, other.keep = false → other.oldName ≠ rename.oldName) := by
  have listed : rename ∈ available selectInputs := (mem_filter.mp mem).1
  by_cases same : rename.newName = rename.oldName
  · simp [renamedColumn, same]
  have moved : (renamedColumn safeEvalPlType schema (available selectInputs) keepMissing
      rename).name = rename.newName ↔
        renamable schema (available selectInputs) keepMissing rename = true := by
    rw [renamedColumn]
    dsimp only
    split
    case isTrue renames => simp [renames]
    case isFalse keeps => simp [keeps, Ne.symm same]
  rw [moved, renamable]
  cases keepMissing with
  | false =>
    have mentioned : ∃ other ∈ available selectInputs, other.oldName = rename.oldName :=
      ⟨rename, listed, rfl⟩
    simp [same, present, mentioned]
  | true => simp [same, present]

theorem name_mem_orderOf {column : OutputColumn}
    (mem : column ∈ renamedColumns safeEvalPlType schema selectInputs keepMissing) :
    column.name ∈ orderOf schema (available selectInputs) := by
  rw [orderOf, mem_append]
  rcases mem_append.mp mem with isListed | isKept
  · obtain ⟨rename, inPresent, rfl⟩ := mem_map.mp isListed
    obtain ⟨inKept, exists_⟩ := mem_filter.mp inPresent
    rw [renamedColumn]
    dsimp only
    split
    · left
      apply mem_map_of_mem
      rw [sortByPosition, mem_insertionSort]
      exact (mem_filter.mp inKept).1
    · exact .inr (of_decide_eq_true exists_)
  · obtain ⟨name, inKeep, rfl⟩ := mem_map.mp isKept
    exact .inr (mem_keepCols.mp inKeep).1

variable {β : Type} {see : Option Conversion → β}

/-- The result of the engine is what it has before putting it into order exactly when its names
are in order already. -/
theorem doSelect_ordered_iff {seen : List (String × String × β)}
    (ran : doSelect safeEvalPlType schema selectInputs keepMissing = .ok columns)
    (before : (renamedColumns safeEvalPlType schema selectInputs keepMissing).map
      (OutputColumn.seen see) = seen) :
    columns.map (OutputColumn.seen see) = seen ↔
      OrderedByPosition schema (available selectInputs) (seen.map Prod.fst) := by
  obtain ⟨_, named, rfl⟩ := doSelect_ok ran
  have names : seen.map Prod.fst = (renamedColumns safeEvalPlType schema selectInputs
      keepMissing).map OutputColumn.name := by
    rw [← before, map_map]
    rfl
  rw [matchOrder_seen, before, sorted_iff, OrderedByPosition]
  · rwa [names]
  · intro entry mem
    rw [← before] at mem
    obtain ⟨column, inColumns, rfl⟩ := mem_map.mp mem
    exact name_mem_orderOf inColumns

theorem present_all (exist : ∀ rename ∈ keptEntries selectInputs, rename.oldName ∈ schema.names) :
    present schema (keptEntries selectInputs) = keptEntries selectInputs :=
  filter_eq_self.mpr fun rename mem => decide_eq_true (exist rename mem)

theorem renamedColumns_kept (safeEvalPlType : String → Option PolarsType)
    (exist : ∀ rename ∈ keptEntries selectInputs, rename.oldName ∈ schema.names)
    (nothingElse : keepCols schema (available selectInputs) keepMissing = []) :
    renamedColumns safeEvalPlType schema selectInputs keepMissing = (keptEntries selectInputs).map
        (renamedColumn safeEvalPlType schema (available selectInputs) keepMissing) := by
  rw [renamedColumns, present_all exist, nothingElse]
  exact append_nil _

/-- Nothing is kept unasked when every column is mentioned or only mentioned ones are kept. -/
theorem keepCols_nil_iff : keepCols schema (available selectInputs) keepMissing = [] ↔
      (keepMissing = true → ∀ name ∈ schema.names,
        name ∈ (available selectInputs).map fun rename => rename.oldName) := by
  rw [eq_nil_iff_forall_not_mem]
  constructor
  · intro none keeps name mem
    by_contra unlisted
    exact none name (mem_keepCols.mpr ⟨mem, keeps, unlisted⟩)
  · intro listed name mem
    obtain ⟨exists_, keeps, unlisted⟩ := mem_keepCols.mp mem
    exact unlisted (listed keeps name exists_)

theorem seen_eq_iff :
    (renamedColumn safeEvalPlType schema (available selectInputs) keepMissing rename).seen see =
        (writtenColumn schema rename).seen see ↔
      (renamedColumn safeEvalPlType schema (available selectInputs) keepMissing rename).name =
          rename.newName ∧
        see (changeColumnType safeEvalPlType schema rename) = see (writtenCast schema rename) := by
  simp [OutputColumn.seen, renamedColumn, writtenColumn]

section

variable (ran : doSelect safeEvalPlType schema selectInputs keepMissing = .ok columns)
include ran

/-- Without kept columns, the code that uses the input as it is agrees with the engine when no
column is mentioned, all of them are kept and they stay in order. -/
theorem nothing_agrees_iff (nothing : keptEntries selectInputs = []) :
    (schema.names.map OutputColumn.same).map (OutputColumn.seen see) =
        columns.map (OutputColumn.seen see) ↔
      (∀ name ∈ schema.names, keepMissing = true ∧
        name ∉ (available selectInputs).map fun rename => rename.oldName) ∧
        OrderedByPosition schema (available selectInputs) schema.names := by
  obtain ⟨_, _, ordered⟩ := doSelect_ok ran
  have engine : renamedColumns safeEvalPlType schema selectInputs keepMissing =
      (keepCols schema (available selectInputs) keepMissing).map OutputColumn.same := by
    rw [renamedColumns, nothing]
    rfl
  have names : ((schema.names.map OutputColumn.same).map (OutputColumn.seen see)).map Prod.fst =
      schema.names := by
    rw [map_map, map_map]
    exact map_id _
  constructor
  · intro same
    have unlisted : ∀ name ∈ schema.names, keepMissing = true ∧
        name ∉ (available selectInputs).map fun rename => rename.oldName := by
      intro name mem
      have shown : OutputColumn.seen see (.same name) ∈ columns.map (OutputColumn.seen see) := by
        rw [← same]
        exact mem_map_of_mem (mem_map_of_mem mem)
      obtain ⟨column, inColumns, equal⟩ := mem_map.mp shown
      rw [ordered, matchOrder, mem_insertionSort, engine] at inColumns
      obtain ⟨other, inKeep, rfl⟩ := mem_map.mp inColumns
      have sameName : other = name := congrArg Prod.fst equal
      rw [sameName] at inKeep
      exact (mem_keepCols.mp inKeep).2
    refine ⟨unlisted, ?_⟩
    have before := congrArg (List.map (OutputColumn.seen see)) engine
    rw [keepCols_all unlisted] at before
    have inOrder := (doSelect_ordered_iff ran before).mp same.symm
    rwa [names] at inOrder
  · rintro ⟨unlisted, inOrder⟩
    have before := congrArg (List.map (OutputColumn.seen see)) engine
    rw [keepCols_all unlisted] at before
    rw [← names] at inOrder
    exact ((doSelect_ordered_iff ran before).mpr inOrder).symm

/-- With kept columns, the generated statement agrees with the engine when each kept column
exists and looks the same on both sides, nothing is kept unasked and the names are in order. -/
theorem something_agrees_iff (something : keptEntries selectInputs ≠ []) :
    (handleSelect schema selectInputs).map (List.map (OutputColumn.seen see)) =
        .ok (columns.map (OutputColumn.seen see)) ↔
      (∀ rename ∈ keptEntries selectInputs, rename.oldName ∈ schema.names) ∧
        keepCols schema (available selectInputs) keepMissing = [] ∧
        (∀ rename ∈ keptEntries selectInputs,
          (renamedColumn safeEvalPlType schema (available selectInputs) keepMissing rename).seen
            see = (writtenColumn schema rename).seen see) ∧
        OrderedByPosition schema (available selectInputs)
          ((keptEntries selectInputs).map fun rename => rename.newName) := by
  obtain ⟨sourced, named, ordered⟩ := doSelect_ok ran
  have perm : columns.Perm (renamedColumns safeEvalPlType schema selectInputs keepMissing) := by
    rw [ordered]
    exact perm_insertionSort _ _
  have names : (((keptEntries selectInputs).map (writtenColumn schema)).map
      (OutputColumn.seen see)).map Prod.fst =
        (keptEntries selectInputs).map fun rename => rename.newName := by
    rw [map_map, map_map]
    rfl
  constructor
  · intro same
    cases result : handleSelect schema selectInputs with
    | error error =>
      rw [result] at same
      cases same
    | ok written =>
    rw [result] at same
    obtain ⟨exist, _, rfl⟩ := (handleSelect_ok something).mp result
    have shown := Except.ok.inj same
    have nothingElse : keepCols schema (available selectInputs) keepMissing = [] := by
      have lengths := congrArg List.length shown
      rw [length_map, length_map, length_map, perm.length_eq, renamedColumns,
        present_all exist, length_append, length_map, length_map] at lengths
      exact length_eq_zero_iff.mp (by omega)
    have engine := renamedColumns_kept safeEvalPlType exist nothingElse
    have alike : ∀ rename ∈ keptEntries selectInputs,
        (renamedColumn safeEvalPlType schema (available selectInputs) keepMissing rename).seen
          see = (writtenColumn schema rename).seen see := by
      intro rename mem
      have inColumns : (writtenColumn schema rename).seen see ∈
          columns.map (OutputColumn.seen see) := by
        rw [← shown]
        exact mem_map_of_mem (mem_map_of_mem mem)
      obtain ⟨column, isColumn, equal⟩ := mem_map.mp inColumns
      rw [perm.mem_iff, engine] at isColumn
      obtain ⟨other, otherMember, rfl⟩ := mem_map.mp isColumn
      rw [engine, map_map] at sourced
      have sameSource : other.oldName = rename.oldName :=
        congrArg (fun entry => entry.2.1) equal
      have same := inj_on_of_nodup_map sourced otherMember mem sameSource
      rwa [same] at equal
    refine ⟨exist, nothingElse, alike, ?_⟩
    have before : (renamedColumns safeEvalPlType schema selectInputs keepMissing).map
        (OutputColumn.seen see) = ((keptEntries selectInputs).map (writtenColumn schema)).map
            (OutputColumn.seen see) := by
      rw [engine, map_map, map_map]
      exact map_congr_left alike
    have inOrder := (doSelect_ordered_iff ran before).mp shown.symm
    rwa [names] at inOrder
  · rintro ⟨exist, nothingElse, alike, inOrder⟩
    have engine := renamedColumns_kept safeEvalPlType exist nothingElse
    have before : (renamedColumns safeEvalPlType schema selectInputs keepMissing).map
        (OutputColumn.seen see) = ((keptEntries selectInputs).map (writtenColumn schema)).map
            (OutputColumn.seen see) := by
      rw [engine, map_map, map_map]
      exact map_congr_left alike
    have titles : ((keptEntries selectInputs).map fun rename => rename.newName).Nodup := by
      have engineNames := congrArg (List.map Prod.fst) before
      rw [names, map_map] at engineNames
      rw [← engineNames]
      exact named
    rw [(handleSelect_ok something).mpr ⟨exist, titles, rfl⟩]
    rw [← names] at inOrder
    exact congrArg Except.ok ((doSelect_ordered_iff ran before).mpr inOrder).symm

/-- The generated statement yields what the engine yields: names, sources and what is looked at
of the changes of type. -/
theorem select_agrees_iff :
    (handleSelect schema selectInputs).map (List.map (OutputColumn.seen see)) =
        .ok (columns.map (OutputColumn.seen see)) ↔
      SelectsAlike see safeEvalPlType schema selectInputs keepMissing := by
  rw [SelectsAlike]
  split
  case isTrue nothing =>
    rw [handleSelect_nothing nothing]
    simp only [Except.map, Except.ok.injEq]
    exact nothing_agrees_iff ran nothing
  case isFalse something =>
    rw [something_agrees_iff ran something, keepCols_nil_iff]
    constructor
    · rintro ⟨exist, listed, alike, inOrder⟩
      refine ⟨exist, fun keeps => ⟨listed keeps, fun rename mem => ?_⟩, inOrder,
        fun rename mem => (seen_eq_iff.mp (alike rename mem)).2⟩
      have named := (seen_eq_iff.mp (alike rename mem)).1
      exact (renamedColumn_name mem (exist rename mem)).mp named keeps
    · rintro ⟨exist, mentioned, inOrder, types⟩
      refine ⟨exist, fun keeps => (mentioned keeps).1, fun rename mem => ?_, inOrder⟩
      have named := (@renamedColumn_name safeEvalPlType _ _ _ _ mem
        (exist rename mem)).mpr fun keeps => (mentioned keeps).2 rename mem
      exact seen_eq_iff.mpr ⟨named, types rename mem⟩

end

theorem conversion_eq_iff :
    changeColumnType safeEvalPlType schema rename = writtenCast schema rename ↔
      changeColumnType safeEvalPlType schema rename = none ∧ writtenCast schema rename = none := by
  constructor
  · intro same
    have lenient : ∀ target, changeColumnType safeEvalPlType schema rename ≠
        some (.cast target true) := by
      intro target
      rw [changeColumnType]
      split
      · simp
      · dsimp only
        split
        · simp
        · rw [definePlColTransformation]
          split <;> try split
          all_goals simp
    have strict : writtenCast schema rename = none ∨
        ∃ target, writtenCast schema rename = some (.cast target true) := by
      rw [writtenCast]
      split
      · exact .inl rfl
      · split
        · dsimp only
          split
          · exact .inl rfl
          · exact .inr ⟨_, rfl⟩
        · exact .inl rfl
    rcases strict with none | ⟨target, cast⟩
    · exact ⟨same.trans none, none⟩
    · exact absurd (same.trans cast) (lenient target)
  · rintro ⟨first, second⟩
    rw [first, second]

/-- The class of the type a column ends with, when its type changes. -/
def castTarget (conversion : Option Conversion) : Option String :=
  conversion.map Conversion.target

theorem selectsAlike_id_iff : SelectsAlike id safeEvalPlType schema selectInputs keepMissing ↔
      SelectsAlike castTarget safeEvalPlType schema selectInputs keepMissing ∧
        ∀ rename ∈ keptEntries selectInputs,
          changeColumnType safeEvalPlType schema rename = none ∧
            writtenCast schema rename = none := by
  rw [SelectsAlike, SelectsAlike]
  split
  case isTrue nothing => simp [nothing]
  case isFalse something =>
    constructor
    · rintro ⟨exist, mentioned, inOrder, types⟩
      refine ⟨⟨exist, mentioned, inOrder, fun rename mem => ?_⟩, fun rename mem =>
        conversion_eq_iff.mp (types rename mem)⟩
      exact congrArg castTarget (types rename mem)
    · rintro ⟨⟨exist, mentioned, inOrder, _⟩, uncast⟩
      exact ⟨exist, mentioned, inOrder, fun rename mem =>
        conversion_eq_iff.mpr (uncast rename mem)⟩

theorem seen_id_eq_iff {result : Except SelectError (List OutputColumn)} :
    result.map (List.map (OutputColumn.seen id)) = .ok (columns.map (OutputColumn.seen id)) ↔
      result = .ok columns := by
  have injective : Function.Injective (OutputColumn.seen id) := by
    rintro ⟨name, source, conversion⟩ ⟨name', source', conversion'⟩ same
    simpa [OutputColumn.seen] using same
  cases result with
  | error error => simp [Except.map]
  | ok written => simp [Except.map, injective.list_map.eq_iff]

end

/-- Polars classes without arguments, read from their names. -/
def evalPlainType (dtype : String) : Option PolarsType :=
  if dtype ∈ ["Int64", "String", "Utf8", "Float64"] then
    some (.plain (if dtype = "Utf8" then "String" else dtype))
  else none

/-- A column with a number and one with a text. -/
def twoColumns : InputSchema where
  columns := [("a", .plain "Int64"), ("b", .plain "String")]
  distinct := by decide

def SelectInput.entry (oldName newName : String) (isAvailable : Bool) : SelectInput :=
  { oldName := oldName, newName := newName, joinKey := false, isAvailable := isAvailable,
    keep := true, dataType := none, dataTypeChange := false,
    isAltered := decide (oldName ≠ newName), position := none }

end Flowfile.CodeGen

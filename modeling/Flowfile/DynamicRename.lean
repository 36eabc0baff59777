import Flowfile.Library.Dictionaries
import Flowfile.Library.PythonText

/-!
# Dynamic renames

One rule computes new names for the columns that it applies to. The map of the changed names is
refused when two columns would share a name. A column may be listed several times; its name is the
last one computed for it that is not its own.
-/

namespace Flowfile.DynamicRename

open Library.Dictionaries Library.PythonText List

inductive RenameMode where
  | prefixed
  | suffixed
  | formula
  | firstRow

inductive ColumnSelectionMode where
  | all
  | list
  | dataType

structure DynamicRenameInput where
  renameMode : RenameMode := .prefixed
  prefixText : String := ""
  suffixText : String := ""
  formula : String := ""
  selectionMode : ColumnSelectionMode := .all
  selectedColumns : List String := []
  selectedDataType : Option String := none

inductive Cell where
  | null
  | text (value : String)
  | other (printed : String)
deriving DecidableEq

def Cell.str : Cell → String
  | .null => "None"
  | .text value => value
  | .other printed => printed

/-- Nothing, or a text of spaces. -/
def Cell.blank : Cell → Bool
  | .null => true
  | .text value => strip value = ""
  | .other _ => false

inductive RenameError where
  | emptyFirstRow (original : String)
  | cardinality (results targets : Nat)
  | nullFormula (original : String)
  | duplicates (names : List String)

def RenameError.message : RenameError → String
  | .emptyFirstRow original =>
    s!"Dynamic rename (first_row) got a null/empty value for column '{original}'."
  | .cardinality results targets =>
    "Dynamic rename formula must produce one value per column " ++
      s!"(got {results} for {targets} target column(s))."
  | .nullFormula original =>
    s!"Dynamic rename formula returned null for column '{original}'."
  | .duplicates names => "Dynamic rename produces duplicate column name(s): " ++
      ", ".intercalate (names.mergeSort fun first second => decide (first ≤ second))

/-- Columns with their groups of data types. -/
abbrev Columns := List (String × String)

def selectRenameTargets (columns : Columns) (settings : DynamicRenameInput) : List String :=
  match settings.selectionMode with
  | .all => columns.map Prod.fst
  | .list => settings.selectedColumns.filter fun name => name ∈ columns.map Prod.fst
  | .dataType =>
    match settings.selectedDataType with
    | none => []
    | some wanted => (columns.filter fun column => column.2 = wanted).map Prod.fst

section

-- What a formula yields for a column of names.
variable (evaluate : String → List String → List Cell)

def computeRenamedNames (targets : List String) (settings : DynamicRenameInput)
    (firstRowValues : Option (String → Cell)) : Except RenameError (List String) :=
  if targets = [] then .ok []
  else match settings.renameMode with
  | .prefixed => .ok (targets.map fun name => settings.prefixText ++ name)
  | .suffixed => .ok (targets.map fun name => name ++ settings.suffixText)
  | .firstRow =>
    match firstRowValues with
    | none => .ok targets
    | some row =>
      match targets.find? fun name => (row name).blank with
      | some original => .error (.emptyFirstRow original)
      | none => .ok (targets.map fun name => (row name).str)
  | .formula =>
    if strip settings.formula = "" then .ok targets
    else
      let results := evaluate settings.formula targets
      let results := if results.length = 1 ∧ 1 < targets.length then
          (List.replicate targets.length results).flatten
        else results
      if results.length ≠ targets.length then .error (.cardinality results.length targets.length)
      else match (targets.zip results).find? fun pair => pair.2 = .null with
      | some pair => .error (.nullFormula pair.1)
      | none => .ok (results.map Cell.str)

def duplicates (untouched : List String) : List String → List String → List String
  | _, [] => []
  | seen, new :: rest =>
    (if new ∈ seen ∨ new ∈ untouched then [new] else []) ++
      duplicates untouched (seen ++ [new]) rest

def assertRenameHasNoDuplicates (renameMap : Dictionary String String) (allColumns : Columns) :
    Except RenameError Unit :=
  let untouched := (allColumns.map Prod.fst).filter fun name => (renameMap.get name).isNone
  let found := duplicates untouched [] (renameMap.entries.map Prod.snd)
  if found ≠ [] then .error (.duplicates found.dedup) else .ok ()

def renameMapOf (computed : List (String × String)) : Dictionary String String :=
  Dictionary.empty.setAll (computed.filter fun pair => pair.1 ≠ pair.2)

def resolveDynamicRenameMap (columns : Columns) (settings : DynamicRenameInput)
    (firstRowValues : Option (String → Cell)) : Except RenameError (Dictionary String String) := do
  let targets := selectRenameTargets columns settings
  let newNames ← computeRenamedNames evaluate targets settings firstRowValues
  let renameMap := renameMapOf (targets.zip newNames)
  assertRenameHasNoDuplicates renameMap columns
  return renameMap

/-- No names can be computed: a value of the row is blank, or the formula yields nothing for a
target or has results for another number of targets. -/
def Unusable (targets : List String) (settings : DynamicRenameInput)
    (firstRowValues : Option (String → Cell)) : Prop :=
  targets ≠ [] ∧ match settings.renameMode with
    | .prefixed | .suffixed => False
    | .firstRow => ∃ row, firstRowValues = some row ∧ ∃ name ∈ targets, (row name).blank
    | .formula => strip settings.formula ≠ "" ∧ let results := evaluate settings.formula targets
      (results.length ≠ 1 ∧ results.length ≠ targets.length) ∨ .null ∈ results

def lastName (computed : List (String × String)) (column : String) : String :=
  computed.foldl (fun name pair => if pair.1 = column then pair.2 else name) column

def lastOtherName (computed : List (String × String)) (column : String) : String :=
  computed.foldl (fun name pair =>
    if pair.1 = column ∧ pair.2 ≠ column then pair.2 else name) column

def renamed (renameMap : Dictionary String String) (column : String) : String :=
  (renameMap.get column).getD column

/-- Renames fail exactly when the names cannot be used or two columns would share one, and change
targets only. -/
def CollisionFree (given : List (String × String) → String → String) (columns : Columns)
    (settings : DynamicRenameInput) (firstRowValues : Option (String → Cell)) : Prop :=
  let targets := selectRenameTargets columns settings
  let resolved := resolveDynamicRenameMap evaluate columns settings firstRowValues
  ((∃ error, resolved = .error error) ↔ Unusable evaluate targets settings firstRowValues ∨
    ∃ newNames, computeRenamedNames evaluate targets settings firstRowValues = .ok newNames ∧
      ¬((columns.map Prod.fst).map (given (targets.zip newNames))).Nodup) ∧
  ∀ renameMap, resolved = .ok renameMap →
    (∀ old new, renameMap.get old = some new → old ∈ targets) ∧
      ((columns.map Prod.fst).map (renamed renameMap)).Nodup

end

theorem duplicates_nil_iff {untouched seen names : List String} :
    duplicates untouched seen names = [] ↔
      names.Nodup ∧ (∀ name ∈ names, name ∉ untouched) ∧ ∀ name ∈ names, name ∉ seen := by
  induction names generalizing seen with
  | nil => simp [duplicates]
  | cons name rest ih =>
    rw [duplicates, append_eq_nil_iff, ih, nodup_cons]
    simp only [ite_eq_right_iff, cons_ne_nil, imp_false, not_or, forall_mem_cons,
      mem_append, mem_singleton]
    constructor
    · rintro ⟨⟨unseen, free⟩, distinct, apart, later⟩
      exact ⟨⟨fun again => (later name again).2 rfl, distinct⟩, ⟨free, apart⟩, unseen,
        fun other mem => (later other mem).1⟩
    · rintro ⟨⟨single, distinct⟩, ⟨free, apart⟩, unseen, later⟩
      refine ⟨⟨unseen, free⟩, distinct, apart, fun other mem => ⟨later other mem, ?_⟩⟩
      rintro rfl
      exact single mem

theorem nodup_renamed_iff {names : List String} {renameMap : Dictionary String String}
    (distinct : names.Nodup) (known : ∀ old new, renameMap.get old = some new → old ∈ names) :
    (names.map (renamed renameMap)).Nodup ↔
      duplicates (names.filter fun name => (renameMap.get name).isNone) []
        (renameMap.entries.map Prod.snd) = [] := by
  have value {entry : String × String} (mem : entry ∈ renameMap.entries) :
      renamed renameMap entry.1 = entry.2 := by
    rw [renamed, Dictionary.mem_entries_iff.mp mem]
    rfl
  have values : renameMap.entries.map Prod.snd =
      (renameMap.entries.map Prod.fst).map (renamed renameMap) := by
    rw [map_map]
    exact map_congr_left fun entry mem => (value mem).symm
  have isKey {entry : String × String} (mem : entry ∈ renameMap.entries) : entry.1 ∈ names :=
    known _ _ (Dictionary.mem_entries_iff.mp mem)
  rw [duplicates_nil_iff]
  constructor
  · intro result
    have injective := inj_on_of_nodup_map result
    refine ⟨?_, ?_, fun _ _ => not_mem_nil⟩
    · rw [values]
      refine (nodup_map_iff_inj_on renameMap.distinct).mpr ?_
      intro first inFirst second inSecond same
      obtain ⟨entry, mem, rfl⟩ := mem_map.mp inFirst
      obtain ⟨other, otherMember, rfl⟩ := mem_map.mp inSecond
      exact injective (isKey mem) (isKey otherMember) same
    · intro new isNew untouched
      obtain ⟨entry, mem, rfl⟩ := mem_map.mp isNew
      obtain ⟨inNames, absent⟩ := mem_filter.mp untouched
      have kept : renamed renameMap entry.2 = entry.2 := by
        rw [renamed, Option.isNone_iff_eq_none.mp absent]
        rfl
      have same := injective (isKey mem) inNames ((value mem).trans kept.symm)
      rw [← same, Dictionary.mem_entries_iff.mp mem] at absent
      cases absent
  · rintro ⟨single, apart, -⟩
    rw [values] at single
    refine (nodup_map_iff_inj_on distinct).mpr ?_
    have entryOf {name new : String} (found : renameMap.get name = some new) :
        (name, new) ∈ renameMap.entries := Dictionary.mem_entries_iff.mpr found
    -- A new name is no name of an untouched column.
    have mixed {name other new : String} (found : renameMap.get name = some new)
        (isOther : other ∈ names) (absent : renameMap.get other = none) : new ≠ other := by
      rintro rfl
      exact apart new (mem_map_of_mem (entryOf found))
        (mem_filter.mpr ⟨isOther, by rw [absent]; rfl⟩)
    intro first inFirst second inSecond same
    cases foundFirst : renameMap.get first with
    | none =>
      cases foundSecond : renameMap.get second with
      | none => simpa [renamed, foundFirst, foundSecond] using same
      | some new =>
        rw [renamed, renamed, foundFirst, foundSecond] at same
        exact absurd same.symm (mixed foundSecond inFirst foundFirst)
    | some new =>
      cases foundSecond : renameMap.get second with
      | none =>
        rw [renamed, renamed, foundFirst, foundSecond] at same
        exact absurd same (mixed foundFirst inSecond foundSecond)
      | some other =>
        exact inj_on_of_nodup_map single (mem_map_of_mem (entryOf foundFirst))
          (mem_map_of_mem (entryOf foundSecond)) same

theorem renamed_setAll (computed : List (String × String)) (column : String)
    (renameMap : Dictionary String String) :
    renamed (renameMap.setAll (computed.filter fun pair => pair.1 ≠ pair.2)) column =
      computed.foldl (fun name pair => if pair.1 = column ∧ pair.2 ≠ column then pair.2 else name)
        (renamed renameMap column) := by
  induction computed generalizing renameMap with
  | nil => rfl
  | cons pair rest ih =>
    rw [filter_cons, foldl_cons]
    by_cases changes : pair.1 = pair.2
    · have own : ¬(pair.1 = column ∧ pair.2 ≠ column) := fun both => both.2 (changes ▸ both.1)
      simp only [changes, ne_eq, not_true_eq_false, decide_false, Bool.false_eq_true, if_false]
      rw [ih, ← changes, if_neg (changes ▸ own)]
    simp only [ne_eq, changes, not_false_eq_true, decide_true, if_true]
    rw [Dictionary.setAll_cons, ih, renamed, Dictionary.get_set]
    by_cases here : column = pair.1
    · subst here
      simp [Ne.symm changes]
    · simp [here, Ne.symm here, renamed]

theorem renameMapOf_keys {computed : List (String × String)} {old new : String}
    (found : (renameMapOf computed).get old = some new) : old ∈ computed.map Prod.fst := by
  rcases Dictionary.get_setAll found with impossible | mem
  · cases impossible
  · exact mem_map_of_mem (mem_filter.mp mem).1

theorem selectRenameTargets_subset (columns : Columns) (settings : DynamicRenameInput) :
    selectRenameTargets columns settings ⊆ columns.map Prod.fst := by
  intro name
  rw [selectRenameTargets]
  cases settings.selectionMode <;> cases settings.selectedDataType <;> simp
  all_goals grind

variable {evaluate : String → List String → List Cell} {targets : List String}
  {settings : DynamicRenameInput} {firstRowValues : Option (String → Cell)}

theorem computed_length {newNames : List String}
    (computed : computeRenamedNames evaluate targets settings firstRowValues = .ok newNames) :
    newNames.length = targets.length := by
  simp only [computeRenamedNames] at computed
  grind

theorem find_null_iff {results : List Cell} (lengths : results.length = targets.length) :
    ((targets.zip results).find? fun pair => pair.2 = .null) = none ↔ .null ∉ results := by
  have seconds : (targets.zip results).map Prod.snd = results := map_snd_zip (by omega)
  rw [List.find?_eq_none]
  conv_rhs => rw [← seconds, mem_map]
  simp only [decide_eq_true_eq, Prod.forall, Prod.exists, exists_eq_right, not_exists]
  exact ⟨fun filled name mem => filled name _ mem rfl,
    fun filled name value mem isNull => filled name (isNull ▸ mem)⟩

theorem unusable_iff :
    (∃ error, computeRenamedNames evaluate targets settings firstRowValues = .error error) ↔
      Unusable evaluate targets settings firstRowValues := by
  unfold computeRenamedNames Unusable
  by_cases none : targets = []
  · simp [none]
  rw [if_neg none]
  cases settings.renameMode with
  | prefixed => simp
  | suffixed => simp
  | firstRow =>
    cases firstRowValues with
    | none => simp
    | some row =>
    cases found : targets.find? fun name => (row name).blank with
    | none => simpa [none, found] using List.find?_eq_none.mp found
    | some name =>
      have mem := mem_of_find?_eq_some found
      have blank := List.find?_some found
      simpa [none, found] using ⟨name, mem, blank⟩
  | formula =>
  by_cases idle : strip settings.formula = ""
  · simp [idle]
  have some := length_pos_iff.mpr none
  simp only [idle, if_false, ne_eq, none, not_false_eq_true, true_and]
  generalize evaluate settings.formula targets = results
  by_cases single : results.length = 1 ∧ 1 < targets.length
  · obtain ⟨value, rfl⟩ := length_eq_one_iff.mp single.1
    have all : (List.replicate targets.length [value]).flatten =
        List.replicate targets.length value := flatten_replicate_singleton
    have nulls := @find_null_iff targets (List.replicate targets.length value)
      length_replicate
    simp only [if_pos single, all, length_replicate, not_true_eq_false, if_false]
    split
    case h_1 found => simp_all
    case h_2 found => simp_all
  · simp only [if_neg single]
    by_cases lengths : results.length = targets.length
    · have nulls := find_null_iff lengths
      simp only [lengths, not_true_eq_false, if_false]
      split
      case h_1 found => simp_all
      case h_2 found => simp_all
    · have other : results.length ≠ 1 := fun one => single ⟨one, by omega⟩
      simp [lengths, other]

/-- The map is refused exactly when names cannot be used or columns would share one. -/
theorem rename_collisionFree (columns : Columns) (distinct : (columns.map Prod.fst).Nodup)
    (settings : DynamicRenameInput) (firstRowValues : Option (String → Cell)) :
    CollisionFree evaluate lastOtherName columns settings firstRowValues := by
  rw [CollisionFree, ← unusable_iff, resolveDynamicRenameMap]
  cases computed : computeRenamedNames evaluate (selectRenameTargets columns settings) settings
      firstRowValues with
  | error error => simp [bind, Except.bind]
  | ok newNames =>
    have targets : ((selectRenameTargets columns settings).zip newNames).map Prod.fst =
        selectRenameTargets columns settings :=
      map_fst_zip (Nat.le_of_eq (computed_length computed).symm)
    let renameMap := renameMapOf ((selectRenameTargets columns settings).zip newNames)
    have keys (old new : String) (found : renameMap.get old = some new) :
        old ∈ selectRenameTargets columns settings := targets ▸ renameMapOf_keys found
    have given : (columns.map Prod.fst).map (renamed renameMap) = (columns.map Prod.fst).map
          (lastOtherName ((selectRenameTargets columns settings).zip newNames)) :=
      map_congr_left fun column _ => renamed_setAll _ column Dictionary.empty
    have single := nodup_renamed_iff distinct fun old new found =>
      selectRenameTargets_subset columns settings (keys old new found)
    have checked : assertRenameHasNoDuplicates renameMap columns =
        if ((columns.map Prod.fst).map (renamed renameMap)).Nodup then .ok ()
        else .error (.duplicates (duplicates ((columns.map Prod.fst).filter fun name =>
          (renameMap.get name).isNone) [] (renameMap.entries.map Prod.snd)).dedup) := by
      rw [assertRenameHasNoDuplicates]
      simp only [single, ne_eq, ite_not]
    change ((∃ error, (assertRenameHasNoDuplicates renameMap columns >>= fun _ =>
      pure renameMap) = .error error) ↔ _) ∧ ∀ other, (assertRenameHasNoDuplicates renameMap
        columns >>= fun _ => pure renameMap) = .ok other → _
    rw [checked, given]
    by_cases free : ((columns.map Prod.fst).map
        (lastOtherName ((selectRenameTargets columns settings).zip newNames))).Nodup
    · rw [if_pos free]
      refine ⟨by simp [bind, Except.bind, pure, Except.pure, free, -map_map], ?_⟩
      rintro other result
      cases result
      exact ⟨keys, given ▸ free⟩
    · rw [if_neg free]
      exact ⟨by simp [bind, Except.bind, free, -map_map], fun other result => by cases result⟩

/-- A column and one that has its new name. -/
def listedTwice : DynamicRenameInput where
  renameMode := .formula
  formula := "names"
  selectionMode := .list
  selectedColumns := ["a", "a"]

/-- The swap of two columns. -/
theorem swap_collisionFree :
    ["a", "b"].Nodup ∧ CollisionFree (fun _ _ => [.text "b", .text "a"]) lastOtherName
      [("a", "String"), ("b", "String")] { renameMode := .formula, formula := "other" } none :=
  ⟨by decide, rename_collisionFree [("a", "String"), ("b", "String")] (by decide) _ none⟩

/-- A column listed twice keeps the first name computed for it when the last one is its own. -/
theorem listedTwice_refused : ¬CollisionFree (fun _ _ => [.text "x", .text "a"]) lastName
    [("a", "String"), ("x", "String")] listedTwice none := by
  intro claimed
  have refused : ∃ error, resolveDynamicRenameMap (fun _ _ => [.text "x", .text "a"])
      [("a", "String"), ("x", "String")] listedTwice none = .error error :=
    ⟨.duplicates ["x"], rfl⟩
  rcases claimed.1.mp refused with unusable | ⟨newNames, computed, shared⟩
  · obtain ⟨-, -, lengths | isNull⟩ := unusable
    · exact absurd lengths (by decide)
    · exact absurd isNull (by decide)
  · have same : ["x", "a"] = newNames := Except.ok.inj computed
    exact shared (same ▸ by decide)

end Flowfile.DynamicRename

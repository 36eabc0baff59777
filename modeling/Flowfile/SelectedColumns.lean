import Flowfile.GeneratedSelect

/-!
# What a select node yields

A select node is meant to yield the kept columns under their new names by position, and behind them
the columns that no entry mentions when these are kept. The engine sorts by the first places of the
names among all its entries, so that an entry without a column of its own can take the place of
another one. The slim form of the settings has no positions and no flags of availability, and an
empty type is left out of it.
-/

namespace Flowfile.CodeGen

open Library.ColumnFrames List

/-- An entry as it is written. What is at its default is left out. -/
structure SelectInputYaml where
  oldName : String
  newName : Option String
  keep : Option Bool
  dataType : Option String

def SelectInput.toYamlDict (rename : SelectInput) : SelectInputYaml where
  oldName := rename.oldName
  newName := if rename.newName ≠ rename.oldName then some rename.newName else none
  keep := if rename.keep then none else some rename.keep
  dataType := rename.dataType.filter (· ≠ "")

def SelectInput.fromYamlDict (data : SelectInputYaml) : SelectInput where
  oldName := data.oldName
  newName := data.newName.getD data.oldName
  joinKey := false
  isAvailable := true
  keep := data.keep.getD true
  dataType := data.dataType
  dataTypeChange := data.dataType.isSome
  isAltered := decide (data.oldName ≠ data.newName.getD data.oldName) || data.dataType.isSome
  position := none

/-- An entry that was written and read. -/
def SelectInput.reread (rename : SelectInput) : SelectInput :=
  .fromYamlDict rename.toYamlDict

structure NodeSelect where
  keepMissing : Bool
  selectInput : List SelectInput

structure NodeSelectYaml where
  keepMissing : Bool
  selectInput : List SelectInputYaml

def NodeSelect.toYamlDict (node : NodeSelect) : NodeSelectYaml where
  keepMissing := node.keepMissing
  selectInput := node.selectInput.map SelectInput.toYamlDict

def NodeSelect.fromYamlDict (data : NodeSelectYaml) : NodeSelect where
  keepMissing := data.keepMissing
  selectInput := data.selectInput.map SelectInput.fromYamlDict

def NodeSelect.select (safeEvalPlType : String → Option PolarsType) (schema : InputSchema)
    (node : NodeSelect) : Except SelectError (List OutputColumn) :=
  doSelect safeEvalPlType schema node.selectInput node.keepMissing

open NodeSelect (select toYamlDict fromYamlDict)

/-- The names of the columns that the entries are about are kept, and so is what is kept of them
and under which names. -/
theorem reread_spec (rename : SelectInput) :
    rename.reread.oldName = rename.oldName ∧ rename.reread.newName = rename.newName ∧
      rename.reread.keep = rename.keep ∧ rename.reread.isAvailable = true ∧
      rename.reread.position = none ∧ rename.reread.dataType = rename.dataType.filter (· ≠ "") := by
  refine ⟨rfl, ?_, ?_, rfl, rfl, rfl⟩
  · by_cases same : rename.newName = rename.oldName <;>
      simp [SelectInput.reread, SelectInput.fromYamlDict, SelectInput.toYamlDict, same]
  · cases kept : rename.keep <;>
      simp [SelectInput.reread, SelectInput.fromYamlDict, SelectInput.toYamlDict, kept]

section

variable (safeEvalPlType : String → Option PolarsType) (schema : InputSchema)
  (selectInputs : List SelectInput) (keepMissing : Bool)

def titled (rename : SelectInput) : OutputColumn :=
  ⟨rename.newName, rename.oldName, changeColumnType safeEvalPlType schema rename⟩

/-- The columns that no entry mentions, if they are kept. -/
def unlisted : List OutputColumn :=
  (keepCols schema selectInputs keepMissing).map .same

def intendedColumns : List OutputColumn :=
  (sortByPosition (present schema (keptEntries selectInputs))).map (titled safeEvalPlType schema) ++
    unlisted schema selectInputs keepMissing

/-- The new names of the entries and then the names of the table mention these names for the first
time in this order. -/
def MentionedInOrder (entries : List SelectInput) (names : List String) : Prop :=
  names.Pairwise fun first second =>
    (entries.map (fun rename => rename.newName) ++ schema.names).idxOf first <
      (entries.map (fun rename => rename.newName) ++ schema.names).idxOf second

/-- When the engine yields what is meant. -/
structure SelectsAsMeant : Prop where
  typed : ∀ rename ∈ selectInputs, rename.isAvailable = true → rename.keep = true →
    rename.dataType ≠ none → rename.oldName ∈ schema.names
  named : ((intendedColumns safeEvalPlType schema selectInputs keepMissing).map
    OutputColumn.name).Nodup
  flagged : keepMissing = true → ∀ rename ∈ selectInputs, rename.isAvailable = false →
    rename.oldName ∉ schema.names
  placed : MentionedInOrder schema (sortByPosition (available selectInputs))
    ((intendedColumns safeEvalPlType schema selectInputs keepMissing).map OutputColumn.name)

/-- When it yields the same with the settings in their slim form. -/
structure RereadsAsMeant : Prop where
  typed : ∀ rename ∈ selectInputs, rename.keep = true → rename.dataType.filter (· ≠ "") ≠ none →
    rename.oldName ∈ schema.names
  flagged : ∀ rename ∈ selectInputs, rename.isAvailable = false → rename.keep = true →
    rename.oldName ∉ schema.names
  untyped : ∀ rename ∈ selectInputs, rename.isAvailable = true → rename.keep = true →
    rename.oldName ∈ schema.names → rename.dataType = some "" →
    some (getPolarsType safeEvalPlType "").base = schema.base rename.oldName
  placed : MentionedInOrder schema selectInputs
    ((intendedColumns safeEvalPlType schema selectInputs keepMissing).map OutputColumn.name)

end

variable {safeEvalPlType : String → Option PolarsType} {schema : InputSchema}
  {selectInputs : List SelectInput} {keepMissing : Bool}

theorem matchOrder_eq_iff {columns result : List OutputColumn} {ref : List String}
    (named : (columns.map OutputColumn.name).Nodup) (mentioned : ∀ column ∈ columns,
      column.name ∈ ref) :
    matchOrder columns ref = result ↔ result.Perm columns ∧
      (result.map OutputColumn.name).Pairwise fun first second =>
        ref.idxOf first < ref.idxOf second := by
  have total : Std.Total fun first second : OutputColumn =>
      place ref first.name ≤ place ref second.name := ⟨fun _ _ => le_total _ _⟩
  have transitive : IsTrans OutputColumn fun first second =>
      place ref first.name ≤ place ref second.name := ⟨fun _ _ _ => le_trans⟩
  have sorted : (matchOrder columns ref).Pairwise fun first second =>
      place ref first.name ≤ place ref second.name := pairwise_insertionSort _ columns
  have same : (matchOrder columns ref).Perm columns := perm_insertionSort _ columns
  rw [pairwise_map]
  constructor
  · rintro rfl
    refine ⟨same, ?_⟩
    have distinct := (same.map OutputColumn.name).nodup_iff.mpr named
    rw [List.Nodup, pairwise_map] at distinct
    refine (sorted.and distinct).imp_of_mem ?_
    rintro first second isFirst - ⟨before, apart⟩
    rcases Prod.Lex.le_iff.mp before with less | ⟨equal, _⟩
    · exact less
    · have inRef := mentioned first (same.mem_iff.mp isFirst)
      exact absurd ((idxOf_inj inRef).mp equal) apart
  · rintro ⟨perm, increasing⟩
    refine (same.trans perm.symm).eq_of_pairwise ?_ sorted
      (increasing.imp fun less => Prod.Lex.le_iff.mpr (.inl less))
    intro first second isFirst isSecond before after
    have equal := congrArg (fun key => (ofLex key).2) (le_antisymm before after)
    exact inj_on_of_nodup_map named (same.mem_iff.mp isFirst) (perm.mem_iff.mp isSecond)
      equal

/-- The columns that no entry mentions. -/
theorem mem_unlisted {renames : List SelectInput} {column : OutputColumn} :
    column ∈ unlisted schema renames keepMissing ↔ ∃ name ∈ schema.names, keepMissing = true ∧
        name ∉ renames.map (fun rename => rename.oldName) ∧ column = .same name := by
  rw [unlisted, keepCols, mem_map]
  cases keepMissing with
  | true => simp [eq_comm, and_assoc]
  | false => simp

variable {rename : SelectInput}

section

variable (distinct : (selectInputs.map fun rename => rename.oldName).Nodup)
include distinct

theorem renamedColumn_titled (mem : rename ∈ present schema (keptEntries selectInputs)) :
    renamedColumn safeEvalPlType schema (available selectInputs) keepMissing rename =
      titled safeEvalPlType schema rename := by
  obtain ⟨kept, inTable⟩ := mem_filter.mp mem
  have name : (renamedColumn safeEvalPlType schema (available selectInputs) keepMissing
      rename).name = rename.newName := by
    refine (renamedColumn_name kept (of_decide_eq_true inTable)).mpr ?_
    intro _ _ other isOther drops same
    obtain ⟨isListed, keeps⟩ := mem_filter.mp kept
    have one := inj_on_of_nodup_map distinct (mem_filter.mp isOther).1
      (mem_filter.mp isListed).1 same
    rw [one, keeps] at drops
    cases drops
  exact congrArg (fun name => OutputColumn.mk name rename.oldName
    (changeColumnType safeEvalPlType schema rename)) name

/-- The columns of the engine before they are put into order. -/
theorem renamedColumns_titled : renamedColumns safeEvalPlType schema selectInputs keepMissing =
      (present schema (keptEntries selectInputs)).map (titled safeEvalPlType schema) ++
        unlisted schema (available selectInputs) keepMissing := by
  rw [renamedColumns, unlisted, map_congr_left fun rename mem =>
    renamedColumn_titled distinct mem]

theorem selecting_distinct :
    ((present schema (keptEntries selectInputs)).map (fun rename => OutputColumn.same
        rename.oldName) ++
      unlisted schema (available selectInputs) keepMissing |>.map OutputColumn.name).Nodup := by
  have kept : (present schema (keptEntries selectInputs)).Sublist (available selectInputs) :=
    filter_sublist.trans filter_sublist
  have titles : ((available selectInputs).map fun rename => rename.oldName).Nodup :=
    distinct.sublist (filter_sublist.map _)
  rw [unlisted, map_append, map_map, map_map, nodup_append]
  refine ⟨titles.sublist (kept.map _), ?_, ?_⟩
  · change ((keepCols schema (available selectInputs) keepMissing).map id).Nodup
    rw [map_id, keepCols]
    split
    · exact schema.distinct.sublist filter_sublist
    · exact nodup_nil
  · rintro name isKept other isOther rfl
    obtain ⟨rename, mem, rfl⟩ := mem_map.mp isKept
    obtain ⟨_, isOther, same⟩ := mem_map.mp isOther
    obtain rfl : _ = rename.oldName := same
    exact (mem_keepCols.mp isOther).2.2 (mem_map_of_mem (kept.subset mem))

/-- What the engine yields, if it yields something. -/
theorem doSelect_ok_iff {columns : List OutputColumn} :
    doSelect safeEvalPlType schema selectInputs keepMissing = .ok columns ↔
      (∀ rename ∈ keptEntries selectInputs, rename.dataType ≠ none →
        rename.oldName ∈ schema.names) ∧
      ((renamedColumns safeEvalPlType schema selectInputs keepMissing).map
        OutputColumn.name).Nodup ∧
      columns.Perm (renamedColumns safeEvalPlType schema selectInputs keepMissing) ∧
      MentionedInOrder schema (sortByPosition (available selectInputs))
        (columns.map OutputColumn.name) := by
  have first : requireTable ((present schema (keptEntries selectInputs)).map
        (fun rename => .same rename.oldName) ++
      (keepCols schema (available selectInputs) keepMissing).map .same) = .ok _ :=
    requireTable_ok.mpr ⟨selecting_distinct distinct, rfl⟩
  have untyped : (keptEntries selectInputs).find? (fun rename =>
        rename.dataType.isSome && decide (rename.oldName ∉ schema.names)) = none ↔
      ∀ rename ∈ keptEntries selectInputs, rename.dataType ≠ none →
        rename.oldName ∈ schema.names := by
    rw [List.find?_eq_none]
    refine forall₂_congr fun rename _ => ?_
    cases rename.dataType <;> simp
  rw [doSelect, bind_ok]
  constructor
  · rintro ⟨_, -, ran⟩
    split at ran
    · cases ran
    case h_2 typed =>
      rw [bind_ok] at ran
      obtain ⟨_, retitled, ordering⟩ := ran
      obtain ⟨named, rfl⟩ := requireTable_ok.mp retitled
      have ordered := (matchOrder_eq_iff named fun _ => name_mem_orderOf).mp
        (Except.ok.inj ordering)
      exact ⟨untyped.mp typed, named, ordered⟩
  · rintro ⟨typed, named, ordered⟩
    refine ⟨_, first, ?_⟩
    rw [untyped.mpr typed]
    refine bind_ok.mpr ⟨_, requireTable_ok.mpr ⟨named, rfl⟩, congrArg Except.ok ?_⟩
    exact (matchOrder_eq_iff named fun _ => name_mem_orderOf).mpr ordered

theorem intended_perm_iff : (intendedColumns safeEvalPlType schema selectInputs keepMissing).Perm
        (renamedColumns safeEvalPlType schema selectInputs keepMissing) ↔
      (keepMissing = true → ∀ rename ∈ selectInputs, rename.isAvailable = false →
        rename.oldName ∉ schema.names) := by
  have sorted : ((sortByPosition (present schema (keptEntries selectInputs))).map
      (titled safeEvalPlType schema)).Perm
        ((present schema (keptEntries selectInputs)).map (titled safeEvalPlType schema)) :=
    (perm_insertionSort _ _).map _
  rw [renamedColumns_titled distinct, intendedColumns]
  constructor
  · intro perm keeps rename mem unavailable inTable
    have others := (perm_append_left_iff _).mp ((sorted.append_right _).symm.trans perm)
    have notAvailable : rename.oldName ∉ (available selectInputs).map fun other =>
        other.oldName := by
      intro listed
      obtain ⟨other, isOther, same⟩ := mem_map.mp listed
      obtain ⟨isOther, flag⟩ := mem_filter.mp isOther
      rw [inj_on_of_nodup_map distinct isOther mem same, unavailable] at flag
      cases flag
    have shown : OutputColumn.same rename.oldName ∈
        unlisted schema (available selectInputs) keepMissing :=
      mem_unlisted.mpr ⟨_, inTable, keeps, notAvailable, rfl⟩
    obtain ⟨name, -, -, missing, same⟩ := mem_unlisted.mp (others.mem_iff.mpr shown)
    obtain rfl : rename.oldName = name := congrArg OutputColumn.name same
    exact missing (mem_map_of_mem mem)
  · intro flagged
    have same : unlisted schema selectInputs keepMissing =
        unlisted schema (available selectInputs) keepMissing := by
      rw [unlisted, unlisted, keepCols, keepCols]
      split
      case isFalse => rfl
      case isTrue keeps =>
        refine congrArg _ (filter_congr fun name inTable => ?_)
        refine decide_eq_decide.mpr (not_congr ⟨fun listed => ?_, fun listed => ?_⟩)
        · obtain ⟨rename, mem, rfl⟩ := mem_map.mp listed
          refine mem_map.mpr ⟨rename, mem_filter.mpr ⟨mem, ?_⟩, rfl⟩
          by_contra unavailable
          exact flagged keeps rename mem (Bool.eq_false_iff.mpr unavailable) inTable
        · exact (filter_sublist.map _).subset listed
    rw [same]
    exact sorted.append_right _

/-- When the engine yields what is meant. -/
theorem doSelect_intended_iff : doSelect safeEvalPlType schema selectInputs keepMissing =
        .ok (intendedColumns safeEvalPlType schema selectInputs keepMissing) ↔
      SelectsAsMeant safeEvalPlType schema selectInputs keepMissing := by
  rw [doSelect_ok_iff distinct, intended_perm_iff distinct]
  constructor
  · rintro ⟨typed, named, flagged, placed⟩
    have perm : (intendedColumns safeEvalPlType schema selectInputs keepMissing).Perm
        (renamedColumns safeEvalPlType schema selectInputs keepMissing) :=
      (intended_perm_iff distinct).mpr flagged
    refine ⟨fun rename mem flag keeps => ?_, (perm.map _).nodup_iff.mpr named, flagged, placed⟩
    refine typed rename (mem_filter.mpr ⟨mem_filter.mpr ⟨mem, flag⟩, keeps⟩)
  · rintro ⟨typed, named, flagged, placed⟩
    have perm : (intendedColumns safeEvalPlType schema selectInputs keepMissing).Perm
        (renamedColumns safeEvalPlType schema selectInputs keepMissing) :=
      (intended_perm_iff distinct).mpr flagged
    refine ⟨fun rename mem => ?_, (perm.map _).nodup_iff.mp named, flagged, placed⟩
    obtain ⟨listed, keeps⟩ := mem_filter.mp mem
    obtain ⟨listed, flag⟩ := mem_filter.mp listed
    exact typed rename listed flag keeps

end

theorem available_reread : available (selectInputs.map SelectInput.reread) =
    selectInputs.map SelectInput.reread :=
  filter_eq_self.mpr fun _ mem => by
    obtain ⟨rename, -, rfl⟩ := mem_map.mp mem
    rfl

/-- Kept entries whose column exists, available or not. -/
def keepable (schema : InputSchema) (selectInputs : List SelectInput) : List SelectInput :=
  present schema (selectInputs.filter fun rename => rename.keep)

theorem present_reread : present schema (keptEntries (selectInputs.map SelectInput.reread)) =
    (keepable schema selectInputs).map SelectInput.reread := by
  rw [keptEntries, available_reread, present, keepable, present, filter_map, filter_map]
  congr 2
  exact filter_congr fun rename _ => (reread_spec rename).2.2.1

/-- The entries without positions stay in the order of the list. -/
theorem sortByPosition_reread : sortByPosition (selectInputs.map SelectInput.reread) =
    selectInputs.map SelectInput.reread := by
  refine List.Pairwise.insertionSort_eq (pairwise_map.mpr ?_)
  exact pairwise_of_forall fun _ _ => le_refl 0

theorem mentionedInOrder_reread {names : List String} :
    MentionedInOrder schema (sortByPosition (available (selectInputs.map SelectInput.reread)))
        names ↔ MentionedInOrder schema selectInputs names := by
  have titles : (selectInputs.map SelectInput.reread).map (fun rename => rename.newName) =
      selectInputs.map fun rename => rename.newName := by
    rw [map_map]
    exact map_congr_left fun rename _ => (reread_spec rename).2.1
  rw [available_reread, sortByPosition_reread, MentionedInOrder, MentionedInOrder, titles]

theorem changeColumnType_reread : changeColumnType safeEvalPlType schema rename.reread =
        changeColumnType safeEvalPlType schema rename ↔
      (rename.dataType = some "" →
        some (getPolarsType safeEvalPlType "").base = schema.base rename.oldName) := by
  have written : rename.reread.dataType = rename.dataType.filter (· ≠ "") :=
    (reread_spec rename).2.2.2.2.2
  by_cases empty : rename.dataType = some ""
  · have nothing : changeColumnType safeEvalPlType schema rename.reread = none := by
      rw [changeColumnType, written, empty]
      rfl
    have one : SelectInput.polarsType "" = "" := by decide +kernel
    rw [nothing, changeColumnType, empty]
    dsimp only
    rw [one]
    by_cases sameClass : some (getPolarsType safeEvalPlType "").base = schema.base rename.oldName
    · simp [sameClass]
    · simp [sameClass]
  · have same : rename.reread.dataType = rename.dataType := by
      cases given : rename.dataType with
      | none =>
        rw [written, given]
        rfl
      | some type =>
        have filled : type ≠ "" := fun nothing => empty (given.trans (congrArg some nothing))
        rw [written, given, Option.filter_some, if_pos (decide_eq_true filled)]
    simp only [empty, false_implies, iff_true]
    rw [changeColumnType, same, changeColumnType]
    rfl

section

variable (distinct : (selectInputs.map fun rename => rename.oldName).Nodup)
include distinct

/-- The slim form has the columns that are meant when it makes no entry available and leaves out no
change of type. -/
theorem reread_perm_iff : (intendedColumns safeEvalPlType schema selectInputs keepMissing).Perm
        (renamedColumns safeEvalPlType schema (selectInputs.map SelectInput.reread) keepMissing) ↔
      (∀ rename ∈ selectInputs, rename.isAvailable = false → rename.keep = true →
        rename.oldName ∉ schema.names) ∧
      ∀ rename ∈ selectInputs, rename.isAvailable = true → rename.keep = true →
        rename.oldName ∈ schema.names → rename.dataType = some "" →
        some (getPolarsType safeEvalPlType "").base = schema.base rename.oldName := by
  have others : ((selectInputs.map SelectInput.reread).map fun rename => rename.oldName) =
      selectInputs.map fun rename => rename.oldName := by
    rw [map_map]
    rfl
  have rest : unlisted schema (available (selectInputs.map SelectInput.reread)) keepMissing =
      unlisted schema selectInputs keepMissing := by
    rw [available_reread, unlisted, unlisted, keepCols, keepCols, others]
  have sorted : ((sortByPosition (present schema (keptEntries selectInputs))).map
      (titled safeEvalPlType schema)).Perm
        ((present schema (keptEntries selectInputs)).map (titled safeEvalPlType schema)) :=
    (perm_insertionSort _ _).map _
  have fewer : present schema (keptEntries selectInputs) =
      (keepable schema selectInputs).filter fun rename => rename.isAvailable := by
    rw [present, keptEntries, available, keepable, present, filter_filter,
      filter_filter, filter_filter, filter_filter]
    refine filter_congr fun rename _ => ?_
    ac_rfl
  rw [renamedColumns_titled (others ▸ distinct), present_reread, rest, intendedColumns,
    perm_append_right_iff, map_map]
  constructor
  · intro perm
    have both := sorted.symm.trans perm
    have lengths := both.length_eq
    rw [length_map, length_map] at lengths
    have all : present schema (keptEntries selectInputs) = keepable schema selectInputs :=
      (fewer ▸ filter_sublist).eq_of_length lengths
    have kept {rename : SelectInput} (mem : rename ∈ selectInputs) (keeps : rename.keep = true)
        (inTable : rename.oldName ∈ schema.names) : rename ∈ keepable schema selectInputs :=
      mem_filter.mpr ⟨mem_filter.mpr ⟨mem, keeps⟩, decide_eq_true inTable⟩
    refine ⟨fun rename mem unavailable keeps inTable => ?_,
      fun rename mem _ keeps inTable empty => ?_⟩
    · have listed := all ▸ kept mem keeps inTable
      have flag := (mem_filter.mp (mem_filter.mp (mem_filter.mp listed).1).1).2
      cases unavailable.symm.trans flag
    · have listed := kept mem keeps inTable
      have shown := both.mem_iff.mp (mem_map_of_mem (all ▸ listed))
      obtain ⟨other, isOther, same⟩ := mem_map.mp shown
      have one : other = rename := inj_on_of_nodup_map distinct
        (mem_filter.mp (mem_filter.mp isOther).1).1 mem
        (congrArg OutputColumn.source same)
      rw [one] at same
      exact changeColumnType_reread.mp (congrArg OutputColumn.conversion same) empty
  · rintro ⟨flagged, untyped⟩
    have available {rename : SelectInput} (listed : rename ∈ keepable schema selectInputs) :
        rename.isAvailable = true := by
      obtain ⟨kept, inTable⟩ := mem_filter.mp listed
      obtain ⟨mem, keeps⟩ := mem_filter.mp kept
      by_contra unavailable
      exact flagged rename mem (Bool.eq_false_iff.mpr unavailable) keeps
        (of_decide_eq_true inTable)
    have all : present schema (keptEntries selectInputs) = keepable schema selectInputs :=
      fewer.trans (filter_eq_self.mpr fun _ listed => available listed)
    refine sorted.trans (List.Perm.of_eq ?_)
    rw [all]
    refine map_congr_left fun rename listed => ?_
    have title := (reread_spec rename).2.1
    obtain ⟨kept, inTable⟩ := mem_filter.mp listed
    obtain ⟨mem, keeps⟩ := mem_filter.mp kept
    have same : changeColumnType safeEvalPlType schema rename.reread =
        changeColumnType safeEvalPlType schema rename :=
      changeColumnType_reread.mpr (untyped rename mem (available listed) keeps
        (of_decide_eq_true inTable))
    rw [Function.comp_apply, titled, titled, title, same]
    rfl

/-- The slim form yields what is meant as well. -/
theorem reread_intended_iff
    (asMeant : SelectsAsMeant safeEvalPlType schema selectInputs keepMissing) :
    doSelect safeEvalPlType schema (selectInputs.map SelectInput.reread) keepMissing =
        .ok (intendedColumns safeEvalPlType schema selectInputs keepMissing) ↔
      RereadsAsMeant safeEvalPlType schema selectInputs keepMissing := by
  have others : ((selectInputs.map SelectInput.reread).map fun rename => rename.oldName).Nodup := by
    rw [map_map]
    exact distinct
  rw [doSelect_ok_iff others, reread_perm_iff distinct, mentionedInOrder_reread]
  have typed : (∀ rename ∈ keptEntries (selectInputs.map SelectInput.reread),
        rename.dataType ≠ none → rename.oldName ∈ schema.names) ↔
      ∀ rename ∈ selectInputs, rename.keep = true → rename.dataType.filter (· ≠ "") ≠ none →
        rename.oldName ∈ schema.names := by
    rw [keptEntries, available_reread]
    constructor
    · intro typed rename mem keeps given
      have kept := (reread_spec rename).2.2.1.trans keeps
      exact typed rename.reread (mem_filter.mpr ⟨mem_map_of_mem mem, kept⟩) given
    · intro typed rename mem given
      obtain ⟨listed, keeps⟩ := mem_filter.mp mem
      obtain ⟨source, isSource, rfl⟩ := mem_map.mp listed
      exact typed source isSource ((reread_spec source).2.2.1.symm.trans keeps) given
  constructor
  · rintro ⟨types, _, ⟨flagged, untyped⟩, placed⟩
    exact ⟨typed.mp types, flagged, untyped, placed⟩
  · rintro ⟨types, flagged, untyped, placed⟩
    have perm : (intendedColumns safeEvalPlType schema selectInputs keepMissing).Perm
        (renamedColumns safeEvalPlType schema (selectInputs.map SelectInput.reread)
          keepMissing) := (reread_perm_iff distinct).mpr ⟨flagged, untyped⟩
    exact ⟨typed.mpr types, (perm.map _).nodup_iff.mp asMeant.named, ⟨flagged, untyped⟩, placed⟩

theorem select_meant_iff : select safeEvalPlType schema ⟨keepMissing, selectInputs⟩ =
        .ok (intendedColumns safeEvalPlType schema selectInputs keepMissing) ∧
      select safeEvalPlType schema
          (.fromYamlDict (toYamlDict ⟨keepMissing, selectInputs⟩)) =
        select safeEvalPlType schema ⟨keepMissing, selectInputs⟩ ↔
      SelectsAsMeant safeEvalPlType schema selectInputs keepMissing ∧
        RereadsAsMeant safeEvalPlType schema selectInputs keepMissing := by
  have slim : fromYamlDict (toYamlDict ⟨keepMissing, selectInputs⟩) =
      ⟨keepMissing, selectInputs.map SelectInput.reread⟩ := by
    rw [toYamlDict, fromYamlDict, map_map]
    rfl
  rw [slim, select, select]
  constructor
  · rintro ⟨meant, same⟩
    have asMeant := (doSelect_intended_iff distinct).mp meant
    exact ⟨asMeant, (reread_intended_iff distinct asMeant).mp (same.trans meant)⟩
  · rintro ⟨asMeant, reread⟩
    have meant := (doSelect_intended_iff distinct).mpr asMeant
    exact ⟨meant, ((reread_intended_iff distinct asMeant).mpr reread).trans meant.symm⟩

end

theorem renaming_meant : select evalPlainType twoColumns ⟨true, [.entry "b" "c" true]⟩ =
      .ok [⟨"c", "b", none⟩, ⟨"a", "a", none⟩] ∧
    select evalPlainType twoColumns
        (.fromYamlDict (toYamlDict ⟨true, [.entry "b" "c" true]⟩)) =
      select evalPlainType twoColumns ⟨true, [.entry "b" "c" true]⟩ := by
  have meant : intendedColumns evalPlainType twoColumns [.entry "b" "c" true] true =
      [⟨"c", "b", none⟩, ⟨"a", "a", none⟩] := by decide +kernel
  rw [← meant]
  refine (select_meant_iff (by decide)).mpr ⟨⟨by decide, ?_, by decide, ?_⟩,
    ⟨by decide +kernel, by decide, by decide, ?_⟩⟩
  · rw [meant]
    decide
  · rw [MentionedInOrder, meant]
    decide +kernel
  · rw [MentionedInOrder, meant]
    decide +kernel

def threeColumns : InputSchema where
  columns := [("a", .plain "Int64"), ("b", .plain "Int64"), ("c", .plain "Int64")]
  distinct := by decide

def SelectInput.placed (oldName newName : String) (keep : Bool) (position : Int) : SelectInput :=
  { SelectInput.entry oldName newName true with keep := keep, position := some position }

/-- A dropped column gives its place to the one that gets its name, and without positions the
columns come in another order. -/
theorem placeOfDropped_taken : (select evalPlainType threeColumns ⟨false, [.placed "a" "a" false 0,
        .placed "c" "c" true 1, .placed "b" "a" true 2]⟩ =
        .ok [⟨"a", "b", none⟩, ⟨"c", "c", none⟩] ∧
      intendedColumns evalPlainType threeColumns [.placed "a" "a" false 0,
        .placed "c" "c" true 1, .placed "b" "a" true 2] false =
        [⟨"c", "c", none⟩, ⟨"a", "b", none⟩]) ∧
    select evalPlainType twoColumns
        ⟨true, [.placed "a" "a" true 1, .placed "b" "b" true 0]⟩ =
      .ok [⟨"b", "b", none⟩, ⟨"a", "a", none⟩] ∧
    select evalPlainType twoColumns (.fromYamlDict (toYamlDict
        ⟨true, [.placed "a" "a" true 1, .placed "b" "b" true 0]⟩)) =
      .ok [⟨"a", "a", none⟩, ⟨"b", "b", none⟩] := by
  decide +kernel

end Flowfile.CodeGen

import Flowfile.JoinCode

/-!
# Columns before a generated join

The generator works on the settings as they are stored, the execution on settings to which the
columns of the tables have been added. Both agree on the columns that the settings list as long as
the added columns do not change how right columns are renamed.

A generated program starts by renaming and dropping columns of each side. When no dropped column
has a name that matters, it arrives at the columns the execution selects, in the order of the table.
-/

namespace Flowfile.Join

open Library.ColumnFrames Library.TracedFrames List
open JoinMap (leftCol rightCol)
open SelectInput (oldName ofColumn)
open JoinInput (resolveOverlaps autoRename own)
open SelectInput (retitle newName selected)

theorem addSuffix_congr {overlapping others : List String}
    (same : ∀ name, name ∈ overlapping ↔ name ∈ others) :
    addSuffix overlapping = addSuffix others := by
  funext name
  simp only [addSuffix, same]

theorem resolveOverlaps_stable {rounds : Nat} {input : JoinInput}
    (done : (input.resolveOverlaps rounds).getOverlappingColumns = []) {more : Nat}
    (enough : rounds ≤ more) : input.resolveOverlaps more = input.resolveOverlaps rounds := by
  induction rounds generalizing more input with
  | zero =>
    rw [resolveOverlaps] at done ⊢
    exact resolveOverlaps_done done more
  | succ rounds ih =>
    obtain ⟨others, rfl⟩ : ∃ others, more = others + 1 := ⟨more - 1, by omega⟩
    rw [resolveOverlaps] at done ⊢
    rw [resolveOverlaps]
    split
    case isTrue => rfl
    case isFalse overlaps =>
      rw [if_neg overlaps] at done
      exact ih done (by omega)

variable {name : String}

theorem mem_resolved_of_free {rounds : Nat} {input : JoinInput}
    (kept : name ∈ getNewCols input.rightSelect) (free : name ∉ getNewCols input.leftSelect) :
    name ∈ getNewCols (input.resolveOverlaps rounds).rightSelect := by
  obtain ⟨change, resolved, titles⟩ := resolveOverlaps_titles rounds input
  rw [resolved, getNewCols_retitle]
  refine mem_map.mpr ⟨name, kept, ?_⟩
  rw [titles name kept, freeTitle_of_not_mem free]

/-- Settings with more columns, whose right side is marked in another way. The added right columns
have free names, and the added left columns have names that no right column gets in the end. -/
structure Wider (mark : SelectInput → SelectInput) (added : List SelectInput) (rounds : Nat)
    (input wider : JoinInput) : Prop where
  right : wider.rightSelect = input.rightSelect.map mark ++ added
  leftKept : ∀ name ∈ getNewCols input.leftSelect, name ∈ getNewCols wider.leftSelect
  addedFree : ∀ select ∈ added, select.keep = true ∧ select.newName ∉ getNewCols wider.leftSelect
  titlesFree : ∀ name ∈ getNewCols (input.resolveOverlaps rounds).rightSelect,
    name ∈ getNewCols wider.leftSelect → name ∈ getNewCols input.leftSelect

/-- A mark leaves names and kept columns alone. -/
structure MarksOnly (mark : SelectInput → SelectInput) : Prop where
  newName : ∀ select, (mark select).newName = select.newName
  keep : ∀ select, (mark select).keep = select.keep
  retitle : ∀ change select,
    mark (retitle change select) = retitle change (mark select)

section

variable {mark : SelectInput → SelectInput} {added : List SelectInput} {rounds : Nat}
  {input wider : JoinInput}

/-- Kept names of the wider right side. -/
theorem Wider.mem_right (related : Wider mark added rounds input wider) (marks : MarksOnly mark)
    : name ∈ getNewCols wider.rightSelect ↔
      name ∈ getNewCols input.rightSelect ∨ ∃ select ∈ added, select.newName = name := by
  have marked : getNewCols (input.rightSelect.map mark) = getNewCols input.rightSelect := by
    have kept : SelectInput.keep ∘ mark = SelectInput.keep := funext marks.keep
    have named : newName ∘ mark = newName := funext marks.newName
    rw [getNewCols, filter_map, map_map, kept, named, getNewCols]
  have appended : getNewCols wider.rightSelect =
      getNewCols (input.rightSelect.map mark) ++ getNewCols added := by
    rw [related.right, getNewCols, filter_append, map_append]
    rfl
  rw [appended, marked, mem_append]
  constructor
  · rintro (inInput | inAdded)
    · exact .inl inInput
    · obtain ⟨select, mem, rfl⟩ := mem_map.mp inAdded
      exact .inr ⟨select, (mem_filter.mp mem).1, rfl⟩
  · rintro (inInput | ⟨select, mem, rfl⟩)
    · exact .inl inInput
    · refine .inr (mem_map_of_mem ?_)
      exact mem_filter.mpr ⟨mem, (related.addedFree select mem).1⟩

theorem Wider.mem_overlapping (related : Wider mark added rounds input wider)
    (marks : MarksOnly mark) (name : String) :
    name ∈ wider.getOverlappingColumns ↔ name ∈ input.getOverlappingColumns := by
  rw [mem_getOverlappingColumns, mem_getOverlappingColumns]
  constructor
  · rintro ⟨inLeft, inRight⟩
    rcases (related.mem_right marks).mp inRight with inInput | ⟨select, mem, rfl⟩
    · refine ⟨?_, inInput⟩
      by_contra free
      exact free (related.titlesFree name (mem_resolved_of_free inInput free) inLeft)
    · exact absurd inLeft (related.addedFree select mem).2
  · rintro ⟨inLeft, inRight⟩
    exact ⟨related.leftKept name inLeft, (related.mem_right marks).mpr (.inl inRight)⟩

theorem Wider.step (related : Wider mark added (rounds + 1) input wider) (marks : MarksOnly mark)
    (overlaps : input.getOverlappingColumns ≠ []) :
    Wider mark added rounds
      { input with rightSelect :=
          input.rightSelect.map (retitle (addSuffix input.getOverlappingColumns)) }
      { wider with rightSelect :=
          wider.rightSelect.map (retitle (addSuffix wider.getOverlappingColumns)) }
    where
  right := by
    rw [addSuffix_congr (related.mem_overlapping marks), related.right, map_append,
      map_map, map_map]
    dsimp only
    congr 1
    · apply map_congr_left
      intro select _
      exact (marks.retitle _ select).symm
    · conv_rhs => rw [← map_id added]
      apply map_congr_left
      intro select mem
      have free : select.newName ∉ input.getOverlappingColumns := by
        rw [← related.mem_overlapping marks]
        exact fun taken => (related.addedFree select mem).2
          (mem_getOverlappingColumns.mp taken).1
      rw [retitle, addSuffix, if_neg free]
      rfl
  leftKept := related.leftKept
  addedFree := related.addedFree
  titlesFree := by
    have titlesFree := related.titlesFree
    rwa [resolveOverlaps, if_neg (by simpa using overlaps)] at titlesFree

/-- Wider settings are renamed in step. -/
theorem Wider.resolved (related : Wider mark added rounds input wider) (marks : MarksOnly mark) :
    (wider.resolveOverlaps rounds).rightSelect =
      (input.resolveOverlaps rounds).rightSelect.map mark ++ added := by
  induction rounds generalizing input wider with
  | zero => exact related.right
  | succ rounds ih =>
    by_cases done : input.getOverlappingColumns = []
    · have alsoDone : wider.getOverlappingColumns = [] := by
        rw [eq_nil_iff_forall_not_mem] at done ⊢
        exact fun name overlaps => done name ((related.mem_overlapping marks name).mp overlaps)
      rw [resolveOverlaps_done done, resolveOverlaps_done alsoDone, related.right]
    · have alsoUndone : wider.getOverlappingColumns ≠ [] := by
        intro alsoDone
        apply done
        rw [eq_nil_iff_forall_not_mem] at alsoDone ⊢
        exact fun name overlaps =>
          alsoDone name ((related.mem_overlapping marks name).mpr overlaps)
      have inStep := ih (related.step marks done)
      rwa [resolveOverlaps, if_neg (by simpa using alsoUndone),
        resolveOverlaps, if_neg (by simpa using done)]

end

def unlisted (keys columns : List String) (listed : List SelectInput) : List SelectInput :=
  (columns.filter fun name => name ∉ listed.map oldName).map fun name =>
    { ofColumn name with joinKey := decide (name ∈ keys) }

def withUnlisted (keys columns : List String) (listed : List SelectInput) : List SelectInput :=
  markAvailable columns (listed ++ unlisted keys columns listed)

theorem markKeys_oldName (keys : List String) (selects : List SelectInput) :
    (markKeys keys selects).map oldName = selects.map oldName := by
  rw [markKeys, map_map]
  rfl

/-- Marking keys keeps the kept names. -/
theorem getNewCols_markKeys (keys : List String) (selects : List SelectInput) :
    getNewCols (markKeys keys selects) = getNewCols selects := by
  rw [getNewCols, markKeys, filter_map, map_map]
  rfl

theorem completed_split (keys columns : List String) (selects : List SelectInput) :
    completed keys columns selects =
      markKeys keys selects ++ unlisted keys columns (markKeys keys selects) := by
  rw [completed, withMissing, unlisted, markKeys_oldName, markKeys, map_append, map_map]
  rfl

theorem autoRename_leftSelect (input : JoinInput) : input.autoRename.leftSelect =
    markKeys (input.joinMapping.map leftCol) input.leftSelect := by
  obtain ⟨change, renamed, _⟩ := resolveOverlaps_titles
    (longest (getNewCols input.leftSelect) + 1) input.setJoinKeys
  rw [autoRename, renamed]
  rfl

theorem autoRename_rightSelect (input : JoinInput) : ∃ change : String → String,
    input.autoRename.rightSelect = (markKeys (input.joinMapping.map rightCol) input.rightSelect).map
        (retitle change) := by
  obtain ⟨change, renamed, _⟩ := resolveOverlaps_titles
    (longest (getNewCols input.leftSelect) + 1) input.setJoinKeys
  refine ⟨change, ?_⟩
  rw [autoRename, renamed]
  rfl

/-- Automatic renaming changes neither the strategy nor the pairs. -/
theorem autoRename_rest (input : JoinInput) :
    input.autoRename.how = input.how ∧ input.autoRename.joinMapping = input.joinMapping := by
  obtain ⟨change, renamed, _⟩ := resolveOverlaps_titles
    (longest (getNewCols input.leftSelect) + 1) input.setJoinKeys
  rw [autoRename, renamed]
  exact ⟨rfl, rfl⟩

section

variable {input : JoinInput} {left right : TableSchema}

theorem settled_leftSelect (accepted : input.verifyMapIntegrity left right = true)
    (autoGenerateSelection : Bool) :
    (input.settled left right autoGenerateSelection).leftSelect =
      withUnlisted (input.joinMapping.map leftCol) left.names
        input.autoRename.leftSelect := by
  obtain ⟨_, settled, _⟩ := settled_titles accepted autoGenerateSelection
  rw [settled]
  dsimp only
  rw [complete_leftSelect, completed_split, withUnlisted, autoRename_leftSelect]

/-- No added column changes how right columns are renamed. -/
structure TitlesAgree (input : JoinInput) (left right : TableSchema) : Prop where
  rightFree : ∀ name ∈ right.names, name ∉ input.rightSelect.map oldName →
    name ∉ getNewCols (input.complete left.names right.names).leftSelect
  leftFree : ∀ name ∈ left.names, name ∉ input.leftSelect.map oldName →
    name ∉ getNewCols input.autoRename.rightSelect

theorem settled_rightSelect (accepted : input.verifyMapIntegrity left right = true)
    (unfiltered : ¬ (input.how = .semi ∨ input.how = .anti))
    (agree : TitlesAgree input left right) :
    (input.settled left right true).rightSelect =
      withUnlisted (input.joinMapping.map rightCol) right.names
        input.autoRename.rightSelect := by
  obtain ⟨change, retitled⟩ := autoRename_rightSelect input
  have sameNames : input.autoRename.rightSelect.map oldName =
      input.setJoinKeys.rightSelect.map oldName := by
    rw [retitled, map_map]
    rfl
  have wideRight : ((input.complete left.names right.names).verifySelectIntegrity left.names
      right.names).rightSelect = markAvailable right.names input.setJoinKeys.rightSelect ++
        markAvailable right.names (unlisted (input.joinMapping.map rightCol) right.names
          input.setJoinKeys.rightSelect) := by
    rw [JoinInput.verifySelectIntegrity, complete_rightSelect, if_neg unfiltered, completed_split]
    exact map_append
  have wideLeft : getNewCols ((input.complete left.names right.names).verifySelectIntegrity
      left.names right.names).leftSelect =
        getNewCols (input.complete left.names right.names).leftSelect :=
    getNewCols_markAvailable _ _
  have leftSplit : getNewCols (input.complete left.names right.names).leftSelect =
      getNewCols input.setJoinKeys.leftSelect ++
        getNewCols (unlisted (input.joinMapping.map leftCol) left.names
          input.setJoinKeys.leftSelect) := by
    rw [complete_leftSelect, completed_split, getNewCols, filter_append, map_append]
    rfl
  have leftSame : getNewCols input.setJoinKeys.leftSelect = getNewCols input.leftSelect :=
    getNewCols_markKeys _ _
  have leftKept : ∀ name ∈ getNewCols input.leftSelect,
      name ∈ getNewCols (input.complete left.names right.names).leftSelect := by
    intro name kept
    rw [leftSplit, leftSame]
    exact mem_append_left _ kept
  -- The wider settings take as many rounds as their longest name needs.
  have more : longest (getNewCols input.leftSelect) ≤
      longest (getNewCols (input.complete left.names right.names).leftSelect) := by
    rw [longest_le_iff]
    exact fun name kept => (longest_le_iff _ _).mp (Nat.le_refl _) name (leftKept name kept)
  have resolved : input.setJoinKeys.resolveOverlaps
      (longest (getNewCols (input.complete left.names right.names).leftSelect) + 1) =
        input.autoRename :=
    resolveOverlaps_stable (autoRename_disjoint input) (by omega)
  have related : Wider
      (fun select => { select with isAvailable := decide (select.oldName ∈ right.names) })
      (markAvailable right.names (unlisted (input.joinMapping.map rightCol) right.names
        input.setJoinKeys.rightSelect))
      (longest (getNewCols (input.complete left.names right.names).leftSelect) + 1)
      input.setJoinKeys
      ((input.complete left.names right.names).verifySelectIntegrity left.names right.names) := by
    constructor
    case right => exact wideRight
    case leftKept =>
      rw [wideLeft, leftSame]
      exact leftKept
    case addedFree =>
      rw [wideLeft]
      intro select mem
      obtain ⟨column, inUnlisted, rfl⟩ := mem_map.mp mem
      obtain ⟨name, inColumns, rfl⟩ := mem_map.mp inUnlisted
      obtain ⟨inRight, absent⟩ := mem_filter.mp inColumns
      have absent : name ∉ input.rightSelect.map oldName := by
        rw [← markKeys_oldName (input.joinMapping.map rightCol)]
        exact of_decide_eq_true absent
      exact ⟨rfl, agree.rightFree name inRight absent⟩
    case titlesFree =>
      rw [resolved, wideLeft, leftSplit]
      intro name titled kept
      rcases mem_append.mp kept with inListed | inUnlisted
      · exact inListed
      obtain ⟨select, mem, rfl⟩ := mem_map.mp inUnlisted
      obtain ⟨column, inColumns, rfl⟩ := mem_map.mp (mem_filter.mp mem).1
      obtain ⟨inLeft, absent⟩ := mem_filter.mp inColumns
      have absent : column ∉ input.leftSelect.map oldName := by
        rw [← markKeys_oldName (input.joinMapping.map leftCol)]
        exact of_decide_eq_true absent
      exact absurd titled (agree.leftFree column inLeft absent)
  have inStep := related.resolved
    ⟨fun _ => rfl, fun _ => rfl, fun _ _ => rfl⟩
  have sameUnlisted : unlisted (input.joinMapping.map rightCol) right.names
      input.autoRename.rightSelect = unlisted (input.joinMapping.map rightCol) right.names
        input.setJoinKeys.rightSelect := by
    rw [unlisted, unlisted, sameNames]
  rw [resolved] at inStep
  rw [JoinInput.settled, appendKeys_complete accepted, if_pos rfl]
  rw [autoRename, verified_marked, wideLeft, inStep, withUnlisted, sameUnlisted]
  exact map_append.symm

theorem mem_withUnlisted {keys columns : List String} {listed : List SelectInput}
    {select : SelectInput} : select ∈ withUnlisted keys columns listed ↔ (∃ column ∈ listed,
        select = { column with isAvailable := decide (column.oldName ∈ columns) }) ∨
      ∃ name ∈ columns, name ∉ listed.map oldName ∧
        select = { ofColumn name with joinKey := decide (name ∈ keys) } := by
  rw [withUnlisted, markAvailable, map_append, mem_append, unlisted, map_map]
  constructor
  · rintro (inListed | inUnlisted)
    · obtain ⟨column, mem, rfl⟩ := mem_map.mp inListed
      exact .inl ⟨column, mem, rfl⟩
    · obtain ⟨name, inColumns, rfl⟩ := mem_map.mp inUnlisted
      obtain ⟨mem, absent⟩ := mem_filter.mp inColumns
      refine .inr ⟨name, mem, of_decide_eq_true absent, ?_⟩
      simp [ofColumn, mem]
  · rintro (⟨column, mem, rfl⟩ | ⟨name, mem, absent, rfl⟩)
    · exact .inl (mem_map_of_mem mem)
    · refine .inr (mem_map.mpr ⟨name, mem_filter.mpr ⟨mem, decide_eq_true absent⟩, ?_⟩)
      simp [ofColumn, mem]

end

def SelectInput.preName (renamesKeys : Bool) (select : SelectInput) : String :=
  if select.joinKey && !renamesKeys then select.oldName else select.newName

open SelectInput (preName)

/-- What the generated code needs of the columns of a side: columns that are listed and not selected
exist, are not selected by another entry and have no name that a selected column gets before the
join. The names selected columns get are distinct. -/
structure PreparesSide (renamesKeys : Bool) (columns : List String)
    (listed settled : List SelectInput) : Prop where
  present : ∀ column ∈ listed, column.selected = false → column.oldName ∈ columns
  once : ∀ column ∈ listed, column.selected = false → ∀ other ∈ settled,
    other.selected = true → other.oldName ≠ column.oldName
  apart : ∀ column ∈ listed, column.selected = false → ∀ other ∈ settled,
    other.selected = true → other.preName renamesKeys ≠ column.oldName
  distinct : ((settled.filter selected).map (preName renamesKeys)).Nodup

def inOrder (columns : List String) (slots : List Slot) : List Slot :=
  columns.filterMap fun name => slots.find? fun slot => slot.select.oldName = name

/-- Name before the join of a column of the table. -/
def stageName (renamesKeys : Bool) (slots : List Slot) (name : String) : String :=
  ((slots.find? fun slot => slot.select.oldName = name).map fun slot =>
    slot.select.preName renamesKeys).getD name

variable {slots : List Slot} {slot : Slot}

theorem find_slot (found : (slots.find? fun slot => slot.select.oldName = name) = some slot) :
    slot ∈ slots ∧ slot.select.oldName = name :=
  ⟨mem_of_find?_eq_some found, by simpa using List.find?_some found⟩

theorem find_of_mem (distinct : (slots.map fun slot => slot.select.oldName).Nodup)
    (mem : slot ∈ slots) :
    (slots.find? fun other => other.select.oldName = slot.select.oldName) = some slot := by
  cases found : slots.find? fun other => other.select.oldName = slot.select.oldName with
  | none =>
    have none := List.find?_eq_none.mp found slot mem
    simp at none
  | some other =>
    obtain ⟨otherMember, same⟩ := find_slot found
    rw [inj_on_of_nodup_map distinct otherMember mem same]

theorem inOrder_perm {columns : List String} (distinctColumns : columns.Nodup)
    (distinct : (slots.map fun slot => slot.select.oldName).Nodup)
    (present : ∀ slot ∈ slots, slot.select.oldName ∈ columns) :
    (inOrder columns slots).Perm slots := by
  apply (perm_ext_iff_of_nodup _ distinct.of_map).mpr
  · intro slot
    constructor
    · intro mem
      obtain ⟨name, _, found⟩ := mem_filterMap.mp mem
      exact (find_slot found).1
    · intro mem
      exact mem_filterMap.mpr ⟨_, present slot mem, find_of_mem distinct mem⟩
  · apply distinctColumns.filterMap
    intro first second slot inFirst inSecond
    exact (find_slot inFirst).2.symm.trans (find_slot inSecond).2

/-- Reading names off the columns or off the slots found for them. -/
theorem map_filterMap_find {α β γ : Type} {items : List α} {find : α → Option β} {first : α → γ}
    {second : β → γ} (agree : ∀ item found, find item = some found → first item = second found) :
    (items.filter fun item => (find item).isSome).map first =
      (items.filterMap find).map second := by
  induction items with
  | nil => rfl
  | cons item rest ih =>
    cases found : find item with
    | none =>
      rw [filter_cons, found, filterMap_cons, found]
      exact ih
    | some value =>
      rw [filter_cons, found, filterMap_cons, found]
      simp only [Option.isSome_some, if_true, map_cons, agree item value found, ih]

variable {column : SelectInput}

section

variable {input : JoinInput} {side : Side} {renamesKeys : Bool} {keys columns : List String}
  {listed : List SelectInput}

theorem own_oldNames (sound : Sound (input.selects side)) :
    ((input.own side).map fun slot => slot.select.oldName).Nodup := by
  have distinct := sound.oldDistinct
  rw [own, map_map]
  exact distinct

section

variable (settled : input.selects side = withUnlisted keys columns listed)
include settled

theorem own_present (sound : Sound (input.selects side)) :
    ∀ slot ∈ input.own side, slot.select.oldName ∈ columns := by
  intro slot mem
  obtain ⟨_, _, inSelects, selected⟩ := mem_own.mp mem
  have available := sound.present _ inSelects selected
  rw [settled, mem_withUnlisted] at inSelects
  rcases inSelects with ⟨column, _, same⟩ | ⟨name, inColumns, _, same⟩
  · rw [same] at available ⊢
    exact of_decide_eq_true available
  · rw [same]
    exact inColumns

theorem listed_slot (mem : column ∈ listed) (selected : column.selected = true) :
    ∃ slot ∈ input.own side, slot.select =
      { column with isAvailable := decide (column.oldName ∈ columns) } := by
  refine ⟨⟨side, { column with isAvailable := decide (column.oldName ∈ columns) }, false⟩, ?_, rfl⟩
  refine mem_own.mpr ⟨rfl, rfl, ?_, selected⟩
  rw [settled]
  exact mem_withUnlisted.mpr (.inl ⟨column, mem, rfl⟩)

theorem column_without_slot (inColumns : name ∈ columns)
    (missing : ((input.own side).find? fun slot => slot.select.oldName = name) = none) :
    ∃ column ∈ listed, column.selected = false ∧ column.oldName = name := by
  have noSlot : ∀ slot ∈ input.own side, slot.select.oldName ≠ name := by
    simpa using List.find?_eq_none.mp missing
  by_cases isListed : name ∈ listed.map oldName
  · obtain ⟨column, mem, rfl⟩ := mem_map.mp isListed
    refine ⟨column, mem, ?_, rfl⟩
    by_contra selected
    obtain ⟨slot, isOwn, same⟩ := listed_slot settled mem (by simpa using selected)
    exact noSlot slot isOwn (by rw [same])
  · refine absurd rfl (noSlot
      ⟨side, { ofColumn name with joinKey := decide (name ∈ keys) }, false⟩ ?_)
    refine mem_own.mpr ⟨rfl, rfl, ?_, by simp [selected, ofColumn]⟩
    rw [settled]
    exact mem_withUnlisted.mpr (.inr ⟨name, inColumns, isListed, rfl⟩)

end

/-- A column of the table has its name before the join. -/
theorem stageName_own (sound : Sound (input.selects side)) (mem : slot ∈ input.own side) :
    stageName renamesKeys (input.own side) slot.select.oldName =
      slot.select.preName renamesKeys := by
  rw [stageName, find_of_mem (own_oldNames sound) mem]
  rfl

section

variable (settled : input.selects side = withUnlisted keys columns listed)
include settled

theorem stageNames_nodup (prepares : PreparesSide renamesKeys columns listed (input.selects side))
    (distinctColumns : columns.Nodup) :
    (columns.map (stageName renamesKeys (input.own side))).Nodup := by
  have ownDistinct : ((input.own side).map fun slot =>
      slot.select.preName renamesKeys).Nodup := by
    rw [own, map_map]
    exact prepares.distinct
  -- A column without slot keeps its name, which no slot has.
  have mixed : ∀ first second, second ∈ columns → ∀ slot,
      ((input.own side).find? fun slot => slot.select.oldName = first) = some slot →
      ((input.own side).find? fun slot => slot.select.oldName = second) = none →
        slot.select.preName renamesKeys ≠ second := by
    intro first second inColumns slot found missing
    obtain ⟨_, _, inSelects, selected⟩ := mem_own.mp (find_slot found).1
    obtain ⟨column, mem, unselected, rfl⟩ := column_without_slot settled inColumns missing
    exact prepares.apart column mem unselected _ inSelects selected
  refine (nodup_map_iff_inj_on distinctColumns).mpr ?_
  intro first inFirst second inSecond same
  rw [stageName, stageName] at same
  cases foundFirst : (input.own side).find? fun slot => slot.select.oldName = first with
  | none =>
    cases foundSecond : (input.own side).find? fun slot => slot.select.oldName = second with
    | none => simpa [foundFirst, foundSecond] using same
    | some slot =>
      rw [foundFirst, foundSecond] at same
      exact absurd same.symm (mixed second first inFirst slot foundSecond foundFirst)
  | some firstSlot =>
    cases foundSecond : (input.own side).find? fun slot => slot.select.oldName = second with
    | none =>
      rw [foundFirst, foundSecond] at same
      exact absurd same (mixed first second inSecond firstSlot foundFirst foundSecond)
    | some secondSlot =>
    rw [foundFirst, foundSecond] at same
    have sameSlot := inj_on_of_nodup_map ownDistinct (find_slot foundFirst).1
      (find_slot foundSecond).1 same
    rw [← (find_slot foundFirst).2, sameSlot, (find_slot foundSecond).2]

theorem preJoinRenames_titles
    (sound : Sound (input.selects side)) (distinctColumns : columns.Nodup) :
    (∀ name ∈ (preJoinRenames renamesKeys listed).map Prod.fst, name ∈ columns) ∧
      (columns.map id).map (renamed (preJoinRenames renamesKeys listed)) =
        columns.map (stageName renamesKeys (input.own side)) := by
  have fromListed : ∀ pair ∈ preJoinRenames renamesKeys listed, ∃ slot ∈ input.own side,
      slot.select.oldName ≠ slot.select.preName renamesKeys ∧
        pair = (slot.select.oldName, slot.select.preName renamesKeys) := by
    intro pair inTable
    obtain ⟨column, inFilter, rfl⟩ := mem_map.mp inTable
    obtain ⟨mem, flags⟩ := mem_filter.mp inFilter
    simp only [Bool.and_eq_true, decide_eq_true_eq] at flags
    obtain ⟨⟨differ, selected⟩, renames⟩ := flags
    obtain ⟨slot, isOwn, same⟩ := listed_slot settled mem selected
    have title : slot.select.preName renamesKeys = column.newName := by
      rw [same, preName]
      cases key : column.joinKey <;> simp_all
    exact ⟨slot, isOwn, by rw [title, same]; exact differ, by rw [title, same]⟩
  have listedPairs : ∀ slot ∈ input.own side,
      slot.select.oldName ≠ slot.select.preName renamesKeys →
        (slot.select.oldName, slot.select.preName renamesKeys) ∈
          preJoinRenames renamesKeys listed := by
    intro slot mem differ
    obtain ⟨_, _, inSelects, selected⟩ := mem_own.mp mem
    rw [settled, mem_withUnlisted] at inSelects
    rcases inSelects with ⟨column, isListed, same⟩ | ⟨name, _, _, same⟩
    · rw [same] at differ selected ⊢
      have renames : (!column.joinKey || renamesKeys) = true := by
        by_contra keeps
        simp only [Bool.or_eq_true, Bool.not_eq_true', not_or] at keeps
        apply differ
        simp_all [preName]
      have title : preName renamesKeys
          { column with isAvailable := decide (column.oldName ∈ columns) } = column.newName := by
        rw [preName]
        cases key : column.joinKey <;> simp_all
      rw [title] at differ ⊢
      refine mem_map.mpr ⟨column, mem_filter.mpr ⟨isListed, ?_⟩, rfl⟩
      simp only [Bool.and_eq_true, decide_eq_true_eq]
      exact ⟨⟨differ, selected⟩, renames⟩
    · rw [same] at differ
      simp [preName, ofColumn] at differ
  constructor
  · intro name inNames
    obtain ⟨pair, inTable, rfl⟩ := mem_map.mp inNames
    obtain ⟨slot, isOwn, _, rfl⟩ := fromListed pair inTable
    exact own_present settled sound slot isOwn
  · rw [map_id]
    have distinct : (columns.map id).Nodup := by rwa [map_id]
    have titled := @map_renamed _ _ _ columns id distinct (preJoinRenames renamesKeys listed)
      (stageName renamesKeys (input.own side))
      (fun name => name ≠ stageName renamesKeys (input.own side) name)
      (by
        intro pair inTable
        obtain ⟨slot, isOwn, differ, rfl⟩ := fromListed pair inTable
        refine ⟨slot.select.oldName, own_present settled sound slot isOwn, ?_, ?_⟩
        · rwa [stageName_own sound isOwn]
        · rw [stageName_own sound isOwn]
          rfl)
      (by
        intro name _ differ
        cases found : (input.own side).find? fun slot => slot.select.oldName = name with
        | none => simp [stageName, found] at differ
        | some slot =>
          obtain ⟨isOwn, rfl⟩ := find_slot found
          rw [stageName_own sound isOwn] at differ ⊢
          exact listedPairs slot isOwn differ)
      (by
        intro name _ same
        exact (not_not.mp same).symm)
    rwa [map_id] at titled

theorem preJoin_run (sound : Sound (input.selects side))
    (prepares : PreparesSide renamesKeys columns listed (input.selects side))
    (distinctColumns : columns.Nodup) :
    runSteps (applyPreJoinTransformations renamesKeys listed) (sourceTable side columns) =
      .ok (ofEntries (fun slot => slot.select.preName renamesKeys) Slot.source
        (inOrder columns (input.own side))) := by
  obtain ⟨exist, titles⟩ := @preJoinRenames_titles input side renamesKeys keys columns listed
    settled sound distinctColumns
  have stageDistinct := stageNames_nodup settled prepares distinctColumns
  have retitling : renameTable (sourceTable side columns) (preJoinRenames renamesKeys listed) =
      .ok (ofEntries (stageName renamesKeys (input.own side)) (fun name => (side, name))
        columns) := by
    rw [renameTable_ok, names_ofEntries, names_sourceTable, renameColumns_ok]
    rw [map_id] at titles
    refine ⟨⟨exist, by rwa [titles], titles.symm⟩, ?_⟩
    exact (rename_ofEntries (by rwa [map_id])).symm
  have gone : ∀ column ∈ listed, column.selected = false → ∀ slot ∈ input.own side,
      slot.select.oldName ≠ column.oldName := by
    intro column mem unselected slot isOwn
    obtain ⟨_, _, inSelects, selected⟩ := mem_own.mp isOwn
    exact prepares.once column mem unselected _ inSelects selected
  have noSlot : ∀ name ∈ preJoinDrops listed, name ∈ columns ∧
      ((input.own side).find? fun slot => slot.select.oldName = name) = none := by
    intro name inDrops
    obtain ⟨column, inFilter, rfl⟩ := mem_map.mp inDrops
    obtain ⟨mem, flags⟩ := mem_filter.mp inFilter
    have unselected : column.selected = false := by simpa [selected] using flags
    refine ⟨prepares.present column mem unselected, List.find?_eq_none.mpr ?_⟩
    intro slot isOwn
    simpa using gone column mem unselected slot isOwn
  have unnamed : ∀ name,
      ((input.own side).find? fun slot => slot.select.oldName = name) = none →
        stageName renamesKeys (input.own side) name = name := by
    intro name missing
    rw [stageName, missing]
    rfl
  have dropping : dropTable (ofEntries (stageName renamesKeys (input.own side))
      (fun name => (side, name)) columns) (preJoinDrops listed) =
        .ok (ofEntries (fun slot => slot.select.preName renamesKeys) Slot.source
          (inOrder columns (input.own side))) := by
    have remaining := @filter_ofEntries_gone _ _ _ _ (stageName renamesKeys (input.own side))
      (fun name => (side, name)) columns stageDistinct (preJoinDrops listed)
      (fun name => !((input.own side).find? fun slot => slot.select.oldName = name).isSome)
      (by
        intro name inDrops
        obtain ⟨inColumns, missing⟩ := noSlot name inDrops
        exact ⟨name, inColumns, by simp [missing], (unnamed name missing).symm⟩)
      (by
        intro name inColumns isGone
        have missing : ((input.own side).find? fun slot => slot.select.oldName = name) = none := by
          simpa using isGone
        obtain ⟨column, mem, unselected, rfl⟩ := column_without_slot settled inColumns missing
        rw [unnamed _ missing]
        refine mem_map_of_mem (mem_filter.mpr ⟨mem, ?_⟩)
        simpa [selected] using unselected)
    have sources : ofEntries (stageName renamesKeys (input.own side)) (fun name => (side, name))
        (columns.filter fun name =>
          !!((input.own side).find? fun slot => slot.select.oldName = name).isSome) =
        ofEntries (fun slot => slot.select.preName renamesKeys) Slot.source
          (inOrder columns (input.own side)) := by
      simp only [Bool.not_not]
      apply map_filterMap_find
      intro name slot found
      obtain ⟨isOwn, rfl⟩ := find_slot found
      rw [stageName_own sound isOwn, Slot.source, (mem_own.mp isOwn).1]
    have result := remaining.trans sources
    rw [dropTable_ok, dropColumns_ok, ← result]
    refine ⟨⟨?_, ?_⟩, rfl⟩
    · intro name inDrops
      obtain ⟨inColumns, missing⟩ := noSlot name inDrops
      rw [names_ofEntries]
      exact mem_map.mpr ⟨name, inColumns, unnamed name missing⟩
    · exact names_filter fun name => decide (name ∉ preJoinDrops listed)
  rw [applyPreJoinTransformations, runSteps_append (runSteps_rename retitling)]
  exact runSteps_drop dropping

end

structure Ready (input : JoinInput) (side : Side) (keys columns : List String)
    (listed : List SelectInput) : Prop where
  settled : input.selects side = withUnlisted keys columns listed
  marked : ∀ select ∈ listed, select.joinKey = decide (select.oldName ∈ keys)
  sound : Sound (input.selects side)
  distinct : columns.Nodup
  present : ∀ name ∈ keys, name ∈ columns

theorem Ready.settled_marked (ready : Ready input side keys columns listed) :
    ∀ select ∈ input.selects side, select.joinKey = decide (select.oldName ∈ keys) := by
  intro select mem
  rw [ready.settled, mem_withUnlisted] at mem
  rcases mem with ⟨column, isListed, rfl⟩ | ⟨name, _, _, rfl⟩
  · exact ready.marked column isListed
  · rfl

theorem Ready.key_slot (ready : Ready input side keys columns listed)
    (isKey : name ∈ keys) : ∃ slot ∈ input.own side,
      slot.select.joinKey = true ∧ slot.select.oldName = name := by
  have inColumns := ready.present name isKey
  have entry : ∃ select ∈ input.selects side, select.oldName = name := by
    rw [ready.settled]
    by_cases isListed : name ∈ listed.map oldName
    · obtain ⟨column, mem, rfl⟩ := mem_map.mp isListed
      exact ⟨_, mem_withUnlisted.mpr (.inl ⟨column, mem, rfl⟩), rfl⟩
    · exact ⟨_, mem_withUnlisted.mpr (.inr ⟨name, inColumns, isListed, rfl⟩), rfl⟩
  obtain ⟨select, mem, rfl⟩ := entry
  have key : select.joinKey = true := by
    rw [ready.settled_marked select mem]
    exact decide_eq_true isKey
  exact ⟨⟨side, select, false⟩, key_own mem key, key, rfl⟩

def KeysAvailable (listed : List SelectInput) : Prop :=
  ∀ key ∈ listed, key.joinKey = true → key.isAvailable = true ∨ key.newName = key.oldName

section

variable (ready : Ready input side keys columns listed)
include ready

theorem Ready.key_title (available : KeysAvailable listed) (mem : slot ∈ input.own side)
    (key : slot.select.joinKey = true) :
    (dictGet (getRenameTable listed) slot.select.oldName).getD slot.select.oldName =
      slot.select.newName := by
  obtain ⟨_, _, inSelects, _⟩ := mem_own.mp mem
  cases found : dictGet (getRenameTable listed) slot.select.oldName with
  | some title =>
    obtain ⟨column, inFilter, same⟩ := mem_map.mp (mem_of_dictGet found)
    obtain ⟨isListed, flags⟩ := mem_filter.mp inFilter
    obtain ⟨_, selected⟩ := Bool.and_eq_true_iff.mp flags
    obtain ⟨sameOld, rfl⟩ := Prod.mk.inj same
    obtain ⟨other, isOwn, otherSelect⟩ := listed_slot ready.settled isListed selected
    have sameSlot := inj_on_of_nodup_map (own_oldNames ready.sound) isOwn mem
      (by rw [otherSelect]; exact sameOld)
    rw [← sameSlot, otherSelect]
    rfl
  | none =>
    rw [ready.settled, mem_withUnlisted] at inSelects
    rcases inSelects with ⟨column, isListed, same⟩ | ⟨name, _, _, same⟩
    · rw [same] at found key ⊢
      have notListed : column.isAvailable ≠ true := by
        intro isAvailable
        rw [dictGet, lookup_eq_none_iff] at found
        have differs := found (column.oldName, column.newName) (by
          rw [mem_reverse]
          refine mem_map.mpr ⟨column, mem_filter.mpr ⟨isListed, ?_⟩, rfl⟩
          simp_all [selected])
        simp at differs
      have unchanged := (available column isListed key).resolve_left notListed
      exact unchanged.symm
    · rw [same]
      rfl

theorem Ready.mem_titles (available : KeysAvailable listed) :
    name ∈ keys.map (fun key => (dictGet (getRenameTable listed) key).getD key) ↔
      ∃ slot ∈ input.own side, slot.select.joinKey = true ∧ name = slot.select.newName := by
  rw [mem_map]
  constructor
  · rintro ⟨key, isKey, rfl⟩
    obtain ⟨slot, mem, marked, rfl⟩ := ready.key_slot isKey
    exact ⟨slot, mem, marked, ready.key_title available mem marked⟩
  · rintro ⟨slot, mem, marked, rfl⟩
    obtain ⟨_, _, inSelects, _⟩ := mem_own.mp mem
    refine ⟨slot.select.oldName, ?_, ready.key_title available mem marked⟩
    have isKey := ready.settled_marked _ inSelects
    rw [marked] at isKey
    exact of_decide_eq_true isKey.symm

theorem Ready.mem_keys : name ∈ keys ↔
      ∃ slot ∈ input.own side, slot.select.joinKey = true ∧ name = slot.select.oldName := by
  constructor
  · intro isKey
    obtain ⟨slot, mem, marked, rfl⟩ := ready.key_slot isKey
    exact ⟨slot, mem, marked, rfl⟩
  · rintro ⟨slot, mem, marked, rfl⟩
    obtain ⟨_, _, inSelects, _⟩ := mem_own.mp mem
    have isKey := ready.settled_marked _ inSelects
    rw [marked] at isKey
    exact of_decide_eq_true isKey.symm

theorem Ready.listed_key (mem : column ∈ getJoinKeySelects listed) : ∃ slot ∈ input.own side,
      slot.select.joinKey = true ∧ slot.select.oldName = column.oldName ∧
        slot.select.newName = column.newName ∧ slot.select.keep = column.keep := by
  obtain ⟨isListed, key⟩ := mem_filter.mp mem
  obtain ⟨slot, isOwn, same⟩ := listed_slot ready.settled isListed
    (by simp [selected, key])
  exact ⟨slot, isOwn, by rw [same]; exact key, by rw [same], by rw [same], by rw [same]⟩

theorem Ready.slot_listed (mem : slot ∈ input.own side) (key : slot.select.joinKey = true)
    (isListed : slot.select.keep = false ∨ ∀ name ∈ keys, name ∈ listed.map oldName) :
    ∃ column ∈ getJoinKeySelects listed, column.newName = slot.select.newName ∧
      column.oldName = slot.select.oldName ∧ column.keep = slot.select.keep := by
  obtain ⟨_, _, inSelects, _⟩ := mem_own.mp mem
  have isKey := ready.settled_marked _ inSelects
  rw [key] at isKey
  rw [ready.settled, mem_withUnlisted] at inSelects
  rcases inSelects with ⟨column, inListed, same⟩ | ⟨name, _, absent, same⟩
  · rw [same] at key ⊢
    exact ⟨column, mem_filter.mpr ⟨inListed, key⟩, rfl, rfl, rfl⟩
  · rw [same] at isListed isKey
    rcases isListed with unkept | all
    · cases unkept
    · exact absurd (all name (of_decide_eq_true isKey.symm)) absent

end

end

end Flowfile.Join

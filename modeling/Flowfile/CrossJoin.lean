import Flowfile.GeneratedSides

/-!
# Cross joins

A cross join is executed on the columns that the settings select, under their new names, and drops
those that are marked as keys and not kept. The code generated for it joins the tables as they are.
-/

namespace Flowfile.Join

open Library.ColumnFrames Library.TracedFrames List
open Slot (source)
open SelectInput (oldName newName isAvailable retitle)

structure CrossJoinInput where
  leftSelect : List SelectInput
  rightSelect : List SelectInput

def CrossJoinInput.selects (input : CrossJoinInput) : Side → List SelectInput
  | .left => input.leftSelect
  | .right => input.rightSelect

def CrossJoinInput.asJoin (input : CrossJoinInput) : JoinInput :=
  ⟨[], input.leftSelect, input.rightSelect, .inner⟩

/-- Rename right columns until no kept names overlap. The loop is that of joins. -/
def CrossJoinInput.autoRename (input : CrossJoinInput) : CrossJoinInput :=
  let renamed := input.asJoin.resolveOverlaps (longest (getNewCols input.leftSelect) + 1)
  ⟨renamed.leftSelect, renamed.rightSelect⟩

def CrossJoinInput.complete (leftCols rightCols : List String)
    (input : CrossJoinInput) : CrossJoinInput :=
  ⟨markAvailable leftCols (withMissing input.leftSelect leftCols),
    markAvailable rightCols (withMissing input.rightSelect rightCols)⟩

def selectedColumns (selects : List SelectInput) : List String :=
  (selects.filter fun select => select.selected && select.isAvailable).map oldName

def columnsToDelete (selects : List SelectInput) : List String :=
  (selects.filter fun select => select.joinKey && !select.keep && select.isAvailable).map
    newName

def doCrossJoin (input : CrossJoinInput) (self other : TableSchema) :
    Except (FrameError String) (Table String Source) := do
  let completed := input.complete self.names other.names
  let manager := completed.autoRename
  let left ← selectTable (sourceTable .left self.names) (selectedColumns completed.leftSelect)
  let left ← renameTable left (getRenameTable manager.leftSelect)
  let right ← selectTable (sourceTable .right other.names) (selectedColumns completed.rightSelect)
  let right ← renameTable right (getRenameTable manager.rightSelect)
  let joined ← joinTable .full polarsSuffix left right [] []
  dropTable joined (columnsToDelete (manager.leftSelect ++ manager.rightSelect))

def handleCrossJoin (left right : Table String Source) :
    Except (FrameError String) (Table String Source) :=
  joinTable .full polarsSuffix left right [] []

/-- The generated code on the tables that the engine would join. -/
def runGeneratedCross (self other : TableSchema) :
    Except (FrameError String) (Table String Source) :=
  handleCrossJoin (sourceTable .left self.names) (sourceTable .right other.names)

/-- The name that the library gives a right column. -/
def besideName (left : List String) (name : String) : String :=
  if name ∈ left then polarsSuffix name else name

/-- The settings under which a cross join is executed keep all columns, left ones under their names
and right ones under those that the library gives them. -/
structure KeepsAll (input : CrossJoinInput) (left right : TableSchema) : Prop where
  leftColumns : ∀ name ∈ left.names,
    ∃ select ∈ (input.complete left.names right.names).autoRename.leftSelect,
      select.keep = true ∧ select.oldName = name ∧ select.newName = name
  rightColumns : ∀ name ∈ right.names,
    ∃ select ∈ (input.complete left.names right.names).autoRename.rightSelect,
      select.keep = true ∧ select.oldName = name ∧ select.newName = besideName left.names name

variable {name : String} (side : Side) {table : Table String Source}

section

variable {input : CrossJoinInput} {left right : TableSchema}

/-- The available columns of the settings under which a cross join is executed. -/
def CrossJoinInput.available (input : CrossJoinInput) (left right : TableSchema) : JoinInput :=
  let manager := (input.complete left.names right.names).autoRename
  ⟨[], manager.leftSelect.filter isAvailable,
    manager.rightSelect.filter isAvailable, .inner⟩

theorem crossRename_titles (input : CrossJoinInput) : ∃ change : String → String,
    input.autoRename = ⟨input.leftSelect, input.rightSelect.map (retitle change)⟩ := by
  obtain ⟨change, renamed, _⟩ := resolveOverlaps_titles
    (longest (getNewCols input.leftSelect) + 1) input.asJoin
  refine ⟨change, ?_⟩
  rw [CrossJoinInput.autoRename, renamed]
  rfl

theorem crossRename_disjoint (input : CrossJoinInput)
    (inLeft : name ∈ getNewCols input.autoRename.leftSelect) :
    name ∉ getNewCols input.autoRename.rightSelect := by
  intro inRight
  have done := resolveOverlaps_disjoint (longest (getNewCols input.leftSelect) + 1) 0 input.asJoin
    (fun _ _ => Nat.zero_le _) (by
      have same : input.asJoin.leftSelect = input.leftSelect := rfl
      rw [same]
      omega)
  have overlaps := mem_getOverlappingColumns.mpr ⟨inLeft, inRight⟩
  rw [done] at overlaps
  cases overlaps

theorem cross_marked : ∀ select ∈ (input.available left right).selects side,
      select.isAvailable = decide (select.oldName ∈
        match side with | .left => left.names | .right => right.names) := by
  obtain ⟨change, renamed⟩ := crossRename_titles (input.complete left.names right.names)
  intro select mem
  cases side with
  | left =>
    have inManager := (mem_filter.mp mem).1
    rw [renamed] at inManager
    obtain ⟨column, _, rfl⟩ := mem_map.mp inManager
    rfl
  | right =>
    have inManager := (mem_filter.mp mem).1
    rw [renamed] at inManager
    obtain ⟨marked, isMarked, rfl⟩ := mem_map.mp inManager
    obtain ⟨column, _, rfl⟩ := mem_map.mp isMarked
    rfl

theorem selectedColumns_available :
    selectedColumns ((input.complete left.names right.names).selects side) =
      getSelectCols ((input.available left right).selects side) := by
  obtain ⟨change, renamed⟩ := crossRename_titles (input.complete left.names right.names)
  cases side with
  | left =>
    rw [selectedColumns, getSelectCols, JoinInput.selects, CrossJoinInput.available, renamed,
      CrossJoinInput.selects, filter_filter]
  | right =>
    rw [selectedColumns, getSelectCols, JoinInput.selects, CrossJoinInput.available, renamed,
      CrossJoinInput.selects, filter_filter, filter_map, map_map]
    rfl

/-- The new names of a side are those of its available settings. -/
theorem getRenameTable_available (selects : List SelectInput) :
    getRenameTable (selects.filter isAvailable) = getRenameTable selects := by
  rw [getRenameTable, getRenameTable, filter_filter]
  congr 1
  apply filter_congr
  intro select _
  cases available : select.isAvailable <;> simp

theorem mem_columnsToDelete : name ∈ columnsToDelete
      ((input.complete left.names right.names).autoRename.leftSelect ++
        (input.complete left.names right.names).autoRename.rightSelect) ↔
      ∃ side, ∃ slot ∈ (input.available left right).own side,
        slot.select.keep = false ∧ slot.title = name := by
  have droppedSlot : ∀ side, ∀ select, select.joinKey = true → select.keep = false →
      select ∈ (input.available left right).selects side →
        ⟨side, select, false⟩ ∈ (input.available left right).own side := by
    intro side select key _ mem
    exact mem_own.mpr ⟨rfl, rfl, mem, by simp [SelectInput.selected, key]⟩
  rw [columnsToDelete, mem_map]
  constructor
  · rintro ⟨select, isDropped, rfl⟩
    obtain ⟨mem, flags⟩ := mem_filter.mp isDropped
    simp only [Bool.and_eq_true, Bool.not_eq_true'] at flags
    obtain ⟨⟨key, unkept⟩, available⟩ := flags
    rcases mem_append.mp mem with inLeft | inRight
    · exact ⟨.left, _, droppedSlot .left select key unkept
        (mem_filter.mpr ⟨inLeft, available⟩), unkept, rfl⟩
    · exact ⟨.right, _, droppedSlot .right select key unkept
        (mem_filter.mpr ⟨inRight, available⟩), unkept, rfl⟩
  · rintro ⟨side, slot, isOwn, unkept, rfl⟩
    obtain ⟨_, _, inSelects, selected⟩ := mem_own.mp isOwn
    have key : slot.select.joinKey = true := by
      simpa [SelectInput.selected, unkept] using selected
    refine ⟨slot.select, mem_filter.mpr ⟨?_, ?_⟩, rfl⟩
    · cases side with
      | left => exact mem_append_left _ (mem_filter.mp inSelects).1
      | right => exact mem_append_right _ (mem_filter.mp inSelects).1
    · cases side with
      | left => simp [key, unkept, (mem_filter.mp inSelects).2]
      | right => simp [key, unkept, (mem_filter.mp inSelects).2]

def crossColumns (input : CrossJoinInput) (left right : TableSchema) : Table String Source :=
  beside polarsSuffix
    (ofEntries Slot.title source ((input.available left right).own .left))
    (ofEntries Slot.title source ((input.available left right).own .right))

theorem doCrossJoin_ok (ran : doCrossJoin input left right = .ok table) :
    (∀ side, Sound ((input.available left right).selects side)) ∧
      (names (crossColumns input left right)).Nodup ∧
        table = (crossColumns input left right).filter fun column => column.1 ∉ columnsToDelete
          ((input.complete left.names right.names).autoRename.leftSelect ++
            (input.complete left.names right.names).autoRename.rightSelect) := by
  simp only [doCrossJoin, bind_ok] at ran
  obtain ⟨leftSelected, leftSelecting, leftFrame, leftRenaming, rightSelected, rightSelecting,
    rightFrame, rightRenaming, joined, joining, dropping⟩ := ran
  have leftColumns : selectedColumns (input.complete left.names right.names).leftSelect =
      getSelectCols ((input.available left right).selects .left) := selectedColumns_available .left
  have rightColumns : selectedColumns (input.complete left.names right.names).rightSelect =
      getSelectCols ((input.available left right).selects .right) :=
    selectedColumns_available .right
  rw [leftColumns] at leftSelecting
  rw [rightColumns] at rightSelecting
  rw [← getRenameTable_available] at leftRenaming rightRenaming
  have sameStart : ∀ side, ofEntries Slot.startName source
      ((input.available left right).own side) =
        ofEntries Slot.title source ((input.available left right).own side) := by
    intro side
    apply ofEntries_congr
    intro slot mem
    simp [Slot.startName, (mem_own.mp mem).2.1, Slot.title]
  have leftSources := own_sources (cross_marked .left) leftSelecting leftRenaming
  have rightSources := own_sources (cross_marked .right) rightSelecting rightRenaming
  rw [sameStart] at leftSources rightSources
  obtain ⟨_, _, distinct, same⟩ := joinTable_ok.mp joining
  rw [leftSources, rightSources] at distinct same
  refine ⟨?_, distinct, ?_⟩
  · intro side
    cases side with
    | left =>
      exact sound_side (cross_marked .left) (by simpa using (selectTable_ok.mp leftSelecting).1)
        (renameTable_ok.mp leftRenaming).1
    | right =>
      exact sound_side (cross_marked .right) (by simpa using (selectTable_ok.mp rightSelecting).1)
        (renameTable_ok.mp rightRenaming).1
  · rw [(dropTable_ok.mp dropping).2, same]
    rfl

/-- The generated cross join puts both tables beside each other. -/
def generatedColumns (left right : TableSchema) : Table String Source :=
  left.names.map (fun name => (name, (.left, name))) ++
    right.names.map fun name => (besideName left.names name, (.right, name))

theorem runGeneratedCross_ok {result : Table String Source} :
    runGeneratedCross left right = .ok result ↔
      (names (generatedColumns left right)).Nodup ∧ result = generatedColumns left right := by
  have table : JoinType.full.table polarsSuffix (sourceTable .left left.names)
      (sourceTable .right right.names) [] [] = generatedColumns left right := by
    rw [JoinType.table, beside, names_sourceTable, generatedColumns, sourceTable, sourceTable,
      ofEntries, ofEntries, map_map]
    rfl
  rw [runGeneratedCross, handleCrossJoin, joinTable_ok, table]
  simp

theorem mem_crossColumns {column : String × Source} : column ∈ crossColumns input left right ↔
      (∃ slot ∈ (input.available left right).own .left, column = (slot.title, slot.source)) ∨
      ∃ slot ∈ (input.available left right).own .right, column =
        (besideName (((input.available left right).own .left).map Slot.title) slot.title,
          slot.source) := by
  rw [crossColumns, beside, names_ofEntries, mem_append, ofEntries, ofEntries, map_map]
  constructor
  · rintro (inLeft | inRight)
    · obtain ⟨slot, isOwn, rfl⟩ := mem_map.mp inLeft
      exact .inl ⟨slot, isOwn, rfl⟩
    · obtain ⟨slot, isOwn, rfl⟩ := mem_map.mp inRight
      exact .inr ⟨slot, isOwn, rfl⟩
  · rintro (⟨slot, isOwn, rfl⟩ | ⟨slot, isOwn, rfl⟩)
    · exact .inl (mem_map_of_mem isOwn)
    · exact .inr (mem_map_of_mem isOwn)

/-- Kept columns of both sides of an executed cross join have different names. -/
theorem cross_disjoint {first second : Slot}
    (inLeft : first ∈ (input.available left right).own .left) (leftKept : first.select.keep = true)
    (inRight : second ∈ (input.available left right).own .right)
    (rightKept : second.select.keep = true) : first.title ≠ second.title := by
  intro same
  have leftMember := (mem_filter.mp (mem_own.mp inLeft).2.2.1).1
  have rightMember := (mem_filter.mp (mem_own.mp inRight).2.2.1).1
  have taken : first.title ∈ getNewCols
      (input.complete left.names right.names).autoRename.leftSelect :=
    mem_map_of_mem (mem_filter.mpr ⟨leftMember, leftKept⟩)
  apply crossRename_disjoint _ taken
  rw [same]
  exact mem_map_of_mem (mem_filter.mpr ⟨rightMember, rightKept⟩)

theorem keepsAll_slots {side : Side} {columns : List String} {title : String → String}
    {selects : List SelectInput}
    (selected : (input.available left right).selects side = selects.filter isAvailable)
    (marked : ∀ select ∈ selects, select.isAvailable = decide (select.oldName ∈ columns))
    (sound : Sound ((input.available left right).selects side)) (distinct : columns.Nodup)
    (keeps : ∀ name ∈ columns, ∃ select ∈ selects,
      select.keep = true ∧ select.oldName = name ∧ select.newName = title name) :
    (∀ slot ∈ (input.available left right).own side,
      slot.select.keep = true ∧ slot.title = title slot.select.oldName) ∧
      (((input.available left right).own side).map fun slot => slot.select.oldName).Perm
        columns := by
  have keptSlot : ∀ name ∈ columns, ∃ slot ∈ (input.available left right).own side,
      slot.select.keep = true ∧ slot.select.oldName = name ∧ slot.title = title name := by
    intro name inColumns
    obtain ⟨select, mem, keep, rfl, titled⟩ := keeps name inColumns
    refine ⟨⟨side, select, false⟩, mem_own.mpr ⟨rfl, rfl, ?_, ?_⟩, keep, rfl, titled⟩
    · rw [selected]
      refine mem_filter.mpr ⟨mem, ?_⟩
      rw [marked select mem]
      exact decide_eq_true inColumns
    · simp [SelectInput.selected, keep]
  have inColumns : ∀ slot ∈ (input.available left right).own side,
      slot.select.oldName ∈ columns := by
    intro slot isOwn
    have inSelects := (mem_own.mp isOwn).2.2.1
    rw [selected] at inSelects
    obtain ⟨mem, available⟩ := mem_filter.mp inSelects
    rw [marked _ mem] at available
    exact of_decide_eq_true available
  have oldDistinct := own_oldNames sound
  constructor
  · intro slot isOwn
    obtain ⟨kept, keptOwn, keep, same, titled⟩ := keptSlot _ (inColumns slot isOwn)
    have sameSlot := inj_on_of_nodup_map oldDistinct keptOwn isOwn same
    rw [sameSlot] at keep titled
    exact ⟨keep, titled⟩
  · refine (perm_ext_iff_of_nodup oldDistinct distinct).mpr ?_
    intro name
    constructor
    · intro mem
      obtain ⟨slot, isOwn, rfl⟩ := mem_map.mp mem
      exact inColumns slot isOwn
    · intro mem
      obtain ⟨slot, isOwn, _, rfl, _⟩ := keptSlot name mem
      exact mem_map.mpr ⟨slot, isOwn, rfl⟩

/-- Availability in the settings under which a cross join is executed. -/
theorem manager_marked : ∀ select ∈ (input.complete left.names right.names).autoRename.selects side,
      select.isAvailable = decide (select.oldName ∈
        match side with | .left => left.names | .right => right.names) := by
  obtain ⟨change, renamed⟩ := crossRename_titles (input.complete left.names right.names)
  intro select mem
  rw [renamed] at mem
  cases side with
  | left =>
    obtain ⟨column, _, rfl⟩ := mem_map.mp mem
    rfl
  | right =>
    obtain ⟨marked, isMarked, rfl⟩ := mem_map.mp mem
    obtain ⟨column, _, rfl⟩ := mem_map.mp isMarked
    rfl

theorem keepsAll_agrees
    (ran : doCrossJoin input left right = .ok table) (keeps : KeepsAll input left right) :
    runGeneratedCross left right = .ok (generatedColumns left right) ∧
      (generatedColumns left right).Perm table := by
  obtain ⟨sound, distinct, same⟩ := doCrossJoin_ok ran
  obtain ⟨leftSlots, leftPerm⟩ := @keepsAll_slots input left right .left left.names id _ rfl
    (manager_marked .left) (sound .left) left.distinct keeps.leftColumns
  obtain ⟨rightSlots, rightPerm⟩ := @keepsAll_slots input left right .right right.names
    (besideName left.names) _ rfl (manager_marked .right) (sound .right) right.distinct
    keeps.rightColumns
  have noneDropped : ∀ name, name ∉ columnsToDelete
      ((input.complete left.names right.names).autoRename.leftSelect ++
        (input.complete left.names right.names).autoRename.rightSelect) := by
    intro name isDropped
    obtain ⟨side, slot, isOwn, unkept, _⟩ := mem_columnsToDelete.mp isDropped
    cases side with
    | left => rw [(leftSlots slot isOwn).1] at unkept; cases unkept
    | right => rw [(rightSlots slot isOwn).1] at unkept; cases unkept
  have all : table = crossColumns input left right := by
    rw [same, filter_eq_self]
    intro column _
    exact decide_eq_true (noneDropped column.1)
  have apart : ∀ name ∈ names (ofEntries Slot.title source
      ((input.available left right).own .right)),
        name ∉ names (ofEntries Slot.title source
          ((input.available left right).own .left)) := by
    intro name inRight inLeft
    rw [names_ofEntries] at inRight inLeft
    obtain ⟨first, firstOwn, rfl⟩ := mem_map.mp inLeft
    obtain ⟨second, secondOwn, titled⟩ := mem_map.mp inRight
    exact cross_disjoint firstOwn (leftSlots first firstOwn).1 secondOwn
      (rightSlots second secondOwn).1 titled.symm
  have leftTable : (ofEntries Slot.title source ((input.available left right).own .left)).Perm
        (left.names.map fun name => (name, (.left, name))) := by
    have byName : ofEntries Slot.title source ((input.available left right).own .left) =
        (((input.available left right).own .left).map fun slot => slot.select.oldName).map
          fun name => (name, (.left, name)) := by
      rw [ofEntries, map_map]
      apply map_congr_left
      intro slot isOwn
      rw [(leftSlots slot isOwn).2, source, (mem_own.mp isOwn).1]
      rfl
    rw [byName]
    exact leftPerm.map _
  have rightTable : (ofEntries Slot.title source
      ((input.available left right).own .right)).Perm
        (right.names.map fun name => (besideName left.names name, (.right, name))) := by
    have byName : ofEntries Slot.title source ((input.available left right).own .right) =
        (((input.available left right).own .right).map fun slot => slot.select.oldName).map
          fun name => (besideName left.names name, (.right, name)) := by
      rw [ofEntries, map_map]
      apply map_congr_left
      intro slot isOwn
      rw [(rightSlots slot isOwn).2, source, (mem_own.mp isOwn).1]
      rfl
    rw [byName]
    exact rightPerm.map _
  have permuted : (generatedColumns left right).Perm table := by
    rw [all, crossColumns, beside_of_apart apart]
    exact (leftTable.append rightTable).symm
  refine ⟨runGeneratedCross_ok.mpr ⟨?_, rfl⟩, permuted⟩
  have sameNames : (names (generatedColumns left right)).Perm (names table) :=
    permuted.map Prod.fst
  rw [sameNames.nodup_iff, all]
  exact distinct

theorem agrees_keepsAll (ran : doCrossJoin input left right = .ok table)
    (permuted : (generatedColumns left right).Perm table) : KeepsAll input left right := by
  obtain ⟨sound, distinct, same⟩ := doCrossJoin_ok ran
  have inTable : ∀ column ∈ generatedColumns left right, column ∈ crossColumns input left right ∧
      column.1 ∉ columnsToDelete
        ((input.complete left.names right.names).autoRename.leftSelect ++
          (input.complete left.names right.names).autoRename.rightSelect) := by
    intro column mem
    have isColumn := permuted.mem_iff.mp mem
    rw [same] at isColumn
    obtain ⟨inCross, stays⟩ := mem_filter.mp isColumn
    exact ⟨inCross, of_decide_eq_true stays⟩
  have keptOf : ∀ side, ∀ slot ∈ (input.available left right).own side,
      slot.title ∉ columnsToDelete
        ((input.complete left.names right.names).autoRename.leftSelect ++
          (input.complete left.names right.names).autoRename.rightSelect) →
            slot.select.keep = true := by
    intro side slot isOwn stays
    by_contra unkept
    exact stays (mem_columnsToDelete.mpr ⟨side, slot, isOwn, by simpa using unkept, rfl⟩)
  have leftSlot : ∀ name ∈ left.names, ∃ slot ∈ (input.available left right).own .left,
      slot.select.keep = true ∧ slot.select.oldName = name ∧ slot.title = name := by
    intro name inColumns
    obtain ⟨inCross, stays⟩ := inTable (name, (.left, name))
      (mem_append_left _ (mem_map_of_mem inColumns))
    rcases mem_crossColumns.mp inCross with ⟨slot, isOwn, equal⟩ | ⟨slot, isOwn, equal⟩
    · obtain ⟨rfl, sources⟩ := Prod.mk.inj equal
      exact ⟨slot, isOwn, keptOf .left slot isOwn stays, (Prod.mk.inj sources).2.symm, rfl⟩
    · have side := (Prod.mk.inj (Prod.mk.inj equal).2).1
      rw [(mem_own.mp isOwn).1] at side
      cases side
  have leftTitle : ∀ slot ∈ (input.available left right).own .left,
      slot.select.keep = true ∧ slot.title ∈ left.names := by
    intro slot isOwn
    have inColumns : slot.select.oldName ∈ left.names := by
      have available := (mem_filter.mp (mem_own.mp isOwn).2.2.1).2
      rw [cross_marked .left _ (mem_own.mp isOwn).2.2.1] at available
      exact of_decide_eq_true available
    obtain ⟨kept, keptOwn, keep, sameOld, titled⟩ := leftSlot _ inColumns
    have sameSlot := inj_on_of_nodup_map (own_oldNames (sound .left)) keptOwn isOwn sameOld
    rw [sameSlot] at keep titled
    exact ⟨keep, titled ▸ inColumns⟩
  constructor
  case leftColumns =>
    intro name inColumns
    obtain ⟨slot, isOwn, keep, sameOld, titled⟩ := leftSlot name inColumns
    exact ⟨slot.select, (mem_filter.mp (mem_own.mp isOwn).2.2.1).1, keep, sameOld, titled⟩
  case rightColumns =>
    intro name inColumns
    obtain ⟨inCross, stays⟩ := inTable (besideName left.names name, (.right, name))
      (mem_append_right _
        (mem_map_of_mem (f := fun name => (besideName left.names name, (Side.right, name)))
          inColumns))
    rcases mem_crossColumns.mp inCross with ⟨slot, isOwn, equal⟩ | ⟨slot, isOwn, equal⟩
    · have side := (Prod.mk.inj (Prod.mk.inj equal).2).1
      rw [(mem_own.mp isOwn).1] at side
      cases side
    obtain ⟨titled, sources⟩ := Prod.mk.inj equal
    have sameOld : slot.select.oldName = name := (Prod.mk.inj sources).2.symm
    -- A right column whose name is taken would be kept, like the left one, or go with it.
    have free : slot.title ∉ ((input.available left right).own .left).map Slot.title := by
      intro taken
      obtain ⟨first, firstOwn, sameTitle⟩ := mem_map.mp taken
      obtain ⟨firstKept, isName⟩ := leftTitle first firstOwn
      have firstStays := (inTable (first.title, (.left, first.title))
        (mem_append_left _ (mem_map_of_mem isName))).2
      have secondKept := keptOf .right slot isOwn (sameTitle ▸ firstStays)
      exact cross_disjoint firstOwn firstKept isOwn secondKept sameTitle
    rw [besideName.eq_def (((input.available left right).own .left).map Slot.title),
      if_neg free] at titled
    refine ⟨slot.select, (mem_filter.mp (mem_own.mp isOwn).2.2.1).1, ?_, sameOld, titled.symm⟩
    exact keptOf .right slot isOwn (titled ▸ stays)

theorem crossJoin_agrees_iff :
    Agrees (doCrossJoin input left right) (runGeneratedCross left right) ↔
      ∀ table, doCrossJoin input left right = .ok table → KeepsAll input left right := by
  constructor
  · intro agrees table ran
    obtain ⟨result, generated, permuted⟩ := agrees table ran
    obtain ⟨_, rfl⟩ := runGeneratedCross_ok.mp generated
    exact agrees_keepsAll ran permuted
  · intro keeps table ran
    exact ⟨_, keepsAll_agrees ran (keeps table ran)⟩

end

end Flowfile.Join

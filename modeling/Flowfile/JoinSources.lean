import Flowfile.JoinEngine
import Flowfile.Library.TracedFrames

/-!
# Where the columns of an executed join come from

The execution of a join on tables whose columns are followed to the column of an input they hold.
Its names are those of the execution on names, and each remaining slot holds the column it was made
from.
-/

namespace Flowfile.Join

open Library.ColumnFrames Library.TracedFrames List
open Slot (startName joinName keyName)

/-- A column of an input. -/
abbrev Source : Type := Side × String

/-- An input: each column is its own source. -/
def sourceTable (side : Side) (columns : List String) : Table String Source :=
  ofEntries id (fun name => (side, name)) columns

/-- The column a slot was made from. -/
def Slot.source (slot : Slot) : Source :=
  (slot.side, slot.select.oldName)

open Slot (source)

def JoinInput.copyKeySources (input : JoinInput) (left right : Table String Source) :
    Except (FrameError String)
      (Table String Source × Table String Source × List (String × String)) :=
  match input.how with
  | .right => do
    let left ← copyTable left (keyCopies input.leftSelect)
    .ok (left, right, reverseActions .left input.leftSelect)
  | .left | .inner => do
    let right ← copyTable right (keyCopies input.rightSelect)
    .ok (left, right, reverseActions .right input.rightSelect)
  | _ => .ok (left, right, [])

/-- How the tables are joined. -/
def JoinKeyStrategy.type : JoinKeyStrategy → JoinType
  | .inner | .left | .right => .coalescing
  | .full | .outer => .full
  | .semi | .anti => .filtering

/-- Join two tables under prepared settings. The suffix is empty. -/
def joinSources (manager : JoinInput) (self other : Table String Source) :
    Except JoinError (Table String Source) := do
  let left ← onFrame (selectTable self (getSelectCols manager.leftSelect))
  let left ← onFrame (renameTable left (getRenameTable manager.leftSelect))
  let right ← onFrame (selectTable other (getSelectCols manager.rightSelect))
  let right ← onFrame (renameTable right (getRenameTable manager.rightSelect))
  let (left, right, reverse) ← onFrame (manager.copyKeySources left right)
  let left ← onFrame (renameTable left (getJoinKeyRenames .left false manager.leftSelect))
  let right ← onFrame (renameTable right (getJoinKeyRenames .right false manager.rightSelect))
  let rightKeys ← requireKeys (manager.getUsedJoinMapping.map Prod.snd)
  let leftKeys ← requireKeys (manager.getUsedJoinMapping.map Prod.fst)
  let joined ← onFrame (if manager.how = .right
    then joinTable .coalescing id right left rightKeys leftKeys
    else joinTable manager.how.type id left right leftKeys rightKeys)
  let joined ← onFrame (renameTable joined reverse)
  let joined ← onFrame (dropTable joined (keysToDelete .left manager.leftSelect ++
    if manager.how.dropsRightKeys then keysToDelete .right manager.rightSelect else []))
  onFrame (renameTable joined manager.getUndoRenameMapping)

def executeJoin (input : JoinInput) (autoGenerateSelection : Bool) (self other : TableSchema) :
    Except JoinError (Table String Source) :=
  if input.verifyMapIntegrity self other then
    joinSources (input.settled self other autoGenerateSelection) (sourceTable .left self.names)
      (sourceTable .right other.names)
  else .error .invalidFields

@[simp] theorem names_sourceTable (side : Side) (columns : List String) :
    names (sourceTable side columns) = columns := by
  rw [sourceTable, names_ofEntries, map_id]

/-- Without a suffix the tables are simply put beside each other. -/
theorem beside_id (first second : Table String Source) :
    beside id first second = first ++ second := by
  have same : (second.map fun column =>
      (if column.1 ∈ names first then id column.1 else column.1, column.2)) = second := by
    conv_rhs => rw [← map_id second]
    apply map_congr_left
    intro column _
    simp
  rw [beside, same]

theorem joinTable_coalescing {left right joined : Table String Source}
    {leftOn rightOn : List String}
    (ran : joinTable .coalescing id left right leftOn rightOn = .ok joined) :
    joinColumns .coalescing (names left) (names right) leftOn rightOn = .ok (names joined) ∧
      joined = left ++ right.filter fun column => column.1 ∉ rightOn := by
  obtain ⟨leftKeys, rightKeys, distinct, rfl⟩ := joinTable_ok.mp ran
  rw [JoinType.table, beside_id] at distinct ⊢
  have columns : names (left ++ right.filter fun column => column.1 ∉ rightOn) =
      JoinKind.coalescing.columns (names left) (names right) rightOn := by
    rw [JoinKind.columns, names_append, names_filter fun name => name ∉ rightOn]
  rw [columns] at distinct ⊢
  exact ⟨joinColumns_ok.mpr ⟨leftKeys, rightKeys, distinct, rfl⟩, rfl⟩

theorem joinTable_type {how : JoinKeyStrategy} {left right joined : Table String Source}
    {leftOn rightOn : List String}
    (ran : joinTable how.type id left right leftOn rightOn = .ok joined) :
    joinColumns how.kind (names left) (names right) leftOn rightOn = .ok (names joined) := by
  have full : joinTable .full id left right leftOn rightOn = .ok joined →
      joinColumns .full (names left) (names right) leftOn rightOn = .ok (names joined) := by
    intro ran
    obtain ⟨leftKeys, rightKeys, distinct, rfl⟩ := joinTable_ok.mp ran
    rw [JoinType.table, beside_id, names_append] at distinct ⊢
    exact joinColumns_ok.mpr ⟨leftKeys, rightKeys, distinct, rfl⟩
  have filtering : joinTable .filtering id left right leftOn rightOn = .ok joined →
      joinColumns .filtering (names left) (names right) leftOn rightOn = .ok (names joined) := by
    intro ran
    obtain ⟨leftKeys, rightKeys, distinct, rfl⟩ := joinTable_ok.mp ran
    exact joinColumns_ok.mpr ⟨leftKeys, rightKeys, distinct, rfl⟩
  cases how with
  | inner | left | right => exact (joinTable_coalescing ran).1
  | full | outer => exact full ran
  | semi | anti => exact filtering ran

variable {reverse : List (String × String)}

theorem copyKeySources_names {input : JoinInput} {left right leftCopied rightCopied :
      Table String Source}
    (copying : input.copyKeySources left right = .ok (leftCopied, rightCopied, reverse)) :
    input.handleDuplicationJoinKeys (names left) (names right) =
      .ok (names leftCopied, names rightCopied, reverse) := by
  rw [JoinInput.copyKeySources] at copying
  rw [JoinInput.handleDuplicationJoinKeys]
  cases how : input.how with
  | inner | left | right =>
    rw [how] at copying
    obtain ⟨copied, ran, same⟩ := bind_ok.mp copying
    cases same
    exact bind_ok.mpr ⟨_, (copyTable_ok.mp ran).1, rfl⟩
  | full | outer | semi | anti =>
    rw [how] at copying
    cases copying
    rfl

/-- The execution on names takes the same steps. -/
theorem joinSources_names {manager : JoinInput} {self other result : Table String Source}
    (ran : joinSources manager self other = .ok result) :
    joinTables manager (names self) (names other) = .ok (names result) := by
  simp only [joinSources, bind_ok, onFrame_ok] at ran
  obtain ⟨leftSelected, leftSelecting, leftFrame, leftRenaming, rightSelected, rightSelecting,
    rightFrame, rightRenaming, ⟨leftCopied, rightCopied, reverse⟩, copying, leftKeyed,
    leftKeying, rightKeyed, rightKeying, rightKeys, rightRequired, leftKeys, leftRequired,
    joined, joining, reversed, reversing, dropped, dropping, undoing⟩ := ran
  have combined : (if manager.how = .right
      then joinColumns .coalescing (names rightKeyed) (names leftKeyed) rightKeys leftKeys
      else joinColumns manager.how.kind (names leftKeyed) (names rightKeyed) leftKeys rightKeys) =
        .ok (names joined) := by
    by_cases right : manager.how = .right
    · rw [if_pos right] at joining ⊢
      exact (joinTable_coalescing joining).1
    · rw [if_neg right] at joining ⊢
      exact joinTable_type joining
  simp only [joinTables, bind_ok, onFrame_ok]
  exact ⟨_, (selectTable_ok.mp leftSelecting).1, _, (renameTable_ok.mp leftRenaming).1,
    _, (selectTable_ok.mp rightSelecting).1, _, (renameTable_ok.mp rightRenaming).1,
    _, copyKeySources_names copying, _, (renameTable_ok.mp leftKeying).1,
    _, (renameTable_ok.mp rightKeying).1, _, rightRequired, _, leftRequired, _, combined,
    _, (renameTable_ok.mp reversing).1, _, (dropTable_ok.mp dropping).1,
    (renameTable_ok.mp undoing).1⟩

variable {slots : List Slot} {keyed copied table : Table String Source}

section

variable {input : JoinInput} {side : Side}

theorem own_sources {columns : List String} {selected frame : Table String Source}
    (available : ∀ select ∈ input.selects side,
      select.isAvailable = decide (select.oldName ∈ columns))
    (selecting : selectTable (sourceTable side columns) (getSelectCols (input.selects side)) =
      .ok selected)
    (ran : renameTable selected (getRenameTable (input.selects side)) = .ok frame) :
    frame = ofEntries startName source (input.own side) := by
  obtain ⟨namesSelected, rfl⟩ := selectTable_ok.mp selecting
  obtain ⟨namesRenamed, rfl⟩ := renameTable_ok.mp ran
  obtain ⟨named, -⟩ := own_columns available (by simpa using namesSelected) namesRenamed
  obtain ⟨present, -⟩ := selectColumns_ok.mp namesSelected
  have fromOwn : (getSelectCols (input.selects side)).filterMap (fun name =>
      (dictGet (sourceTable side columns) name).map fun origin => (name, origin)) =
        ofEntries (fun slot => slot.select.oldName) source (input.own side) := by
    have each : ∀ name ∈ getSelectCols (input.selects side),
        ((dictGet (sourceTable side columns) name).map fun origin => (name, origin)) =
          some (name, (side, name)) := by
      intro name wanted
      obtain ⟨origin, found⟩ := dictGet_names (present name wanted)
      obtain ⟨column, _, same⟩ := mem_map.mp (mem_of_dictGet found)
      cases same
      rw [found]
      rfl
    rw [filterMap_congr each, filterMap_eq_map', getSelectCols, JoinInput.own, ofEntries,
      map_map, map_map]
    rfl
  rw [fromOwn] at named namesRenamed ⊢
  apply rename_ofEntries
  obtain ⟨_, _, same⟩ := renameColumns_ok.mp namesRenamed
  have titled := same.symm.trans named
  rwa [names_ofEntries] at titled

theorem keyed_sources
    (fromSide : ∀ slot ∈ slots, slot.side = side ∧ slot.select ∈ input.selects side)
    (ownListed : ∀ slot ∈ input.own side, slot ∈ slots)
    (distinct : (slots.map startName).Nodup)
    (ran : renameTable (ofEntries startName source slots)
      (getJoinKeyRenames side false (input.selects side)) = .ok keyed) :
    keyed = ofEntries joinName source slots ∧ (slots.map joinName).Nodup := by
  obtain ⟨retitling, rfl⟩ := renameTable_ok.mp ran
  rw [names_ofEntries] at retitling
  obtain ⟨named, keyedDistinct⟩ := keyed_columns fromSide ownListed rfl distinct retitling
  obtain ⟨_, _, same⟩ := renameColumns_ok.mp retitling
  rw [named] at keyedDistinct
  refine ⟨?_, keyedDistinct⟩
  apply rename_ofEntries
  rw [← same, named]

theorem copied_sources
    (distinct : ((input.own side).map startName).Nodup)
    (copying : copyTable (ofEntries startName source (input.own side))
      (keyCopies (input.selects side)) = .ok copied)
    (fresh : ¬ Overwrites (input.selects side)) :
    copied = ofEntries startName source (input.own side ++ input.copies side) := by
  obtain ⟨_, rfl⟩ := copyTable_ok.mp copying
  have chosen : keyCopies (input.selects side) = ((getJoinKeySelects (input.selects side)).map
        fun select => (⟨side, select, false⟩ : Slot)).map
          fun slot => (slot.startName, constructTempName slot.select.newName) := by
    rw [keyCopies, map_map]
    rfl
  have among : ∀ slot ∈ (getJoinKeySelects (input.selects side)).map
      (fun select => (⟨side, select, false⟩ : Slot)), slot ∈ input.own side := by
    intro slot mem
    obtain ⟨select, isKey, rfl⟩ := mem_map.mp mem
    obtain ⟨listed, key⟩ := mem_filter.mp isKey
    exact key_own listed key
  have free : ∀ slot ∈ (getJoinKeySelects (input.selects side)).map
      (fun select => (⟨side, select, false⟩ : Slot)),
        constructTempName slot.select.newName ∉ (input.own side).map startName := by
    intro slot mem taken
    obtain ⟨select, isKey, rfl⟩ := mem_map.mp mem
    obtain ⟨listed, key⟩ := mem_filter.mp isKey
    obtain ⟨other, isOwn, same⟩ := mem_map.mp taken
    obtain ⟨_, notCopied, otherListed, selected⟩ := mem_own.mp isOwn
    exact fresh ⟨select, listed, key, other.select, otherListed, selected,
      by simpa [startName, notCopied] using same⟩
  have all := @copies_ofEntries _ _ _ _ startName source _ _
    (fun slot => constructTempName slot.select.newName) distinct among free
  rw [chosen]
  refine all.trans ?_
  rw [ofEntries_append, JoinInput.copies, ofEntries, ofEntries, ofEntries, map_map, map_map]
  rfl

theorem copied_keyed_sources
    (distinct : ((input.own side).map startName).Nodup)
    (copying : copyTable (ofEntries startName source (input.own side))
      (keyCopies (input.selects side)) = .ok copied)
    (keying : renameTable copied (getJoinKeyRenames side false (input.selects side)) = .ok keyed)
    (fresh : ¬ Overwrites (input.selects side)) :
    keyed = ofEntries joinName source (input.own side ++ input.copies side) ∧
      ((input.own side ++ input.copies side).map joinName).Nodup := by
  obtain ⟨copyingNames, _⟩ := copyTable_ok.mp copying
  rw [names_ofEntries] at copyingNames
  obtain ⟨copiedNames, copiedDistinct⟩ := copied_columns rfl distinct copyingNames fresh
  rw [copiedNames] at copiedDistinct
  rw [copied_sources distinct copying fresh] at keying
  apply keyed_sources _ _ copiedDistinct keying
  · intro slot mem
    rcases mem_append.mp mem with isOwn | isCopy
    · exact ⟨(mem_own.mp isOwn).1, (mem_own.mp isOwn).2.2.1⟩
    · exact ⟨(mem_copies.mp isCopy).1, (mem_copies.mp isCopy).2.2.1⟩
  · exact fun _ mem => mem_append_left _ mem

theorem finished_sources {gone : List String} {joined reversed dropped : Table String Source}
    (start : joined = ofEntries joinName source slots)
    (reversing : renameTable joined reverse = .ok reversed)
    (dropping : dropTable reversed gone = .ok dropped)
    (undoing : renameTable dropped input.getUndoRenameMapping = .ok table)
    (finished : Finished input.how slots gone (names reversed) (names dropped) (names table)) :
    table = ofEntries Slot.finalName source
      (slots.filter fun slot => !slot.gone input.how) := by
  obtain ⟨reversingNames, sameReversed⟩ := renameTable_ok.mp reversing
  obtain ⟨_, sameDropped⟩ := dropTable_ok.mp dropping
  obtain ⟨undoingNames, sameTable⟩ := renameTable_ok.mp undoing
  have keyed : reversed = ofEntries keyName source slots := by
    rw [sameReversed, start]
    apply rename_ofEntries
    obtain ⟨_, _, same⟩ := renameColumns_ok.mp reversingNames
    rw [start, names_ofEntries] at same
    rw [← same, finished.reversedNames]
  have remaining : dropped = ofEntries keyName source
      (slots.filter fun slot => !slot.gone input.how) := by
    rw [sameDropped, keyed, filter_ofEntries, finished.remaining]
  rw [sameTable, remaining]
  apply rename_ofEntries
  obtain ⟨_, _, same⟩ := renameColumns_ok.mp undoingNames
  rw [remaining, names_ofEntries] at same
  rw [← same, finished.finalNames]

theorem coalesced_sources {first second : Side} {firstFrame secondFrame joined :
      Table String Source} {firstKeys keys : List String}
    (firstColumns : firstFrame = ofEntries joinName source (input.own first))
    (secondColumns : secondFrame = ofEntries joinName source
      (input.own second ++ input.copies second))
    (distinct : ((input.own second ++ input.copies second).map joinName).Nodup)
    (keyNames : ∀ name, name ∈ keys ↔ ∃ select ∈ input.selects second,
      select.joinKey = true ∧ name = constructJoinKeyName second select.newName)
    (joining : joinTable .coalescing id firstFrame secondFrame firstKeys keys = .ok joined) :
    joined = ofEntries joinName source
      (input.own first ++ (input.keyless second ++ input.copies second)) := by
  obtain ⟨_, rfl⟩ := joinTable_coalescing joining
  rw [firstColumns, secondColumns, filter_ofEntries, besides_keys distinct keyNames,
    ofEntries_append, ofEntries_append, ofEntries_append]

theorem joinSources_columns {self other : List String}
    (prepared : Prepared input fun side => match side with | .left => self | .right => other)
    (ran : joinSources input (sourceTable .left self) (sourceTable .right other) = .ok table)
    (fresh : ∀ side, input.how.copiedSide = some side → ¬ Overwrites (input.selects side)) :
    table = ofEntries Slot.finalName source
      (input.slots.filter fun slot => !slot.gone input.how) := by
  have named := joinSources_names ran
  simp only [names_sourceTable] at named
  have sound := joinTables_sound prepared named
  simp only [joinSources, bind_ok, onFrame_ok] at ran
  obtain ⟨leftSelected, leftSelecting, leftFrame, leftRenaming, rightSelected, rightSelecting,
    rightFrame, rightRenaming, ⟨leftCopied, rightCopied, reverse⟩, copying, leftKeyed,
    leftKeying, rightKeyed, rightKeying, rightKeys, rightRequired, leftKeys, leftRequired,
    joined, joining, reversed, reversing, dropped, dropping, undoing⟩ := ran
  have leftStart := own_sources (prepared.available .left) leftSelecting leftRenaming
  have rightStart := own_sources (prepared.available .right) rightSelecting rightRenaming
  subst leftStart rightStart
  have ownDistinct : ∀ side, ((input.own side).map startName).Nodup := by
    intro side
    rw [JoinInput.own, map_map]
    exact (sound side).newDistinct
  have leftNames := fun name => @mem_leftKeys input leftKeys name (sound .left)
    (prepared.marked .left) leftRequired
  have rightNames := fun name => @mem_rightKeys input rightKeys name (sound .right)
    (prepared.marked .right) rightRequired
  have closing : Closing input reverse (names joined) (names reversed) (names dropped)
      (names table) :=
    ⟨(renameTable_ok.mp reversing).1, (dropTable_ok.mp dropping).1, (renameTable_ok.mp undoing).1⟩
  cases how : input.how with
  | inner | left =>
    rw [JoinInput.copyKeySources, how] at copying
    simp only [bind_ok, Except.ok.injEq, Prod.mk.injEq] at copying
    obtain ⟨_, copyingRight, rfl, rfl, rfl⟩ := copying
    obtain ⟨leftColumns, _⟩ := keyed_sources own_side (fun _ mem => mem)
      (ownDistinct .left) leftKeying
    obtain ⟨rightColumns, rightDistinct⟩ := copied_keyed_sources (ownDistinct .right) copyingRight
      rightKeying (fresh .right (by rw [how]; rfl))
    rw [how] at joining
    have start := coalesced_sources leftColumns rightColumns rightDistinct rightNames joining
    have distinct := (joinColumns_ok.mp (joinTable_coalescing joining).1).2.2.1
    rw [← (joinColumns_ok.mp (joinTable_coalescing joining).1).2.2.2] at distinct
    have finished := coalesced_finished (fun side => by cases side <;> simp) (sound .left)
      (sound .right) (by rw [start, names_ofEntries]) distinct closing
    have slots :
        input.slots = input.own .left ++ (input.keyless .right ++ input.copies .right) := by
      rw [JoinInput.slots, how]
    rw [slots, ← how]
    exact finished_sources start reversing dropping undoing finished
  | right =>
    rw [JoinInput.copyKeySources, how] at copying
    simp only [bind_ok, Except.ok.injEq, Prod.mk.injEq] at copying
    obtain ⟨_, copyingLeft, rfl, rfl, rfl⟩ := copying
    obtain ⟨rightColumns, _⟩ := keyed_sources own_side (fun _ mem => mem)
      (ownDistinct .right) rightKeying
    obtain ⟨leftColumns, leftDistinct⟩ := copied_keyed_sources (ownDistinct .left) copyingLeft
      leftKeying (fresh .left (by rw [how]; rfl))
    rw [how] at joining
    have start := coalesced_sources rightColumns leftColumns leftDistinct leftNames joining
    have distinct := (joinColumns_ok.mp (joinTable_coalescing joining).1).2.2.1
    rw [← (joinColumns_ok.mp (joinTable_coalescing joining).1).2.2.2] at distinct
    have finished := coalesced_finished (fun side => by cases side <;> simp) (sound .right)
      (sound .left) (by rw [start, names_ofEntries]) distinct closing
    have slots : input.slots = input.own .right ++ (input.keyless .left ++ input.copies .left) := by
      rw [JoinInput.slots, how]
    rw [slots, ← how]
    exact finished_sources start reversing dropping undoing finished
  | full | outer =>
    rw [JoinInput.copyKeySources, how] at copying
    simp only [Except.ok.injEq, Prod.mk.injEq] at copying
    obtain ⟨rfl, rfl, rfl⟩ := copying
    obtain ⟨leftColumns, _⟩ := keyed_sources own_side (fun _ mem => mem)
      (ownDistinct .left) leftKeying
    obtain ⟨rightColumns, _⟩ := keyed_sources own_side (fun _ mem => mem)
      (ownDistinct .right) rightKeying
    rw [how] at joining
    obtain ⟨_, _, distinct, same⟩ := joinTable_ok.mp joining
    rw [← same] at distinct
    have start : joined = ofEntries joinName source
        (input.own .left ++ input.own .right) := by
      rw [same, ofEntries_append, ← leftColumns, ← rightColumns]
      exact beside_id _ _
    have finished := both_finished sound (by rw [start, names_ofEntries]) distinct
      closing
    have slots : input.slots = input.own .left ++ input.own .right := by
      rw [JoinInput.slots, how]
    rw [slots, ← how]
    exact finished_sources start reversing dropping undoing finished
  | semi | anti =>
    rw [JoinInput.copyKeySources, how] at copying
    simp only [Except.ok.injEq, Prod.mk.injEq] at copying
    obtain ⟨rfl, rfl, rfl⟩ := copying
    obtain ⟨leftColumns, _⟩ := keyed_sources own_side (fun _ mem => mem)
      (ownDistinct .left) leftKeying
    rw [how] at joining
    obtain ⟨_, _, distinct, same⟩ := joinTable_ok.mp joining
    rw [← same] at distinct
    have start : joined = ofEntries joinName source (input.own .left) :=
      same.trans leftColumns
    have finished := left_finished sound (by rw [how]; rfl)
      (prepared.unselected (by simp [how])) (by rw [start, names_ofEntries]) distinct
      closing
    have slots : input.slots = input.own .left := by
      rw [JoinInput.slots, how]
    rw [slots, ← how]
    exact finished_sources start reversing dropping undoing finished

end

end Flowfile.Join

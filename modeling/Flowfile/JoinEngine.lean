import Flowfile.JoinSettings
import Mathlib.Data.List.Infix

/-!
# Executing a join

The execution selects and renames the columns of both sides and joins them under key names
that cannot collide. Inner, left and right joins drop the keys of the second table, so these
are copied under temporary names before. After the join the copies take the place of the
keys, keys that are not kept are dropped and the others get their names back.

A right join is carried out as a left join with the sides exchanged. A full join keeps the
keys of both sides, and drops only left ones.

Columns are followed by slots: one for each selected column of a side and one for each copy of a
key. Naming the slots is what changes from stage to stage.
-/

namespace Flowfile.Join

open Library.ColumnFrames List
open SelectInput (oldName ofColumn newName retitle)

/-- Why a join raised. -/
inductive JoinError where
  | frame (error : FrameError String)
  | invalidFields
  | keyNotFound
deriving DecidableEq

/-- Sides of a join. -/
inductive Side where
  | left
  | right
deriving DecidableEq

def constructJoinKeyName (side : Side) (columnName : String) : String :=
  match side with
  | .left => "_FLOWFILE_JOIN_KEY_LEFT_" ++ columnName
  | .right => "_FLOWFILE_JOIN_KEY_RIGHT_" ++ columnName

def constructTempName (columnName : String) : String :=
  "__FL_TEMP__" ++ columnName

def JoinInput.appendKeys (input : JoinInput) : JoinInput :=
  let appendKey (selects : List SelectInput) (name : String) : List SelectInput :=
    if name ∈ selects.map oldName then selects
    else selects ++ [{ ofColumn name with keep := false }]
  { input with
    leftSelect := (input.joinMapping.map JoinMap.leftCol).foldl appendKey input.leftSelect
    rightSelect := (input.joinMapping.map JoinMap.rightCol).foldl appendKey input.rightSelect }

def markAvailable (columns : List String) (selects : List SelectInput) : List SelectInput :=
  selects.map fun select => { select with isAvailable := decide (select.oldName ∈ columns) }

def JoinInput.verifySelectIntegrity (leftCols rightCols : List String)
    (input : JoinInput) : JoinInput :=
  { input with
    leftSelect := markAvailable leftCols input.leftSelect
    rightSelect := markAvailable rightCols input.rightSelect }

/-- Whether all key columns exist and those of a pair are of one group of types. -/
def JoinInput.verifyMapIntegrity (input : JoinInput) (left right : TableSchema) : Bool :=
  input.joinMapping.all fun pair =>
    match left.find pair.leftCol, right.find pair.rightCol with
    | some leftColumn, some rightColumn =>
      leftColumn.genericDatatype = rightColumn.genericDatatype
    | _, _ => false

/-- The settings under which a join is executed. -/
def JoinInput.settled (input : JoinInput) (left right : TableSchema)
    (autoGenerateSelection : Bool) : JoinInput :=
  let manager := (input.complete left.names right.names).appendKeys
  let manager := manager.verifySelectIntegrity left.names right.names
  if autoGenerateSelection then manager.autoRename else manager

/-- Temporary names of the key columns of a side. -/
def getJoinKeyRenames (side : Side) (filterDrop : Bool) (selects : List SelectInput) :
    List (String × String) :=
  ((getJoinKeySelects selects).filter fun select => select.keep || !filterDrop).map fun select =>
    (select.newName, constructJoinKeyName side select.newName)

/-- The key columns to join on, under their temporary names. -/
def JoinInput.getUsedJoinMapping (input : JoinInput) : List (Option String × Option String) :=
  input.joinMapping.map fun pair =>
    let leftCol := (dictGet (getRenameTable input.leftSelect) pair.leftCol).getD pair.leftCol
    let rightCol := (dictGet (getRenameTable input.rightSelect) pair.rightCol).getD pair.leftCol
    (dictGet (getJoinKeyRenames .left false input.leftSelect) leftCol,
      dictGet (getJoinKeyRenames .right false input.rightSelect) rightCol)

/-- Key names, all of which must be known. -/
def requireKeys (keys : List (Option String)) : Except JoinError (List String) :=
  match keys.mapM id with
  | none => .error .keyNotFound
  | some keys => .ok keys

/-- A failed table operation fails the join. -/
def onFrame {α : Type} (result : Except (FrameError String) α) : Except JoinError α :=
  match result with
  | .error error => .error (.frame error)
  | .ok value => .ok value

/-- Copies of the key columns of a side under temporary names. -/
def keyCopies (selects : List SelectInput) : List (String × String) :=
  (getJoinKeySelects selects).map fun select =>
    (select.newName, constructTempName select.newName)

/-- The copies take the place of the key columns. -/
def reverseActions (side : Side) (selects : List SelectInput) : List (String × String) :=
  (getJoinKeySelects selects).map fun select =>
    (constructTempName select.newName, constructJoinKeyName side select.newName)

def JoinInput.handleDuplicationJoinKeys (input : JoinInput) (left right : List String) :
    Except (FrameError String) (List String × List String × List (String × String)) :=
  match input.how with
  | .right => do
    let left ← copyColumns left (keyCopies input.leftSelect)
    .ok (left, right, reverseActions .left input.leftSelect)
  | .left | .inner => do
    let right ← copyColumns right (keyCopies input.rightSelect)
    .ok (left, right, reverseActions .right input.rightSelect)
  | _ => .ok (left, right, [])

/-- How the tables are joined. -/
def JoinKeyStrategy.kind : JoinKeyStrategy → JoinKind
  | .inner | .left | .right => .coalescing
  | .full | .outer => .full
  | .semi | .anti => .filtering

/-- Temporary names of the keys of a side that are not kept. -/
def keysToDelete (side : Side) (selects : List SelectInput) : List String :=
  (selects.filter fun select => !select.keep && select.isAvailable && select.joinKey).map
    fun select => constructJoinKeyName side select.newName

/-- Kept keys get their names back. -/
def JoinInput.getUndoRenameMapping (input : JoinInput) : List (String × String) :=
  (getJoinKeyRenames .right true input.rightSelect ++
    getJoinKeyRenames .left true input.leftSelect).map Prod.swap

def JoinKeyStrategy.dropsRightKeys (how : JoinKeyStrategy) : Bool :=
  how = .left ∨ how = .right ∨ how = .inner ∨ how = .outer

/-- Join two tables under prepared settings: the names of the resulting columns. -/
def joinTables (manager : JoinInput) (self other : List String) :
    Except JoinError (List String) := do
  let left ← onFrame (selectColumns self (getSelectCols manager.leftSelect))
  let left ← onFrame (renameColumns left (getRenameTable manager.leftSelect))
  let right ← onFrame (selectColumns other (getSelectCols manager.rightSelect))
  let right ← onFrame (renameColumns right (getRenameTable manager.rightSelect))
  let (left, right, reverse) ← onFrame (manager.handleDuplicationJoinKeys left right)
  let left ← onFrame (renameColumns left (getJoinKeyRenames .left false manager.leftSelect))
  let right ← onFrame (renameColumns right (getJoinKeyRenames .right false manager.rightSelect))
  let rightKeys ← requireKeys (manager.getUsedJoinMapping.map Prod.snd)
  let leftKeys ← requireKeys (manager.getUsedJoinMapping.map Prod.fst)
  let joined ← onFrame (if manager.how = .right
    then joinColumns .coalescing right left rightKeys leftKeys
    else joinColumns manager.how.kind left right leftKeys rightKeys)
  let joined ← onFrame (renameColumns joined reverse)
  let joined ← onFrame (dropColumns joined (keysToDelete .left manager.leftSelect ++
    if manager.how.dropsRightKeys then keysToDelete .right manager.rightSelect else []))
  onFrame (renameColumns joined manager.getUndoRenameMapping)

/-- Execute a join: the names of the resulting columns. -/
def join (input : JoinInput) (autoGenerateSelection : Bool) (self other : TableSchema) :
    Except JoinError (List String) :=
  if input.verifyMapIntegrity self other then
    joinTables (input.settled self other autoGenerateSelection) self.names other.names
  else .error .invalidFields

def JoinInput.selects (input : JoinInput) : Side → List SelectInput
  | .left => input.leftSelect
  | .right => input.rightSelect

def JoinInput.keyColumns (input : JoinInput) : Side → List String
  | .left => input.joinMapping.map JoinMap.leftCol
  | .right => input.joinMapping.map JoinMap.rightCol

def JoinKeyStrategy.copiedSide : JoinKeyStrategy → Option Side
  | .inner | .left => some .right
  | .right => some .left
  | .full | .outer | .semi | .anti => none

/-- A column of the table under way: a selected column of a side, or a copy of a key. -/
structure Slot where
  side : Side
  select : SelectInput
  copied : Bool

namespace Slot

/-- Name before the keys are renamed. -/
def startName (slot : Slot) : String :=
  if slot.copied then constructTempName slot.select.newName else slot.select.newName

def joinName (slot : Slot) : String :=
  if slot.copied then constructTempName slot.select.newName
  else if slot.select.joinKey then constructJoinKeyName slot.side slot.select.newName
  else slot.select.newName

/-- Name after the copies have taken the place of the keys. -/
def keyName (slot : Slot) : String :=
  if slot.select.joinKey then constructJoinKeyName slot.side slot.select.newName
  else slot.select.newName

def finalName (slot : Slot) : String :=
  if slot.select.joinKey && !slot.select.keep then
    constructJoinKeyName slot.side slot.select.newName
  else slot.select.newName

/-- Whether the column is dropped after the join. -/
def gone (how : JoinKeyStrategy) (slot : Slot) : Bool :=
  slot.select.joinKey && !slot.select.keep && (slot.side = .left || how.dropsRightKeys)

end Slot

def JoinInput.own (input : JoinInput) (side : Side) : List Slot :=
  ((input.selects side).filter SelectInput.selected).map fun select => ⟨side, select, false⟩

def JoinInput.keyless (input : JoinInput) (side : Side) : List Slot :=
  (input.own side).filter fun slot => !slot.select.joinKey

def JoinInput.copies (input : JoinInput) (side : Side) : List Slot :=
  (getJoinKeySelects (input.selects side)).map fun select => ⟨side, select, true⟩

def JoinInput.slots (input : JoinInput) : List Slot :=
  match input.how with
  | .inner | .left => input.own .left ++ (input.keyless .right ++ input.copies .right)
  | .right => input.own .right ++ (input.keyless .left ++ input.copies .left)
  | .full | .outer => input.own .left ++ input.own .right
  | .semi | .anti => input.own .left

def Overwrites (selects : List SelectInput) : Prop :=
  ∃ key ∈ selects, key.joinKey = true ∧
    ∃ select ∈ selects, select.selected = true ∧ select.newName = constructTempName key.newName

instance (selects : List SelectInput) : Decidable (Overwrites selects) :=
  inferInstanceAs (Decidable (∃ key ∈ selects, key.joinKey = true ∧
    ∃ select ∈ selects, select.selected = true ∧ select.newName = constructTempName key.newName))

/-- A table operation that did not fail. -/
theorem onFrame_ok {α : Type} {result : Except (FrameError String) α} {value : α} :
    onFrame result = .ok value ↔ result = .ok value := by
  cases result <;> simp [onFrame]

theorem requireKeys_ok {keys : List (Option String)} {names : List String} :
    requireKeys keys = .ok names ↔ keys = names.map some := by
  have known : keys.mapM id = some names ↔ keys = names.map some := by
    induction keys generalizing names with
    | nil => cases names <;> simp
    | cons key rest ih =>
      cases key with
      | none => cases names <;> simp
      | some key =>
      cases names with
      | nil => simp [Option.bind_eq_some_iff]
      | cons name names =>
      simp only [mapM_cons, id_eq, Option.bind_eq_bind, Option.bind_some,
        Option.bind_eq_some_iff, Option.pure_def, Option.some.injEq, List.cons.injEq,
        map_cons]
      constructor
      · rintro ⟨others, found, rfl, rfl⟩
        exact ⟨rfl, ih.mp found⟩
      · rintro ⟨rfl, found⟩
        exact ⟨names, ih.mpr found, rfl, rfl⟩
  rw [requireKeys]
  split
  case h_1 unknown => simp [← known, unknown]
  case h_2 found => simp [← known, found]

variable {slot : Slot} {keys : List String} {second first : Side} {reverse : List (String × String)}
  {select : SelectInput} {slots : List Slot} {selects : List SelectInput}

section

variable {input : JoinInput} {side : Side}

theorem mem_own : slot ∈ input.own side ↔ slot.side = side ∧ slot.copied = false ∧
      slot.select ∈ input.selects side ∧ slot.select.selected = true := by
  obtain ⟨owner, select, copied⟩ := slot
  simp only [JoinInput.own, mem_map, mem_filter, Slot.mk.injEq]
  constructor
  · rintro ⟨other, ⟨mem, selected⟩, rfl, rfl, rfl⟩
    exact ⟨rfl, rfl, mem, selected⟩
  · rintro ⟨rfl, rfl, mem, selected⟩
    exact ⟨select, ⟨mem, selected⟩, rfl, rfl, rfl⟩

theorem own_side (slot : Slot) (own : slot ∈ input.own side) :
    slot.side = side ∧ slot.select ∈ input.selects side :=
  ⟨(mem_own.mp own).1, (mem_own.mp own).2.2.1⟩

theorem mem_copies : slot ∈ input.copies side ↔ slot.side = side ∧ slot.copied = true ∧
      slot.select ∈ input.selects side ∧ slot.select.joinKey = true := by
  obtain ⟨owner, select, copied⟩ := slot
  simp only [JoinInput.copies, getJoinKeySelects, mem_map, mem_filter, Slot.mk.injEq]
  constructor
  · rintro ⟨other, ⟨mem, key⟩, rfl, rfl, rfl⟩
    exact ⟨rfl, rfl, mem, key⟩
  · rintro ⟨rfl, rfl, mem, key⟩
    exact ⟨select, ⟨mem, key⟩, rfl, rfl, rfl⟩

theorem own_columns {columns selected frame : List String}
    (available : ∀ select ∈ input.selects side,
      select.isAvailable = decide (select.oldName ∈ columns))
    (selecting : selectColumns columns (getSelectCols (input.selects side)) = .ok selected)
    (ran : renameColumns selected (getRenameTable (input.selects side)) = .ok frame) :
    frame = (input.own side).map Slot.startName ∧ frame.Nodup ∧
      (getSelectCols (input.selects side)).Nodup ∧
      ∀ select ∈ input.selects side, select.selected = true → select.isAvailable = true := by
  obtain ⟨exist, distinct, rfl⟩ := selectColumns_ok.mp selecting
  obtain ⟨_, renamedDistinct, rfl⟩ := renameColumns_ok.mp ran
  have present : ∀ select ∈ input.selects side, select.selected = true →
      select.isAvailable = true := by
    intro select mem takesPart
    rw [available select mem]
    simpa using exist select.oldName
      (mem_map_of_mem (mem_filter.mpr ⟨mem, takesPart⟩))
  have same : (getSelectCols (input.selects side)).map
      (renamed (getRenameTable (input.selects side))) =
        ((input.selects side).filter SelectInput.selected).map newName := by
    apply map_renamed distinct newName fun _ => True
    · intro pair inTable
      obtain ⟨select, listed, rfl⟩ := mem_map.mp inTable
      obtain ⟨mem, both⟩ := mem_filter.mp listed
      obtain ⟨_, takesPart⟩ := Bool.and_eq_true_iff.mp both
      exact ⟨select, mem_filter.mpr ⟨mem, takesPart⟩, trivial, rfl⟩
    · intro select listed _
      obtain ⟨mem, takesPart⟩ := mem_filter.mp listed
      apply mem_map.mpr
      refine ⟨select, mem_filter.mpr ⟨mem, ?_⟩, rfl⟩
      simp [present select mem takesPart, takesPart]
    · intro select _ untouched
      exact absurd trivial untouched
  refine ⟨?_, renamedDistinct, distinct, present⟩
  rw [same, JoinInput.own, map_map]
  rfl

theorem keyed_columns {frame keyed : List String}
    (fromSide : ∀ slot ∈ slots, slot.side = side ∧ slot.select ∈ input.selects side)
    (ownListed : ∀ slot ∈ input.own side, slot ∈ slots)
    (start : frame = slots.map Slot.startName) (distinct : frame.Nodup)
    (ran : renameColumns frame (getJoinKeyRenames side false (input.selects side)) = .ok keyed) :
    keyed = slots.map Slot.joinName ∧ keyed.Nodup := by
  subst start
  obtain ⟨_, keyedDistinct, rfl⟩ := renameColumns_ok.mp ran
  refine ⟨?_, keyedDistinct⟩
  apply map_renamed distinct Slot.joinName
    fun slot => slot.copied = false ∧ slot.select.joinKey = true
  · intro pair inTable
    obtain ⟨select, listed, rfl⟩ := mem_map.mp inTable
    obtain ⟨keys, _⟩ := mem_filter.mp listed
    obtain ⟨mem, key⟩ := mem_filter.mp keys
    refine ⟨⟨side, select, false⟩, ownListed _ (mem_own.mpr ⟨rfl, rfl, mem, ?_⟩), ⟨rfl, key⟩, ?_⟩
    · simp [SelectInput.selected, key]
    · simp [Slot.startName, Slot.joinName, key]
  · rintro slot mem ⟨own, key⟩
    obtain ⟨rfl, listed⟩ := fromSide slot mem
    apply mem_map.mpr
    refine ⟨slot.select, mem_filter.mpr ⟨mem_filter.mpr ⟨listed, key⟩, by simp⟩, ?_⟩
    simp [Slot.startName, Slot.joinName, own, key]
  · intro slot _ untouched
    cases copied : slot.copied with
    | true => simp [Slot.startName, Slot.joinName, copied]
    | false =>
      have keyless : slot.select.joinKey = false := by
        simpa [copied] using untouched
      simp [Slot.startName, Slot.joinName, copied, keyless]

theorem mem_keys {mapping : List JoinMap} {column fallback : JoinMap → String}
    (oldDistinct : (getSelectCols selects).Nodup)
    (present : ∀ select ∈ selects, select.selected = true → select.isAvailable = true)
    (marked : ∀ select ∈ selects, select.joinKey = decide (select.oldName ∈ mapping.map column))
    (required : requireKeys (mapping.map fun pair =>
      dictGet (getJoinKeyRenames side false selects)
        ((dictGet (getRenameTable selects) (column pair)).getD (fallback pair))) = .ok keys)
    {name : String} :
    name ∈ keys ↔ ∃ select ∈ selects, select.joinKey = true ∧
      name = constructJoinKeyName side select.newName := by
  have options := requireKeys_ok.mp required
  constructor
  · intro mem
    have listed : some name ∈ keys.map some := mem_map_of_mem mem
    rw [← options] at listed
    obtain ⟨pair, _, found⟩ := mem_map.mp listed
    obtain ⟨select, inKeys, same⟩ := mem_map.mp (mem_of_dictGet found)
    obtain ⟨keySelect, _⟩ := mem_filter.mp inKeys
    obtain ⟨inSelects, key⟩ := mem_filter.mp keySelect
    exact ⟨select, inSelects, key, (Prod.mk.inj same).2.symm⟩
  · rintro ⟨select, mem, key, rfl⟩
    have selected : select.selected = true := by simp [SelectInput.selected, key]
    have inSelection := mem_filter.mpr ⟨mem, selected⟩
    have mapped : select.oldName ∈ mapping.map column := by
      simpa [key] using marked select mem
    obtain ⟨pair, inMapping, same⟩ := mem_map.mp mapped
    have title : dictGet (getRenameTable selects) (column pair) = some select.newName := by
      apply dictGet_of_mem
      · intro other inTable
        obtain ⟨owner, listed, equal⟩ := mem_map.mp inTable
        obtain ⟨inSelects, both⟩ := mem_filter.mp listed
        obtain ⟨_, takesPart⟩ := Bool.and_eq_true_iff.mp both
        obtain ⟨sameOld, rfl⟩ := Prod.mk.inj equal
        rw [eq_of_name oldDistinct (mem_filter.mpr ⟨inSelects, takesPart⟩) inSelection
          (sameOld.trans same)]
      · apply mem_map.mpr
        refine ⟨select, mem_filter.mpr ⟨mem, ?_⟩, by rw [same]⟩
        simp [present select mem selected, selected]
    have temporary : dictGet (getJoinKeyRenames side false selects) select.newName =
        some (constructJoinKeyName side select.newName) := by
      apply dictGet_of_mem
      · intro other inTable
        obtain ⟨owner, _, equal⟩ := mem_map.mp inTable
        obtain ⟨sameName, rfl⟩ := Prod.mk.inj equal
        rw [sameName]
      · apply mem_map.mpr
        refine ⟨select, mem_filter.mpr ⟨mem_filter.mpr ⟨mem, key⟩, by simp⟩, rfl⟩
    have listed : some (constructJoinKeyName side select.newName) ∈ keys.map some := by
      rw [← options]
      refine mem_map.mpr ⟨pair, inMapping, ?_⟩
      simp only [title, Option.getD_some, temporary]
    simpa using listed

theorem copied_columns {frame copied : List String}
    (start : frame = (input.own side).map Slot.startName) (distinct : frame.Nodup)
    (copying : copyColumns frame (keyCopies (input.selects side)) = .ok copied)
    (fresh : ¬ Overwrites (input.selects side)) :
    copied = (input.own side ++ input.copies side).map Slot.startName ∧ copied.Nodup := by
  subst start
  obtain ⟨_, copiesDistinct, rfl⟩ := copyColumns_ok.mp copying
  have names : (keyCopies (input.selects side)).map Prod.snd =
      (input.copies side).map Slot.startName := by
    simp only [keyCopies, JoinInput.copies, map_map]
    rfl
  have new : ∀ name ∈ (input.copies side).map Slot.startName,
      name ∉ (input.own side).map Slot.startName := by
    intro name isCopy isOwn
    obtain ⟨copy, copyMember, rfl⟩ := mem_map.mp isCopy
    obtain ⟨own, ownMember, same⟩ := mem_map.mp isOwn
    obtain ⟨_, isCopied, key, isKey⟩ := mem_copies.mp copyMember
    obtain ⟨_, notCopied, listed, selected⟩ := mem_own.mp ownMember
    apply fresh
    refine ⟨copy.select, key, isKey, own.select, listed, selected, ?_⟩
    simpa [Slot.startName, isCopied, notCopied] using same
  have all : ((input.copies side).map Slot.startName).filter
      (fun name => name ∉ (input.own side).map Slot.startName) =
        (input.copies side).map Slot.startName := by
    rw [filter_eq_self]
    intro name mem
    simpa using new name mem
  rw [names, all, map_append]
  rw [names] at copiesDistinct
  refine ⟨rfl, distinct.append copiesDistinct ?_⟩
  intro name isOwn isCopy
  exact new name isCopy isOwn

theorem besides_keys
    (distinct : ((input.own second ++ input.copies second).map Slot.joinName).Nodup)
    (keyNames : ∀ name, name ∈ keys ↔ ∃ select ∈ input.selects second,
      select.joinKey = true ∧ name = constructJoinKeyName second select.newName) :
    ((input.own second ++ input.copies second).filter fun slot => slot.joinName ∉ keys) =
      input.keyless second ++ input.copies second := by
  have dropped := filter_entries distinct
    (fun slot => !slot.copied && slot.select.joinKey)
    (by
      intro name isKey
      obtain ⟨select, mem, key, rfl⟩ := (keyNames name).mp isKey
      refine ⟨⟨second, select, false⟩, ?_, ?_, ?_⟩
      · apply mem_append_left
        exact mem_own.mpr ⟨rfl, rfl, mem, by simp [SelectInput.selected, key]⟩
      · simp [key]
      · simp [Slot.joinName, key])
    (by
      intro slot mem isKey
      obtain ⟨notCopied, key⟩ := Bool.and_eq_true_iff.mp isKey
      have notCopied : slot.copied = false := by simpa using notCopied
      rw [keyNames]
      rcases mem_append.mp mem with isOwn | isCopy
      · obtain ⟨rfl, _, listed, _⟩ := mem_own.mp isOwn
        exact ⟨slot.select, listed, key, by simp [Slot.joinName, notCopied, key]⟩
      · obtain ⟨_, isCopied, _⟩ := mem_copies.mp isCopy
        rw [notCopied] at isCopied
        cases isCopied)
  rw [dropped, filter_append]
  congr 1
  · apply filter_congr
    intro slot mem
    obtain ⟨_, notCopied, _⟩ := mem_own.mp mem
    simp [notCopied]
  · rw [filter_eq_self]
    intro slot mem
    obtain ⟨_, isCopied, _⟩ := mem_copies.mp mem
    simp [isCopied]

theorem coalesced_columns {firstFrame secondFrame firstKeys joined : List String}
    (firstColumns : firstFrame = (input.own first).map Slot.joinName)
    (secondColumns : secondFrame = (input.own second ++ input.copies second).map Slot.joinName)
    (distinct : secondFrame.Nodup)
    (keyNames : ∀ name, name ∈ keys ↔ ∃ select ∈ input.selects second,
      select.joinKey = true ∧ name = constructJoinKeyName second select.newName)
    (joining : joinColumns .coalescing firstFrame secondFrame firstKeys keys = .ok joined) :
    joined = (input.own first ++ (input.keyless second ++ input.copies second)).map
      Slot.joinName ∧ joined.Nodup := by
  obtain ⟨_, _, joinedDistinct, rfl⟩ := joinColumns_ok.mp joining
  refine ⟨?_, joinedDistinct⟩
  subst firstColumns secondColumns
  rw [JoinKind.columns, filter_map, @List.map_append _ _ _ (input.own first),
    ← besides_keys distinct keyNames]
  rfl

def JoinInput.droppedKeys (input : JoinInput) : List String :=
  keysToDelete .left input.leftSelect ++
    if input.how.dropsRightKeys then keysToDelete .right input.rightSelect else []

/-- The steps after the join went through. -/
structure Closing (input : JoinInput) (reverse : List (String × String))
    (joined reversed dropped columns : List String) : Prop where
  reversing : renameColumns joined reverse = .ok reversed
  dropping : dropColumns reversed input.droppedKeys = .ok dropped
  undoing : renameColumns dropped input.getUndoRenameMapping = .ok columns

/-- After the join: the copies take the place of the keys, keys that are not kept go and the
others get their names back. -/
structure Finished (how : JoinKeyStrategy) (slots : List Slot) (gone reversed dropped columns :
    List String) : Prop where
  reversedNames : reversed = slots.map Slot.keyName
  remaining : (slots.filter fun slot => slot.keyName ∉ gone) =
    slots.filter fun slot => !slot.gone how
  droppedNames : dropped = (slots.filter fun slot => !slot.gone how).map Slot.keyName
  finalNames : columns = (slots.filter fun slot => !slot.gone how).map Slot.finalName
  distinct : columns.Nodup

variable {joined reversed dropped columns : List String}

theorem finished_columns
    (start : joined = slots.map Slot.joinName) (distinct : joined.Nodup)
    (fromSides : ∀ slot ∈ slots, slot.select ∈ input.selects slot.side ∧
      slot.select.isAvailable = true)
    (reverseSlots : ∀ pair ∈ reverse, ∃ slot ∈ slots, slot.copied = true ∧
      pair = (slot.joinName, slot.keyName))
    (copiedKeys : ∀ slot ∈ slots, slot.copied = true → (slot.joinName, slot.keyName) ∈ reverse)
    (keySlots : ∀ side, ∀ select ∈ input.selects side, select.joinKey = true →
      side = .left ∨ input.how.dropsRightKeys = true ∨ select.keep = true →
        ∃ slot ∈ slots, slot.side = side ∧ slot.select = select)
    (closing : Closing input reverse joined reversed dropped columns) :
    Finished input.how slots input.droppedKeys reversed dropped columns := by
  subst start
  have keyed : reversed = slots.map Slot.keyName ∧ reversed.Nodup := by
    obtain ⟨_, reversedDistinct, rfl⟩ := renameColumns_ok.mp closing.reversing
    refine ⟨?_, reversedDistinct⟩
    apply map_renamed distinct Slot.keyName fun slot => slot.copied = true
    · exact reverseSlots
    · exact copiedKeys
    · intro slot _ own
      simp [Slot.joinName, Slot.keyName, own]
  obtain ⟨rfl, keyedDistinct⟩ := keyed
  have stays : (slots.filter fun slot => slot.keyName ∉ input.droppedKeys) =
        slots.filter fun slot => !slot.gone input.how := by
    apply filter_entries keyedDistinct (Slot.gone input.how)
    · intro name inList
      have fromSelect : ∃ side, ∃ select ∈ input.selects side, select.joinKey = true ∧
          select.keep = false ∧ (side = .left ∨ input.how.dropsRightKeys = true) ∧
            name = constructJoinKeyName side select.newName := by
        rcases mem_append.mp inList with inLeft | inRight
        · obtain ⟨select, listed, rfl⟩ := mem_map.mp inLeft
          obtain ⟨mem, flags⟩ := mem_filter.mp listed
          simp only [Bool.and_eq_true, Bool.not_eq_true'] at flags
          exact ⟨.left, select, mem, flags.2, flags.1.1, .inl rfl, rfl⟩
        · split at inRight
          case isTrue drops =>
            obtain ⟨select, listed, rfl⟩ := mem_map.mp inRight
            obtain ⟨mem, flags⟩ := mem_filter.mp listed
            simp only [Bool.and_eq_true, Bool.not_eq_true'] at flags
            exact ⟨.right, select, mem, flags.2, flags.1.1, .inr drops, rfl⟩
          case isFalse => simp at inRight
      obtain ⟨side, select, mem, key, unkept, applies, rfl⟩ := fromSelect
      obtain ⟨slot, inSlots, rfl, rfl⟩ := keySlots side select mem key
        (applies.imp_right Or.inl)
      refine ⟨slot, inSlots, ?_, ?_⟩
      · rcases applies with isLeft | drops
        · simp [Slot.gone, key, unkept, isLeft]
        · simp [Slot.gone, key, unkept, drops]
      · simp [Slot.keyName, key]
    · intro slot inSlots isGone
      obtain ⟨mem, available⟩ := fromSides slot inSlots
      simp only [Slot.gone, Bool.and_eq_true, Bool.not_eq_true', Bool.or_eq_true,
        decide_eq_true_eq] at isGone
      obtain ⟨⟨key, unkept⟩, applies⟩ := isGone
      simp only [Slot.keyName, key, if_true]
      cases side : slot.side with
      | left =>
        apply mem_append_left
        rw [side] at mem
        exact mem_map.mpr ⟨slot.select, mem_filter.mpr ⟨mem, by simp [key, unkept, available]⟩, rfl⟩
      | right =>
        apply mem_append_right
        have drops : input.how.dropsRightKeys = true := by simpa [side] using applies
        rw [side] at mem
        rw [if_pos drops]
        exact mem_map.mpr ⟨slot.select, mem_filter.mpr ⟨mem, by simp [key, unkept, available]⟩, rfl⟩
  have left : dropped = (slots.filter fun slot => !slot.gone input.how).map Slot.keyName := by
    obtain ⟨_, rfl⟩ := dropColumns_ok.mp closing.dropping
    rw [filter_map, ← stays]
    rfl
  obtain ⟨_, columnsDistinct, rfl⟩ := renameColumns_ok.mp closing.undoing
  refine ⟨rfl, stays, left, ?_, columnsDistinct⟩
  rw [left]
  have remaining : ((slots.filter fun slot => !slot.gone input.how).map Slot.keyName).Nodup :=
    keyedDistinct.sublist (List.Sublist.map _ filter_sublist)
  apply map_renamed remaining Slot.finalName
    fun slot => slot.select.joinKey = true ∧ slot.select.keep = true
  · intro pair inTable
    have fromSelect : ∃ side, ∃ select ∈ input.selects side, select.joinKey = true ∧
        select.keep = true ∧ pair = (constructJoinKeyName side select.newName, select.newName) := by
      obtain ⟨entry, listed, rfl⟩ := mem_map.mp inTable
      rcases mem_append.mp listed with inRight | inLeft
      · obtain ⟨select, inKeys, rfl⟩ := mem_map.mp inRight
        obtain ⟨isKey, kept⟩ := mem_filter.mp inKeys
        obtain ⟨mem, key⟩ := mem_filter.mp isKey
        exact ⟨.right, select, mem, key, by simpa using kept, rfl⟩
      · obtain ⟨select, inKeys, rfl⟩ := mem_map.mp inLeft
        obtain ⟨isKey, kept⟩ := mem_filter.mp inKeys
        obtain ⟨mem, key⟩ := mem_filter.mp isKey
        exact ⟨.left, select, mem, key, by simpa using kept, rfl⟩
    obtain ⟨side, select, mem, key, kept, rfl⟩ := fromSelect
    obtain ⟨slot, inSlots, rfl, rfl⟩ := keySlots side select mem key (.inr (.inr kept))
    refine ⟨slot, mem_filter.mpr ⟨inSlots, ?_⟩, ⟨key, kept⟩, ?_⟩
    · simp [Slot.gone, kept]
    · simp [Slot.keyName, Slot.finalName, key, kept]
  · rintro slot stays ⟨key, kept⟩
    obtain ⟨inSlots, _⟩ := mem_filter.mp stays
    obtain ⟨mem, _⟩ := fromSides slot inSlots
    apply mem_map.mpr
    refine ⟨(slot.select.newName, constructJoinKeyName slot.side slot.select.newName), ?_, ?_⟩
    · cases side : slot.side with
      | left =>
        apply mem_append_right
        rw [side] at mem
        exact mem_map.mpr ⟨slot.select,
          mem_filter.mpr ⟨mem_filter.mpr ⟨mem, key⟩, by simp [kept]⟩, rfl⟩
      | right =>
        apply mem_append_left
        rw [side] at mem
        exact mem_map.mpr ⟨slot.select,
          mem_filter.mpr ⟨mem_filter.mpr ⟨mem, key⟩, by simp [kept]⟩, rfl⟩
    · simp [Slot.keyName, Slot.finalName, key, kept]
  · intro slot _ untouched
    by_cases key : slot.select.joinKey = true
    · have unkept : slot.select.keep = false := by simpa [key] using untouched
      simp [Slot.keyName, Slot.finalName, key, unkept]
    · have keyless : slot.select.joinKey = false := by simpa using key
      simp [Slot.keyName, Slot.finalName, keyless]

/-- What executing a join relies on: availability and keys are marked and semi and anti joins
keep no right column. -/
structure Prepared (input : JoinInput) (columns : Side → List String) : Prop where
  available : ∀ side, ∀ select ∈ input.selects side,
    select.isAvailable = decide (select.oldName ∈ columns side)
  marked : ∀ side, ∀ select ∈ input.selects side,
    select.joinKey = decide (select.oldName ∈ input.keyColumns side)
  unselected : input.how = .semi ∨ input.how = .anti →
    ∀ select ∈ input.rightSelect, select.keep = false

/-- What an executed join shows about a side: its columns exist, none is selected twice and no
two get the same name. -/
structure Sound (selects : List SelectInput) : Prop where
  oldDistinct : (getSelectCols selects).Nodup
  newDistinct : ((selects.filter SelectInput.selected).map newName).Nodup
  present : ∀ select ∈ selects, select.selected = true → select.isAvailable = true

theorem sound_side {columns selected frame : List String}
    (available : ∀ select ∈ input.selects side,
      select.isAvailable = decide (select.oldName ∈ columns))
    (selecting : selectColumns columns (getSelectCols (input.selects side)) = .ok selected)
    (ran : renameColumns selected (getRenameTable (input.selects side)) = .ok frame) :
    Sound (input.selects side) := by
  obtain ⟨rfl, distinct, oldDistinct, present⟩ := own_columns available selecting ran
  refine ⟨oldDistinct, ?_, present⟩
  rw [JoinInput.own, map_map] at distinct
  exact distinct

theorem mem_leftKeys {keys : List String} {name : String} (sound : Sound (input.selects .left))
    (marked : ∀ select ∈ input.selects .left,
      select.joinKey = decide (select.oldName ∈ input.keyColumns .left))
    (required : requireKeys (input.getUsedJoinMapping.map Prod.fst) = .ok keys) :
    name ∈ keys ↔ ∃ select ∈ input.selects .left, select.joinKey = true ∧
      name = constructJoinKeyName .left select.newName := by
  rw [JoinInput.getUsedJoinMapping, map_map] at required
  exact mem_keys sound.oldDistinct sound.present marked required

theorem mem_rightKeys {keys : List String} {name : String} (sound : Sound (input.selects .right))
    (marked : ∀ select ∈ input.selects .right,
      select.joinKey = decide (select.oldName ∈ input.keyColumns .right))
    (required : requireKeys (input.getUsedJoinMapping.map Prod.snd) = .ok keys) :
    name ∈ keys ↔ ∃ select ∈ input.selects .right, select.joinKey = true ∧
      name = constructJoinKeyName .right select.newName := by
  rw [JoinInput.getUsedJoinMapping, map_map] at required
  exact mem_keys sound.oldDistinct sound.present marked required

theorem own_available (sound : Sound (input.selects side))
    (mem : slot ∈ input.own side ∨ slot ∈ input.copies side) :
    slot.select ∈ input.selects slot.side ∧ slot.select.isAvailable = true := by
  rcases mem with isOwn | isCopy
  · obtain ⟨rfl, _, listed, selected⟩ := mem_own.mp isOwn
    exact ⟨listed, sound.present _ listed selected⟩
  · obtain ⟨rfl, _, listed, key⟩ := mem_copies.mp isCopy
    exact ⟨listed, sound.present _ listed (by simp [SelectInput.selected, key])⟩

theorem key_own (mem : select ∈ input.selects side)
    (key : select.joinKey = true) : ⟨side, select, false⟩ ∈ input.own side :=
  mem_own.mpr ⟨rfl, rfl, mem, by simp [SelectInput.selected, key]⟩

theorem key_copy (mem : select ∈ input.selects side)
    (key : select.joinKey = true) : ⟨side, select, true⟩ ∈ input.copies side :=
  mem_copies.mpr ⟨rfl, rfl, mem, key⟩

theorem coalesced_finished (apart : ∀ side, side = first ∨ side = second)
    (soundFirst : Sound (input.selects first)) (soundSecond : Sound (input.selects second))
    (start : joined = (input.own first ++ (input.keyless second ++ input.copies second)).map
      Slot.joinName)
    (distinct : joined.Nodup)
    (closing : Closing input (reverseActions second (input.selects second)) joined reversed
      dropped columns) :
    Finished input.how (input.own first ++ (input.keyless second ++ input.copies second))
      input.droppedKeys reversed dropped columns := by
  apply finished_columns start distinct _ _ _ _ closing
  · intro slot mem
    rcases mem_append.mp mem with inFirst | inSecond
    · exact own_available soundFirst (.inl inFirst)
    · rcases mem_append.mp inSecond with keyless | isCopy
      · exact own_available soundSecond (.inl (mem_filter.mp keyless).1)
      · exact own_available soundSecond (.inr isCopy)
  · intro pair inReverse
    obtain ⟨select, isKey, rfl⟩ := mem_map.mp inReverse
    obtain ⟨mem, key⟩ := mem_filter.mp isKey
    refine ⟨⟨second, select, true⟩, ?_, rfl, ?_⟩
    · exact mem_append_right _ (mem_append_right _ (key_copy mem key))
    · simp [Slot.joinName, Slot.keyName, key]
  · intro slot mem isCopied
    have isCopy : slot ∈ input.copies second := by
      rcases mem_append.mp mem with inFirst | inSecond
      · simp [(mem_own.mp inFirst).2.1] at isCopied
      · rcases mem_append.mp inSecond with keyless | isCopy
        · simp [(mem_own.mp (mem_filter.mp keyless).1).2.1] at isCopied
        · exact isCopy
    obtain ⟨rfl, _, listed, key⟩ := mem_copies.mp isCopy
    refine mem_map.mpr ⟨slot.select, mem_filter.mpr ⟨listed, key⟩, ?_⟩
    simp [Slot.joinName, Slot.keyName, key, isCopied]
  · intro side select mem key _
    rcases apart side with rfl | rfl
    · exact ⟨_, mem_append_left _ (key_own mem key), rfl, rfl⟩
    · exact ⟨_, mem_append_right _ (mem_append_right _ (key_copy mem key)), rfl, rfl⟩

theorem uncopied_finished
    (fromSides : ∀ slot ∈ slots, ∃ side, slot ∈ input.own side)
    (sound : ∀ side, Sound (input.selects side))
    (keySlots : ∀ side, ∀ select ∈ input.selects side, select.joinKey = true →
      side = .left ∨ input.how.dropsRightKeys = true ∨ select.keep = true →
        ⟨side, select, false⟩ ∈ slots)
    (start : joined = slots.map Slot.joinName) (distinct : joined.Nodup)
    (closing : Closing input [] joined reversed dropped columns) :
    Finished input.how slots input.droppedKeys reversed dropped columns := by
  apply finished_columns start distinct _ _ _ _ closing
  · intro slot mem
    obtain ⟨side, isOwn⟩ := fromSides slot mem
    exact own_available (sound side) (.inl isOwn)
  · simp
  · intro slot mem isCopied
    obtain ⟨side, isOwn⟩ := fromSides slot mem
    simp [(mem_own.mp isOwn).2.1] at isCopied
  · exact fun side select mem key applies =>
      ⟨_, keySlots side select mem key applies, rfl, rfl⟩

theorem both_finished (sound : ∀ side, Sound (input.selects side))
    (start : joined = (input.own .left ++ input.own .right).map Slot.joinName)
    (distinct : joined.Nodup) (closing : Closing input [] joined reversed dropped columns) :
    Finished input.how (input.own .left ++ input.own .right)
      input.droppedKeys reversed dropped columns := by
  refine uncopied_finished (fun slot mem => ?_) sound (fun side select mem key _ => ?_)
    start distinct closing
  · rcases mem_append.mp mem with own | own
    · exact ⟨_, own⟩
    · exact ⟨_, own⟩
  · cases side with
    | left => exact mem_append_left _ (key_own mem key)
    | right => exact mem_append_right _ (key_own mem key)

theorem left_finished
    (sound : ∀ side, Sound (input.selects side)) (keepsRightKeys : input.how.dropsRightKeys = false)
    (unselected : ∀ select ∈ input.selects .right, select.keep = false)
    (start : joined = (input.own .left).map Slot.joinName) (distinct : joined.Nodup)
    (closing : Closing input [] joined reversed dropped columns) :
    Finished input.how (input.own .left) input.droppedKeys reversed dropped columns := by
  refine uncopied_finished (fun slot own => ⟨_, own⟩) sound
    (fun side select mem key applies => ?_) start distinct closing
  cases side with
  | left => exact key_own mem key
  | right => simp [keepsRightKeys, unselected select mem] at applies

theorem joinTables_sound {self other columns : List String}
    (prepared : Prepared input fun side => match side with | .left => self | .right => other)
    (ran : joinTables input self other = .ok columns) (side : Side) :
    Sound (input.selects side) := by
  simp only [joinTables, bind_ok, onFrame_ok] at ran
  obtain ⟨leftSelected, leftSelecting, leftFrame, leftRenaming, rightSelected, rightSelecting,
    rightFrame, rightRenaming, _⟩ := ran
  cases side with
  | left => exact sound_side (prepared.available .left) leftSelecting leftRenaming
  | right => exact sound_side (prepared.available .right) rightSelecting rightRenaming

theorem joinTables_columns {self other columns : List String}
    (prepared : Prepared input fun side => match side with | .left => self | .right => other)
    (ran : joinTables input self other = .ok columns)
    (fresh : ∀ side, input.how.copiedSide = some side → ¬ Overwrites (input.selects side)) :
    columns = (input.slots.filter fun slot => !slot.gone input.how).map Slot.finalName ∧
      columns.Nodup := by
  have sound := joinTables_sound prepared ran
  simp only [joinTables, bind_ok, onFrame_ok] at ran
  obtain ⟨leftSelected, leftSelecting, leftFrame, leftRenaming, rightSelected, rightSelecting,
    rightFrame, rightRenaming, ⟨leftCopied, rightCopied, reverse⟩, copying, leftKeyed,
    leftKeying, rightKeyed, rightKeying, rightKeys, rightRequired, leftKeys, leftRequired,
    joined, joining, reversed, reversing, dropped, dropping, undoing⟩ := ran
  have closing : Closing input reverse joined reversed dropped columns :=
    ⟨reversing, dropping, undoing⟩
  obtain ⟨leftStart, leftDistinct, _⟩ :=
    own_columns (prepared.available .left) leftSelecting leftRenaming
  obtain ⟨rightStart, rightDistinct, _⟩ :=
    own_columns (prepared.available .right) rightSelecting rightRenaming
  have leftNames := fun name => @mem_leftKeys input leftKeys name (sound .left)
    (prepared.marked .left) leftRequired
  have rightNames := fun name => @mem_rightKeys input rightKeys name (sound .right)
    (prepared.marked .right) rightRequired
  have ownOrCopy : ∀ side, ∀ slot ∈ input.own side ++ input.copies side,
      slot.side = side ∧ slot.select ∈ input.selects side := by
    intro side slot mem
    rcases mem_append.mp mem with isOwn | isCopy
    · exact own_side slot isOwn
    · exact ⟨(mem_copies.mp isCopy).1, (mem_copies.mp isCopy).2.2.1⟩
  cases how : input.how with
  | inner | left =>
    rw [JoinInput.handleDuplicationJoinKeys, how] at copying
    simp only [bind_ok, Except.ok.injEq, Prod.mk.injEq] at copying
    obtain ⟨_, copyingRight, rfl, rfl, rfl⟩ := copying
    obtain ⟨rightCopies, copiesDistinct⟩ := copied_columns rightStart rightDistinct copyingRight
      (fresh .right (by rw [how]; rfl))
    obtain ⟨leftColumns, _⟩ := keyed_columns own_side (fun _ mem => mem) leftStart
      leftDistinct leftKeying
    obtain ⟨rightColumns, rightKeyedDistinct⟩ := keyed_columns (ownOrCopy .right)
      (fun _ mem => mem_append_left _ mem) rightCopies copiesDistinct rightKeying
    rw [how] at joining
    obtain ⟨start, distinct⟩ := coalesced_columns leftColumns rightColumns rightKeyedDistinct
      rightNames joining
    have finished := coalesced_finished (fun side => by cases side <;> simp) (sound .left)
      (sound .right) start distinct closing
    rw [JoinInput.slots, how]
    rw [how] at finished
    exact ⟨finished.finalNames, finished.distinct⟩
  | right =>
    rw [JoinInput.handleDuplicationJoinKeys, how] at copying
    simp only [bind_ok, Except.ok.injEq, Prod.mk.injEq] at copying
    obtain ⟨_, copyingLeft, rfl, rfl, rfl⟩ := copying
    obtain ⟨leftCopies, copiesDistinct⟩ := copied_columns leftStart leftDistinct copyingLeft
      (fresh .left (by rw [how]; rfl))
    obtain ⟨rightColumns, _⟩ := keyed_columns own_side (fun _ mem => mem)
      rightStart rightDistinct rightKeying
    obtain ⟨leftColumns, leftKeyedDistinct⟩ := keyed_columns (ownOrCopy .left)
      (fun _ mem => mem_append_left _ mem) leftCopies copiesDistinct leftKeying
    rw [how] at joining
    obtain ⟨start, distinct⟩ := coalesced_columns rightColumns leftColumns leftKeyedDistinct
      leftNames joining
    have finished := coalesced_finished (fun side => by cases side <;> simp) (sound .right)
      (sound .left) start distinct closing
    rw [JoinInput.slots, how]
    rw [how] at finished
    exact ⟨finished.finalNames, finished.distinct⟩
  | full | outer =>
    rw [JoinInput.handleDuplicationJoinKeys, how] at copying
    simp only [Except.ok.injEq, Prod.mk.injEq] at copying
    obtain ⟨rfl, rfl, rfl⟩ := copying
    obtain ⟨leftColumns, _⟩ := keyed_columns own_side (fun _ mem => mem) leftStart
      leftDistinct leftKeying
    obtain ⟨rightColumns, _⟩ := keyed_columns own_side (fun _ mem => mem)
      rightStart rightDistinct rightKeying
    rw [how] at joining
    obtain ⟨_, _, distinct, rfl⟩ := joinColumns_ok.mp joining
    have finished := both_finished sound
      (by rw [map_append, ← leftColumns, ← rightColumns]; rfl) distinct closing
    rw [JoinInput.slots, how]
    rw [how] at finished
    exact ⟨finished.finalNames, finished.distinct⟩
  | semi | anti =>
    rw [JoinInput.handleDuplicationJoinKeys, how] at copying
    simp only [Except.ok.injEq, Prod.mk.injEq] at copying
    obtain ⟨rfl, rfl, rfl⟩ := copying
    obtain ⟨leftColumns, _⟩ := keyed_columns own_side (fun _ mem => mem) leftStart
      leftDistinct leftKeying
    rw [how] at joining
    obtain ⟨_, _, distinct, rfl⟩ := joinColumns_ok.mp joining
    have finished := left_finished sound (by rw [how]; rfl)
      (prepared.unselected (by simp [how])) leftColumns distinct closing
    rw [JoinInput.slots, how]
    rw [how] at finished
    exact ⟨finished.finalNames, finished.distinct⟩

end

/-! ## Overwritten columns

A copy that overwrites a column is missing in the end: the joined table has fewer columns than
both sides keep. -/

/-- Strings that differ early. -/
theorem append_ne {first second : String} (index : Nat) (inFirst : index < first.toList.length)
    (inSecond : index < second.toList.length)
    (differ : first.toList[index]? ≠ second.toList[index]?) (rest other : String) :
    first ++ rest ≠ second ++ other := by
  intro same
  apply differ
  have chars := congrArg (fun name : String => name.toList[index]?) same
  simpa only [String.toList_append, List.getElem?_append_left inFirst,
    List.getElem?_append_left inSecond] using chars

/-- Temporary names of the two sides differ. -/
theorem constructJoinKeyName_apart (first second : String) :
    constructJoinKeyName .left first ≠ constructJoinKeyName .right second :=
  append_ne 19 (by decide) (by decide) (by decide) first second

/-- Temporary names of different columns differ. -/
theorem constructJoinKeyName_injective (side : Side) :
    Function.Injective (constructJoinKeyName side) := by
  intro first second same
  cases side with
  | left => exact (String.append_right_inj _).mp same
  | right => exact (String.append_right_inj _).mp same

variable {taken : SelectInput → Bool}

theorem keyNames_nodup {side : Side} (sound : Sound selects)
    (takesPart : ∀ select, taken select = true → select.selected = true) :
    ((selects.filter taken).map fun select => constructJoinKeyName side select.newName).Nodup := by
  have names : ((selects.filter taken).map newName).Nodup :=
    ((monotone_filter_right selects takesPart).map newName).nodup
      sound.newDistinct
  have constructed := names.map (constructJoinKeyName_injective side)
  rwa [map_map] at constructed

section

variable {input : JoinInput}

theorem own_length {side : Side} (sound : Sound (input.selects side)) : (input.own side).length =
      (getNewCols (input.selects side)).length +
        (keysToDelete side (input.selects side)).length := by
  have split := length_eq_length_filter_add
    (l := (input.selects side).filter SelectInput.selected) SelectInput.keep
  have kept : ((input.selects side).filter SelectInput.selected).filter SelectInput.keep =
      (input.selects side).filter SelectInput.keep := by
    rw [filter_filter]
    apply filter_congr
    intro select _
    cases keep : select.keep <;> simp [SelectInput.selected, keep]
  have dropped : (((input.selects side).filter SelectInput.selected).filter
      fun select => !select.keep) = (input.selects side).filter fun select =>
          !select.keep && select.isAvailable && select.joinKey := by
    rw [filter_filter]
    apply filter_congr
    intro select mem
    cases key : select.joinKey with
    | false => cases keep : select.keep <;> simp [SelectInput.selected, key, keep]
    | true =>
      have available := sound.present select mem (by simp [SelectInput.selected, key])
      simp [SelectInput.selected, key, available]
  rw [kept, dropped] at split
  simpa [JoinInput.own, getNewCols, keysToDelete] using split

theorem coalesced_length {start copied firstFrame secondFrame firstKeys joined : List String}
    (sound : Sound (input.selects second))
    (secondStart : start = (input.own second).map Slot.startName)
    (overwrites : Overwrites (input.selects second))
    (copying : copyColumns start (keyCopies (input.selects second)) = .ok copied)
    (firstLength : firstFrame.length = (input.own first).length)
    (secondLength : secondFrame.length = copied.length)
    (keyNames : ∀ name, name ∈ keys ↔ ∃ select ∈ input.selects second,
      select.joinKey = true ∧ name = constructJoinKeyName second select.newName)
    (joining : joinColumns .coalescing firstFrame secondFrame firstKeys keys = .ok joined) :
    joined.length < (input.own first).length + (input.own second).length := by
  obtain ⟨_, _, rfl⟩ := copyColumns_ok.mp copying
  obtain ⟨_, present, _, rfl⟩ := joinColumns_ok.mp joining
  have fewer : (((keyCopies (input.selects second)).map Prod.snd).filter
      fun name => name ∉ start).length < (getJoinKeySelects (input.selects second)).length := by
    have count : ((keyCopies (input.selects second)).map Prod.snd).length =
        (getJoinKeySelects (input.selects second)).length := by
      simp [keyCopies]
    rw [← count, length_filter_lt_length_iff_exists]
    obtain ⟨key, inSelects, isKey, select, listed, selected, clash⟩ := overwrites
    refine ⟨constructTempName key.newName, ?_, ?_⟩
    · rw [keyCopies, map_map]
      exact mem_map.mpr ⟨key, mem_filter.mpr ⟨inSelects, isKey⟩, rfl⟩
    · have inStart : constructTempName key.newName ∈ start := by
        rw [secondStart, ← clash]
        exact mem_map.mpr ⟨⟨second, select, false⟩, mem_own.mpr ⟨rfl, rfl, listed, selected⟩, rfl⟩
      simpa using inStart
  have sameKeys : ∀ name, name ∈ keys ↔ name ∈ (getJoinKeySelects (input.selects second)).map
      fun select => constructJoinKeyName second select.newName := by
    intro name
    rw [keyNames, mem_map]
    constructor
    · rintro ⟨select, mem, key, rfl⟩
      exact ⟨select, mem_filter.mpr ⟨mem, key⟩, rfl⟩
    · rintro ⟨select, isKey, rfl⟩
      obtain ⟨mem, key⟩ := mem_filter.mp isKey
      exact ⟨select, mem, key, rfl⟩
  have distinct : ((getJoinKeySelects (input.selects second)).map
      fun select => constructJoinKeyName second select.newName).Nodup :=
    keyNames_nodup sound fun select key => by simp [SelectInput.selected, key]
  have dropped := length_filter_not_mem distinct
    fun name mem => present name ((sameKeys name).mpr mem)
  have others : (secondFrame.filter fun name => name ∉ keys) = secondFrame.filter
      fun name => name ∉ (getJoinKeySelects (input.selects second)).map
        fun select => constructJoinKeyName second select.newName := by
    apply filter_congr
    intro name _
    simp only [sameKeys]
  have joinedLength : (JoinKind.coalescing.columns firstFrame secondFrame keys).length =
      firstFrame.length + (secondFrame.filter fun name => name ∉ keys).length :=
    length_append
  have secondTotal : secondFrame.length = (input.own second).length +
      (((keyCopies (input.selects second)).map Prod.snd).filter
        fun name => name ∉ start).length := by
    rw [secondLength, length_append]
    congr 1
    rw [secondStart, length_map]
  rw [others] at joinedLength
  rw [length_map] at dropped
  omega

theorem finished_length {joined reversed dropped columns : List String}
    (sound : ∀ side, Sound (input.selects side)) (drops : input.how.dropsRightKeys = true)
    (closing : Closing input reverse joined reversed dropped columns) :
    columns.length + ((keysToDelete .left input.leftSelect).length +
      (keysToDelete .right input.rightSelect).length) ≤ joined.length := by
  obtain ⟨reversing, dropping, undoing⟩ := closing
  obtain ⟨_, _, rfl⟩ := renameColumns_ok.mp reversing
  obtain ⟨_, _, rfl⟩ := renameColumns_ok.mp undoing
  rw [JoinInput.droppedKeys, if_pos drops] at dropping
  obtain ⟨present, rfl⟩ := dropColumns_ok.mp dropping
  have distinct : (keysToDelete .left input.leftSelect ++
      keysToDelete .right input.rightSelect).Nodup := by
    have takesPart : ∀ select : SelectInput,
        (!select.keep && select.isAvailable && select.joinKey) = true → select.selected = true := by
      intro select flags
      simp only [Bool.and_eq_true] at flags
      simp [SelectInput.selected, flags.2]
    refine (keyNames_nodup (sound .left) takesPart).append
      (keyNames_nodup (sound .right) takesPart) ?_
    intro name inLeft inRight
    obtain ⟨_, _, rfl⟩ := mem_map.mp inLeft
    obtain ⟨_, _, same⟩ := mem_map.mp inRight
    exact constructJoinKeyName_apart _ _ same.symm
  have remaining := length_filter_not_mem distinct present
  simpa [length_append] using remaining

theorem joinTables_length_lt {self other columns : List String}
    (prepared : Prepared input fun side => match side with | .left => self | .right => other)
    (ran : joinTables input self other = .ok columns) (copies : input.how.copiedSide = some second)
    (overwrites : Overwrites (input.selects second)) :
    columns.length <
      (getNewCols input.leftSelect).length + (getNewCols input.rightSelect).length := by
  have sound := joinTables_sound prepared ran
  simp only [joinTables, bind_ok, onFrame_ok] at ran
  obtain ⟨leftSelected, leftSelecting, leftFrame, leftRenaming, rightSelected, rightSelecting,
    rightFrame, rightRenaming, ⟨leftCopied, rightCopied, reverse⟩, copying, leftKeyed,
    leftKeying, rightKeyed, rightKeying, rightKeys, rightRequired, leftKeys, leftRequired,
    joined, joining, reversed, reversing, dropped, dropping, undoing⟩ := ran
  have closing : Closing input reverse joined reversed dropped columns :=
    ⟨reversing, dropping, undoing⟩
  obtain ⟨leftStart, _⟩ := own_columns (prepared.available .left) leftSelecting leftRenaming
  obtain ⟨rightStart, _⟩ := own_columns (prepared.available .right) rightSelecting rightRenaming
  have leftLength := own_length (sound .left)
  have rightLength := own_length (sound .right)
  obtain ⟨_, _, rfl⟩ := renameColumns_ok.mp leftKeying
  obtain ⟨_, _, rfl⟩ := renameColumns_ok.mp rightKeying
  have leftNames := fun name => @mem_leftKeys input leftKeys name (sound .left)
    (prepared.marked .left) leftRequired
  have rightNames := fun name => @mem_rightKeys input rightKeys name (sound .right)
    (prepared.marked .right) rightRequired
  have drops : input.how.dropsRightKeys = true := by
    cases how : input.how <;> first | rfl | (rw [how] at copies; cases copies)
  have finished := finished_length sound drops closing
  simp only [JoinInput.selects] at leftLength rightLength
  cases how : input.how with
  | inner | left =>
    rw [how] at copies joining
    cases copies
    rw [JoinInput.handleDuplicationJoinKeys, how] at copying
    simp only [bind_ok, Except.ok.injEq, Prod.mk.injEq] at copying
    obtain ⟨_, copyingRight, rfl, rfl, rfl⟩ := copying
    have short := coalesced_length (sound .right) rightStart overwrites copyingRight
      (by rw [length_map, leftStart, length_map]) (length_map _)
      rightNames joining
    omega
  | right =>
    rw [how] at copies joining
    cases copies
    rw [JoinInput.handleDuplicationJoinKeys, how] at copying
    simp only [bind_ok, Except.ok.injEq, Prod.mk.injEq] at copying
    obtain ⟨_, copyingLeft, rfl, rfl, rfl⟩ := copying
    have short := coalesced_length (sound .left) leftStart overwrites copyingLeft
      (by rw [length_map, rightStart, length_map]) (length_map _)
      leftNames joining
    omega
  | full | outer | semi | anti =>
    rw [how] at copies
    cases copies

end

/-- The kept columns of a side, keys last. -/
def keysLast (selects : List SelectInput) : List SelectInput :=
  (selects.filter fun select => select.keep && !select.joinKey) ++
    selects.filter fun select => select.keep && select.joinKey

/-- Columns of a joined table in terms of the settings. -/
def JoinInput.outcome (input : JoinInput) : List String :=
  match input.how with
  | .inner | .left =>
    getNewCols input.leftSelect ++ (keysLast input.rightSelect).map newName
  | .right => getNewCols input.rightSelect ++ (keysLast input.leftSelect).map newName
  | .outer => getNewCols input.leftSelect ++ getNewCols input.rightSelect
  | .full => getNewCols input.leftSelect ++ (input.own .right).map Slot.finalName
  | .semi | .anti => getNewCols input.leftSelect

theorem map_remaining {how : JoinKeyStrategy} {side : Side} {copied : Bool}
    (drops : side = .left ∨ how.dropsRightKeys = true)
    (takesPart : ∀ select, taken select = true → select.selected = true) :
    ((((selects.filter taken).map fun select => (⟨side, select, copied⟩ : Slot)).filter
      fun slot => !slot.gone how).map Slot.finalName) =
        (selects.filter fun select => select.keep && taken select).map newName := by
  have goes : ∀ select : SelectInput, (⟨side, select, copied⟩ : Slot).gone how =
      (select.joinKey && !select.keep) := by
    intro select
    rcases drops with rfl | drops
    · simp [Slot.gone]
    · simp [Slot.gone, drops]
  rw [filter_map, filter_filter, map_map]
  have same : selects.filter (fun select =>
      ((fun slot => !slot.gone how) ∘ fun select => (⟨side, select, copied⟩ : Slot)) select &&
        taken select) = selects.filter fun select => select.keep && taken select := by
    apply filter_congr
    intro select _
    simp only [Function.comp_apply, goes]
    cases takes : taken select with
    | false => simp
    | true =>
    have selected := takesPart select takes
    cases keep : select.keep with
    | true => simp
    | false =>
      have key : select.joinKey = true := by simpa [SelectInput.selected, keep] using selected
      simp [key]
  rw [same]
  apply map_congr_left
  intro select mem
  obtain ⟨_, flags⟩ := mem_filter.mp mem
  obtain ⟨keep, _⟩ := Bool.and_eq_true_iff.mp flags
  simp [Slot.finalName, keep]

theorem own_remaining {input : JoinInput} {side : Side}
    (drops : side = .left ∨ input.how.dropsRightKeys = true) :
    ((input.own side).filter fun slot => !slot.gone input.how).map Slot.finalName =
      getNewCols (input.selects side) := by
  rw [JoinInput.own, map_remaining drops fun _ selected => selected, getNewCols]
  congr 1
  apply filter_congr
  intro select _
  cases keep : select.keep <;> simp [SelectInput.selected, keep]

theorem second_remaining {input : JoinInput} {side : Side}
    (drops : side = .left ∨ input.how.dropsRightKeys = true) :
    ((input.keyless side ++ input.copies side).filter fun slot => !slot.gone input.how).map
      Slot.finalName = (keysLast (input.selects side)).map newName := by
  have keyless : input.keyless side =
      ((input.selects side).filter fun select => select.keep && !select.joinKey).map
        fun select => ⟨side, select, false⟩ := by
    rw [JoinInput.keyless, JoinInput.own, filter_map, filter_filter]
    congr 1
    apply filter_congr
    intro select _
    cases key : select.joinKey <;> simp [SelectInput.selected, key]
  rw [filter_append, map_append, keyless, JoinInput.copies, getJoinKeySelects,
    map_remaining drops, map_remaining drops, keysLast, map_append]
  · congr 2
    apply filter_congr
    intro select _
    cases keep : select.keep <;> simp
  · intro select key
    simp [SelectInput.selected, key]
  · intro select flags
    obtain ⟨keep, _⟩ := Bool.and_eq_true_iff.mp flags
    simp [SelectInput.selected, keep]

theorem joinTables_outcome {input : JoinInput} {self other columns : List String}
    (prepared : Prepared input fun side => match side with | .left => self | .right => other)
    (ran : joinTables input self other = .ok columns)
    (fresh : ∀ side, input.how.copiedSide = some side → ¬ Overwrites (input.selects side)) :
    columns = input.outcome ∧ columns.Nodup := by
  obtain ⟨remaining, distinct⟩ := joinTables_columns prepared ran fresh
  refine ⟨remaining.trans ?_, distinct⟩
  have left := @own_remaining input .left (.inl rfl)
  cases how : input.how with
  | inner | left =>
    have right := @second_remaining input .right (.inr (by rw [how]; decide))
    rw [how] at left right
    rw [JoinInput.slots, JoinInput.outcome, how]
    simp only [filter_append, map_append] at left right ⊢
    rw [left, right]
    rfl
  | right =>
    have right := @own_remaining input .right (.inr (by rw [how]; decide))
    have left := @second_remaining input .left (.inl rfl)
    rw [how] at left right
    rw [JoinInput.slots, JoinInput.outcome, how]
    simp only [filter_append, map_append] at left right ⊢
    rw [left, right]
    rfl
  | outer =>
    have right := @own_remaining input .right (.inr (by rw [how]; decide))
    rw [how] at left right
    rw [JoinInput.slots, JoinInput.outcome, how]
    simp only [filter_append, map_append] at left right ⊢
    rw [left, right]
    rfl
  | full =>
    have all : ((input.own .right).filter fun slot => !slot.gone .full) = input.own .right := by
      rw [filter_eq_self]
      intro slot mem
      simp [Slot.gone, (mem_own.mp mem).1, JoinKeyStrategy.dropsRightKeys]
    rw [how] at left
    rw [JoinInput.slots, JoinInput.outcome, how]
    simp only [filter_append, map_append]
    rw [left, all]
    rfl
  | semi | anti =>
    rw [how] at left
    rw [JoinInput.slots, JoinInput.outcome, how]
    exact left

theorem accepted_keys {input : JoinInput} {left right : TableSchema}
    (accepted : input.verifyMapIntegrity left right = true) {pair : JoinMap}
    (mem : pair ∈ input.joinMapping) :
    pair.leftCol ∈ left.names ∧ pair.rightCol ∈ right.names := by
  have checked := all_eq_true.mp accepted pair mem
  split at checked
  case h_1 _ _ foundLeft foundRight =>
    rw [← TableSchema.find_isSome, ← TableSchema.find_isSome, foundLeft, foundRight]
    exact ⟨rfl, rfl⟩
  case h_2 => cases checked

theorem appendKeys_of_listed {input : JoinInput}
    (left : ∀ pair ∈ input.joinMapping, pair.leftCol ∈ input.leftSelect.map oldName)
    (right : ∀ pair ∈ input.joinMapping, pair.rightCol ∈ input.rightSelect.map oldName) :
    input.appendKeys = input := by
  have unchanged : ∀ (names : List String) (selects : List SelectInput),
      (∀ name ∈ names, name ∈ selects.map oldName) → names.foldl (fun selects name =>
          if name ∈ selects.map oldName then selects
          else selects ++ [{ ofColumn name with keep := false }]) selects = selects := by
    intro names selects listed
    induction names with
    | nil => rfl
    | cons name rest ih =>
      rw [foldl_cons, if_pos (listed name mem_cons_self)]
      exact ih fun other inRest => listed other (mem_cons_of_mem _ inRest)
  rw [JoinInput.appendKeys]
  dsimp only
  rw [unchanged, unchanged]
  · intro name mem
    obtain ⟨pair, inMapping, rfl⟩ := mem_map.mp mem
    exact right pair inMapping
  · intro name mem
    obtain ⟨pair, inMapping, rfl⟩ := mem_map.mp mem
    exact left pair inMapping

/-- Kept names do not depend on what is available. -/
theorem getNewCols_markAvailable (columns : List String) (selects : List SelectInput) :
    getNewCols (markAvailable columns selects) = getNewCols selects := by
  rw [getNewCols, markAvailable, filter_map, map_map]
  rfl

theorem appendKeys_complete {input : JoinInput} {left right : TableSchema}
    (accepted : input.verifyMapIntegrity left right = true) :
    (input.complete left.names right.names).appendKeys = input.complete left.names right.names := by
  obtain ⟨_, mapping⟩ := complete_rest left.names right.names input
  apply appendKeys_of_listed
  · intro pair mem
    rw [mapping] at mem
    exact mem_complete_left (accepted_keys accepted mem).1
  · intro pair mem
    rw [mapping] at mem
    exact mem_complete_right (accepted_keys accepted mem).2

theorem verified_marked (input : JoinInput) (leftCols rightCols : List String) :
    ((input.complete leftCols rightCols).verifySelectIntegrity leftCols rightCols).setJoinKeys =
      (input.complete leftCols rightCols).verifySelectIntegrity leftCols rightCols := by
  apply setJoinKeys_of_marked
  · intro select mem
    obtain ⟨listed, inComplete, rfl⟩ := mem_map.mp mem
    exact complete_leftMarked listed inComplete
  · intro select mem
    obtain ⟨listed, inComplete, rfl⟩ := mem_map.mp mem
    exact complete_rightMarked listed inComplete

theorem settled_titles {input : JoinInput} {left right : TableSchema}
    (accepted : input.verifyMapIntegrity left right = true) (autoGenerateSelection : Bool) :
    ∃ change : String → String,
      input.settled left right autoGenerateSelection = { input.complete left.names right.names with
          leftSelect := markAvailable left.names
            (input.complete left.names right.names).leftSelect
          rightSelect := (markAvailable right.names
            (input.complete left.names right.names).rightSelect).map
              (retitle change) } ∧
      ∀ name ∈ getNewCols (input.complete left.names right.names).rightSelect,
        change name = rightTitle autoGenerateSelection
          (getNewCols (input.complete left.names right.names).leftSelect) name := by
  obtain ⟨change, settled, titles⟩ := @autoRename_titles
    ((input.complete left.names right.names).verifySelectIntegrity left.names right.names)
    (by
      intro select mem
      obtain ⟨listed, inComplete, rfl⟩ := mem_map.mp mem
      exact complete_leftMarked listed inComplete)
    (by
      intro select mem
      obtain ⟨listed, inComplete, rfl⟩ := mem_map.mp mem
      exact complete_rightMarked listed inComplete)
    autoGenerateSelection
  refine ⟨change, ?_, ?_⟩
  · rw [JoinInput.settled, appendKeys_complete accepted]
    exact settled
  · intro name mem
    have title := titles name (by rwa [JoinInput.verifySelectIntegrity, getNewCols_markAvailable])
    rwa [JoinInput.verifySelectIntegrity, getNewCols_markAvailable] at title

theorem settled_prepared {input : JoinInput} {left right : TableSchema}
    (accepted : input.verifyMapIntegrity left right = true) (autoGenerateSelection : Bool) :
    Prepared (input.settled left right autoGenerateSelection)
      fun side => match side with | .left => left.names | .right => right.names := by
  obtain ⟨how, mapping⟩ := complete_rest left.names right.names input
  obtain ⟨change, settled, _⟩ := settled_titles accepted autoGenerateSelection
  rw [settled]
  constructor
  case available =>
    intro side select mem
    cases side with
    | left =>
      obtain ⟨listed, _, rfl⟩ := mem_map.mp mem
      rfl
    | right =>
      obtain ⟨available, inAvailable, rfl⟩ := mem_map.mp mem
      obtain ⟨listed, _, rfl⟩ := mem_map.mp inAvailable
      rfl
  case marked =>
    intro side select mem
    cases side with
    | left =>
      obtain ⟨listed, inComplete, rfl⟩ := mem_map.mp mem
      exact complete_leftMarked listed inComplete
    | right =>
      obtain ⟨available, inAvailable, rfl⟩ := mem_map.mp mem
      obtain ⟨listed, inComplete, rfl⟩ := mem_map.mp inAvailable
      exact complete_rightMarked listed inComplete
  case unselected =>
    intro filtering select mem
    obtain ⟨available, inAvailable, rfl⟩ := mem_map.mp mem
    obtain ⟨listed, inComplete, rfl⟩ := mem_map.mp inAvailable
    exact complete_unselected _ _ (how ▸ filtering) listed inComplete

end Flowfile.Join

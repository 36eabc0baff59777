import Flowfile.GeneratedRightJoin

/-!
# Generated outer joins

The join keeps all columns. A right key that is kept gets a temporary name when a left key has the
same one, and a right key that is dropped gets the suffix then.
-/

namespace Flowfile.Join

open Library.ColumnFrames Library.TracedFrames List

def leftKeyNames (manager : JoinInput) : List String :=
  (getJoinKeySelects manager.leftSelect).map SelectInput.newName

/-- Whether an outer join gives a right column a temporary name. -/
def SelectInput.renamedOuter (manager : JoinInput) (select : SelectInput) : Bool :=
  select.joinKey && select.keep && decide (select.newName ∈ leftKeyNames manager)

def SelectInput.outerName (manager : JoinInput) (select : SelectInput) : String :=
  if select.renamedOuter manager then jkAlias select.newName else select.newName

open SelectInput (renamedOuter outerName)

/-- What outer joins need besides: temporary names and names with the suffix are free, the first
column with the new name of a right key that gets a temporary name is kept, kept right columns have
no name of a left column, and right keys that are dropped or not listed share names with left keys
only where the generated code expects it. -/
structure OuterFits (manager input : JoinInput) : Prop where
  available : KeysAvailable manager.rightSelect
  unlistedApart : ∀ name ∈ manager.joinMapping.map JoinMap.rightCol,
    name ∉ manager.rightSelect.map SelectInput.oldName → name ∉ leftKeyNames manager
  firstKept : ∀ key ∈ keptKeys manager.rightSelect, key.newName ∈ leftKeyNames manager →
    ∀ found, findByNewName manager.rightSelect key.newName = some found → found.keep = true
  aliasFresh : ∀ key ∈ keptKeys manager.rightSelect, key.newName ∈ leftKeyNames manager →
    ∀ other ∈ input.rightSelect, other.selected = true → other.newName ≠ key.newName →
      other.outerName manager ≠ jkAlias key.newName
  aliasApart : ∀ key ∈ keptKeys manager.rightSelect, key.newName ∈ leftKeyNames manager →
    ∀ other ∈ input.leftSelect, other.selected = true → other.newName ≠ jkAlias key.newName
  titlesApart : ∀ column ∈ input.rightSelect, column.keep = true → column.joinKey = false →
    ∀ other ∈ input.leftSelect, other.selected = true → other.newName ≠ column.newName
  dropApart : ∀ key ∈ droppedKeys manager.rightSelect, ∀ other ∈ input.leftSelect,
    other.selected = true → other.newName = key.newName → key.newName ∈ leftKeyNames manager
  suffixFree : ∀ key ∈ droppedKeys manager.rightSelect, key.newName ∈ leftKeyNames manager →
    (∀ other ∈ input.leftSelect, other.selected = true → other.newName ≠ polarsSuffix key.newName) ∧
    ∀ other ∈ input.rightSelect, other.selected = true →
      other.outerName manager ≠ polarsSuffix key.newName

section

variable {manager input : JoinInput} {leftColumns rightColumns : List String}

def outerSlots (input : JoinInput) (leftColumns rightColumns : List String) : List Slot :=
  inOrder leftColumns (input.own .left) ++ inOrder rightColumns (input.own .right)

def outerRightName (manager : JoinInput) (slot : Slot) : String :=
  if slot.select.keep = false ∧ slot.title ∈ leftKeyNames manager then polarsSuffix slot.title
  else slot.select.outerName manager

variable {slot : Slot}

theorem outerRightName_kept (keep : slot.select.keep = true) :
    outerRightName manager slot = slot.select.outerName manager := by
  simp [outerRightName, keep]

theorem outerRightName_unkept (unkept : slot.select.keep = false) : outerRightName manager slot =
      if slot.title ∈ leftKeyNames manager then polarsSuffix slot.title else slot.title := by
  have plain : slot.select.renamedOuter manager = false := by
    simp [renamedOuter, unkept]
  rw [outerRightName, outerName, plain]
  simp only [unkept, true_and]
  rfl

def outerJoinName (manager : JoinInput) (slot : Slot) : String :=
  match slot.side with
  | .left => slot.title
  | .right => outerRightName manager slot

section

variable (ready : BothReady manager input leftColumns rightColumns)
include ready

theorem renamedOuter_listed (fits : OuterFits manager input) (isOwn : slot ∈ input.own .right)
    (renames : slot.select.renamedOuter manager = true) :
    ∃ key ∈ keptKeys manager.rightSelect, key.newName = slot.title ∧
      key.newName ∈ leftKeyNames manager := by
  simp only [renamedOuter, Bool.and_eq_true, decide_eq_true_eq] at renames
  obtain ⟨⟨marked, keep⟩, isTitle⟩ := renames
  obtain ⟨_, _, inSelects, _⟩ := mem_own.mp isOwn
  have isKey := ready.right.settled_marked _ inSelects
  rw [marked] at isKey
  have isKey := of_decide_eq_true isKey.symm
  have inWider := inSelects
  rw [ready.right.settled, mem_withUnlisted] at inWider
  rcases inWider with ⟨column, isListed, same⟩ | ⟨name, _, absent, same⟩
  · have title : column.newName = slot.title := by rw [Slot.title, same]
    refine ⟨column, mem_filter.mpr ⟨mem_filter.mpr ⟨isListed, ?_⟩, ?_⟩, title, ?_⟩
    · rw [same] at marked
      exact marked
    · rw [same] at keep
      exact keep
    · rw [title]
      exact isTitle
  · rw [same] at isTitle isKey
    exact absurd isTitle (fits.unlistedApart name isKey absent)

theorem renamedOuter_slot {key : SelectInput} (isKept : key ∈ keptKeys manager.rightSelect)
    (isTitle : key.newName ∈ leftKeyNames manager) :
    ∃ slot ∈ input.own .right, slot.select.renamedOuter manager = true ∧
      slot.title = key.newName := by
  obtain ⟨isKey, keep⟩ := mem_filter.mp isKept
  obtain ⟨slot, isOwn, marked, _, title, sameKeep⟩ := ready.right.listed_key isKey
  refine ⟨slot, isOwn, ?_, title⟩
  simp [renamedOuter, marked, sameKeep, keep, title, isTitle]

theorem dropped_listed (isOwn : slot ∈ input.own .right) (unkept : slot.select.keep = false) :
    ∃ key ∈ droppedKeys manager.rightSelect, key.newName = slot.title := by
  have key : slot.select.joinKey = true := by
    simpa [SelectInput.selected, unkept] using (mem_own.mp isOwn).2.2.2
  obtain ⟨column, isKey, title, _, keep⟩ := ready.right.slot_listed isOwn key (.inl unkept)
  exact ⟨column, mem_filter.mpr ⟨isKey, by simp [keep, unkept]⟩, title⟩

theorem leftKeyName_slot {name : String} (isTitle : name ∈ leftKeyNames manager) :
    ∃ slot ∈ input.own .left, slot.title = name := by
  obtain ⟨key, isKey, rfl⟩ := mem_map.mp isTitle
  obtain ⟨slot, isOwn, _, _, title, _⟩ := ready.left.listed_key isKey
  exact ⟨slot, isOwn, title⟩

theorem outerName_taken (fits : OuterFits manager input) (isOwn : slot ∈ input.own .right) :
    (∃ other ∈ input.own .left, other.title = slot.select.outerName manager) ↔
      slot.select.keep = false ∧ slot.title ∈ leftKeyNames manager := by
  obtain ⟨_, _, inSelects, selected⟩ := mem_own.mp isOwn
  constructor
  · rintro ⟨other, otherOwn, same⟩
    obtain ⟨_, _, otherSelects, otherSelected⟩ := mem_own.mp otherOwn
    rw [outerName] at same
    split at same
    case isTrue renames =>
      obtain ⟨key, isKept, title, isTitle⟩ := renamedOuter_listed ready fits isOwn renames
      refine absurd ?_ (fits.aliasApart key isKept isTitle _ otherSelects otherSelected)
      rw [title]
      exact same
    case isFalse plain =>
      cases keep : slot.select.keep with
      | false =>
        obtain ⟨key, isDropped, title⟩ := dropped_listed ready isOwn keep
        refine ⟨rfl, ?_⟩
        rw [← title]
        exact fits.dropApart key isDropped _ otherSelects otherSelected (same.trans title.symm)
      | true =>
      cases marked : slot.select.joinKey with
      | false => exact absurd same (fits.titlesApart _ inSelects keep marked _ otherSelects
          otherSelected)
      | true =>
      cases otherKeep : other.select.keep with
      | true =>
        refine absurd (mem_map_of_mem (mem_filter.mpr ⟨inSelects, keep⟩))
          (ready.disjoint slot.select.newName ?_)
        rw [← same]
        exact mem_map_of_mem (mem_filter.mpr ⟨otherSelects, otherKeep⟩)
      | false =>
        have otherKey : other.select.joinKey = true := by
          simpa [SelectInput.selected, otherKeep] using otherSelected
        obtain ⟨column, isKey, title, _, _⟩ :=
          ready.left.slot_listed otherOwn otherKey (.inl otherKeep)
        have isTitle : slot.select.newName ∈ leftKeyNames manager := by
          rw [← same, Slot.title, ← title]
          exact mem_map_of_mem isKey
        simp [renamedOuter, marked, keep, isTitle] at plain
  · rintro ⟨unkept, isTitle⟩
    obtain ⟨other, otherOwn, same⟩ := leftKeyName_slot ready isTitle
    refine ⟨other, otherOwn, ?_⟩
    rw [same, outerName]
    simp [renamedOuter, unkept, Slot.title]

theorem outerName_injective (fits : OuterFits manager input) {first second : Slot}
    (inFirst : first ∈ input.own .right) (inSecond : second ∈ input.own .right)
    (same : first.select.outerName manager = second.select.outerName manager) :
    first = second := by
  have distinct := ready.right.titles_nodup
  rw [(ready.right.perm.map _).nodup_iff] at distinct
  -- A temporary name is no other column's name.
  have mixed : ∀ one two : Slot, one ∈ input.own .right → two ∈ input.own .right →
      one.select.renamedOuter manager = true → two.select.outerName manager =
        jkAlias one.select.newName → two.title = one.title := by
    intro one two inOne inTwo renames taken
    obtain ⟨key, isKept, title, isTitle⟩ := renamedOuter_listed ready fits inOne renames
    obtain ⟨_, _, twoSelects, twoSelected⟩ := mem_own.mp inTwo
    by_contra apart
    refine fits.aliasFresh key isKept isTitle _ twoSelects twoSelected ?_ ?_
    · rw [title]
      exact apart
    · rw [title]
      exact taken
  apply inj_on_of_nodup_map distinct inFirst inSecond
  cases firstRenames : first.select.renamedOuter manager with
  | true =>
    have named : first.select.outerName manager = jkAlias first.select.newName := by
      rw [outerName, if_pos firstRenames]
    exact (mixed first second inFirst inSecond firstRenames (same.symm.trans named)).symm
  | false =>
  have named : first.select.outerName manager = first.select.newName := by
    rw [outerName, firstRenames]
    rfl
  cases secondRenames : second.select.renamedOuter manager with
  | true =>
    have secondNamed : second.select.outerName manager = jkAlias second.select.newName := by
      rw [outerName, if_pos secondRenames]
    exact mixed second first inSecond inFirst secondRenames (same.trans secondNamed)
  | false =>
  have secondNamed : second.select.outerName manager = second.select.newName := by
    rw [outerName, secondRenames]
    rfl
  exact named.symm.trans (same.trans secondNamed)

theorem outer_nodup (fits : OuterFits manager input) :
    ((outerSlots input leftColumns rightColumns).map (outerJoinName manager)).Nodup := by
  have leftNames : (inOrder leftColumns (input.own .left)).map (outerJoinName manager) =
      (inOrder leftColumns (input.own .left)).map Slot.title := by
    apply map_congr_left
    intro slot mem
    simp only [outerJoinName, (mem_own.mp (ready.left.mem_inOrder.mp mem)).1]
  have rightNames : (inOrder rightColumns (input.own .right)).map (outerJoinName manager) =
      (inOrder rightColumns (input.own .right)).map (outerRightName manager) := by
    apply map_congr_left
    intro slot mem
    simp only [outerJoinName, (mem_own.mp (ready.right.mem_inOrder.mp mem)).1]
  have suffixed : ∀ slot ∈ input.own .right,
      slot.select.keep = false ∧ slot.title ∈ leftKeyNames manager →
        (∀ other ∈ input.own .left, other.title ≠ polarsSuffix slot.title) ∧
          ∀ other ∈ input.own .right, other.select.outerName manager ≠ polarsSuffix slot.title := by
    rintro slot isOwn ⟨unkept, isTitle⟩
    obtain ⟨key, isDropped, title⟩ := dropped_listed ready isOwn unkept
    obtain ⟨left, right⟩ := fits.suffixFree key isDropped (by rwa [title])
    rw [title] at left right
    exact ⟨fun other otherOwn => left _ (mem_own.mp otherOwn).2.2.1 (mem_own.mp otherOwn).2.2.2,
      fun other otherOwn => right _ (mem_own.mp otherOwn).2.2.1 (mem_own.mp otherOwn).2.2.2⟩
  rw [outerSlots, map_append, leftNames, rightNames]
  refine ready.left.titles_nodup.append ?_ ?_
  · refine (nodup_map_iff_inj_on ready.right.titles_nodup.of_map).mpr ?_
    intro first inFirst second inSecond same
    have firstOwn := ready.right.mem_inOrder.mp inFirst
    have secondOwn := ready.right.mem_inOrder.mp inSecond
    rw [outerRightName, outerRightName] at same
    split at same
    case isTrue firstTaken =>
      split at same
      case isTrue =>
        exact inj_on_of_nodup_map ready.right.titles_nodup inFirst inSecond
          (polarsSuffix_injective same)
      case isFalse => exact absurd same.symm ((suffixed first firstOwn firstTaken).2 _ secondOwn)
    case isFalse =>
      split at same
      case isTrue secondTaken =>
        exact absurd same ((suffixed second secondOwn secondTaken).2 _ firstOwn)
      case isFalse => exact outerName_injective ready fits firstOwn secondOwn same
  · intro name inLeft inRight
    obtain ⟨other, otherMember, rfl⟩ := mem_map.mp inLeft
    obtain ⟨slot, mem, same⟩ := mem_map.mp inRight
    have otherOwn := ready.left.mem_inOrder.mp otherMember
    have isOwn := ready.right.mem_inOrder.mp mem
    rw [outerRightName] at same
    split at same
    case isTrue taken => exact (suffixed slot isOwn taken).1 other otherOwn same.symm
    case isFalse free =>
      exact free ((outerName_taken ready fits isOwn).mp ⟨other, otherOwn, same.symm⟩)

end

def outerRenames (manager : JoinInput) : List SelectInput :=
  (keptKeys manager.rightSelect).filter fun key => key.newName ∈ leftKeyNames manager

section

variable (ready : BothReady manager input leftColumns rightColumns)
include ready

/-- Right keys get their temporary names. -/
theorem outer_renames_run (fits : OuterFits manager input) :
    runSteps (unlessEmpty .rename ((outerRenames manager).map fun key =>
        (key.newName, jkAlias key.newName)))
      (ofEntries Slot.title Slot.source (inOrder rightColumns (input.own .right))) =
        .ok (ofEntries (fun slot => slot.select.outerName manager) Slot.source
          (inOrder rightColumns (input.own .right))) := by
  have titled : ((inOrder rightColumns (input.own .right)).map Slot.title).map
      (renamed ((outerRenames manager).map fun key => (key.newName, jkAlias key.newName))) =
        (inOrder rightColumns (input.own .right)).map fun slot =>
          slot.select.outerName manager := by
    apply map_renamed ready.right.titles_nodup (fun slot : Slot => slot.select.outerName manager)
      fun slot => slot.select.renamedOuter manager = true
    · intro pair inTable
      obtain ⟨key, isRenamed, rfl⟩ := mem_map.mp inTable
      obtain ⟨isKept, isTitle⟩ := mem_filter.mp isRenamed
      obtain ⟨slot, isOwn, renames, title⟩ :=
        renamedOuter_slot ready isKept (of_decide_eq_true isTitle)
      refine ⟨slot, ready.right.mem_inOrder.mpr isOwn, renames, ?_⟩
      rw [outerName, if_pos renames, title, ← title]
      rfl
    · intro slot mem renames
      obtain ⟨key, isKept, title, isTitle⟩ :=
        renamedOuter_listed ready fits (ready.right.mem_inOrder.mp mem) renames
      refine mem_map.mpr ⟨key, mem_filter.mpr ⟨isKept, decide_eq_true isTitle⟩, ?_⟩
      rw [outerName, if_pos renames, title]
      rfl
    · intro slot _ plain
      rw [outerName, if_neg plain]
      rfl
  have distinct : ((inOrder rightColumns (input.own .right)).map fun slot =>
      slot.select.outerName manager).Nodup := by
    refine (nodup_map_iff_inj_on ready.right.titles_nodup.of_map).mpr ?_
    intro first inFirst second inSecond same
    exact outerName_injective ready fits (ready.right.mem_inOrder.mp inFirst)
      (ready.right.mem_inOrder.mp inSecond) same
  apply runSteps_rename
  rw [renameTable_ok, renameColumns_ok, names_ofEntries, names_ofEntries, titled]
  refine ⟨⟨?_, distinct, rfl⟩, (rename_ofEntries titled).symm⟩
  intro name inNames
  obtain ⟨pair, inTable, rfl⟩ := mem_map.mp inNames
  obtain ⟨key, isRenamed, rfl⟩ := mem_map.mp inTable
  obtain ⟨isKept, isTitle⟩ := mem_filter.mp isRenamed
  obtain ⟨slot, isOwn, _, title⟩ := renamedOuter_slot ready isKept (of_decide_eq_true isTitle)
  exact mem_map.mpr ⟨slot, ready.right.mem_inOrder.mpr isOwn, title⟩

theorem outerRightOn_slot (fits : OuterFits manager input) (isOwn : slot ∈ input.own .right)
    (marked : slot.select.joinKey = true) :
    (match findByNewName manager.rightSelect slot.title with
      | some select =>
        if select.keep ∧ select.newName ∈ leftKeyNames manager then jkAlias select.newName
        else slot.title
      | none => slot.title) = slot.select.outerName manager := by
  have distinct := ready.right.titles_nodup
  rw [(ready.right.perm.map _).nodup_iff] at distinct
  cases found : findByNewName manager.rightSelect slot.title with
  | none =>
    have plain : slot.select.renamedOuter manager ≠ true := by
      intro renames
      obtain ⟨key, isKept, title, _⟩ := renamedOuter_listed ready fits isOwn renames
      obtain ⟨isListed, _⟩ := mem_filter.mp (mem_filter.mp isKept).1
      have missing := List.find?_eq_none.mp found key isListed
      simp [title] at missing
    rw [outerName, if_neg plain]
    rfl
  | some select =>
  have sameTitle : select.newName = slot.title := by
    simpa using List.find?_some found
  dsimp only
  rw [sameTitle, outerName]
  cases renames : slot.select.renamedOuter manager with
  | true =>
    obtain ⟨key, isKept, title, isTitle⟩ := renamedOuter_listed ready fits isOwn renames
    have keep := fits.firstKept key isKept isTitle select (by rwa [title])
    rw [if_pos ⟨keep, by rwa [← title]⟩]
    rfl
  | false =>
  have plain : ¬ (select.keep = true ∧ slot.title ∈ leftKeyNames manager) := by
    rintro ⟨keep, isTitle⟩
    have inListed := mem_of_find?_eq_some found
    obtain ⟨other, otherOwn, otherSelect⟩ := listed_slot ready.right.settled inListed
      (by simp [SelectInput.selected, keep])
    have sameSlot := inj_on_of_nodup_map distinct otherOwn isOwn
      (by rw [Slot.title, otherSelect]; exact sameTitle)
    have slotKeep : slot.select.keep = true := by
      rw [← sameSlot, otherSelect]
      exact keep
    have isTitle : slot.select.newName ∈ leftKeyNames manager := isTitle
    simp [renamedOuter, marked, slotKeep, isTitle] at renames
  rw [if_neg plain]
  rfl

theorem mem_outerRightOn
    (how : manager.how = .outer) (fits : OuterFits manager input) (name : String) :
    name ∈ (handleOuterJoinKeys manager (getJoinKeys manager).1 (getJoinKeys manager).2).rightOn ↔
      ∃ slot ∈ input.own .right, slot.select.joinKey = true ∧
        name = slot.select.outerName manager := by
  have renames : manager.how.renamesRightKeys = true := by
    rw [how]
    rfl
  rw [handleOuterJoinKeys]
  dsimp only
  rw [mem_map]
  constructor
  · rintro ⟨key, isKey, rfl⟩
    rw [getJoinKeys_right_renamed renames, ready.right.mem_titles fits.available] at isKey
    obtain ⟨slot, isOwn, marked, rfl⟩ := isKey
    exact ⟨slot, isOwn, marked, outerRightOn_slot ready fits isOwn marked⟩
  · rintro ⟨slot, isOwn, marked, rfl⟩
    refine ⟨slot.title, ?_, outerRightOn_slot ready fits isOwn marked⟩
    rw [getJoinKeys_right_renamed renames, ready.right.mem_titles fits.available]
    exact ⟨slot, isOwn, marked, rfl⟩

theorem outer_join (how : manager.how = .outer) (fits : OuterFits manager input) :
    joinTable .full polarsSuffix
      (ofEntries Slot.title Slot.source (inOrder leftColumns (input.own .left)))
      (ofEntries (fun slot => slot.select.outerName manager) Slot.source
        (inOrder rightColumns (input.own .right)))
      (handleOuterJoinKeys manager (getJoinKeys manager).1 (getJoinKeys manager).2).leftOn
      (handleOuterJoinKeys manager (getJoinKeys manager).1 (getJoinKeys manager).2).rightOn =
        .ok (ofEntries (outerJoinName manager) Slot.source
          (outerSlots input leftColumns rightColumns)) := by
  have table : JoinType.full.table polarsSuffix
      (ofEntries Slot.title Slot.source (inOrder leftColumns (input.own .left)))
      (ofEntries (fun slot => slot.select.outerName manager) Slot.source
        (inOrder rightColumns (input.own .right)))
      (handleOuterJoinKeys manager (getJoinKeys manager).1 (getJoinKeys manager).2).leftOn
      (handleOuterJoinKeys manager (getJoinKeys manager).1 (getJoinKeys manager).2).rightOn =
        ofEntries (outerJoinName manager) Slot.source
          (outerSlots input leftColumns rightColumns) := by
    rw [JoinType.table, beside, names_ofEntries, outerSlots, ofEntries_append]
    congr 1
    · apply ofEntries_congr
      intro slot mem
      simp only [outerJoinName, (mem_own.mp (ready.left.mem_inOrder.mp mem)).1]
    · rw [ofEntries, ofEntries, map_map]
      apply map_congr_left
      intro slot mem
      have isOwn := ready.right.mem_inOrder.mp mem
      have taken : slot.select.outerName manager ∈
          (inOrder leftColumns (input.own .left)).map Slot.title ↔
            slot.select.keep = false ∧ slot.title ∈ leftKeyNames manager := by
        rw [← outerName_taken ready fits isOwn, mem_map]
        simp only [ready.left.mem_inOrder]
      simp only [Function.comp_apply, taken, outerJoinName, (mem_own.mp isOwn).1, outerRightName]
      split
      case isTrue isDropped =>
        rw [outerName]
        simp [renamedOuter, isDropped.1, Slot.title]
      case isFalse => rfl
  rw [joinTable_ok, table, names_ofEntries, names_ofEntries, names_ofEntries]
  refine ⟨?_, ?_, outer_nodup ready fits, rfl⟩
  · intro name isKey
    have isKey : name ∈ (getJoinKeys manager).1 := isKey
    rw [getJoinKeys_left, ready.left.mem_titles ready.leftAvailable] at isKey
    obtain ⟨slot, isOwn, _, rfl⟩ := isKey
    exact mem_map.mpr ⟨slot, ready.left.mem_inOrder.mpr isOwn, rfl⟩
  · intro name isKey
    obtain ⟨slot, isOwn, _, rfl⟩ := (mem_outerRightOn ready how fits name).mp isKey
    exact mem_map.mpr ⟨slot, ready.right.mem_inOrder.mpr isOwn, rfl⟩

theorem outer_run (how : manager.how = .outer) (fits : OuterFits manager input) :
    ∃ result, (handleStandardJoin manager).run (sourceTable .left leftColumns)
      (sourceTable .right rightColumns) = .ok result ∧
        result.Perm (input.keptSources .left ++ input.keptSources .right) := by
  have renames : manager.how.renamesRightKeys = true := by
    rw [how]
    rfl
  have rightPrepares := ready.rightPrepares
  rw [renames] at rightPrepares
  have kept : (ofEntries Slot.title Slot.source ((outerSlots input leftColumns
      rightColumns).filter fun slot => !!slot.select.keep)).Perm
        (input.keptSources .left ++ input.keptSources .right) := by
    simp only [Bool.not_not]
    rw [outerSlots, filter_append, ofEntries_append]
    exact (ofEntries_perm (ready.left.perm.filter _)).append
      (ofEntries_perm (ready.right.perm.filter _))
  have left := ready.left.titles_run ready.leftPrepares
  have right := ready.right.titles_run rightPrepares
  have retitling := outer_renames_run ready fits
  have joining := outer_join ready how fits
  have post := @post_run _ (outerJoinName manager) Slot.title (fun slot => !slot.select.keep)
    (fun slot => slot.side = .right ∧ slot.select.renamedOuter manager = true)
    (handleOuterJoinKeys manager (getJoinKeys manager).1 (getJoinKeys manager).2).afterJoinDropCols
    (handleOuterJoinKeys manager (getJoinKeys manager).1 (getJoinKeys manager).2).reverseAction
    (outer_nodup ready fits)
    (by
      intro other inDrops
      rcases mem_append.mp inDrops with inLeft | inRight
      · obtain ⟨key, isDropped, rfl⟩ := mem_map.mp inLeft
        obtain ⟨isKey, unkept⟩ := mem_filter.mp isDropped
        obtain ⟨slot, isOwn, _, _, title, keep⟩ := ready.left.listed_key isKey
        refine ⟨slot, mem_append_left _ (ready.left.mem_inOrder.mpr isOwn), ?_, ?_⟩
        · rwa [keep]
        · simp only [outerJoinName, (mem_own.mp isOwn).1, Slot.title, title]
      · obtain ⟨key, isDropped, rfl⟩ := mem_map.mp inRight
        obtain ⟨isKey, unkept⟩ := mem_filter.mp isDropped
        obtain ⟨slot, isOwn, _, _, title, keep⟩ := ready.right.listed_key isKey
        refine ⟨slot, mem_append_right _ (ready.right.mem_inOrder.mpr isOwn), ?_, ?_⟩
        · rwa [keep]
        · have unkept : slot.select.keep = false := by simpa [keep] using unkept
          simp only [outerJoinName, (mem_own.mp isOwn).1, outerRightName_unkept unkept, Slot.title,
            title, ite_not]
          rfl)
    (by
      intro slot mem unkept
      have unkept : slot.select.keep = false := by simpa using unkept
      rcases mem_append.mp mem with inLeft | inRight
      · have isOwn := ready.left.mem_inOrder.mp inLeft
        have key : slot.select.joinKey = true := by
          simpa [SelectInput.selected, unkept] using (mem_own.mp isOwn).2.2.2
        obtain ⟨column, isKey, title, _, keep⟩ := ready.left.slot_listed isOwn key (.inl unkept)
        apply mem_append_left
        refine mem_map.mpr ⟨column, mem_filter.mpr ⟨isKey, ?_⟩, ?_⟩
        · simp [keep, unkept]
        · simp only [outerJoinName, (mem_own.mp isOwn).1, Slot.title, title]
      · have isOwn := ready.right.mem_inOrder.mp inRight
        obtain ⟨column, isDropped, title⟩ := dropped_listed ready isOwn unkept
        refine mem_append_right _ (mem_map.mpr ⟨column, isDropped, ?_⟩)
        simp only [outerJoinName, (mem_own.mp isOwn).1, outerRightName_unkept unkept, title,
          ite_not]
        rfl)
    (by
      intro pair inReverse
      obtain ⟨key, isRenamed, rfl⟩ := mem_map.mp inReverse
      obtain ⟨isKept, isTitle⟩ := mem_filter.mp isRenamed
      obtain ⟨slot, isOwn, renames, title⟩ :=
        renamedOuter_slot ready isKept (of_decide_eq_true isTitle)
      have keep : slot.select.keep = true := by
        simp only [renamedOuter, Bool.and_eq_true] at renames
        exact renames.1.2
      refine ⟨slot, mem_append_right _ (ready.right.mem_inOrder.mpr isOwn), by simp [keep],
        ⟨(mem_own.mp isOwn).1, renames⟩, ?_⟩
      simp only [outerJoinName, (mem_own.mp isOwn).1, outerRightName_kept keep,
        outerName, renames, if_true, ← title]
      rfl)
    (by
      rintro slot mem keep ⟨isRight, renames⟩
      have keep : slot.select.keep = true := by simpa using keep
      have isOwn : slot ∈ input.own .right := by
        rcases mem_append.mp mem with inLeft | inRight
        · rw [(mem_own.mp (ready.left.mem_inOrder.mp inLeft)).1] at isRight
          cases isRight
        · exact ready.right.mem_inOrder.mp inRight
      obtain ⟨key, isKept, title, isTitle⟩ := renamedOuter_listed ready fits isOwn renames
      refine mem_map.mpr ⟨key, mem_filter.mpr ⟨isKept, decide_eq_true isTitle⟩, ?_⟩
      simp only [outerJoinName, isRight, outerRightName_kept keep, outerName, renames,
        if_true, title]
      rfl)
    (by
      intro slot _ keep plain
      have keep : slot.select.keep = true := by simpa using keep
      cases side : slot.side with
      | left => simp only [outerJoinName, side]
      | right =>
      have plain : slot.select.renamedOuter manager ≠ true := fun renames =>
        plain ⟨side, renames⟩
      simp only [outerJoinName, side, outerRightName_kept keep, outerName, if_neg plain]
      rfl)
    (ready.targets_nodup kept)
  have keys : handleJoinKeyTransformations manager (getJoinKeys manager).1
      (getJoinKeys manager).2 = handleOuterJoinKeys manager (getJoinKeys manager).1
        (getJoinKeys manager).2 := by
    rw [handleJoinKeyTransformations, how]
  have type : manager.how.polarsType = .full := by
    rw [how]
    rfl
  refine ⟨_, ?_, kept⟩
  rw [JoinCode.run, handleStandardJoin, keys]
  simp only [renames, type, bind_ok]
  refine ⟨_, ?_, _, (runSteps_append right).trans retitling, _, joining, post⟩
  rw [handleOuterJoinKeys, append_nil]
  exact left

end

end

end Flowfile.Join

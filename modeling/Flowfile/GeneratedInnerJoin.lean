import Flowfile.GeneratedSides

/-!
# Generated inner and left joins

The join drops the right keys. Those that are kept are copied before, and the copies are given the
names of the keys after the join.
-/

namespace Flowfile.Join

open Library.ColumnFrames Library.TracedFrames List
open Slot (preName source)

/-- What inner and left joins need besides: all right keys are listed, no column has the temporary
name of a kept right key, and no kept right column has the name of a left column. -/
structure LeftInnerFits (manager input : JoinInput) : Prop where
  keysListed : ∀ name ∈ manager.joinMapping.map JoinMap.rightCol,
    name ∈ manager.rightSelect.map SelectInput.oldName
  copiesFresh : ∀ key ∈ keptKeys manager.rightSelect, ∀ other ∈ input.rightSelect,
    other.selected = true → other.preName false ≠ dropAlias key.newName
  copiesApart : ∀ key ∈ keptKeys manager.rightSelect, ∀ other ∈ input.leftSelect,
    other.selected = true → other.newName ≠ dropAlias key.newName
  titlesApart : ∀ column ∈ input.rightSelect, column.keep = true → column.joinKey = false →
    ∀ other ∈ input.leftSelect, other.selected = true → other.newName ≠ column.newName

/-- Names of the copies are distinct. -/
theorem dropAlias_injective : Function.Injective dropAlias := by
  intro first second same
  rw [dropAlias, dropAlias, String.append_assoc, String.append_assoc] at same
  exact (String.append_left_inj _).mp ((String.append_right_inj _).mp same)

variable {slot : Slot}

section

variable {manager input : JoinInput} {leftColumns rightColumns : List String}

def leftInnerSlots (manager input : JoinInput) (leftColumns rightColumns : List String) :
    List Slot :=
  inOrder leftColumns (input.own .left) ++
    (((inOrder rightColumns (input.own .right)).filter fun slot => !slot.select.joinKey) ++
      keptCopies .right rightColumns manager.rightSelect)

theorem mem_leftInnerSlots : slot ∈ leftInnerSlots manager input leftColumns rightColumns ↔
      slot ∈ inOrder leftColumns (input.own .left) ∨
      (slot ∈ inOrder rightColumns (input.own .right) ∧ slot.select.joinKey = false) ∨
      ∃ key ∈ keptKeys manager.rightSelect,
        ⟨.right, { key with isAvailable := decide (key.oldName ∈ rightColumns) }, true⟩ = slot := by
  simp [leftInnerSlots, keptCopies]

def leftInnerName (slot : Slot) : String :=
  if slot.copied then dropAlias slot.title else slot.title

/-- The right columns of the result: those that are no keys, and the copies. -/
def leftInnerRest (manager input : JoinInput) (rightColumns : List String) : List Slot :=
  ((inOrder rightColumns (input.own .right)).filter fun slot => !slot.select.joinKey) ++
    keptCopies .right rightColumns manager.rightSelect

/-- The right table that is joined. -/
def leftInnerTable (manager input : JoinInput) (rightColumns : List String) : Table String Source :=
  ofEntries (preName false) source (inOrder rightColumns (input.own .right)) ++
    ofEntries (fun slot => dropAlias slot.title) source
      (keptCopies .right rightColumns manager.rightSelect)

theorem copy_of_mem {side : Side} {columns : List String} {listed : List SelectInput}
    (mem : slot ∈ keptCopies side columns listed) :
    leftInnerName slot = dropAlias slot.title ∧
      ∃ key ∈ keptKeys listed, slot.title = key.newName := by
  obtain ⟨key, isKept, rfl⟩ := mem_map.mp mem
  exact ⟨rfl, key, isKept, rfl⟩

theorem leftInner_fresh (fits : LeftInnerFits manager input) {copy : Slot}
    (isCopy : copy ∈ keptCopies .right rightColumns manager.rightSelect)
    (isOwn : slot ∈ input.own .right) : slot.preName false ≠ leftInnerName copy := by
  obtain ⟨named, key, isKept, title⟩ := copy_of_mem isCopy
  rw [named, title]
  exact fits.copiesFresh key isKept _ (mem_own.mp isOwn).2.2.1 (mem_own.mp isOwn).2.2.2

section

variable (ready : BothReady manager input leftColumns rightColumns)
include ready

theorem leftInner_left (mem : slot ∈ inOrder leftColumns (input.own .left)) :
    leftInnerName slot = slot.title := by
  simp [leftInnerName, (mem_own.mp (ready.left.mem_inOrder.mp mem)).2.1]

theorem leftInner_keyless
    (mem : slot ∈ (inOrder rightColumns (input.own .right)).filter
      fun slot => !slot.select.joinKey) :
    slot ∈ input.own .right ∧ slot.select.joinKey = false ∧
      leftInnerName slot = slot.preName false ∧ slot.preName false = slot.title := by
  obtain ⟨isOrdered, keyless⟩ := mem_filter.mp mem
  have isOwn := ready.right.mem_inOrder.mp isOrdered
  have keyless : slot.select.joinKey = false := by simpa using keyless
  have preNamed : slot.preName false = slot.title := by
    simp [preName, SelectInput.preName, keyless, Slot.title]
  refine ⟨isOwn, keyless, ?_, preNamed⟩
  simp [leftInnerName, (mem_own.mp isOwn).2.1, preNamed]

theorem mem_leftInnerKeys (keepsNames : manager.how.renamesRightKeys = false) {name : String} :
    name ∈ (getJoinKeys manager).2 ↔ ∃ slot ∈ input.own .right,
      slot.select.joinKey = true ∧ name = slot.preName false := by
  rw [getJoinKeys_right keepsNames, ready.right.mem_keys]
  refine exists_congr fun slot => and_congr_right fun _ => and_congr_right fun key => ?_
  simp [preName, SelectInput.preName, key]

theorem rightPreNames_nodup (keepsNames : manager.how.renamesRightKeys = false) :
    ((inOrder rightColumns (input.own .right)).map (preName false)).Nodup := by
  have rightPrepares := ready.rightPrepares
  rw [keepsNames] at rightPrepares
  exact ready.right.preNames_nodup rightPrepares

section

variable (keepsNames : manager.how.renamesRightKeys = false) (fits : LeftInnerFits manager input)
include fits

/-- The rest has no name of a left column. -/
theorem leftInner_apart {left right : Slot} (inLeft : left ∈ inOrder leftColumns (input.own .left))
    (inRest : right ∈ leftInnerRest manager input rightColumns) :
    left.title ≠ leftInnerName right := by
  obtain ⟨_, _, inSelects, selected⟩ := mem_own.mp (ready.left.mem_inOrder.mp inLeft)
  rcases mem_append.mp inRest with isKeyless | isCopy
  · obtain ⟨isOwn, keyless, named, preNamed⟩ := leftInner_keyless ready isKeyless
    obtain ⟨_, _, rightSelects, rightSelected⟩ := mem_own.mp isOwn
    have keep : right.select.keep = true := by
      simpa [SelectInput.selected, keyless] using rightSelected
    rw [named, preNamed]
    exact fits.titlesApart _ rightSelects keep keyless _ inSelects selected
  · obtain ⟨named, key, isKept, title⟩ := copy_of_mem isCopy
    rw [named, title]
    exact fits.copiesApart key isKept _ inSelects selected

include keepsNames

theorem leftInner_remaining : ((leftInnerTable manager input rightColumns).filter
      fun column => column.1 ∉ (getJoinKeys manager).2) =
        ofEntries leftInnerName source (leftInnerRest manager input rightColumns) := by
  have keyNames := fun name => @mem_leftInnerKeys _ _ _ _ ready keepsNames name
  rw [leftInnerTable, leftInnerRest, filter_append, ofEntries_append]
  congr 1
  · rw [filter_ofEntries_gone (rightPreNames_nodup ready keepsNames)
      fun slot => slot.select.joinKey]
    · exact ofEntries_congr fun slot mem => (leftInner_keyless ready mem).2.2.1.symm
    · intro name isKey
      obtain ⟨slot, isOwn, key, rfl⟩ := (keyNames name).mp isKey
      exact ⟨slot, ready.right.mem_inOrder.mpr isOwn, key, rfl⟩
    · intro slot isOrdered key
      exact (keyNames _).mpr ⟨slot, ready.right.mem_inOrder.mp isOrdered, key, rfl⟩
  · rw [filter_eq_self.mpr]
    · exact ofEntries_congr fun slot mem => (copy_of_mem mem).1.symm
    · intro column mem
      obtain ⟨slot, isCopy, rfl⟩ := mem_map.mp mem
      apply decide_eq_true
      intro isKey
      obtain ⟨other, isOwn, _, same⟩ := (keyNames _).mp isKey
      exact leftInner_fresh fits isCopy isOwn (same.symm.trans (copy_of_mem isCopy).1.symm)

theorem leftInner_nodup :
    ((leftInnerSlots manager input leftColumns rightColumns).map leftInnerName).Nodup := by
  have copiesDistinct : ((keptCopies .right rightColumns manager.rightSelect).map
      leftInnerName).Nodup := by
    have aliases := ready.right.keptKeys_nodup.map dropAlias_injective
    rw [map_map] at aliases
    rw [keptCopies, map_map]
    exact aliases
  have keylessDistinct : (((inOrder rightColumns (input.own .right)).filter
      fun slot => !slot.select.joinKey).map leftInnerName).Nodup := by
    rw [map_congr_left fun slot mem => (leftInner_keyless ready mem).2.2.1]
    exact (rightPreNames_nodup ready keepsNames).sublist (filter_sublist.map _)
  have leftDistinct : ((inOrder leftColumns (input.own .left)).map leftInnerName).Nodup := by
    rw [map_congr_left fun slot mem => leftInner_left ready mem]
    exact ready.left.titles_nodup
  rw [leftInnerSlots, map_append, map_append]
  refine leftDistinct.append (keylessDistinct.append copiesDistinct ?_) ?_
  · intro name isKeyless isCopy
    obtain ⟨slot, mem, rfl⟩ := mem_map.mp isKeyless
    obtain ⟨copy, copyMember, same⟩ := mem_map.mp isCopy
    obtain ⟨isOwn, _, named, _⟩ := leftInner_keyless ready mem
    exact leftInner_fresh fits copyMember isOwn (named.symm.trans same.symm)
  · intro name inLeft inRest
    rw [← map_append] at inRest
    obtain ⟨slot, mem, rfl⟩ := mem_map.mp inLeft
    obtain ⟨other, isOther, same⟩ := mem_map.mp inRest
    exact leftInner_apart ready fits mem isOther ((leftInner_left ready mem).symm.trans same.symm)

theorem leftInner_join : joinTable .coalescing polarsSuffix
      (ofEntries Slot.title source (inOrder leftColumns (input.own .left)))
      (leftInnerTable manager input rightColumns)
      (getJoinKeys manager).1 (getJoinKeys manager).2 = .ok (ofEntries leftInnerName source
          (leftInnerSlots manager input leftColumns rightColumns)) := by
  have apart : ∀ name ∈ names (ofEntries leftInnerName source
      (leftInnerRest manager input rightColumns)),
      name ∉ names (ofEntries Slot.title source (inOrder leftColumns (input.own .left))) := by
    intro name inRest inLeft
    rw [names_ofEntries] at inRest inLeft
    obtain ⟨left, isOrdered, rfl⟩ := mem_map.mp inLeft
    obtain ⟨right, mem, same⟩ := mem_map.mp inRest
    exact leftInner_apart ready fits isOrdered mem same.symm
  have table : JoinType.coalescing.table polarsSuffix
      (ofEntries Slot.title source (inOrder leftColumns (input.own .left)))
      (leftInnerTable manager input rightColumns) (getJoinKeys manager).1
      (getJoinKeys manager).2 = ofEntries leftInnerName source
        (leftInnerSlots manager input leftColumns rightColumns) := by
    rw [JoinType.table, leftInner_remaining ready keepsNames fits, beside_of_apart apart,
      leftInnerSlots, ← leftInnerRest, ofEntries_append]
    congr 1
    exact ofEntries_congr fun slot mem => (leftInner_left ready mem).symm
  rw [joinTable_ok, table, names_ofEntries, names_ofEntries]
  refine ⟨?_, ?_, leftInner_nodup ready keepsNames fits, rfl⟩
  · intro name isKey
    rw [getJoinKeys_left, ready.left.mem_titles ready.leftAvailable] at isKey
    obtain ⟨slot, isOwn, _, rfl⟩ := isKey
    exact mem_map.mpr ⟨slot, ready.left.mem_inOrder.mpr isOwn, rfl⟩
  · intro name isKey
    obtain ⟨slot, isOwn, _, rfl⟩ := (mem_leftInnerKeys ready keepsNames).mp isKey
    rw [leftInnerTable, names_append, names_ofEntries]
    exact mem_append_left _ (mem_map.mpr ⟨slot, ready.right.mem_inOrder.mpr isOwn, rfl⟩)

end

theorem leftInner_kept (fits : LeftInnerFits manager input) :
    (ofEntries Slot.title source ((leftInnerSlots manager input leftColumns
      rightColumns).filter fun slot => !!slot.select.keep)).Perm
        (input.keptSources .left ++ input.keptSources .right) := by
  simp only [Bool.not_not]
  have copiesKept : (keptCopies .right rightColumns manager.rightSelect).filter
      (fun slot => slot.select.keep) = keptCopies .right rightColumns manager.rightSelect := by
    rw [filter_eq_self]
    intro slot mem
    obtain ⟨key, isKept, rfl⟩ := mem_map.mp mem
    exact (mem_filter.mp isKept).2
  have rightSplit : (ofEntries Slot.title source
      ((((inOrder rightColumns (input.own .right)).filter fun slot => !slot.select.joinKey).filter
        fun slot => slot.select.keep) ++ keptCopies .right rightColumns manager.rightSelect)).Perm
          (input.keptSources .right) := by
    rw [ofEntries_append, ready.right.copies_sources fits.keysListed, ← ofEntries_append,
      JoinInput.keptSources, JoinInput.kept]
    apply ofEntries_perm
    have parts := filter_append_perm (fun slot : Slot => !slot.select.joinKey)
      ((input.own .right).filter fun slot => slot.select.keep)
    refine List.Perm.trans ?_ parts
    rw [filter_filter, filter_filter, filter_filter]
    apply List.Perm.append
    · have ordered := ready.right.perm.filter fun slot =>
        slot.select.keep && !slot.select.joinKey
      simpa only [Bool.and_comm] using ordered
    · apply List.Perm.of_eq
      apply filter_congr
      intro slot _
      simp [Bool.and_comm]
  rw [leftInnerSlots, filter_append, filter_append, copiesKept, ofEntries_append]
  exact (ofEntries_perm (ready.left.perm.filter _)).append rightSplit

theorem leftInner_run
    (how : manager.how = .inner ∨ manager.how = .left) (fits : LeftInnerFits manager input) :
    ∃ result, (handleStandardJoin manager).run (sourceTable .left leftColumns)
      (sourceTable .right rightColumns) = .ok result ∧
        result.Perm (input.keptSources .left ++ input.keptSources .right) := by
  have keepsNames : manager.how.renamesRightKeys = false := by
    rcases how with inner | left
    · rw [inner]
      rfl
    · rw [left]
      rfl
  have rightPrepares := ready.rightPrepares
  rw [keepsNames] at rightPrepares
  have joining := leftInner_join ready keepsNames fits
  have kept := leftInner_kept ready fits
  have left := ready.left.titles_run ready.leftPrepares
  have right := preJoin_run ready.right.settled ready.right.sound rightPrepares
    ready.right.distinct
  have copies := ready.right.copies_run rightPrepares dropAlias_injective
    (by
      intro key isKept slot mem
      exact fits.copiesFresh key isKept _ (mem_own.mp mem).2.2.1 (mem_own.mp mem).2.2.2)
  have targets : (((leftInnerSlots manager input leftColumns rightColumns).filter
      fun slot => !!slot.select.keep).map Slot.title).Nodup := ready.targets_nodup kept
  have post := @post_run _ leftInnerName Slot.title (fun slot => !slot.select.keep)
    (fun slot => slot.copied = true)
    ((droppedKeys manager.leftSelect).map SelectInput.newName)
    ((keptKeys manager.rightSelect).map fun key => (dropAlias key.newName, key.newName))
    (leftInner_nodup ready keepsNames fits)
    (by
      intro other inDrops
      obtain ⟨key, isDropped, rfl⟩ := mem_map.mp inDrops
      obtain ⟨isKey, unkept⟩ := mem_filter.mp isDropped
      obtain ⟨slot, isOwn, _, _, title, keep⟩ := ready.left.listed_key isKey
      refine ⟨slot, mem_leftInnerSlots.mpr (.inl (ready.left.mem_inOrder.mpr isOwn)), ?_, ?_⟩
      · rwa [keep]
      · simp [leftInnerName, (mem_own.mp isOwn).2.1, Slot.title, title])
    (by
      intro slot mem unkept
      have unkept : slot.select.keep = false := by simpa using unkept
      rcases mem_leftInnerSlots.mp mem with inLeft | ⟨inRight, keyless⟩ | ⟨key, isKept, rfl⟩
      · have isOwn := ready.left.mem_inOrder.mp inLeft
        have key : slot.select.joinKey = true := by
          simpa [SelectInput.selected, unkept] using (mem_own.mp isOwn).2.2.2
        obtain ⟨column, isKey, title, _, keep⟩ :=
          ready.left.slot_listed isOwn key (.inl unkept)
        refine mem_map.mpr ⟨column, mem_filter.mpr ⟨isKey, ?_⟩, ?_⟩
        · simp [keep, unkept]
        · simp [leftInnerName, (mem_own.mp isOwn).2.1, Slot.title, title]
      · have isOwn := ready.right.mem_inOrder.mp inRight
        have selected := (mem_own.mp isOwn).2.2.2
        simp [SelectInput.selected, unkept, keyless] at selected
      · exact absurd (mem_filter.mp isKept).2 (by simpa using unkept))
    (by
      intro pair inReverse
      obtain ⟨key, isKept, rfl⟩ := mem_map.mp inReverse
      refine ⟨_, mem_leftInnerSlots.mpr (.inr (.inr ⟨key, isKept, rfl⟩)), ?_, rfl, rfl⟩
      simpa using (mem_filter.mp isKept).2)
    (by
      intro slot mem _ isCopied
      rcases mem_leftInnerSlots.mp mem with inLeft | ⟨inRight, _⟩ | ⟨key, isKept, rfl⟩
      · rw [(mem_own.mp (ready.left.mem_inOrder.mp inLeft)).2.1] at isCopied
        cases isCopied
      · rw [(mem_own.mp (ready.right.mem_inOrder.mp inRight)).2.1] at isCopied
        cases isCopied
      · exact mem_map.mpr ⟨key, isKept, rfl⟩)
    (by
      intro slot _ _ notCopied
      simp [leftInnerName, notCopied])
    targets
  have sameCopies : (keptKeys manager.rightSelect).map (fun key =>
      (key.oldName, dropAlias key.newName)) = (keptKeys manager.rightSelect).map fun key =>
        (key.preName false, dropAlias key.newName) := by
    apply map_congr_left
    intro key isKept
    obtain ⟨_, marked⟩ := mem_filter.mp (mem_filter.mp isKept).1
    simp [SelectInput.preName, marked]
  have keys : handleJoinKeyTransformations manager (getJoinKeys manager).1
      (getJoinKeys manager).2 = handleLeftInnerJoinKeys manager (getJoinKeys manager).1
        (getJoinKeys manager).2 := by
    rcases how with inner | left
    · rw [handleJoinKeyTransformations, inner]
    · rw [handleJoinKeyTransformations, left]
  have type : manager.how.polarsType = .coalescing := by
    rcases how with inner | left
    · rw [inner]
      rfl
    · rw [left]
      rfl
  refine ⟨_, ?_, kept⟩
  rw [JoinCode.run, handleStandardJoin, keys]
  simp only [handleLeftInnerJoinKeys, append_nil, keepsNames, type, bind_ok]
  rw [← sameCopies] at copies
  exact ⟨_, left, _, (runSteps_append right).trans copies, _, joining, post⟩

end

end

end Flowfile.Join

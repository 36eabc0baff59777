import Flowfile.PreJoin

/-!
# Sides of a generated join

What the generated programs for all kinds of joins share: dropping and renaming columns after the
join, copying keys before it and the names of the columns that are kept.
-/

namespace Flowfile.Join

open Library.ColumnFrames Library.TracedFrames List
open SelectInput (selected newName oldName)
open Slot (source)

def Slot.title (slot : Slot) : String :=
  slot.select.newName

def Slot.preName (renamesKeys : Bool) (slot : Slot) : String :=
  slot.select.preName renamesKeys

open Slot (preName title)

def JoinInput.kept (input : JoinInput) (side : Side) : List Slot :=
  (input.own side).filter fun slot => slot.select.keep

/-- Before the join all columns have their new names if keys are renamed. -/
@[simp] theorem preName_true : preName true = title := by
  funext slot
  simp [preName, SelectInput.preName, title]

theorem post_run {entries : List Slot} {name target : Slot → String} {gone : Slot → Bool}
    {touched : Slot → Prop} {drops : List String} {reverse : List (String × String)}
    (distinct : (entries.map name).Nodup)
    (dropsFrom : ∀ other ∈ drops, ∃ slot ∈ entries, gone slot = true ∧ other = name slot)
    (dropsAll : ∀ slot ∈ entries, gone slot = true → name slot ∈ drops)
    (reverseFrom : ∀ pair ∈ reverse, ∃ slot ∈ entries, gone slot = false ∧ touched slot ∧
      pair = (name slot, target slot))
    (reverseAll : ∀ slot ∈ entries, gone slot = false → touched slot →
      (name slot, target slot) ∈ reverse)
    (others : ∀ slot ∈ entries, gone slot = false → ¬ touched slot → target slot = name slot)
    (targets : ((entries.filter fun slot => !gone slot).map target).Nodup) :
    runSteps (unlessEmpty .drop drops ++ unlessEmpty .rename reverse)
      (ofEntries name source entries) =
        .ok (ofEntries target source (entries.filter fun slot => !gone slot)) := by
  have remaining := @filter_ofEntries_gone _ _ _ _ name source entries distinct drops gone
    dropsFrom dropsAll
  have dropping : dropTable (ofEntries name source entries) drops =
      .ok (ofEntries name source (entries.filter fun slot => !gone slot)) := by
    rw [dropTable_ok, dropColumns_ok, ← remaining]
    refine ⟨⟨?_, names_filter fun name => decide (name ∉ drops)⟩, rfl⟩
    intro other inDrops
    obtain ⟨slot, mem, _, rfl⟩ := dropsFrom other inDrops
    rw [names_ofEntries]
    exact mem_map_of_mem mem
  have staysOf : ∀ {slot}, slot ∈ entries.filter (fun slot => !gone slot) →
      slot ∈ entries ∧ gone slot = false := by
    intro slot mem
    obtain ⟨inEntries, stays⟩ := mem_filter.mp mem
    exact ⟨inEntries, by simpa using stays⟩
  have titled : ((entries.filter fun slot => !gone slot).map name).map (renamed reverse) =
      (entries.filter fun slot => !gone slot).map target := by
    apply map_renamed (distinct.sublist (filter_sublist.map name)) target touched
    · intro pair inReverse
      obtain ⟨slot, mem, stays, hit, rfl⟩ := reverseFrom pair inReverse
      exact ⟨slot, mem_filter.mpr ⟨mem, by simp [stays]⟩, hit, rfl⟩
    · intro slot mem hit
      exact reverseAll slot (staysOf mem).1 (staysOf mem).2 hit
    · intro slot mem untouched
      exact others slot (staysOf mem).1 (staysOf mem).2 untouched
  have retitling : renameTable (ofEntries name source (entries.filter fun slot => !gone slot))
      reverse = .ok (ofEntries target source (entries.filter fun slot => !gone slot)) := by
    rw [renameTable_ok, renameColumns_ok, names_ofEntries, names_ofEntries, titled]
    refine ⟨⟨?_, targets, rfl⟩, (rename_ofEntries titled).symm⟩
    intro other inNames
    obtain ⟨pair, inReverse, rfl⟩ := mem_map.mp inNames
    obtain ⟨slot, mem, stays, _, rfl⟩ := reverseFrom pair inReverse
    exact mem_map_of_mem (mem_filter.mpr ⟨mem, by simp [stays]⟩)
  rw [runSteps_append (runSteps_drop dropping)]
  exact runSteps_rename retitling

section

variable {input : JoinInput} {side : Side} {keys columns : List String}
  {listed : List SelectInput} {renamesKeys : Bool}

section

variable (ready : Ready input side keys columns listed)
include ready

theorem Ready.perm : (inOrder columns (input.own side)).Perm (input.own side) :=
  inOrder_perm ready.distinct (own_oldNames ready.sound) (own_present ready.settled ready.sound)

theorem Ready.mem_inOrder {slot : Slot} :
    slot ∈ inOrder columns (input.own side) ↔ slot ∈ input.own side :=
  ready.perm.mem_iff

/-- Names before the join are distinct. -/
theorem Ready.preNames_nodup
    (prepares : PreparesSide renamesKeys columns listed (input.selects side)) :
    ((inOrder columns (input.own side)).map (preName renamesKeys)).Nodup := by
  rw [(ready.perm.map _).nodup_iff, JoinInput.own, map_map]
  exact prepares.distinct

/-- New names are distinct. -/
theorem Ready.titles_nodup : ((inOrder columns (input.own side)).map title).Nodup := by
  rw [(ready.perm.map _).nodup_iff, JoinInput.own, map_map]
  exact ready.sound.newDistinct

end

def keptCopies (side : Side) (columns : List String) (listed : List SelectInput) : List Slot :=
  (keptKeys listed).map fun key =>
    ⟨side, { key with isAvailable := decide (key.oldName ∈ columns) }, true⟩

section

variable (ready : Ready input side keys columns listed)
include ready

/-- New names of the listed columns that take part are distinct. -/
theorem Ready.listed_nodup : ((listed.filter selected).map newName).Nodup := by
  have distinct := ready.sound.newDistinct
  rw [ready.settled, withUnlisted, markAvailable, map_append, filter_append,
    map_append, filter_map, map_map] at distinct
  exact (nodup_append.mp distinct).1

theorem Ready.keptKeys_nodup : ((keptKeys listed).map newName).Nodup := by
  rw [keptKeys, getJoinKeySelects, filter_filter]
  refine ready.listed_nodup.sublist (List.Sublist.map _ (monotone_filter_right _ ?_))
  intro select flags
  obtain ⟨keep, _⟩ := Bool.and_eq_true_iff.mp flags
  simp [selected, keep]

/-- The generated operations on a side whose keys are renamed lead to the new names. -/
theorem Ready.titles_run (prepares : PreparesSide true columns listed (input.selects side)) :
    runSteps (applyPreJoinTransformations true listed) (sourceTable side columns) =
      .ok (ofEntries title source (inOrder columns (input.own side))) := by
  rw [← preName_true]
  exact preJoin_run ready.settled ready.sound prepares ready.distinct

theorem Ready.keptKey_slot {key : SelectInput} (isKept : key ∈ keptKeys listed) :
    ⟨side, { key with isAvailable := decide (key.oldName ∈ columns) }, false⟩ ∈ input.own side := by
  obtain ⟨isListed, marked⟩ := mem_filter.mp (mem_filter.mp isKept).1
  refine mem_own.mpr ⟨rfl, rfl, ?_, by simp [selected, marked]⟩
  rw [ready.settled]
  exact mem_withUnlisted.mpr (.inl ⟨key, isListed, rfl⟩)

theorem Ready.copies_run (prepares : PreparesSide renamesKeys columns listed (input.selects side))
    {copyName : String → String} (injective : Function.Injective copyName)
    (fresh : ∀ key ∈ keptKeys listed, ∀ slot ∈ input.own side,
      slot.preName renamesKeys ≠ copyName key.newName) :
    runSteps (unlessEmpty .withColumns ((keptKeys listed).map fun key =>
        (key.preName renamesKeys, copyName key.newName)))
      (ofEntries (preName renamesKeys) source (inOrder columns (input.own side))) =
        .ok (ofEntries (preName renamesKeys) source (inOrder columns (input.own side)) ++
          ofEntries (fun slot => copyName slot.title) source (keptCopies side columns listed)) := by
  have copying := @copyTable_ofEntries _ _ _ _ (preName renamesKeys) source
    (inOrder columns (input.own side))
    ((keptKeys listed).map fun key =>
      ⟨side, { key with isAvailable := decide (key.oldName ∈ columns) }, false⟩)
    (fun slot => copyName slot.title) (ready.preNames_nodup prepares)
    (by
      intro slot mem
      obtain ⟨key, isKept, rfl⟩ := mem_map.mp mem
      exact ready.mem_inOrder.mpr (ready.keptKey_slot isKept))
    (by
      intro slot mem taken
      obtain ⟨key, isKept, rfl⟩ := mem_map.mp mem
      obtain ⟨other, isOwn, same⟩ := mem_map.mp taken
      exact fresh key isKept other (ready.mem_inOrder.mp isOwn) same)
    (by
      have distinct := ready.keptKeys_nodup.map injective
      rwa [map_map] at distinct ⊢)
  rw [map_map] at copying
  apply runSteps_withColumns
  refine copying.trans ?_
  rw [keptCopies, ofEntries, ofEntries, ofEntries, map_map, map_map]
  rfl

theorem Ready.copies_sources (allListed : ∀ name ∈ keys, name ∈ listed.map oldName) :
    ofEntries title source (keptCopies side columns listed) = ofEntries title source
        ((input.own side).filter fun slot => slot.select.keep && slot.select.joinKey) := by
  have unlistedKeys : (markAvailable columns (unlisted keys columns listed)).filter
      (fun select => (select.keep && select.joinKey) && select.selected) = [] := by
    rw [filter_eq_nil_iff]
    intro select mem flags
    obtain ⟨column, inUnlisted, rfl⟩ := mem_map.mp mem
    obtain ⟨name, inColumns, rfl⟩ := mem_map.mp inUnlisted
    obtain ⟨_, absent⟩ := mem_filter.mp inColumns
    have isKey : name ∈ keys := by
      simp only [Bool.and_eq_true, decide_eq_true_eq] at flags
      exact flags.1.2
    exact of_decide_eq_true absent (allListed name isKey)
  have keys : ((input.own side).filter fun slot => slot.select.keep && slot.select.joinKey) =
      ((markAvailable columns listed).filter fun select =>
        (select.keep && select.joinKey) && select.selected).map
          fun select => ⟨side, select, false⟩ := by
    rw [JoinInput.own, filter_map, filter_filter, ready.settled, withUnlisted,
      markAvailable, map_append, filter_append]
    rw [markAvailable] at unlistedKeys
    simp only [Function.comp_def]
    rw [unlistedKeys, append_nil]
    rfl
  rw [keys, markAvailable, filter_map, ofEntries, ofEntries, keptCopies, keptKeys,
    getJoinKeySelects, filter_filter, map_map, map_map, map_map]
  have same : listed.filter (fun select => select.keep && select.joinKey) =
      listed.filter ((fun select => (select.keep && select.joinKey) && select.selected) ∘
        fun select => { select with isAvailable := decide (select.oldName ∈ columns) }) := by
    apply filter_congr
    intro select _
    cases keep : select.keep <;> simp [selected, keep]
  rw [same]
  rfl

end

end

theorem getJoinKeys_left (settings : JoinInput) :
    (getJoinKeys settings).1 = (settings.joinMapping.map JoinMap.leftCol).map
      fun key => (dictGet (getRenameTable settings.leftSelect) key).getD key := by
  simp only [getJoinKeys, JoinInput.getNamesForTableRename, map_map]
  rfl

variable {settings : JoinInput}

theorem getJoinKeys_right (keeps : settings.how.renamesRightKeys = false) :
    (getJoinKeys settings).2 = settings.joinMapping.map JoinMap.rightCol := by
  simp [getJoinKeys, keeps]

theorem getJoinKeys_right_renamed (renames : settings.how.renamesRightKeys = true) :
    (getJoinKeys settings).2 = (settings.joinMapping.map JoinMap.rightCol).map
      fun key => (dictGet (getRenameTable settings.rightSelect) key).getD key := by
  simp only [getJoinKeys, renames, if_true, JoinInput.getNamesForTableRename, map_map]
  rfl

/-- Two sides whose settings are those of the generator with the columns that are not listed. -/
structure BothReady (manager input : JoinInput) (leftColumns rightColumns : List String) : Prop
    where
  left : Ready input .left (manager.joinMapping.map JoinMap.leftCol) leftColumns manager.leftSelect
  right : Ready input .right (manager.joinMapping.map JoinMap.rightCol) rightColumns
    manager.rightSelect
  leftPrepares : PreparesSide true leftColumns manager.leftSelect input.leftSelect
  leftAvailable : KeysAvailable manager.leftSelect
  rightPrepares : PreparesSide manager.how.renamesRightKeys rightColumns manager.rightSelect
    input.rightSelect
  disjoint : ∀ name ∈ getNewCols input.leftSelect, name ∉ getNewCols input.rightSelect

def JoinInput.keptSources (input : JoinInput) (side : Side) : Table String Source :=
  ofEntries title source (input.kept side)

theorem kept_titles (input : JoinInput) (side : Side) :
    (input.kept side).map title = getNewCols (input.selects side) := by
  rw [JoinInput.kept, JoinInput.own, filter_map, filter_filter, map_map, getNewCols]
  have same : (input.selects side).filter (fun select =>
      ((fun slot : Slot => slot.select.keep) ∘ fun select => ⟨side, select, false⟩) select &&
        select.selected) = (input.selects side).filter SelectInput.keep := by
    apply filter_congr
    intro select _
    cases keep : select.keep <;> simp [selected, keep]
  rw [same]
  rfl

section

variable {manager input : JoinInput} {leftColumns rightColumns : List String}

theorem BothReady.kept_nodup (ready : BothReady manager input leftColumns rightColumns) :
    ((input.kept .left ++ input.kept .right).map title).Nodup := by
  have distinct : ∀ side, Sound (input.selects side) → ((input.kept side).map title).Nodup := by
    intro side sound
    have all := sound.newDistinct
    have own : ((input.selects side).filter selected).map newName = (input.own side).map title := by
      rw [JoinInput.own, map_map]
      rfl
    rw [own] at all
    exact all.sublist (filter_sublist.map _)
  rw [map_append]
  refine (distinct _ ready.left.sound).append (distinct _ ready.right.sound) ?_
  intro name inLeft inRight
  rw [kept_titles] at inLeft inRight
  exact ready.disjoint name inLeft inRight

theorem BothReady.targets_nodup (ready : BothReady manager input leftColumns rightColumns)
    {slots : List Slot} (kept : (ofEntries title source slots).Perm
      (input.keptSources .left ++ input.keptSources .right)) : (slots.map title).Nodup := by
  have sameNames : (names (ofEntries title source slots)).Perm
      (names (input.keptSources .left ++ input.keptSources .right)) := kept.map Prod.fst
  rw [names_append, JoinInput.keptSources, JoinInput.keptSources, names_ofEntries,
    names_ofEntries, names_ofEntries, ← map_append] at sameNames
  exact sameNames.nodup_iff.mpr ready.kept_nodup

end

end Flowfile.Join

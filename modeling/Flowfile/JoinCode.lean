import Flowfile.JoinSources

/-!
# The code generated for a join

The code generator does not see the tables. From the settings it writes a program: operations that
prepare each side, a join whose names get the suffix of the library where they are taken, and
operations on the result. Operations that have nothing to do are left out.

Left and right columns are renamed before the join. The keys of the right side keep their names
except in outer and right joins. Inner and left joins copy the right keys that are kept, a right
join copies the left ones, and an outer join gives right keys a temporary name where a left key has
the same one. A full join treats keys like other columns.
-/

namespace Flowfile.Join

open Library.ColumnFrames Library.TracedFrames

/-- A generated program: what is done to each side, the join and what is done to its result. -/
structure JoinCode where
  leftSteps : List (FrameStep String)
  rightSteps : List (FrameStep String)
  leftOn : List String
  rightOn : List String
  how : JoinKeyStrategy
  post : List (FrameStep String)

/-- The suffix the library appends to names that are taken. -/
def polarsSuffix (name : String) : String :=
  name ++ "_right"

def JoinKeyStrategy.polarsType : JoinKeyStrategy → JoinType
  | .inner | .left => .coalescing
  | .right => .coalescingFirst
  | .full | .outer => .full
  | .semi | .anti => .filtering

/-- Run a generated program on two tables. -/
def JoinCode.run (code : JoinCode) (left right : Table String Source) :
    Except (FrameError String) (Table String Source) := do
  let left ← runSteps code.leftSteps left
  let right ← runSteps code.rightSteps right
  let joined ← joinTable code.how.polarsType polarsSuffix left right code.leftOn code.rightOn
  runSteps code.post joined

def JoinKeyStrategy.renamesRightKeys (how : JoinKeyStrategy) : Bool :=
  how = .outer ∨ how = .right

/-- The pairs of key columns under their new names. -/
def JoinInput.getNamesForTableRename (input : JoinInput) : List JoinMap :=
  input.joinMapping.map fun pair =>
    ⟨(dictGet (getRenameTable input.leftSelect) pair.leftCol).getD pair.leftCol,
      (dictGet (getRenameTable input.rightSelect) pair.rightCol).getD pair.rightCol⟩

variable (settings : JoinInput)

def getJoinKeys : List String × List String :=
  let leftOn := settings.getNamesForTableRename.map JoinMap.leftCol
  let rightOn :=
    if settings.how.renamesRightKeys then settings.getNamesForTableRename.map JoinMap.rightCol
    else settings.joinMapping.map JoinMap.rightCol
  (leftOn, rightOn)

def preJoinRenames (renamesKeys : Bool) (selects : List SelectInput) : List (String × String) :=
  (selects.filter fun column => decide (column.oldName ≠ column.newName) &&
    (column.keep || column.joinKey) && (!column.joinKey || renamesKeys)).map fun column =>
      (column.oldName, column.newName)

variable (selects : List SelectInput)

def preJoinDrops : List String :=
  (selects.filter fun column => !column.keep && !column.joinKey).map SelectInput.oldName

def applyPreJoinTransformations (renamesKeys : Bool) (selects : List SelectInput) :
    List (FrameStep String) :=
  unlessEmpty .rename (preJoinRenames renamesKeys selects) ++
    unlessEmpty .drop (preJoinDrops selects)

variable (newName : String)

def findByNewName : Option SelectInput :=
  selects.find? fun column => column.newName = newName

def keptKeys : List SelectInput :=
  (getJoinKeySelects selects).filter SelectInput.keep

/-- The keys of a side that are not kept. -/
def droppedKeys : List SelectInput :=
  (getJoinKeySelects selects).filter fun key => !key.keep

/-- How keys are treated: operations on each side, the keys to join on, new names after the join
and columns dropped after it. -/
structure KeyTransformation where
  leftSteps : List (FrameStep String)
  rightSteps : List (FrameStep String)
  leftOn : List String
  rightOn : List String
  reverseAction : List (String × String)
  afterJoinDropCols : List String

/-- Name of the copy of a right key. -/
def dropAlias : String :=
  "__DROP__" ++ newName ++ "__DROP__"

/-- Temporary name of a key in a right or an outer join. -/
def jkAlias : String :=
  "__jk_" ++ newName

def handleLeftInnerJoinKeys (leftOn rightOn : List String) : KeyTransformation where
  leftSteps := []
  rightSteps := unlessEmpty .withColumns
    ((keptKeys settings.rightSelect).map fun key => (key.oldName, dropAlias key.newName))
  leftOn := leftOn
  rightOn := rightOn
  reverseAction :=
    (keptKeys settings.rightSelect).map fun key => (dropAlias key.newName, key.newName)
  afterJoinDropCols := (droppedKeys settings.leftSelect).map SelectInput.newName

/-- Left keys that are kept are copied and joined on under the names of the copies. Right keys that
are not kept go, under the name they have when a left key that is kept has the same. -/
def handleRightJoinKeys (leftOn rightOn : List String) : KeyTransformation where
  leftSteps := unlessEmpty .withColumns
    ((keptKeys settings.leftSelect).map fun key => (key.newName, jkAlias key.newName))
  rightSteps := []
  leftOn := leftOn.map fun leftOnKey =>
    match findByNewName settings.leftSelect leftOnKey with
    | some select => if select.keep then jkAlias select.newName else leftOnKey
    | none => leftOnKey
  rightOn := rightOn
  reverseAction := []
  afterJoinDropCols :=
    let leftJoinKeysKeep := (keptKeys settings.leftSelect).map SelectInput.newName
    ((droppedKeys settings.rightSelect).map fun key =>
      if key.newName ∉ leftJoinKeysKeep then key.newName
      else polarsSuffix key.newName).eraseDups

/-- Right keys that are kept get a temporary name when a left key has the same. Keys that are not
kept go after the join. -/
def handleOuterJoinKeys (leftOn rightOn : List String) : KeyTransformation :=
  let leftJoinKeys := (getJoinKeySelects settings.leftSelect).map SelectInput.newName
  let toKeepAndRename :=
    (keptKeys settings.rightSelect).filter fun key => key.newName ∈ leftJoinKeys
  { leftSteps := []
    rightSteps := unlessEmpty .rename
      (toKeepAndRename.map fun key => (key.newName, jkAlias key.newName))
    leftOn := leftOn
    rightOn := rightOn.map fun rightOnKey =>
      match findByNewName settings.rightSelect rightOnKey with
      | some select =>
        if select.keep ∧ select.newName ∈ leftJoinKeys then jkAlias select.newName
        else rightOnKey
      | none => rightOnKey
    reverseAction := toKeepAndRename.map fun key => (jkAlias key.newName, key.newName)
    afterJoinDropCols := (droppedKeys settings.leftSelect).map SelectInput.newName ++
      (droppedKeys settings.rightSelect).map fun key =>
        if key.newName ∉ leftJoinKeys then key.newName else polarsSuffix key.newName }

def handleJoinKeyTransformations (leftOn rightOn : List String) : KeyTransformation :=
  match settings.how with
  | .left | .inner => handleLeftInnerJoinKeys settings leftOn rightOn
  | .right => handleRightJoinKeys settings leftOn rightOn
  | .outer => handleOuterJoinKeys settings leftOn rightOn
  | _ => ⟨[], [], leftOn, rightOn, [], []⟩

def handleSemiAntiJoin : JoinCode where
  leftSteps := applyPreJoinTransformations true settings.leftSelect
  rightSteps := []
  leftOn := (getJoinKeys settings).1
  rightOn := (getJoinKeys settings).2
  how := settings.how
  post := unlessEmpty .drop ((droppedKeys settings.leftSelect).map SelectInput.newName)

def handleStandardJoin : JoinCode :=
  let keys := handleJoinKeyTransformations settings (getJoinKeys settings).1
    (getJoinKeys settings).2
  { leftSteps := applyPreJoinTransformations true settings.leftSelect ++ keys.leftSteps
    rightSteps := applyPreJoinTransformations settings.how.renamesRightKeys settings.rightSelect ++
      keys.rightSteps
    leftOn := keys.leftOn
    rightOn := keys.rightOn
    how := settings.how
    post := unlessEmpty .drop keys.afterJoinDropCols ++ unlessEmpty .rename keys.reverseAction }

variable (input : JoinInput)

/-- The program for a join. The settings are renamed automatically first. -/
def handleJoin : JoinCode :=
  if input.how = .semi ∨ input.how = .anti then handleSemiAntiJoin input.autoRename
  else handleStandardJoin input.autoRename

/-- The generated program on the tables the engine would join. -/
def runGenerated (self other : TableSchema) : Except (FrameError String) (Table String Source) :=
  (handleJoin input).run (sourceTable .left self.names) (sourceTable .right other.names)

/-- Where the engine returns a table, the generated code returns one with the same columns, each of
them holding the same column of an input. -/
def Agrees {ε : Type} (engine : Except ε (Table String Source))
    (generated : Except (FrameError String) (Table String Source)) : Prop :=
  ∀ table, engine = .ok table → ∃ result, generated = .ok result ∧ result.Perm table

end Flowfile.Join

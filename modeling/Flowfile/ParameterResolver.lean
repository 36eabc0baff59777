import Flowfile.ParameterText
import Mathlib.Data.List.Dedup

/-!
# Parameters in settings

The settings of a node are a nest of models, dicts and lists with texts in it. Before the node is
executed the references in these texts are resolved in place, and afterwards they are restored from
a log. An older helper returns new settings instead: it dumps them, resolves all texts and has the
class of the settings validate what comes out.

In place the texts in lists below lists or dicts, and in dicts below lists, are not resolved, though
references in them count as unresolved. The two agree when there are none in such places and
validation rebuilds the settings, or when some reference is to no parameter anyway.
-/

namespace Flowfile.Parameters

open List

inductive Value (α γ κ : Type) where
  | atom (content : α)
  | str (text : String)
  | list (items : List (Value α γ κ))
  | dict (entries : List (κ × Value α γ κ))
  | model (cls : γ) (fields : List (κ × Value α γ κ))

open Value (list dict model str)

variable {α γ κ : Type} (params : Params)

/-- What a value is part of. -/
inductive Place where
  | field
  | item
  | entry
deriving DecidableEq

/-- Where a text was changed, as the way down to it, and what it was. -/
abbrev Restorations := List (List Nat × String)

/-- The log of a part, seen from the whole. -/
def under (place : Nat) (log : Restorations) : Restorations :=
  log.map fun entry => (place :: entry.1, entry.2)

def applyText (text : String) : Value α γ κ × Restorations :=
  let resolved := resolveParameters text params
  if containsOpening text ∧ resolved ≠ text then (.str resolved, [([], text)])
  else (.str text, [])

mutual

/-- Resolve a part of the settings: lists only below models, dicts not below lists. -/
def applyValue (place : Place) : Value α γ κ → Value α γ κ × Restorations
  | .atom content => (.atom content, [])
  | .str text => applyText params text
  | .list items =>
    if place = .field then
      let applied := applyItems 0 items
      (.list applied.1, applied.2)
    else (.list items, [])
  | .dict entries =>
    if place = .item then (.dict entries, [])
    else
      let applied := applyEntries .entry 0 entries
      (.dict applied.1, applied.2)
  | .model cls fields =>
    let applied := applyEntries .field 0 fields
    (.model cls applied.1, applied.2)

def applyItems (index : Nat) : List (Value α γ κ) → List (Value α γ κ) × Restorations
  | [] => ([], [])
  | item :: rest =>
    let applied := applyValue .item item
    let others := applyItems (index + 1) rest
    (applied.1 :: others.1, under index applied.2 ++ others.2)

def applyEntries (place : Place) (index : Nat) :
    List (κ × Value α γ κ) → List (κ × Value α γ κ) × Restorations
  | [] => ([], [])
  | (key, value) :: rest =>
    let applied := applyValue place value
    let others := applyEntries place (index + 1) rest
    ((key, applied.1) :: others.1, under index applied.2 ++ others.2)

end

def applyRecursive : Value α γ κ → Value α γ κ × Restorations
  | .model cls fields =>
    let applied := applyEntries params .field 0 fields
    (.model cls applied.1, applied.2)
  | .dict entries =>
    let applied := applyEntries params .entry 0 entries
    (.dict applied.1, applied.2)
  | value => (value, [])

def Value.modify (place : Nat) (change : Value α γ κ → Value α γ κ) : Value α γ κ → Value α γ κ
  | .list items => .list (items.modify place change)
  | .dict entries => .dict (entries.modify place (Prod.map id change))
  | .model cls fields => .model cls (fields.modify place (Prod.map id change))
  | value => value

def setText (original : String) : List Nat → Value α γ κ → Value α γ κ
  | [], _ => .str original
  | place :: path, value => value.modify place (setText original path)

def restoreParameters (log : Restorations) (value : Value α γ κ) : Value α γ κ :=
  log.foldl (fun value entry => setText entry.2 entry.1 value) value

mutual

/-- The names that are referred to anywhere. -/
def findUnresolvedInModel : Value α γ κ → List String
  | .atom _ => []
  | .str text => referencesOf text
  | .list items => findUnresolvedInItems items
  | .dict entries => findUnresolvedInEntries entries
  | .model _ fields => findUnresolvedInEntries fields

def findUnresolvedInItems : List (Value α γ κ) → List String
  | [] => []
  | item :: rest => findUnresolvedInModel item ++ findUnresolvedInItems rest

def findUnresolvedInEntries : List (κ × Value α γ κ) → List String
  | [] => []
  | (_, value) :: rest => findUnresolvedInModel value ++ findUnresolvedInEntries rest

end

inductive Failure where
  | unresolved (message : String)
  | invalid (message : String)

def unresolvedError (names : List String) : Failure :=
  let sorted := names.dedup.mergeSort fun first second => decide (first ≤ second)
  .unresolved ("Unresolved parameter references in node settings: [" ++
    String.intercalate ", " (sorted.map fun name => "\x27" ++ name ++ "\x27") ++
    "]. Check that all referenced parameters are defined on the flow.")

/-- The settings afterwards, and the log or an error. -/
def applyParametersInPlace (value : Value α γ κ) : Value α γ κ × Except Failure Restorations :=
  if params.entries.isEmpty then (value, .ok [])
  else
    let applied := applyRecursive params value
    let unresolved := findUnresolvedInModel applied.1
    if unresolved.isEmpty then (applied.1, .ok applied.2)
    else (restoreParameters applied.2 applied.1, .error (unresolvedError unresolved))

mutual

def modelDump : Value α γ κ → Value α γ κ
  | .atom content => .atom content
  | .str text => .str text
  | .list items => .list (modelDumpItems items)
  | .dict entries => .dict (modelDumpEntries entries)
  | .model _ fields => .dict (modelDumpEntries fields)

def modelDumpItems : List (Value α γ κ) → List (Value α γ κ)
  | [] => []
  | item :: rest => modelDump item :: modelDumpItems rest

def modelDumpEntries : List (κ × Value α γ κ) → List (κ × Value α γ κ)
  | [] => []
  | (key, value) :: rest => (key, modelDump value) :: modelDumpEntries rest

end

mutual

def walkAndResolve : Value α γ κ → Value α γ κ
  | .str text => .str (resolveParameters text params)
  | .dict entries => .dict (walkEntries entries)
  | .list items => .list (walkItems items)
  | value => value

def walkItems : List (Value α γ κ) → List (Value α γ κ)
  | [] => []
  | item :: rest => walkAndResolve item :: walkItems rest

def walkEntries : List (κ × Value α γ κ) → List (κ × Value α γ κ)
  | [] => []
  | (key, value) :: rest => (key, walkAndResolve value) :: walkEntries rest

end

mutual

def findUnresolved : Value α γ κ → List String
  | .str text => referencesOf text
  | .dict entries => findUnresolvedEntries entries
  | .list items => findUnresolvedItems items
  | _ => []

def findUnresolvedItems : List (Value α γ κ) → List String
  | [] => []
  | item :: rest => findUnresolved item ++ findUnresolvedItems rest

def findUnresolvedEntries : List (κ × Value α γ κ) → List String
  | [] => []
  | (_, value) :: rest => findUnresolved value ++ findUnresolvedEntries rest

end

def resolveNodeSettings (modelValidate : γ → Value α γ κ → Except String (Value α γ κ)) :
    Value α γ κ → Except Failure (Value α γ κ)
  | .model cls fields =>
    if params.entries.isEmpty then .ok (.model cls fields)
    else
      let resolved := walkAndResolve params (modelDump (.model cls fields))
      let unresolved := findUnresolved resolved
      if unresolved.isEmpty then (modelValidate cls resolved).mapError Failure.invalid
      else .error (unresolvedError unresolved)
  | value => .ok value

section

variable {params}

/-- A change of one part after another change of the same part. -/
theorem Value.modify_modify (place : Nat) (first second : Value α γ κ → Value α γ κ)
    (value : Value α γ κ) :
    (value.modify place first).modify place second = value.modify place (second ∘ first) := by
  cases value with
  | atom content => rfl
  | str text => rfl
  | list items => exact congrArg list (modify_modify_eq ..)
  | dict entries =>
    refine congrArg dict ((modify_modify_eq ..).trans ?_)
    rfl
  | model cls fields =>
    refine congrArg (model cls) ((modify_modify_eq ..).trans ?_)
    rfl

theorem restoreParameters_append (first second : Restorations) (value : Value α γ κ) :
    restoreParameters (first ++ second) value =
      restoreParameters second (restoreParameters first value) :=
  foldl_append

theorem restoreParameters_under (place : Nat) (log : Restorations) (value : Value α γ κ) :
    restoreParameters (under place log) value =
      if log = [] then value else value.modify place (restoreParameters log) := by
  induction log generalizing value with
  | nil => rfl
  | cons entry rest ih =>
    rw [if_neg (cons_ne_nil _ _)]
    change restoreParameters (under place rest) (value.modify place (setText entry.2 entry.1)) = _
    rw [ih]
    split
    case isTrue empty => rw [empty]; rfl
    case isFalse => rw [Value.modify_modify]; rfl

theorem modify_middle {β : Type} (before : List β) (part : β) (rest : List β) (change : β → β) :
    (before ++ part :: rest).modify before.length change = before ++ change part :: rest := by
  induction before with
  | nil => rfl
  | cons first before ih =>
    rw [cons_append, length_cons, modify_succ_cons, ih]
    rfl

/-- Settings made of entries, of a dict or a model. -/
def MadeOfEntries (build : List (κ × Value α γ κ) → Value α γ κ) : Prop :=
  ∀ place change entries,
    (build entries).modify place change = build (entries.modify place (Prod.map id change))

theorem restore_item (log : Restorations) (before rest : List (Value α γ κ)) (item : Value α γ κ) :
    restoreParameters (under before.length log) (.list (before ++ item :: rest)) =
      .list (before ++ restoreParameters log item :: rest) := by
  rw [restoreParameters_under]
  split
  case isTrue empty => rw [empty]; rfl
  case isFalse => exact congrArg list (modify_middle ..)

theorem restore_entry {build : List (κ × Value α γ κ) → Value α γ κ} (made : MadeOfEntries build)
    (log : Restorations) (before rest : List (κ × Value α γ κ)) (key : κ) (value : Value α γ κ) :
    restoreParameters (under before.length log) (build (before ++ (key, value) :: rest)) =
      build (before ++ (key, restoreParameters log value) :: rest) := by
  rw [restoreParameters_under]
  split
  case isTrue empty => rw [empty]; rfl
  case isFalse =>
    rw [made, modify_middle]
    rfl

variable (params)

theorem restore_text (text : String) :
    let applied : Value α γ κ × Restorations := applyText params text
    restoreParameters applied.2 applied.1 = .str text := by
  rw [applyText]
  split <;> rfl

mutual

/-- The log of a part gives back what it was. -/
theorem restore_applyValue (place : Place) : ∀ value : Value α γ κ,
    restoreParameters (applyValue params place value).2 (applyValue params place value).1 = value
  | .atom content => rfl
  | .str text => restore_text params text
  | .list items => by
    rw [applyValue]
    split
    · exact restore_applyItems items []
    · rfl
  | .dict entries => by
    rw [applyValue]
    split
    · rfl
    · exact restore_applyEntries (fun _ _ _ => rfl) .entry entries []
  | .model cls fields => by
    rw [applyValue]
    exact restore_applyEntries (fun _ _ _ => rfl) .field fields []

theorem restore_applyItems : ∀ (items before : List (Value α γ κ)),
    restoreParameters (applyItems params before.length items).2
      (.list (before ++ (applyItems params before.length items).1)) = .list (before ++ items)
  | [], _ => rfl
  | item :: rest, before => by
    have others := restore_applyItems rest (before ++ [item])
    rw [length_append, append_assoc, append_assoc] at others
    rw [applyItems]
    dsimp only
    rw [restoreParameters_append, restore_item, restore_applyValue .item item]
    exact others

theorem restore_applyEntries {build : List (κ × Value α γ κ) → Value α γ κ}
    (made : MadeOfEntries build) (place : Place) : ∀ (entries before : List (κ × Value α γ κ)),
    restoreParameters (applyEntries params place before.length entries).2
      (build (before ++ (applyEntries params place before.length entries).1)) =
        build (before ++ entries)
  | [], _ => rfl
  | (key, value) :: rest, before => by
    have others := restore_applyEntries made place rest (before ++ [(key, value)])
    rw [length_append, append_assoc, append_assoc] at others
    rw [applyEntries]
    dsimp only
    rw [restoreParameters_append, restore_entry made, restore_applyValue place value]
    exact others

end

/-- Restoring gives back the settings. -/
theorem restore_applyRecursive (value : Value α γ κ) :
    restoreParameters (applyRecursive params value).2 (applyRecursive params value).1 = value := by
  cases value with
  | atom content => rfl
  | str text => rfl
  | list items => rfl
  | dict entries => exact restore_applyEntries params (fun _ _ _ => rfl) .entry entries []
  | model cls fields =>
    exact restore_applyEntries params (fun _ _ _ => rfl) .field fields []

end

mutual

def resolveAll : Value α γ κ → Value α γ κ
  | .atom content => .atom content
  | .str text => .str (resolveParameters text params)
  | .list items => .list (resolveAllItems items)
  | .dict entries => .dict (resolveAllEntries entries)
  | .model cls fields => .model cls (resolveAllEntries fields)

def resolveAllItems : List (Value α γ κ) → List (Value α γ κ)
  | [] => []
  | item :: rest => resolveAll item :: resolveAllItems rest

def resolveAllEntries : List (κ × Value α γ κ) → List (κ × Value α γ κ)
  | [] => []
  | (key, value) :: rest => (key, resolveAll value) :: resolveAllEntries rest

end

mutual

/-- Without references nothing is put in. -/
theorem resolveAll_of_none : ∀ value : Value α γ κ, findUnresolvedInModel value = [] →
    resolveAll params value = value
  | .atom _, _ => rfl
  | .str _, absent => congrArg str (resolveParameters_of_none absent params)
  | .list items, absent => congrArg list (resolveAllItems_of_none items absent)
  | .dict entries, absent => congrArg dict (resolveAllEntries_of_none entries absent)
  | .model cls fields, absent =>
    congrArg (model cls) (resolveAllEntries_of_none fields absent)

theorem resolveAllItems_of_none : ∀ items : List (Value α γ κ),
    findUnresolvedInItems items = [] → resolveAllItems params items = items
  | [], _ => rfl
  | item :: rest, absent => by
    obtain ⟨first, others⟩ := append_eq_nil_iff.mp absent
    rw [resolveAllItems, resolveAll_of_none item first, resolveAllItems_of_none rest others]

theorem resolveAllEntries_of_none : ∀ entries : List (κ × Value α γ κ),
    findUnresolvedInEntries entries = [] → resolveAllEntries params entries = entries
  | [], _ => rfl
  | (key, value) :: rest, absent => by
    obtain ⟨first, others⟩ := append_eq_nil_iff.mp absent
    rw [resolveAllEntries, resolveAll_of_none value first, resolveAllEntries_of_none rest others]

end

mutual

theorem walkAndResolve_modelDump : ∀ value : Value α γ κ,
    walkAndResolve params (modelDump value) = modelDump (resolveAll params value)
  | .atom _ | .str _ => rfl
  | .list items => congrArg list (walkItems_modelDump items)
  | .dict entries => congrArg dict (walkEntries_modelDump entries)
  | .model _ fields => congrArg dict (walkEntries_modelDump fields)

theorem walkItems_modelDump : ∀ items : List (Value α γ κ),
    walkItems params (modelDumpItems items) = modelDumpItems (resolveAllItems params items)
  | [] => rfl
  | item :: rest =>
    congrArg₂ List.cons (walkAndResolve_modelDump item) (walkItems_modelDump rest)

theorem walkEntries_modelDump : ∀ entries : List (κ × Value α γ κ),
    walkEntries params (modelDumpEntries entries) =
      modelDumpEntries (resolveAllEntries params entries)
  | [] => rfl
  | (key, value) :: rest => congrArg₂ (fun value rest => (key, value) :: rest)
    (walkAndResolve_modelDump value) (walkEntries_modelDump rest)

end

mutual

/-- A dump refers to what the settings refer to. -/
theorem findUnresolved_modelDump : ∀ value : Value α γ κ,
    findUnresolved (modelDump value) = findUnresolvedInModel value
  | .atom _ | .str _ => rfl
  | .list items => findUnresolvedItems_modelDump items
  | .dict entries => findUnresolvedEntries_modelDump entries
  | .model _ fields => findUnresolvedEntries_modelDump fields

theorem findUnresolvedItems_modelDump : ∀ items : List (Value α γ κ),
    findUnresolvedItems (modelDumpItems items) = findUnresolvedInItems items
  | [] => rfl
  | item :: rest =>
    congrArg₂ List.append (findUnresolved_modelDump item) (findUnresolvedItems_modelDump rest)

theorem findUnresolvedEntries_modelDump : ∀ entries : List (κ × Value α γ κ),
    findUnresolvedEntries (modelDumpEntries entries) = findUnresolvedInEntries entries
  | [] => rfl
  | (_, value) :: rest =>
    congrArg₂ List.append (findUnresolved_modelDump value) (findUnresolvedEntries_modelDump rest)

end

mutual

/-- The names that texts refer to which are not resolved in place: those in lists that are not
below a model, and in dicts that are below a list. -/
def missedIn (place : Place) : Value α γ κ → List String
  | .atom _ | .str _ => []
  | .list items => if place = .field then missedInItems items else findUnresolvedInItems items
  | .dict entries =>
    if place = .item then findUnresolvedInEntries entries else missedInEntries .entry entries
  | .model _ fields => missedInEntries .field fields

def missedInItems : List (Value α γ κ) → List String
  | [] => []
  | item :: rest => missedIn .item item ++ missedInItems rest

def missedInEntries (place : Place) : List (κ × Value α γ κ) → List String
  | [] => []
  | (_, value) :: rest => missedIn place value ++ missedInEntries place rest

end

theorem applyText_resolves (text : String) :
    (applyText params text : Value α γ κ × Restorations).1 =
      .str (resolveParameters text params) := by
  rw [applyText]
  split
  case isTrue => rfl
  case isFalse unchanged =>
    refine congrArg str ?_
    by_cases opening : containsOpening text
    · exact (not_not.mp fun differs => unchanged ⟨opening, differs⟩).symm
    · rw [resolveParameters, if_pos (by simp [opening])]

mutual

/-- Where nothing is missed all references are put in. -/
theorem applyValue_of_reached (place : Place) : ∀ value : Value α γ κ,
    missedIn place value = [] → (applyValue params place value).1 = resolveAll params value
  | .atom _, _ => rfl
  | .str text, _ => applyText_resolves params text
  | .list items, reached => by
    rw [missedIn] at reached
    rw [applyValue]
    split at reached
    case isTrue below =>
      rw [if_pos below]
      exact congrArg list (applyItems_of_reached 0 items reached)
    case isFalse below =>
      rw [if_neg below]
      exact congrArg list (resolveAllItems_of_none params items reached).symm
  | .dict entries, reached => by
    rw [missedIn] at reached
    rw [applyValue]
    split at reached
    case isTrue below =>
      rw [if_pos below]
      exact congrArg dict (resolveAllEntries_of_none params entries reached).symm
    case isFalse below =>
      rw [if_neg below]
      exact congrArg dict (applyEntries_of_reached .entry 0 entries reached)
  | .model cls fields, reached =>
    congrArg (model cls) (applyEntries_of_reached .field 0 fields reached)

theorem applyItems_of_reached (index : Nat) : ∀ items : List (Value α γ κ),
    missedInItems items = [] → (applyItems params index items).1 = resolveAllItems params items
  | [], _ => rfl
  | item :: rest, reached => by
    obtain ⟨first, others⟩ := append_eq_nil_iff.mp reached
    exact congrArg₂ List.cons (applyValue_of_reached .item item first)
      (applyItems_of_reached (index + 1) rest others)

theorem applyEntries_of_reached (place : Place) (index : Nat) :
    ∀ entries : List (κ × Value α γ κ), missedInEntries place entries = [] →
      (applyEntries params place index entries).1 = resolveAllEntries params entries
  | [], _ => rfl
  | (key, value) :: rest, reached => by
    obtain ⟨first, others⟩ := append_eq_nil_iff.mp reached
    exact congrArg₂ (fun value rest => (key, value) :: rest)
      (applyValue_of_reached place value first)
      (applyEntries_of_reached place (index + 1) rest others)

end

theorem append_subset_append {β : Type} {first second others more : List β}
    (left : first ⊆ others) (right : second ⊆ more) : first ++ second ⊆ others ++ more :=
  append_subset.mpr ⟨fun _ mem => mem_append_left _ (left mem),
    fun _ mem => mem_append_right _ (right mem)⟩

mutual

theorem missedIn_referred (place : Place) : ∀ value : Value α γ κ,
    missedIn place value ⊆ findUnresolvedInModel value
  | .atom _ | .str _ => nil_subset _
  | .list items => by
    rw [missedIn]
    split
    · exact missedInItems_referred items
    · exact fun _ mem => mem
  | .dict entries => by
    rw [missedIn]
    split
    · exact fun _ mem => mem
    · exact missedInEntries_referred .entry entries
  | .model _ fields => missedInEntries_referred .field fields

theorem missedInItems_referred : ∀ items : List (Value α γ κ),
    missedInItems items ⊆ findUnresolvedInItems items
  | [] => nil_subset _
  | item :: rest =>
    append_subset_append (missedIn_referred .item item) (missedInItems_referred rest)

theorem missedInEntries_referred (place : Place) : ∀ entries : List (κ × Value α γ κ),
    missedInEntries place entries ⊆ findUnresolvedInEntries entries
  | [] => nil_subset _
  | (_, value) :: rest =>
    append_subset_append (missedIn_referred place value) (missedInEntries_referred place rest)

end

mutual

theorem missedIn_subset (place : Place) : ∀ value : Value α γ κ,
    missedIn place value ⊆ findUnresolvedInModel (applyValue params place value).1
  | .atom _ | .str _ => nil_subset _
  | .list items => by
    rw [missedIn, applyValue]
    split
    · exact missedInItems_subset 0 items
    · exact fun _ mem => mem
  | .dict entries => by
    rw [missedIn, applyValue]
    split
    · exact fun _ mem => mem
    · exact missedInEntries_subset .entry 0 entries
  | .model _ fields => missedInEntries_subset .field 0 fields

theorem missedInItems_subset (index : Nat) : ∀ items : List (Value α γ κ),
    missedInItems items ⊆ findUnresolvedInItems (applyItems params index items).1
  | [] => nil_subset _
  | item :: rest => append_subset_append (missedIn_subset .item item)
    (missedInItems_subset (index + 1) rest)

theorem missedInEntries_subset (place : Place) (index : Nat) :
    ∀ entries : List (κ × Value α γ κ), missedInEntries place entries ⊆
      findUnresolvedInEntries (applyEntries params place index entries).1
  | [] => nil_subset _
  | (_, value) :: rest => append_subset_append (missedIn_subset place value)
    (missedInEntries_subset place (index + 1) rest)

end

variable {value : Value α γ κ}

section

variable (modelValidate : γ → Value α γ κ → Except String (Value α γ κ))

/-- Resolving in place leaves what the new settings are and can be taken back, or it fails like the
new settings do and leaves nothing changed. -/
def AgreesInPlace (value : Value α γ κ) : Prop :=
  match applyParametersInPlace params value with
  | (applied, .ok log) =>
    resolveNodeSettings params modelValidate value = .ok applied ∧
      restoreParameters log applied = value
  | (after, .error _) =>
    (∃ message, resolveNodeSettings params modelValidate value = .error (.unresolved message)) ∧
      after = value

/-- All references are reached in place and validation rebuilds the settings, or some reference is
to no parameter. Without parameters nothing is asked, and of a dict that it has no references. -/
def Reached (value : Value α γ κ) : Prop :=
  params.entries = [] ∨ match value with
    | .model cls fields =>
      let resolved := resolveAll params (.model cls fields)
      findUnresolvedInModel resolved ≠ [] ∨
        missedInEntries .field fields = [] ∧ modelValidate cls (modelDump resolved) = .ok resolved
    | value => findUnresolvedInModel value = []

variable {params modelValidate}

theorem reached_of_complete {place : Place} {entries : List (κ × Value α γ κ)}
    (complete : findUnresolvedInEntries (applyEntries params place 0 entries).1 = []) :
    missedInEntries place entries = [] := by
  have missed := missedInEntries_subset params place 0 entries
  rw [complete] at missed
  exact subset_nil.mp missed

/-- Where no reference is left in place, all are put in. -/
theorem applyRecursive_complete
    (complete : findUnresolvedInModel (applyRecursive params value).1 = []) :
    (applyRecursive params value).1 = resolveAll params value := by
  cases value with
  | atom content => rfl
  | str text => exact (resolveAll_of_none params _ complete).symm
  | list items => exact (resolveAll_of_none params _ complete).symm
  | dict entries =>
    exact congrArg dict
      (applyEntries_of_reached params .entry 0 entries (reached_of_complete complete))
  | model cls fields =>
    exact congrArg (model cls)
      (applyEntries_of_reached params .field 0 fields (reached_of_complete complete))

/-- Without references settings stay as they are. -/
theorem applyRecursive_of_none (absent : findUnresolvedInModel value = []) :
    (applyRecursive params value).1 = value := by
  have same := resolveAll_of_none params value absent
  cases value with
  | atom content => rfl
  | str text => rfl
  | list items => rfl
  | dict entries =>
    have missed := missedInEntries_referred .entry entries
    rw [show findUnresolvedInEntries entries = [] from absent] at missed
    exact (congrArg dict (applyEntries_of_reached params .entry 0 entries
      (subset_nil.mp missed))).trans same
  | model cls fields =>
    have missed := missedInEntries_referred .field fields
    rw [show findUnresolvedInEntries fields = [] from absent] at missed
    exact (congrArg (model cls) (applyEntries_of_reached params .field 0 fields
      (subset_nil.mp missed))).trans same

theorem resolveNodeSettings_model (given : params.entries ≠ []) (cls : γ)
    (fields : List (κ × Value α γ κ)) :
    resolveNodeSettings params modelValidate (.model cls fields) =
      let resolved := resolveAll params (.model cls fields)
      if findUnresolvedInModel resolved = [] then
        (modelValidate cls (modelDump resolved)).mapError Failure.invalid
      else .error (unresolvedError (findUnresolvedInModel resolved)) := by
  have nonempty : params.entries.isEmpty = false := by rwa [isEmpty_eq_false_iff]
  rw [resolveNodeSettings, nonempty, if_neg Bool.false_ne_true, walkAndResolve_modelDump]
  dsimp only
  rw [findUnresolved_modelDump]
  simp only [List.isEmpty_iff]

theorem resolveNodeSettings_passed (other : ∀ cls fields, value ≠ .model cls fields) :
    resolveNodeSettings params modelValidate value = .ok value := by
  cases value with
  | model cls fields => exact absurd rfl (other cls fields)
  | _ => rfl

section

variable (given : params.entries ≠ [])
include given

theorem agreesInPlace_complete
    (complete : findUnresolvedInModel (applyRecursive params value).1 = []) :
    AgreesInPlace params modelValidate value ↔
      resolveNodeSettings params modelValidate value = .ok (resolveAll params value) := by
  have nonempty : params.entries.isEmpty = false := by rwa [isEmpty_eq_false_iff]
  rw [AgreesInPlace, applyParametersInPlace, nonempty, if_neg Bool.false_ne_true]
  dsimp only
  rw [complete, isEmpty_nil, if_pos rfl]
  dsimp only
  rw [restore_applyRecursive, applyRecursive_complete complete]
  exact and_iff_left rfl

theorem agreesInPlace_incomplete
    (incomplete : findUnresolvedInModel (applyRecursive params value).1 ≠ []) :
    AgreesInPlace params modelValidate value ↔
      ∃ message, resolveNodeSettings params modelValidate value = .error (.unresolved message) := by
  have nonempty : params.entries.isEmpty = false := by rwa [isEmpty_eq_false_iff]
  rw [AgreesInPlace, applyParametersInPlace, nonempty, if_neg Bool.false_ne_true]
  dsimp only
  rw [isEmpty_eq_false_iff.mpr incomplete, if_neg Bool.false_ne_true]
  dsimp only
  rw [restore_applyRecursive]
  exact and_iff_left rfl

theorem agreesInPlace_model (cls : γ) (fields : List (κ × Value α γ κ)) :
    AgreesInPlace params modelValidate (.model cls fields) ↔
      Reached params modelValidate (.model cls fields) := by
  rw [Reached, or_iff_right given]
  dsimp only
  by_cases complete : findUnresolvedInModel (applyRecursive params (.model cls fields)).1 = []
  · have all := complete
    rw [applyRecursive_complete complete] at all
    rw [agreesInPlace_complete given complete, resolveNodeSettings_model given]
    dsimp only
    rw [if_pos all, or_iff_right (not_not.mpr all), and_iff_right (reached_of_complete complete)]
    cases modelValidate cls (modelDump (resolveAll params (.model cls fields))) with
    | error message => exact ⟨nofun, nofun⟩
    | ok settings =>
      exact ⟨fun same => congrArg _ (Except.ok.inj same),
        fun same => congrArg _ (Except.ok.inj same)⟩
  · have left : findUnresolvedInModel (resolveAll params (.model cls fields)) = [] →
        missedInEntries .field fields ≠ [] := fun all reached => by
      refine complete ?_
      rw [show (applyRecursive params (.model cls fields)).1 = _ from
        congrArg (model cls) (applyEntries_of_reached params .field 0 fields reached)]
      exact all
    rw [agreesInPlace_incomplete given complete, resolveNodeSettings_model given]
    dsimp only
    by_cases all : findUnresolvedInModel (resolveAll params (.model cls fields)) = []
    · rw [if_pos all, or_iff_right (not_not.mpr all)]
      refine ⟨fun ⟨message, failed⟩ => ?_, fun both => absurd both.1 (left all)⟩
      cases validated : modelValidate cls (modelDump (resolveAll params (.model cls fields))) <;>
        · rw [validated] at failed
          cases failed
    · rw [if_neg all]
      exact ⟨fun _ => .inl all, fun _ => ⟨_, rfl⟩⟩

theorem agreesInPlace_other (other : ∀ cls fields, value ≠ .model cls fields) :
    AgreesInPlace params modelValidate value ↔ findUnresolvedInModel value = [] := by
  by_cases complete : findUnresolvedInModel (applyRecursive params value).1 = []
  · have all := applyRecursive_complete complete
    rw [agreesInPlace_complete given complete, resolveNodeSettings_passed other]
    constructor
    · intro same
      rw [← all] at same
      rw [← Except.ok.inj same] at complete
      exact complete
    · intro absent
      rw [resolveAll_of_none params value absent]
  · rw [agreesInPlace_incomplete given complete, resolveNodeSettings_passed other]
    refine ⟨nofun, fun absent => absurd ?_ complete⟩
    rwa [applyRecursive_of_none absent]

end

end

/-- Resolving in place agrees with the new settings if and only if all references are reached and
validation rebuilds the settings, or some reference is to no parameter. -/
theorem applyParametersInPlace_iff
    (modelValidate : γ → Value α γ κ → Except String (Value α γ κ)) (value : Value α γ κ) :
    AgreesInPlace params modelValidate value ↔ Reached params modelValidate value := by
  by_cases given : params.entries = []
  · refine iff_of_true ?_ (.inl given)
    rw [AgreesInPlace, applyParametersInPlace, given]
    refine ⟨?_, rfl⟩
    cases value with
    | model cls fields => rw [resolveNodeSettings, given]; rfl
    | _ => rfl
  · cases value with
    | model cls fields => exact agreesInPlace_model given cls fields
    | _ => exact (agreesInPlace_other given nofun).trans (or_iff_right given).symm

/-- One row of raw data that refers to a limit. -/
def rawData : Value Unit String String :=
  .model "RawData" [("columns", .list []), ("data", .list [.list [.str "$\x7blimit\x7d"]])]

def limits : Params :=
  ⟨[("limit", "10")], by decide⟩

/-- A class whose fields hold no models is rebuilt from its dump. -/
def rebuild (cls : String) : Value Unit String String → Except String (Value Unit String String)
  | .dict entries => .ok (.model cls entries)
  | _ => .error "not a dict"

/-- The row is in a list below a list: the new settings have the limit, in place it is missing. -/
theorem rawData_missed : ¬AgreesInPlace limits rebuild rawData := by
  refine mt (agreesInPlace_model (by decide) "RawData" _).mp ?_
  rintro (empty | unresolved | ⟨reached, _⟩)
  · exact absurd empty (by decide)
  · exact unresolved (by decide +kernel)
  · exact absurd reached (by decide +kernel)

end Flowfile.Parameters

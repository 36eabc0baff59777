import Mathlib.Data.List.Basic

/-!
# Documents

Values as JSON and YAML have them. A dictionary is a list of its entries in order. Setting a key
replaces its value in place or appends a new entry; a merge of two dictionaries keeps the order of
the first one and takes the values of the second one.
-/

namespace Flowfile.Library.Documents

open List

inductive Value where
  | null
  | boolean (value : Bool)
  | integer (value : Int)
  | float (printed : String)
  | text (value : String)
  | list (items : List Value)
  | dict (entries : List (String × Value))

/-- The entries of a dictionary. -/
abbrev Dict := List (String × Value)

def Value.ofText : Option String → Value
  | none => .null
  | some value => .text value

/-- A number, or nothing. -/
def Value.ofInteger : Option Int → Value
  | none => .null
  | some value => .integer value

/-- The value counts as true. -/
def Value.truthy : Value → Bool
  | .null => false
  | .boolean value => value
  | .integer value => value ≠ 0
  | .float printed => printed ≠ "0.0" ∧ printed ≠ "-0.0"
  | .text value => value ≠ ""
  | .list items => !items.isEmpty
  | .dict entries => !entries.isEmpty

/-- The entries of a dictionary. Other values have none. -/
def Value.entries : Value → Dict
  | .dict entries => entries
  | _ => []

def Value.filledText : Value → Option String
  | .text value => if value = "" then none else some value
  | _ => none

variable (self : Dict) (key : String)

def Dict.get : Value :=
  (self.lookup key).getD .null

def Dict.has : Bool :=
  (self.lookup key).isSome

def Dict.set : Dict → String → Value → Dict
  | [], key, value => [(key, value)]
  | first :: rest, key, value =>
    if first.1 = key then (key, value) :: rest else first :: Dict.set rest key value

def Dict.drop : Dict :=
  self.filter fun entry => entry.1 ≠ key

/-- Two dictionaries in one. The values of the second one count. -/
def Dict.merge (first second : Dict) : Dict :=
  first.map (fun entry => (entry.1, (second.lookup entry.1).getD entry.2)) ++
    second.filter fun entry => (first.lookup entry.1).isNone

theorem lookup_set_other (dict : Dict) {key other : String} (apart : other ≠ key) (value : Value) :
    (dict.set key value).lookup other = dict.lookup other := by
  induction dict with
  | nil => simp [Dict.set, lookup_cons, beq_false_of_ne apart]
  | cons first rest inner =>
    rw [Dict.set]
    split
    · next same =>
      subst same
      rw [lookup_cons, lookup_cons, beq_false_of_ne apart]
    · rw [lookup_cons, inner, lookup_cons]

theorem lookup_overridden (first second : Dict) (key : String) :
    (first.map fun entry => (entry.1, (second.lookup entry.1).getD entry.2)).lookup key =
      (first.lookup key).map (second.lookup key).getD := by
  induction first with
  | nil => rfl
  | cons entry rest inner =>
    rw [map_cons, lookup_cons, lookup_cons, inner]
    by_cases same : key = entry.1
    · subst same
      simp
    · rw [beq_false_of_ne same]

/-- The value under a key among the entries whose keys another dictionary has not. -/
theorem lookup_filter (first second : Dict) (key : String) :
    (second.filter fun entry => (first.lookup entry.1).isNone).lookup key =
      if (first.lookup key).isNone then second.lookup key else none := by
  induction second with
  | nil => simp
  | cons entry rest inner =>
    obtain ⟨name, value⟩ := entry
    rw [filter_cons, lookup_cons]
    by_cases same : key = name
    · subst same
      cases found : (first.lookup key).isNone <;> simp [found, inner]
    · rw [beq_false_of_ne same, ← inner]
      split
      · rw [lookup_cons, beq_false_of_ne same]
      · rfl

theorem lookup_merge (first second : Dict) (key : String) :
    (first.merge second).lookup key = (second.lookup key).or (first.lookup key) := by
  rw [Dict.merge, lookup_append, lookup_overridden, lookup_filter]
  cases first.lookup key with
  | none => cases second.lookup key <;> rfl
  | some value => cases second.lookup key <;> rfl

end Flowfile.Library.Documents

import Mathlib.Data.List.AList

/-!
# Dictionaries whose entries are raised

A dictionary is built by going through entries. Each of them raises what is under its key: the key
is there afterwards, and its value is a top one if it was before or if the entry brings one. What is
under other keys stays.

So in the end a key is there exactly when it was at first or an entry has it, and its value is a top
one exactly when it was at first or some entry of the key brings one. The order of the entries does
not matter.
-/

namespace Flowfile.Library.RaisedEntries

universe u v w
variable {κ : Type u} {β : Type v} {ε : Type w} [DecidableEq κ]

/-- A dictionary from keys to values. -/
abbrev Dict (κ : Type u) (β : Type v) : Type (max u v) :=
  AList fun _ : κ => β

def Topped (top : β → Prop) (dict : Dict κ β) (key : κ) : Prop :=
  ∃ value ∈ dict.lookup key, top value

structure Raises (top : β → Prop) (key : κ) (brings : Prop) (before after : Dict κ β) : Prop where
  others : ∀ other, other ≠ key → after.lookup other = before.lookup other
  present : key ∈ after
  topped_iff : Topped top after key ↔ Topped top before key ∨ brings

variable {top : β → Prop} {key : κ} {brings : Prop} {before after : Dict κ β}

theorem not_topped_empty (top : β → Prop) (key : κ) : ¬ Topped top (∅ : Dict κ β) key := by
  rintro ⟨value, found, _⟩
  rw [AList.lookup_empty] at found
  cases found

theorem Topped.mem (topped : Topped top before key) : key ∈ before := by
  obtain ⟨value, found, _⟩ := topped
  exact AList.lookup_isSome.mp (Option.isSome_iff_exists.mpr ⟨value, found⟩)

theorem Raises.mem_iff (raises : Raises top key brings before after) (other : κ) :
    other ∈ after ↔ other ∈ before ∨ key = other := by
  by_cases same : key = other
  · subst same
    exact iff_of_true raises.present (.inr rfl)
  · rw [← AList.lookup_isSome, raises.others other (Ne.symm same), AList.lookup_isSome]
    exact (or_iff_left same).symm

/-- The top values after a change. -/
theorem Raises.topped_other (raises : Raises top key brings before after) (other : κ) :
    Topped top after other ↔ Topped top before other ∨ key = other ∧ brings := by
  by_cases same : key = other
  · subst same
    rw [raises.topped_iff]
    exact or_congr_right (and_iff_right rfl).symm
  · rw [Topped, raises.others other (Ne.symm same)]
    exact (or_iff_left fun change => same change.1).symm

theorem raises_insert (dict : Dict κ β) (key : κ) (value : β)
    (keeps : Topped top dict key → top value) :
    Raises top key (top value) dict (dict.insert key value) where
  others _ other := AList.lookup_insert_ne other
  present := (AList.mem_insert dict).mpr (.inl rfl)
  topped_iff := by
    rw [Topped, AList.lookup_insert]
    constructor
    · rintro ⟨_, found, isTop⟩
      cases found
      exact .inr isTop
    · intro isTop
      exact ⟨value, rfl, isTop.elim keeps id⟩

theorem raises_self (present : key ∈ before) (settled : brings → Topped top before key) :
    Raises top key brings before before where
  others _ _ := rfl
  present := present
  topped_iff := ⟨.inl, fun topped => topped.elim id settled⟩

omit [DecidableEq κ] in
theorem holds_foldl {step : Dict κ β → ε → Dict κ β} {entries : List ε}
    (holds : Dict κ β → κ → Prop) (adds : ε → κ → Prop) (invariant : Dict κ β → Prop)
    (steps : ∀ dict, ∀ entry ∈ entries, invariant dict →
      (∀ key, holds (step dict entry) key ↔ holds dict key ∨ adds entry key) ∧
        invariant (step dict entry))
    {before : Dict κ β} (initially : invariant before) (key : κ) :
    holds (entries.foldl step before) key ↔
      holds before key ∨ ∃ entry ∈ entries, adds entry key := by
  induction entries generalizing before with
  | nil => simp
  | cons entry rest ih =>
    obtain ⟨raised, next⟩ := steps before entry List.mem_cons_self initially
    rw [List.foldl_cons, ih
      (fun dict other mem => steps dict other (List.mem_cons_of_mem _ mem)) next,
      raised, or_assoc, List.exists_mem_cons_iff]

section

variable {step : Dict κ β → ε → Dict κ β} {keyOf : ε → κ} {bringsOf : ε → Prop}
  {entries : List ε}

theorem mem_foldl
    (raises : ∀ dict, ∀ entry ∈ entries,
      Raises top (keyOf entry) (bringsOf entry) dict (step dict entry)) (key : κ) :
    key ∈ entries.foldl step before ↔ key ∈ before ∨ ∃ entry ∈ entries, keyOf entry = key :=
  holds_foldl (fun dict key => key ∈ dict) (fun entry key => keyOf entry = key) (fun _ => True)
    (fun dict entry mem _ => ⟨(raises dict entry mem).mem_iff, trivial⟩) trivial key

theorem topped_foldl
    (raises : ∀ dict, ∀ entry ∈ entries,
      Raises top (keyOf entry) (bringsOf entry) dict (step dict entry)) (key : κ) :
    Topped top (entries.foldl step before) key ↔
      Topped top before key ∨ ∃ entry ∈ entries, keyOf entry = key ∧ bringsOf entry :=
  holds_foldl (Topped top) (fun entry key => keyOf entry = key ∧ bringsOf entry) (fun _ => True)
    (fun dict entry mem _ => ⟨(raises dict entry mem).topped_other, trivial⟩) trivial key

end

end Flowfile.Library.RaisedEntries

import Mathlib.Data.List.Induction
import Mathlib.Order.Lattice

/-!
# Replaying writes to a store with keys

A store maps keys to values, if any. A write puts a value under a key or drops the key, and
replaying a list of writes applies them one after another. What a key holds in the end is
decided by the last write that mentions it.

Writes often come in batches, one for each writer of a list. The last writer that mentions a key
decides, whatever the batches of the others do with it.
-/

namespace Flowfile.Library.KeyedReplay

open List

universe u v w
variable {κ : Type u} {ν : Type v} {α : Type w} [DecidableEq κ]

inductive Write (κ : Type u) (ν : Type v) where
  | put (key : κ) (value : ν)
  | drop (key : κ)

def Write.key : Write κ ν → κ
  | .put key _ => key
  | .drop key => key

def Write.apply (store : κ → Option ν) : Write κ ν → κ → Option ν
  | .put key value => Function.update store key (some value)
  | .drop key => Function.update store key none

def replay (writes : List (Write κ ν)) (store : κ → Option ν) : κ → Option ν :=
  writes.foldl Write.apply store

def Mentioned (writes : List (Write κ ν)) (key : κ) : Prop :=
  ∃ write ∈ writes, write.key = key

instance (writes : List (Write κ ν)) (key : κ) : Decidable (Mentioned writes key) :=
  inferInstanceAs (Decidable (∃ write ∈ writes, write.key = key))

omit [DecidableEq κ] in
@[simp] theorem mentioned_nil (key : κ) : ¬ Mentioned ([] : List (Write κ ν)) key := by
  simp [Mentioned]

omit [DecidableEq κ] in
@[simp] theorem mentioned_append (first second : List (Write κ ν)) (key : κ) :
    Mentioned (first ++ second) key ↔ Mentioned first key ∨ Mentioned second key := by
  simp [Mentioned, or_and_right, exists_or]

/-- Replaying in two parts. -/
theorem replay_append (first second : List (Write κ ν)) (store : κ → Option ν) :
    replay (first ++ second) store = replay second (replay first store) :=
  foldl_append

variable {writes : List (Write κ ν)} {key : κ}

theorem replay_of_not_mentioned (unmentioned : ¬ Mentioned writes key) (store : κ → Option ν) :
    replay writes store key = store key := by
  induction writes generalizing store with
  | nil => rfl
  | cons write rest ih =>
    have apart : write.key ≠ key := fun same => unmentioned ⟨write, mem_cons_self, same⟩
    have later : ¬ Mentioned rest key := by
      rintro ⟨other, mem, same⟩
      exact unmentioned ⟨other, mem_cons_of_mem _ mem, same⟩
    rw [replay, foldl_cons]
    refine (ih later _).trans ?_
    cases write with
    | put other value => exact Function.update_of_ne apart.symm _ _
    | drop other => exact Function.update_of_ne apart.symm _ _

theorem replay_of_mentioned (mentioned : Mentioned writes key)
    (store other : κ → Option ν) : replay writes store key = replay writes other key := by
  induction writes generalizing store other with
  | nil => exact absurd mentioned (mentioned_nil key)
  | cons write rest ih =>
    rw [replay, replay, foldl_cons, foldl_cons]
    by_cases later : Mentioned rest key
    · exact ih later _ _
    have here : write.key = key := by
      obtain ⟨candidate, mem, same⟩ := mentioned
      rcases mem_cons.mp mem with rfl | inRest
      · exact same
      · exact absurd ⟨candidate, inRest, same⟩ later
    subst here
    refine (replay_of_not_mentioned later _).trans
      (Eq.trans ?_ (replay_of_not_mentioned later _).symm)
    cases write <;> simp [Write.apply, Write.key]

/-- Dropping keys only leaves nothing under a mentioned key. -/
theorem replay_drops {keys : List κ} (mem : key ∈ keys) (store : κ → Option ν) :
    replay (keys.map Write.drop) store key = none := by
  have mentioned : Mentioned (keys.map (Write.drop : κ → Write κ ν)) key :=
    ⟨.drop key, mem_map_of_mem mem, rfl⟩
  rw [replay_of_mentioned mentioned store fun _ => none]
  clear mentioned mem
  induction keys with
  | nil => rfl
  | cons other rest ih =>
    rw [map_cons, replay, foldl_cons, Write.apply, Function.update_eq_self]
    exact ih

def Write.isPut : Write κ ν → Bool
  | .put _ _ => true
  | .drop _ => false

theorem replay_puts {value : ν}
    (held : replay writes (fun _ => none) key = some value) (store : κ → Option ν) :
    replay (writes.filter Write.isPut) store key = some value := by
  induction writes using List.reverseRecOn with
  | nil => cases held
  | append_singleton writes write ih =>
    rw [replay_append] at held
    rw [filter_append, replay_append]
    by_cases here : write.key = key
    · subst here
      cases write with
      | put key other =>
        have kept : [Write.put key other].filter Write.isPut = [Write.put key other] := rfl
        rw [kept]
        simpa [replay, Write.apply, Write.key] using held
      | drop key => simp [replay, Write.apply, Write.key] at held
    · have apart : ∀ other ∈ [write], other.key ≠ key := by simpa using here
      rw [replay_of_not_mentioned fun ⟨other, mem, same⟩ => apart other mem same] at held
      rw [replay_of_not_mentioned fun ⟨other, mem, same⟩ =>
        apart other (mem_filter.mp mem).1 same]
      exact ih held

theorem replay_put_mem {values : List ν} {keyOf : ν → κ} {key : κ}
    (mentioned : ∃ value ∈ values, keyOf value = key) (store : κ → Option ν) :
    ∃ value ∈ values, keyOf value = key ∧
      replay (values.map fun value => .put (keyOf value) value) store key = some value := by
  induction values using List.reverseRecOn with
  | nil => simp at mentioned
  | append_singleton values last ih =>
    rw [map_append, replay_append]
    by_cases here : keyOf last = key
    · exact ⟨last, by simp, here, by simp [replay, Write.apply, here]⟩
    obtain ⟨value, mem, same⟩ := mentioned
    have inValues : value ∈ values := by
      rcases mem_append.mp mem with earlier | isLast
      · exact earlier
      · rw [mem_singleton.mp isLast] at same
        exact absurd same here
    obtain ⟨found, foundIn, foundKey, held⟩ := ih ⟨value, inValues, same⟩
    refine ⟨found, mem_append_left _ foundIn, foundKey, ?_⟩
    rw [replay_of_not_mentioned _, held]
    rintro ⟨write, isWrite, writeKey⟩
    rw [map_singleton, mem_singleton] at isWrite
    rw [isWrite] at writeKey
    exact here writeKey

variable (batch : α → List (Write κ ν))

def lastWriter (writers : List α) (key : κ) : Option α :=
  writers.reverse.find? fun writer => Mentioned (batch writer) key

variable {writers : List α}

theorem lastWriter_eq_none :
    lastWriter batch writers key = none ↔ ∀ writer ∈ writers, ¬ Mentioned (batch writer) key := by
  simp [lastWriter]

theorem lastWriter_spec {writer : α} (last : lastWriter batch writers key = some writer) :
    writer ∈ writers ∧ Mentioned (batch writer) key :=
  ⟨mem_reverse.mp (mem_of_find?_eq_some last),
    of_decide_eq_true (List.find?_some (p := fun writer => Mentioned (batch writer) key) last)⟩

theorem replay_batches (writers : List α) (key : κ) :
    replay (writers.flatMap batch) (fun _ => none) key =
      (lastWriter batch writers key).elim none fun writer =>
        replay (batch writer) (fun _ => none) key := by
  induction writers using List.reverseRecOn with
  | nil => rfl
  | append_singleton writers writer ih =>
    rw [flatMap_append, flatMap_singleton, replay_append, lastWriter,
      reverse_append, reverse_singleton, singleton_append, List.find?_cons]
    by_cases mentioned : Mentioned (batch writer) key
    · rw [decide_eq_true mentioned]
      exact replay_of_mentioned mentioned _ _
    · rw [decide_eq_false mentioned, replay_of_not_mentioned mentioned]
      exact ih

theorem lastWriter_max [LinearOrder α] {writer : α}
    (sorted : writers.Pairwise (· ≤ ·)) (last : lastWriter batch writers key = some writer) :
    ∀ other ∈ writers, Mentioned (batch other) key → other ≤ writer := by
  obtain ⟨_, before, after, split, unmentioned⟩ := List.find?_eq_some_iff_append.mp last
  have reversed := pairwise_reverse.mpr sorted
  rw [split] at reversed
  intro other mem mentioned
  have inReverse := mem_reverse.mpr mem
  rw [split, mem_append, mem_cons] at inReverse
  rcases inReverse with inBefore | rfl | inAfter
  · have silent := unmentioned other inBefore
    simp [mentioned] at silent
  · exact le_refl _
  · exact (pairwise_cons.mp (pairwise_append.mp reversed).2.1).1 other inAfter

end Flowfile.Library.KeyedReplay

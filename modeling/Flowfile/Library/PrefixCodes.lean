import Mathlib.Data.List.Basic

/-!
# Codes whose words end visibly

A code word is delimited when it is seen where it ends, whatever follows it. Words written one after
the other stay readable then, and so do words that are framed by fixed texts, and lists of words up
to a symbol with which no word starts.
-/

namespace Flowfile.Library.PrefixCodes

open List

variable {Symbol α β : Type}

/-- A word and what follows it are known from the text of both. -/
def Delimited (code : α → List Symbol) : Prop :=
  ∀ first second rest others,
    code first ++ rest = code second ++ others → first = second ∧ rest = others

def StartsApart (close : Symbol) (code : α → List Symbol) : Prop :=
  ∀ item, ∃ head tail, code item = head :: tail ∧ head ≠ close

def closed (close : Symbol) (code : α → List Symbol) (items : List α) : List Symbol :=
  items.flatMap code ++ [close]

/-- A word between two fixed texts. -/
def framed (before after : List Symbol) (code : α → List Symbol) (item : α) : List Symbol :=
  before ++ code item ++ after

def separated (separator : List Symbol) (close : Symbol) (code : α → List Symbol) :
    List α → List Symbol
  | [] => [close]
  | item :: rest => code item ++ closed close (framed separator [] code) rest

variable {code : α → List Symbol}

theorem Delimited.injective (delimited : Delimited code) : Function.Injective code := by
  intro first second same
  exact (delimited first second [] [] (by rw [same])).1

theorem Delimited.of_read {read : List Symbol → Option (α × List Symbol)}
    (reads : ∀ item rest, read (code item ++ rest) = some (item, rest)) : Delimited code := by
  intro first second rest others same
  have readFirst := reads first rest
  rw [same, reads second others] at readFirst
  obtain ⟨rfl, rfl⟩ := Prod.mk.inj (Option.some.inj readFirst)
  exact ⟨rfl, rfl⟩

theorem Delimited.comp (delimited : Delimited code) {part : β → α}
    (injective : Function.Injective part) : Delimited fun item => code (part item) := by
  intro first second rest others same
  obtain ⟨sameParts, sameRest⟩ := delimited _ _ _ _ same
  exact ⟨injective sameParts, sameRest⟩

theorem Delimited.framed (delimited : Delimited code) (before after : List Symbol) :
    Delimited (framed before after code) := by
  intro first second rest others same
  simp only [PrefixCodes.framed, append_assoc] at same
  obtain ⟨rfl, sameRest⟩ := delimited _ _ _ _ (append_cancel_left same)
  exact ⟨rfl, append_cancel_left sameRest⟩

theorem startsApart_framed {close head : Symbol} (tail after : List Symbol) (apart : head ≠ close)
    (code : α → List Symbol) : StartsApart close (framed (head :: tail) after code) :=
  fun item => ⟨head, tail ++ code item ++ after, rfl, apart⟩

theorem Delimited.closed (delimited : Delimited code) {close : Symbol}
    (apart : StartsApart close code) : Delimited (closed close code) := by
  intro first second rest others same
  simp only [PrefixCodes.closed, append_assoc, singleton_append] at same
  induction first generalizing second with
  | nil =>
    cases second with
    | nil => exact ⟨rfl, (List.cons.inj same).2⟩
    | cons item items =>
      obtain ⟨head, tail, starts, differs⟩ := apart item
      rw [flatMap_cons, starts] at same
      exact absurd (List.cons.inj same).1.symm differs
  | cons item items inner =>
    cases second with
    | nil =>
      obtain ⟨head, tail, starts, differs⟩ := apart item
      rw [flatMap_cons, starts] at same
      exact absurd (List.cons.inj same).1 differs
    | cons otherItem otherItems =>
    rw [flatMap_cons, flatMap_cons, append_assoc, append_assoc] at same
    obtain ⟨rfl, sameItems⟩ := delimited _ _ _ _ same
    obtain ⟨rfl, sameRest⟩ := inner otherItems sameItems
    exact ⟨rfl, sameRest⟩

theorem Delimited.separated (delimited : Delimited code) {close head : Symbol}
    (apart : StartsApart close code) (separates : head ≠ close) (tail : List Symbol) :
    Delimited (separated (head :: tail) close code) := by
  have items := (delimited.framed (head :: tail) []).closed
    (startsApart_framed tail [] separates code)
  intro first second rest others same
  cases first with
  | nil =>
    cases second with
    | nil => exact ⟨rfl, (List.cons.inj same).2⟩
    | cons item others =>
      obtain ⟨begins, _, starts, differs⟩ := apart item
      rw [PrefixCodes.separated, PrefixCodes.separated, starts] at same
      exact absurd (List.cons.inj same).1.symm differs
  | cons item firstItems =>
    cases second with
    | nil =>
      obtain ⟨begins, _, starts, differs⟩ := apart item
      rw [PrefixCodes.separated, PrefixCodes.separated, starts] at same
      exact absurd (List.cons.inj same).1 differs
    | cons otherItem secondItems =>
    rw [PrefixCodes.separated, PrefixCodes.separated, append_assoc, append_assoc]
      at same
    obtain ⟨rfl, sameItems⟩ := delimited _ _ _ _ same
    obtain ⟨rfl, sameRest⟩ := items _ _ _ _ sameItems
    exact ⟨rfl, sameRest⟩

end Flowfile.Library.PrefixCodes

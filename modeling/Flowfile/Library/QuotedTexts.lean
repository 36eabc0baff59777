import Mathlib.Data.List.Forall2

/-!
# Texts with quoted literals

A program text is cut into tokens from the left. How literals are quoted is fixed here: by one quote
or by three, with a backslash before a character that stands for itself. Everything else is left to
a lexer of the language, which also says whether a quote opens an ordinary literal.

Whatever is put into a hole of a text changes the content of the literal around it only, as long as
it has none of the characters that mean something in a literal.
-/

namespace Flowfile.Library.QuotedTexts

open List

variable {σ τ : Type}

/-- A literal is quoted by apostrophes or by quotation marks. -/
inductive Quote where
  | apostrophe
  | quotation

def Quote.mark : Quote → Char
  | .apostrophe => '\''
  | .quotation => '"'

def openingQuote (c : Char) : Option Quote :=
  if c = '\'' then some .apostrophe else if c = '"' then some .quotation else none

inductive Token (τ : Type) where
  | other (token : τ)
  | literal (marks quotes content : List Char)

/-- How a language is cut into tokens outside of its literals. -/
structure Lexer (σ τ : Type) where
  start : σ
  step : σ → Char → Option (σ × List τ)
  /-- What is written before an ordinary literal if a quote opens one, the state behind that literal
  and the tokens that are complete before it. -/
  opens : σ → Quote → Option (List Char × σ × List τ)
  finish : σ → Option (List τ)

/-- Whether the next character of a literal stands for itself. A line break of two characters does
so as a whole. -/
inductive Escape where
  | plain
  | escaped
  | returned
deriving DecidableEq

/-- Where a lexer is. After two quotes the literal is empty or has three quotes. -/
inductive Mode (σ : Type) where
  | code (state : σ)
  | opened (behind : σ) (marks : List Char) (quote : Quote)
  | doubled (behind : σ) (marks : List Char) (quote : Quote)
  | single (behind : σ) (marks : List Char) (quote : Quote) (content : List Char) (escape : Escape)
  | triple (behind : σ) (marks : List Char) (quote : Quote) (content : List Char) (escape : Escape)
      (closing : Nat)

def Mode.inLiteral : Mode σ → Bool
  | .code _ | .doubled .. => false
  | .opened .. | .single .. | .triple .. => true

namespace Lexer

variable (lexer : Lexer σ τ)

def stepCode (state : σ) (c : Char) : Option (Mode σ × List (Token τ)) :=
  let opening := (openingQuote c).bind fun quote =>
    (lexer.opens state quote).map fun opened => (quote, opened)
  match opening with
  | some (quote, marks, behind, tokens) =>
    some (.opened behind marks quote, tokens.map .other)
  | none => (lexer.step state c).map fun (next, tokens) => (.code next, tokens.map .other)

/-- A character of a literal between single quotes, which ends on its line. -/
def stepSingle (behind : σ) (marks : List Char) (quote : Quote) (content : List Char)
    (escape : Escape) (c : Char) : Option (Mode σ × List (Token τ)) :=
  let next (escape : Escape) : Mode σ := .single behind marks quote (content ++ [c]) escape
  if escape = .escaped then some (next (if c = '\r' then .returned else .plain), [])
  else if c = quote.mark then some (.code behind, [.literal marks [quote.mark] content])
  else if c = '\\' then some (next .escaped, [])
  else if c = '\n' then if escape = .returned then some (next .plain, []) else none
  else if c = '\r' then none
  else some (next .plain, [])

/-- A character of a literal between three quotes. -/
def stepTriple (behind : σ) (marks : List Char) (quote : Quote) (content : List Char)
    (escape : Escape) (closing : Nat) (c : Char) : Mode σ × List (Token τ) :=
  let next (escape : Escape) : Mode σ :=
    .triple behind marks quote (content ++ List.replicate closing quote.mark ++ [c]) escape 0
  if escape = .escaped then (next .plain, [])
  else if c = quote.mark then
    if closing = 2 then (.code behind, [.literal marks (List.replicate 3 quote.mark) content])
    else (.triple behind marks quote content .plain (closing + 1), [])
  else (next (if c = '\\' then .escaped else .plain), [])

def stepMode : Mode σ → Char → Option (Mode σ × List (Token τ))
  | .code state, c => lexer.stepCode state c
  | .opened behind marks quote, c =>
    if c = quote.mark then some (.doubled behind marks quote, [])
    else stepSingle behind marks quote [] .plain c
  | .doubled behind marks quote, c =>
    if c = quote.mark then some (.triple behind marks quote [] .plain 0, [])
    else (lexer.stepCode behind c).map fun (next, tokens) =>
      (next, .literal marks [quote.mark] [] :: tokens)
  | .single behind marks quote content escape, c => stepSingle behind marks quote content escape c
  | .triple behind marks quote content escape closing, c =>
    some (stepTriple behind marks quote content escape closing c)

def run : Mode σ → List Char → Option (Mode σ × List (Token τ))
  | mode, [] => some (mode, [])
  | mode, c :: rest => do
    let (next, tokens) ← lexer.stepMode mode c
    let (last, more) ← run next rest
    return (last, tokens ++ more)

def finishMode : Mode σ → Option (List (Token τ))
  | .code state => (lexer.finish state).map (List.map .other)
  | .doubled behind marks quote =>
    (lexer.finish behind).map fun tokens => .literal marks [quote.mark] [] :: tokens.map .other
  | _ => none

def tokenize (text : List Char) : Option (List (Token τ)) :=
  if '\x00' ∈ text then none
  else do
    let (last, tokens) ← lexer.run (.code lexer.start) text
    let more ← lexer.finishMode last
    return tokens ++ more

/-- The character behind a text stands inside a literal. -/
def quotesAfter (text : List Char) : Bool :=
  match lexer.run (.code lexer.start) text with
  | some (mode, _) => mode.inLiteral
  | none => false

end Lexer

/-- A text with holes. -/
abbrev Template := List (Option Char)

/-- Put a text into each hole. -/
def fill (hole : List Char) (template : Template) : List Char :=
  template.flatMap fun piece => piece.elim hole fun c => [c]

/-- A character that means nothing in a literal but itself. -/
def isHarmless (c : Char) : Bool :=
  openingQuote c = none && c != '\\' && c != '\n' && c != '\r' && c != '\x00'

/-- A text that may stand in a hole of a literal. -/
def Harmless (text : List Char) : Prop :=
  text ≠ [] ∧ ∀ c ∈ text, isHarmless c = true

inductive Token.Alike (first second : List Char) : Token τ → Token τ → Prop where
  | other (token : τ) : Token.Alike first second (.other token) (.other token)
  | literal (marks quotes : List Char) (inner : Template) :
      Token.Alike first second (.literal marks quotes (fill first inner))
        (.literal marks quotes (fill second inner))

/-- The same place but for what is in the holes. -/
inductive Mode.Alike (first second : List Char) : Mode σ → Mode σ → Prop where
  | code (state : σ) : Mode.Alike first second (.code state) (.code state)
  | opened (behind : σ) (marks : List Char) (quote : Quote) :
      Mode.Alike first second (.opened behind marks quote) (.opened behind marks quote)
  | doubled (behind : σ) (marks : List Char) (quote : Quote) :
      Mode.Alike first second (.doubled behind marks quote) (.doubled behind marks quote)
  | single (behind : σ) (marks : List Char) (quote : Quote) (inner : Template) (escape : Escape) :
      Mode.Alike first second (.single behind marks quote (fill first inner) escape)
        (.single behind marks quote (fill second inner) escape)
  | triple (behind : σ) (marks : List Char) (quote : Quote) (inner : Template) (escape : Escape)
      (closing : Nat) :
      Mode.Alike first second (.triple behind marks quote (fill first inner) escape closing)
        (.triple behind marks quote (fill second inner) escape closing)

def StepAlike (first second : List Char) :
    Mode σ × List (Token τ) → Mode σ × List (Token τ) → Prop :=
  fun before after => Mode.Alike first second before.1 after.1 ∧
    List.Forall₂ (Token.Alike first second) before.2 after.2

section

variable (hole : List Char) (template : Template)
include hole template

theorem fill_snoc (c : Char) : fill hole template ++ [c] = fill hole (template ++ [some c]) := by
  rw [fill, fill, flatMap_append]
  rfl

theorem fill_write (text : List Char) :
    fill hole template ++ text = fill hole (template ++ text.map some) := by
  induction text generalizing template with
  | nil => rw [map_nil, append_nil, append_nil]
  | cons c rest ih =>
    have next := ih (template ++ [some c])
    rw [← fill_snoc, append_assoc, append_assoc] at next
    exact next

theorem fill_hole : fill hole template ++ hole = fill hole (template ++ [none]) := by
  rw [fill, fill, flatMap_append, flatMap_singleton]
  rfl

end

namespace Lexer

variable (lexer : Lexer σ τ) {first second : List Char}

theorem others_alike (tokens : List τ) :
    List.Forall₂ (Token.Alike first second) (tokens.map .other) (tokens.map .other) :=
  forall₂_same.mpr fun token mem => by
    obtain ⟨other, _, rfl⟩ := mem_map.mp mem
    exact .other other

theorem stepCode_alike (state : σ) (c : Char) :
    Option.Rel (StepAlike first second) (lexer.stepCode state c) (lexer.stepCode state c) := by
  rw [stepCode]
  dsimp only
  split
  · exact .some ⟨.opened .., others_alike _⟩
  · cases lexer.step state c with
    | none => exact .none
    | some next => exact .some ⟨.code _, others_alike _⟩

theorem stepSingle_alike (behind : σ) (marks : List Char) (quote : Quote) (inner : Template)
    (escape : Escape) (c : Char) :
    Option.Rel (StepAlike (τ := τ) first second)
      (stepSingle behind marks quote (fill first inner) escape c)
      (stepSingle behind marks quote (fill second inner) escape c) := by
  have next (escape : Escape) : Option.Rel (StepAlike (τ := τ) first second)
      (some (.single behind marks quote (fill first inner ++ [c]) escape, []))
      (some (.single behind marks quote (fill second inner ++ [c]) escape, [])) := by
    rw [fill_snoc, fill_snoc]
    exact .some ⟨.single .., .nil⟩
  rw [stepSingle, stepSingle]
  split
  · exact next _
  split
  · exact .some ⟨.code _, .cons (.literal ..) .nil⟩
  split
  · exact next _
  split
  · split
    · exact next _
    · exact .none
  split
  · exact .none
  · exact next _

theorem stepTriple_alike (behind : σ) (marks : List Char) (quote : Quote) (inner : Template)
    (escape : Escape) (closing : Nat) (c : Char) :
    StepAlike (τ := τ) first second
      (stepTriple behind marks quote (fill first inner) escape closing c)
      (stepTriple behind marks quote (fill second inner) escape closing c) := by
  have next (escape : Escape) : StepAlike (τ := τ) first second
      (.triple behind marks quote
        (fill first inner ++ List.replicate closing quote.mark ++ [c]) escape 0, [])
      (.triple behind marks quote
        (fill second inner ++ List.replicate closing quote.mark ++ [c]) escape 0, []) := by
    rw [fill_write, fill_snoc, fill_write, fill_snoc]
    exact ⟨.triple .., .nil⟩
  rw [stepTriple, stepTriple]
  split
  · exact next _
  split
  · split
    · exact ⟨.code _, .cons (.literal ..) .nil⟩
    · exact ⟨.triple .., .nil⟩
  · exact next _

theorem stepMode_alike {before after : Mode σ} (alike : before.Alike first second after)
    (c : Char) :
    Option.Rel (StepAlike first second) (lexer.stepMode before c) (lexer.stepMode after c) := by
  cases alike with
  | code state => exact stepCode_alike lexer state c
  | opened behind marks quote =>
    rw [stepMode]
    split
    · exact .some ⟨.doubled .., .nil⟩
    · exact stepSingle_alike behind marks quote [] .plain c
  | doubled behind marks quote =>
    rw [stepMode]
    split
    · exact .some ⟨.triple _ _ _ [] _ _, .nil⟩
    · have alike := @stepCode_alike _ _ lexer first second behind c
      generalize lexer.stepCode behind c = outcome at alike
      match outcome, alike with
      | none, _ => exact .none
      | some _, .some alike => exact .some ⟨alike.1, .cons (.literal _ _ []) alike.2⟩
  | single behind marks quote inner escape => exact stepSingle_alike ..
  | triple behind marks quote inner escape closing => exact .some (stepTriple_alike ..)

end Lexer

/-- A text of harmless characters was added to the content. -/
def Mode.absorb : Mode σ → List Char → Mode σ
  | .code state, _ => .code state
  | .doubled behind marks quote, _ => .doubled behind marks quote
  | .opened behind marks quote, text => .single behind marks quote text .plain
  | .single behind marks quote content _, text =>
    .single behind marks quote (content ++ text) .plain
  | .triple behind marks quote content _ closing, text =>
    .triple behind marks quote (content ++ List.replicate closing quote.mark ++ text) .plain 0

theorem Mode.absorb_alike {before after : Mode σ} {first second : List Char}
    (alike : before.Alike first second after) :
    (before.absorb first).Alike first second (after.absorb second) := by
  cases alike with
  | code state => exact .code state
  | opened behind marks quote =>
    have whole (hole : List Char) : fill hole [none] = hole := flatMap_singleton _ _
    have alike : (Mode.single behind marks quote (fill first [none]) .plain).Alike first second
        (.single behind marks quote (fill second [none]) .plain) := .single ..
    rwa [whole, whole] at alike
  | doubled behind marks quote => exact .doubled ..
  | single behind marks quote inner escape =>
    rw [Mode.absorb, Mode.absorb, fill_hole, fill_hole]
    exact .single ..
  | triple behind marks quote inner escape closing =>
    rw [Mode.absorb, Mode.absorb, fill_write, fill_hole, fill_write, fill_hole]
    exact .triple ..

variable {mode : Mode σ}

theorem Mode.absorb_nil_append (c : Char) (text : List Char) :
    (mode.absorb [c]).absorb text = mode.absorb (c :: text) := by
  cases mode with
  | code | doubled | opened => rfl
  | single behind marks quote content escape =>
    rw [absorb, absorb, absorb, append_assoc]
    rfl
  | triple behind marks quote content escape closing =>
    rw [absorb, absorb, absorb, replicate_zero, append_nil, append_assoc]
    rfl

theorem Quote.ne_mark {c : Char} (harmless : isHarmless c = true) (quote : Quote) :
    c ≠ quote.mark := by
  rintro rfl
  cases quote <;> exact absurd harmless (by decide)

variable {text : List Char}

namespace Lexer

variable (lexer : Lexer σ τ)

theorem stepMode_harmless (quoted : mode.inLiteral = true) {c : Char}
    (harmless : isHarmless c = true) :
    lexer.stepMode mode c = some (mode.absorb [c], []) := by
  have apart := Quote.ne_mark harmless
  simp only [isHarmless, Bool.and_eq_true, bne_iff_ne] at harmless
  obtain ⟨⟨⟨⟨-, slash⟩, newline⟩, returning⟩, -⟩ := harmless
  cases mode with
  | code | doubled => cases quoted
  | opened behind marks quote =>
    simp [stepMode, stepSingle, Mode.absorb, apart, slash, newline, returning]
  | single behind marks quote content escape =>
    simp [stepMode, stepSingle, Mode.absorb, apart, slash, newline, returning]
  | triple behind marks quote content escape closing =>
    simp [stepMode, stepTriple, Mode.absorb, apart, slash]

theorem run_harmless (quoted : mode.inLiteral = true)
    (harmless : ∀ c ∈ text, isHarmless c = true) (nonempty : text ≠ []) :
    lexer.run mode text = some (mode.absorb text, []) := by
  induction text generalizing mode with
  | nil => exact absurd rfl nonempty
  | cons c rest ih =>
    have next : (mode.absorb [c]).inLiteral = true := by
      cases mode with
      | code | doubled => cases quoted
      | opened | single | triple => rfl
    rw [run.eq_def]
    dsimp only
    rw [stepMode_harmless lexer quoted (harmless c mem_cons_self)]
    cases rest with
    | nil => rfl
    | cons other rest =>
    have later := ih next
      (fun c mem => harmless c (mem_cons_of_mem _ mem)) (cons_ne_nil _ _)
    rw [Mode.absorb_nil_append] at later
    rw [Option.bind_eq_bind, Option.bind_some, later]
    rfl

theorem run_append (mode : Mode σ) (front back : List Char) :
    lexer.run mode (front ++ back) = (lexer.run mode front).bind fun (next, tokens) =>
      (lexer.run next back).map fun (last, more) => (last, tokens ++ more) := by
  induction front generalizing mode with
  | nil =>
    rw [nil_append, run, Option.bind_some]
    cases ran : lexer.run mode back with
    | none => simp [ran]
    | some outcome => simp [ran]
  | cons c rest ih =>
    rw [cons_append, run, run]
    cases lexer.stepMode mode c with
    | none => rfl
    | some outcome =>
    simp only [Option.bind_eq_bind, Option.bind_some, ih]
    cases lexer.run outcome.1 rest with
    | none => rfl
    | some later =>
    simp only [Option.bind_some]
    cases ran : lexer.run later.1 back with
    | none => simp [ran]
    | some last => simp [ran]

theorem tokens_refl (first second : List Char) (tokens : List (Token τ)) :
    List.Forall₂ (Token.Alike first second) tokens tokens :=
  forall₂_same.mpr fun token _ => by
    cases token with
    | other token => exact .other token
    | literal marks quotes content =>
    have whole (hole : List Char) : fill hole (content.map some) = content := by
      have written := fill_write hole [] content
      rw [nil_append] at written
      exact written.symm
    have alike : (Token.literal marks quotes (fill first (content.map some))).Alike first second
        (.literal marks quotes (fill second (content.map some)) : Token τ) := .literal ..
    rwa [whole, whole] at alike

theorem tokenize_refl (first second text : List Char) :
    Option.Rel (List.Forall₂ (Token.Alike first second)) (lexer.tokenize text)
      (lexer.tokenize text) := by
  cases lexer.tokenize text with
  | none => exact .none
  | some tokens => exact .some (tokens_refl first second tokens)

variable {first second : List Char}

def HolesQuoted (mode : Mode σ) (hole : List Char) (template : Template) : Prop :=
  ∀ front back, template = front ++ none :: back →
    ∃ next tokens, lexer.run mode (fill hole front) = some (next, tokens) ∧ next.inLiteral = true

theorem exists_of_quotesAfter (quotes : lexer.quotesAfter text = true) :
    ∃ next tokens, lexer.run (.code lexer.start) text = some (next, tokens) ∧
      next.inLiteral = true := by
  rw [quotesAfter] at quotes
  split at quotes
  case h_1 next tokens ran => exact ⟨next, tokens, ran, quotes⟩
  case h_2 => cases quotes

variable {lexer}

theorem HolesQuoted.rest {next : Mode σ} {hole : List Char} {piece : Option Char} {rest : Template}
    {tokens : List (Token τ)} (quoted : HolesQuoted lexer mode hole (piece :: rest))
    (ran : lexer.run mode (fill hole [piece]) = some (next, tokens)) :
    HolesQuoted lexer next hole rest := by
  intro front back split
  obtain ⟨last, more, before, inside⟩ := quoted (piece :: front) back (split ▸ rfl)
  have parts : fill hole (piece :: front) = fill hole [piece] ++ fill hole front := by
    rw [fill, fill, fill, flatMap_cons, flatMap_singleton]
  rw [parts, run_append, ran, Option.bind_some, Option.map_eq_some_iff] at before
  obtain ⟨⟨last, later⟩, found, same⟩ := before
  obtain ⟨rfl, -⟩ := Prod.mk.inj same
  exact ⟨last, later, found, inside⟩

theorem fill_cons (hole : List Char) (piece : Option Char) (rest : Template) :
    fill hole (piece :: rest) = fill hole [piece] ++ fill hole rest := by
  rw [fill, fill, fill, flatMap_cons, flatMap_singleton]

theorem inLiteral_alike {before after : Mode σ} (alike : before.Alike first second after) :
    after.inLiteral = before.inLiteral := by
  cases alike <;> rfl

theorem finishMode_alike {before after : Mode σ} (alike : before.Alike first second after) :
    Option.Rel (List.Forall₂ (Token.Alike first second)) (lexer.finishMode before)
      (lexer.finishMode after) := by
  cases alike with
  | code state =>
    rw [finishMode]
    cases lexer.finish state with
    | none => exact .none
    | some tokens => exact .some (others_alike tokens)
  | doubled behind marks quote =>
    rw [finishMode]
    cases lexer.finish behind with
    | none => exact .none
    | some tokens => exact .some (.cons (.literal _ _ []) (others_alike tokens))
  | opened | single | triple => exact .none

theorem bind_alike {before after : Option (Mode σ × List (Token τ))}
    (alike : Option.Rel (StepAlike first second) before after)
    (goFirst goSecond : Mode σ → Option (Mode σ × List (Token τ)))
    (go : ∀ outcome other, before = some outcome → StepAlike first second outcome other →
      Option.Rel (StepAlike first second) (goFirst outcome.1) (goSecond other.1)) :
    Option.Rel (StepAlike first second)
      (before.bind fun (next, tokens) =>
        (goFirst next).map fun (last, more) => (last, tokens ++ more))
      (after.bind fun (next, tokens) =>
        (goSecond next).map fun (last, more) => (last, tokens ++ more)) := by
  match before, after, alike with
  | none, none, _ => exact .none
  | some (next, tokens), some (other, others), .some steps =>
    have later := go _ _ rfl steps
    change Option.Rel (StepAlike first second)
      ((goFirst next).map fun (last, more) => (last, tokens ++ more))
      ((goSecond other).map fun (last, more) => (last, others ++ more))
    match goFirst next, goSecond other, later with
    | none, none, _ => exact .none
    | some _, some _, .some more => exact .some ⟨more.1, rel_append steps.2 more.2⟩

variable (firstHarmless : Harmless first) (secondHarmless : Harmless second)
include firstHarmless secondHarmless

variable {template : Template}

/-- What stands in the holes of a text makes no difference to the lexer but for the contents. -/
theorem run_alike {before after : Mode σ} (alike : before.Alike first second after)
    (quoted : HolesQuoted lexer before first template) :
    Option.Rel (StepAlike first second) (lexer.run before (fill first template))
      (lexer.run after (fill second template)) := by
  induction template generalizing before after with
  | nil => exact .some ⟨alike, .nil⟩
  | cons piece rest ih =>
    rw [fill_cons, fill_cons second, run_append, run_append]
    have head : Option.Rel (StepAlike first second) (lexer.run before (fill first [piece]))
        (lexer.run after (fill second [piece])) := by
      cases piece with
      | none =>
        obtain ⟨_, _, ran, inside⟩ := quoted [] rest rfl
        obtain ⟨rfl, -⟩ := Prod.mk.inj (Option.some.inj ran)
        have others := (inLiteral_alike alike).trans inside
        have whole (hole : List Char) : fill hole [none] = hole := flatMap_singleton _ _
        rw [whole, whole, run_harmless lexer inside firstHarmless.2 firstHarmless.1,
          run_harmless lexer others secondHarmless.2 secondHarmless.1]
        exact .some ⟨Mode.absorb_alike alike, .nil⟩
      | some c =>
        have one (mode : Mode σ) : lexer.run mode [c] = lexer.stepMode mode c := by
          rw [run, Option.bind_eq_bind]
          cases lexer.stepMode mode c with
          | none => rfl
          | some outcome => simp [run]
        exact (one before).symm ▸ (one after).symm ▸ lexer.stepMode_alike alike c
    refine bind_alike head (lexer.run · (fill first rest)) (lexer.run · (fill second rest))
      fun outcome other ran steps => ih steps.1 (quoted.rest ran)

theorem tokenize_alike (quoted : HolesQuoted lexer (.code lexer.start) first template) :
    Option.Rel (List.Forall₂ (Token.Alike first second)) (lexer.tokenize (fill first template))
      (lexer.tokenize (fill second template)) := by
  have noNull {hole : List Char} (harmless : Harmless hole) :
      '\x00' ∈ fill hole template ↔ some '\x00' ∈ template := by
    rw [fill, mem_flatMap]
    constructor
    · rintro ⟨piece, mem, inside⟩
      cases piece with
      | none => exact absurd (harmless.2 _ inside) (by decide)
      | some c => exact mem_singleton.mp inside ▸ mem
    · exact fun mem => ⟨_, mem, mem_singleton.mpr rfl⟩
  have ran := run_alike firstHarmless secondHarmless (.code lexer.start) quoted
  by_cases null : some '\x00' ∈ template
  · rw [tokenize, tokenize, if_pos ((noNull firstHarmless).mpr null),
      if_pos ((noNull secondHarmless).mpr null)]
    exact .none
  rw [tokenize, tokenize, if_neg (mt (noNull firstHarmless).mp null),
    if_neg (mt (noNull secondHarmless).mp null)]
  generalize lexer.run (.code lexer.start) (fill first template) = before at ran
  generalize lexer.run (.code lexer.start) (fill second template) = after at ran
  match before, after, ran with
  | none, none, _ => exact .none
  | some outcome, some other, .some steps =>
    have ends := @finishMode_alike _ _ lexer _ _ _ _ steps.1
    simp only [Option.bind_eq_bind, Option.bind_some]
    generalize lexer.finishMode outcome.1 = before at ends
    generalize lexer.finishMode other.1 = after at ends
    match before, after, ends with
    | none, none, _ => exact .none
    | some _, some _, .some more => exact .some (rel_append steps.2 more)

end Lexer

end Flowfile.Library.QuotedTexts

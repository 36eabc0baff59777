import Flowfile.FlowSettings
import Flowfile.Library.FloatTexts
import Flowfile.Library.PythonRepr
import Flowfile.Library.QuotedTexts
import Flowfile.Library.WholeNumbers
import Flowfile.ParameterText

/-!
# Parameters of a published flow

A published flow is run with the values of a request. A value is checked by the type that the
endpoint gives its parameter, written anew unless it is a text, and put in the place of the
parameter's default. What is left out falls back to the endpoint's default or the flow's own.

A text that is let through changes nothing in a program but the literals its references stand in. A
number is a number token, and a truth value is a word.
-/

namespace Flowfile.Parameters

open Library.Dictionaries Library.PythonText Library.QuotedTexts List
open Flowfile.Graph (FlowParameter)

inductive ApiParamType where
  | string
  | integer
  | float
  | boolean
  | enum
deriving DecidableEq

/-- What an endpoint knows about a parameter. An enumeration offers values. -/
structure ApiParamSpec where
  name : String
  type : ApiParamType := .string
  required : Bool := false
  default : Option String := none
  enumValues : Option (List String) := none
  offered : type = .enum → enumValues.getD [] ≠ [] := by decide

/-- Characters that end a literal or go on behind it. -/
def unsafeStringChars : List Char :=
  ['\'', '"', '(', ')', '\\', ';', '\r', '\n']

def rejectUnsafeString (spec : ApiParamSpec) (value : String) : Except String String :=
  if containsOpening value || value.toList.any (unsafeStringChars.contains ·) then
    .error ("parameter '" ++ spec.name ++ "' contains disallowed characters; string values " ++
      "may not contain quotes, parentheses, backslashes, semicolons, newlines, or '$\x7b'")
  else .ok value

variable {query : Params} {spec : ApiParamSpec}

section

variable (printable : Char → Bool)

/-- Check a value by the type of its parameter. Of the letters beyond ASCII none is lowered to a
letter of the words for a truth value. -/
def coerce (spec : ApiParamSpec) (raw : String) : Except String String :=
  match spec.type with
  | .string => rejectUnsafeString spec raw
  | .integer =>
    match parseInt raw.toList with
    | some number => .ok (toString number)
    | none => .error ("parameter '" ++ spec.name ++ "' must be an integer")
  | .float =>
    match parseFloat raw.toList with
    | some number => .ok (String.ofList (reprFloat number))
    | none => .error ("parameter '" ++ spec.name ++ "' must be a number")
  | .boolean =>
    let low := (strip raw).toLower
    if low ∈ ["true", "1", "yes"] then .ok "true"
    else if low ∈ ["false", "0", "no"] then .ok "false"
    else .error ("parameter '" ++ spec.name ++ "' must be a boolean (true/false)")
  | .enum =>
    if raw ∈ spec.enumValues.getD [] then .ok raw
    else .error ("parameter '" ++ spec.name ++ "' must be one of " ++ match spec.enumValues with
      | none => "None"
      | some values => String.ofList (reprList (reprString printable) values))

/-- One turn of the loop over the parameters. -/
def resolveParam (query : Params) (resolved : Params) (spec : ApiParamSpec) :
    Except String Params :=
  match (query.get spec.name).filter (· ≠ "") with
  | some raw => (coerce printable spec raw).map (resolved.set spec.name)
  | none =>
    if spec.required then .error ("missing required parameter '" ++ spec.name ++ "'")
    else match spec.default with
    | some default => (coerce printable spec default).map (resolved.set spec.name)
    | none => .ok resolved

/-- Check the values of a request. -/
def resolveParams (specs : List ApiParamSpec) (query : Params) : Except String Params :=
  specs.foldlM (resolveParam printable query) .empty

/-- What the endpoint knows about a parameter of the flow. -/
def effectiveSpec (overrides : List ApiParamSpec) (name : String) : ApiParamSpec :=
  let byName : Dictionary String ApiParamSpec :=
    Dictionary.empty.setAll (overrides.map fun spec => (spec.name, spec))
  match byName.get name with
  | some override => override
  | none => { name := name }

def effectiveSpecs (parameters : List FlowParameter) (overrides : List ApiParamSpec) :
    List ApiParamSpec :=
  parameters.map fun parameter => effectiveSpec overrides parameter.name

def apiParameters (parameters : List FlowParameter) (overrides : List ApiParamSpec)
    (query : Params) : Except String (List FlowParameter) :=
  (resolveParams printable (effectiveSpecs parameters overrides) query).map fun resolved =>
    parameters.map fun parameter =>
      match resolved.get parameter.name with
      | some value => { parameter with defaultValue := value }
      | none => parameter

/-- The values that a run puts in. -/
def runParams (parameters : List FlowParameter) : Params :=
  Dictionary.empty.setAll (parameters.map fun parameter =>
    (parameter.name, parameter.defaultValue))

/-- The text that is checked for a parameter, if there is one. -/
def ApiParamSpec.given (spec : ApiParamSpec) (query : Params) : Option String :=
  ((query.get spec.name).filter (· ≠ "")).or spec.default

variable {printable}

theorem resolveParam_spec {resolved next : Params}
    (done : resolveParam printable query resolved spec = .ok next) :
    (∃ raw value, spec.given query = some raw ∧ coerce printable spec raw = .ok value ∧
      next = resolved.set spec.name value) ∨ spec.given query = none ∧ next = resolved := by
  have checked {raw : String}
      (done : (coerce printable spec raw).map (resolved.set spec.name) = .ok next) :
      ∃ value, coerce printable spec raw = .ok value ∧ next = resolved.set spec.name value := by
    cases coerced : coerce printable spec raw with
    | error message =>
      rw [coerced] at done
      cases done
    | ok value =>
      rw [coerced] at done
      exact ⟨value, rfl, (Except.ok.inj done).symm⟩
  rw [resolveParam] at done
  rw [ApiParamSpec.given]
  cases asked : (query.get spec.name).filter (· ≠ "") with
  | some raw =>
    rw [asked] at done
    obtain ⟨value, coerced, stored⟩ := checked done
    exact .inl ⟨raw, value, rfl, coerced, stored⟩
  | none =>
  rw [asked] at done
  dsimp only at done
  split at done
  · cases done
  cases preset : spec.default with
  | some default =>
    rw [preset] at done
    obtain ⟨value, coerced, stored⟩ := checked done
    exact .inl ⟨default, value, rfl, coerced, stored⟩
  | none =>
    rw [preset] at done
    exact .inr ⟨rfl, (Except.ok.inj done).symm⟩

/-- The text that is given for a parameter was let through, and what became of it is stored. -/
def Resolved (printable : Char → Bool) (query : Params) (spec : ApiParamSpec)
    (resolved : Params) : Prop :=
  ∀ raw, spec.given query = some raw → ∃ value, coerce printable spec raw = .ok value ∧
    resolved.get spec.name = some value

theorem Resolved.step {resolved next : Params} {turn : ApiParamSpec}
    (alone : turn.name = spec.name → turn = spec)
    (done : resolveParam printable query resolved turn = .ok next)
    (earlier : turn = spec ∨ Resolved printable query spec resolved) :
    Resolved printable query spec next := by
  intro raw given
  by_cases same : turn = spec
  · subst same
    rcases resolveParam_spec done with ⟨found, value, isGiven, coerced, rfl⟩ | ⟨missing, _⟩
    · cases isGiven.symm.trans given
      exact ⟨value, coerced, by rw [Dictionary.get_set, if_pos rfl]⟩
    · cases missing.symm.trans given
  · obtain ⟨value, coerced, stored⟩ := (earlier.resolve_left same) raw given
    refine ⟨value, coerced, ?_⟩
    rcases resolveParam_spec done with ⟨_, _, _, _, rfl⟩ | ⟨_, rfl⟩
    · rw [Dictionary.get_set, if_neg fun named => same (alone named.symm), stored]
    · exact stored

theorem resolveParams_spec {query resolved last : Params} {specs : List ApiParamSpec}
    {spec : ApiParamSpec} (alone : ∀ turn ∈ specs, turn.name = spec.name → turn = spec)
    (done : specs.foldlM (resolveParam printable query) resolved = .ok last)
    (earlier : spec ∈ specs ∨ Resolved printable query spec resolved) :
    Resolved printable query spec last := by
  induction specs generalizing resolved with
  | nil =>
    cases done
    exact earlier.resolve_left (not_mem_nil)
  | cons turn rest ih =>
    rw [foldlM_cons] at done
    cases turned : resolveParam printable query resolved turn with
    | error message =>
      rw [turned] at done
      cases done
    | ok next =>
    rw [turned] at done
    refine ih (fun turn member => alone turn (mem_cons_of_mem _ member))
      done ?_
    have step := Resolved.step (alone turn mem_cons_self) turned
    rcases earlier with member | resolved
    · rcases mem_cons.mp member with here | later
      · exact .inr (step (.inl here.symm))
      · exact .inl later
    · exact .inr (step (.inr resolved))

theorem effectiveSpec_name (overrides : List ApiParamSpec) (name : String) :
    (effectiveSpec overrides name).name = name := by
  rw [effectiveSpec]
  split
  case h_1 override found =>
    rcases Dictionary.get_setAll found with impossible | member
    · cases impossible
    · obtain ⟨spec, _, same⟩ := mem_map.mp member
      obtain ⟨rfl, rfl⟩ := Prod.mk.inj same
      rfl
  case h_2 => rfl

theorem apiParameters_spec {parameters ready : List FlowParameter} {overrides : List ApiParamSpec}
    (accepted : apiParameters printable parameters overrides query = .ok ready)
    {parameter : FlowParameter} (member : parameter ∈ parameters) :
    Resolved printable query (effectiveSpec overrides parameter.name) (runParams ready) := by
  rw [apiParameters] at accepted
  cases done : resolveParams printable (effectiveSpecs parameters overrides) query with
  | error message =>
    rw [done] at accepted
    cases accepted
  | ok resolved =>
  rw [done] at accepted
  cases accepted
  have known := @resolveParams_spec _ _ _ _ _ (effectiveSpec overrides parameter.name) ?_ done
    (.inl (mem_map_of_mem member))
  · intro raw given
    obtain ⟨value, coerced, stored⟩ := known raw given
    refine ⟨value, coerced, ?_⟩
    rw [effectiveSpec_name] at stored ⊢
    refine Dictionary.get_setAll_of_mem ?_ ?_
    · refine mem_map.mpr ⟨_, mem_map_of_mem member, ?_⟩
      rw [stored]
    · intro other found
      obtain ⟨_, made, same⟩ := mem_map.mp found
      obtain ⟨source, _, rfl⟩ := mem_map.mp made
      have named : source.name = parameter.name := by
        have names := congrArg Prod.fst same
        dsimp only at names
        split at names <;> exact names
      rw [named, stored] at same
      exact (congrArg Prod.snd same).symm
  · intro turn made named
    obtain ⟨source, _, rfl⟩ := mem_map.mp made
    rw [effectiveSpec_name, effectiveSpec_name] at named
    rw [named]

end

variable {σ τ : Type} (lexer : Lexer σ τ)

/-- Every reference to a parameter stands inside an ordinary literal of the program, in which the
other parameters have their values. -/
def ReferencesQuoted (name : String) (template : String) (others : Params) : Prop :=
  ∀ front back, piecesOf template = front ++ .reference name.toList :: back →
    lexer.quotesAfter (front.flatMap (Piece.resolve others)) = true

/-- Two programs have the same tokens, but for literals in which a value took the place of the
references to a parameter. -/
def SameTokens (name value : String) (before after : String) : Prop :=
  Option.Rel (List.Forall₂ (Token.Alike (Piece.reference name.toList).source value.toList))
    (lexer.tokenize before.toList) (lexer.tokenize after.toList)

def holes (name : String) (others : Params) (pieces : List Piece) : Template :=
  pieces.flatMap fun piece =>
    if piece = .reference name.toList then [none] else (piece.resolve others).map some

variable (name : String)

theorem fill_holes (hole : List Char) (name : String) (others : Params) (pieces : List Piece) :
    fill hole (holes name others pieces) = pieces.flatMap fun piece =>
      if piece = .reference name.toList then hole else piece.resolve others := by
  rw [fill, holes, flatMap_assoc]
  refine flatMap_congr fun piece _ => ?_
  split
  · exact flatMap_singleton _ _
  · rw [flatMap_map]
    exact flatMap_singleton' _

theorem holes_cons (others : Params) (piece : Piece) (rest : List Piece) :
    holes name others (piece :: rest) = holes name others [piece] ++ holes name others rest := by
  rw [holes, holes, holes, flatMap_cons, flatMap_singleton]

theorem hole_of_reference {name : String} {others : Params} {pieces : List Piece}
    {front back : Template} (split : holes name others pieces = front ++ none :: back) :
    ∃ before after, pieces = before ++ .reference name.toList :: after ∧
      front = holes name others before := by
  induction pieces generalizing front with
  | nil => exact absurd split.symm (append_ne_nil_of_right_ne_nil _ (cons_ne_nil _ _))
  | cons piece rest ih =>
    have later {front : Template} (split : holes name others rest = front ++ none :: back) :
        ∃ before after, piece :: rest = before ++ .reference name.toList :: after ∧
          holes name others [piece] ++ front = holes name others before := by
      obtain ⟨before, after, rfl, rfl⟩ := ih split
      exact ⟨piece :: before, after, rfl, (holes_cons ..).symm⟩
    rw [holes_cons, append_eq_append_iff] at split
    rcases split with ⟨added, rfl, split⟩ | ⟨left, chunk, split⟩
    · exact later split
    cases left with
    | nil =>
      rw [append_nil] at chunk
      have found := @later [] split.symm
      rwa [chunk, append_nil] at found
    | cons first left =>
    obtain ⟨rfl, -⟩ := List.cons.inj split
    by_cases here : piece = .reference name.toList
    · subst here
      rw [holes, flatMap_singleton, if_pos rfl] at chunk
      cases front with
      | nil => exact ⟨[], rest, rfl, rfl⟩
      | cons => cases (append_eq_nil_iff.mp (List.cons.inj chunk).2.symm).2
    · rw [holes, flatMap_singleton, if_neg here] at chunk
      have filled : none ∈ (piece.resolve others).map some :=
        chunk ▸ mem_append_right front mem_cons_self
      obtain ⟨_, _, impossible⟩ := mem_map.mp filled
      cases impossible

/-- The parameter alone is left out. -/
theorem fill_source (params : Params) (pieces : List Piece) :
    fill (Piece.reference name.toList).source (holes name (params.erase name) pieces) =
      pieces.flatMap (Piece.resolve (params.erase name)) := by
  rw [fill_holes]
  refine flatMap_congr fun piece _ => ?_
  split
  case isTrue here =>
    rw [here, Piece.resolve, String.ofList_toList, Dictionary.get_erase, if_pos rfl]
  case isFalse => rfl

variable {value : String} {params : Params}

theorem fill_value {name : String} (stored : params.get name = some value) (pieces : List Piece) :
    fill value.toList (holes name (params.erase name) pieces) =
      pieces.flatMap (Piece.resolve params) := by
  rw [fill_holes]
  refine flatMap_congr fun piece _ => ?_
  split
  case isTrue here => rw [here, Piece.resolve, String.ofList_toList, stored]
  case isFalse apart =>
    cases piece with
    | text c => rfl
    | reference other =>
      have differs : String.ofList other ≠ name := fun same =>
        apart (same ▸ String.toList_ofList.symm ▸ rfl)
      rw [Piece.resolve, Piece.resolve, Dictionary.get_erase, if_neg differs]

theorem isHarmless_of_namePart {c : Char} (part : isNamePart c = true) : isHarmless c = true := by
  have apart {other : Char} (none : isNamePart other = false) : c ≠ other := by
    rintro rfl
    cases part.symm.trans none
  have unquoted : openingQuote c = none := by
    rw [openingQuote, if_neg (apart (by decide)), if_neg (apart (by decide))]
  simp [isHarmless, unquoted, @apart '\\' (by decide), @apart '\n' (by decide),
    @apart '\r' (by decide), @apart '\x00' (by decide)]

/-- A reference itself may stand in a literal. -/
theorem source_harmless {text : String} {name : List Char}
    (member : Piece.reference name ∈ piecesOf text) :
    Harmless (Piece.reference name).source := by
  refine ⟨cons_ne_nil _ _, fun c inside => ?_⟩
  rcases mem_cons.mp inside with rfl | inside
  · decide
  rcases mem_cons.mp inside with rfl | inside
  · decide
  rcases mem_append.mp inside with part | last
  · exact isHarmless_of_namePart (name_of_reference member c part)
  · exact mem_singleton.mp last ▸ by decide

/-- A value that may stand in a literal changes nothing but the literals with the references. -/
theorem sameTokens_of_harmless {name template : String}
    (stored : params.get name = some value) (harmless : Harmless value.toList)
    (quoted : ReferencesQuoted lexer name template (params.erase name)) :
    SameTokens lexer name value (resolveParameters template (params.erase name))
      (resolveParameters template params) := by
  rw [SameTokens, toList_resolveParameters, toList_resolveParameters, ← fill_source,
    ← fill_value stored]
  by_cases referred : Piece.reference name.toList ∈ piecesOf template
  · refine Lexer.tokenize_alike (source_harmless referred) harmless fun front back cut => ?_
    obtain ⟨before, after, found, rfl⟩ := hole_of_reference cut
    rw [fill_source]
    exact lexer.exists_of_quotesAfter (quoted before after found)
  · have same : fill (Piece.reference name.toList).source
          (holes name (params.erase name) (piecesOf template)) =
        fill value.toList (holes name (params.erase name) (piecesOf template)) := by
      rw [fill_holes, fill_holes]
      refine flatMap_congr fun piece member => ?_
      have apart : piece ≠ .reference name.toList := fun here => referred (here ▸ member)
      rw [if_neg apart, if_neg apart]
    rw [same]
    exact lexer.tokenize_refl _ _ _

variable {raw : String}

/-- A text that is let through may stand in a literal, unless it has a null character. -/
theorem harmless_of_accepted (accepted : rejectUnsafeString spec raw = .ok value)
    (nonempty : raw ≠ "") (noNull : '\x00' ∉ raw.toList) : value = raw ∧ Harmless raw.toList := by
  rw [rejectUnsafeString] at accepted
  split at accepted
  · cases accepted
  case isFalse safe =>
    rw [Bool.or_eq_true, not_or, any_eq_true] at safe
    refine ⟨(Except.ok.inj accepted).symm, mt String.toList_eq_nil_iff.mp nonempty,
      fun c member => ?_⟩
    have apart {other : Char} (listed : other ∈ unsafeStringChars) : c ≠ other := by
      rintro rfl
      exact safe.2 ⟨c, member, contains_iff_mem.mpr listed⟩
    have unquoted : openingQuote c = none := by
      rw [openingQuote, if_neg (apart (by decide)), if_neg (apart (by decide))]
    have notNull : c ≠ '\x00' := fun null => noNull (null ▸ member)
    simp [isHarmless, unquoted, @apart '\\' (by decide), @apart '\n' (by decide),
      @apart '\r' (by decide), notNull]

variable {printable : Char → Bool}

theorem coerce_integer (type : spec.type = .integer)
    (coerced : coerce printable spec raw = .ok value) : isSignedNumber value.toList = true := by
  rw [coerce, type] at coerced
  dsimp only at coerced
  split at coerced
  case h_1 number _ => exact Except.ok.inj coerced ▸ isSignedNumber_int number
  case h_2 => cases coerced

theorem coerce_float (type : spec.type = .float) (coerced : coerce printable spec raw = .ok value) :
    ∃ number, parseFloat raw.toList = some number ∧ value.toList = reprFloat number := by
  rw [coerce, type] at coerced
  dsimp only at coerced
  split at coerced
  case h_1 number read =>
    exact ⟨number, read, Except.ok.inj coerced ▸ String.toList_ofList⟩
  case h_2 => cases coerced

theorem coerce_boolean (type : spec.type = .boolean)
    (coerced : coerce printable spec raw = .ok value) : value = "true" ∨ value = "false" := by
  rw [coerce, type] at coerced
  dsimp only at coerced
  split at coerced
  · exact .inl (Except.ok.inj coerced).symm
  split at coerced
  · exact .inr (Except.ok.inj coerced).symm
  · cases coerced

/-- A number that is neither infinite nor undefined. -/
def IsFinite (number : SignedDouble) : Prop :=
  ∃ value, number.magnitude = .finite value

/-- A text of a request changes nothing but the literals with its references. What is given for a
number is a number token, perhaps behind a minus sign, unless it is no finite number; what is given
for a truth value is a word. -/
theorem apiParameters_tokens {parameters ready : List FlowParameter} {overrides : List ApiParamSpec}
    {query : Params} (accepted : apiParameters printable parameters overrides query = .ok ready)
    {parameter : FlowParameter} (member : parameter ∈ parameters) {raw : String} :
    ((effectiveSpec overrides parameter.name).type = .string →
      query.get parameter.name = some raw → raw ≠ "" → '\x00' ∉ raw.toList →
      ∀ template, ReferencesQuoted lexer parameter.name template
          ((runParams ready).erase parameter.name) →
        SameTokens lexer parameter.name raw
          (resolveParameters template ((runParams ready).erase parameter.name))
          (resolveParameters template (runParams ready))) ∧
    ((effectiveSpec overrides parameter.name).given query = some raw →
      ∃ value, (runParams ready).get parameter.name = some value ∧
        ((effectiveSpec overrides parameter.name).type = .integer →
          isSignedNumber value.toList = true) ∧
        ((effectiveSpec overrides parameter.name).type = .float →
          (∀ number, parseFloat raw.toList = some number → IsFinite number) →
          isSignedNumber value.toList = true) ∧
        ((effectiveSpec overrides parameter.name).type = .boolean →
          value = "true" ∨ value = "false")) := by
  have resolved := apiParameters_spec accepted member
  rw [Resolved, effectiveSpec_name] at resolved
  refine ⟨fun type asked nonempty noNull template quoted => ?_, fun given => ?_⟩
  · have given : (effectiveSpec overrides parameter.name).given query = some raw := by
      rw [ApiParamSpec.given, effectiveSpec_name, asked, Option.filter_some, if_pos (by simpa)]
      rfl
    obtain ⟨value, coerced, stored⟩ := resolved raw given
    rw [coerce, type] at coerced
    obtain ⟨rfl, harmless⟩ := harmless_of_accepted coerced nonempty noNull
    exact sameTokens_of_harmless lexer stored harmless quoted
  · obtain ⟨value, coerced, stored⟩ := resolved raw given
    refine ⟨value, stored, fun type => coerce_integer type coerced, fun type finite => ?_,
      fun type => coerce_boolean type coerced⟩
    obtain ⟨number, read, written⟩ := coerce_float type coerced
    obtain ⟨size, isSize⟩ := finite number read
    obtain ⟨negative, magnitude⟩ := number
    subst isSize
    exact written ▸ reprFloat_finite negative size

/-- Every character is a token, and every quote opens a literal. -/
def characters : Lexer Unit Char where
  start := ()
  step _ c := some ((), [c])
  opens _ _ := some ([], (), [])
  finish _ := some []

def published (name : String) : List FlowParameter :=
  [⟨name, "none", ""⟩]

def asked (name raw : String) : Params :=
  ⟨[(name, raw)], nodup_singleton name⟩

/-- A program that asks for a region. -/
def quotedRegion : String :=
  "'$\x7bregion\x7d'"

theorem quotedRegion_tokens : SameTokens characters "region" "EU"
      (resolveParameters quotedRegion ((runParams [⟨"region", "EU", ""⟩]).erase "region"))
      (resolveParameters quotedRegion (runParams [⟨"region", "EU", ""⟩])) := by
  have accepted : apiParameters (fun _ => true) (published "region") [] (asked "region" "EU") =
      .ok [⟨"region", "EU", ""⟩] := rfl
  refine (apiParameters_tokens characters accepted mem_cons_self).1 rfl rfl (by decide)
    (by decide) quotedRegion fun front back cut => ?_
  have parts : piecesOf quotedRegion =
      [.text '\''] ++ .reference "region".toList :: [.text '\''] := by decide
  rw [parts, append_cons_inj_of_notMem (by decide) (by decide)] at cut
  exact cut.1 ▸ by decide

/-- A negative number is no single token, what is undefined is no number, and a null character is
let through but is in no program. -/
theorem accepted_otherwise : (apiParameters (fun _ => true) (published "limit")
        [{ name := "limit", type := .integer }] (asked "limit" "-1") =
      .ok [⟨"limit", "-1", ""⟩] ∧ isNumber "-1".toList = false) ∧
    (apiParameters (fun _ => true) (published "limit")
        [{ name := "limit", type := .float }] (asked "limit" "nan") =
      .ok [⟨"limit", "nan", ""⟩] ∧ isSignedNumber "nan".toList = false) ∧
    apiParameters (fun _ => true) (published "region") [] (asked "region" "\x00") =
      .ok [⟨"region", "\x00", ""⟩] ∧
    characters.tokenize quotedRegion.toList ≠ none ∧
    characters.tokenize (resolveParameters quotedRegion
      (runParams [⟨"region", "\x00", ""⟩])).toList = none := by
  refine ⟨⟨?_, ?_⟩, ⟨?_, ?_⟩, ?_, ?_, ?_⟩
  · rfl
  · rfl
  · rfl
  · rfl
  · rfl
  · decide
  · decide

end Flowfile.Parameters

import Flowfile.Library.LabelledTrees
import Mathlib.Data.List.Infix

/-!
# Redaction of secrets

A payload is walked down, and each text is judged by the name of the nearest field it lies in. A
`SecretStr` is replaced wherever it stands. A text that looks like a placeholder is kept, so that
redacting again changes nothing.
-/

namespace Flowfile.SecretRedaction

open Library.LabelledTrees

inductive Leaf where
  | str (value : String)
  | secretStr (value : String)
  /-- A value that is no text. -/
  | scalar (value : String)

abbrev Payload := Tree String Leaf

def secretRedacted : String := "<<secret:redacted>>"

def secretPlaceholder (name : String) : String := "<<secret:" ++ name ++ ">>"

def secretValueSubstrings : List String :=
  ["password", "passwd", "api_key", "apikey", "secret_key", "client_secret", "private_key",
    "access_token", "refresh_token", "session_token", "id_token", "auth_token"]

def secretFieldNames : List String :=
  ["password", "passwd", "pwd", "secret", "token", "api_key", "apikey", "access_token",
    "refresh_token", "session_token", "id_token", "auth_token", "private_key", "client_secret",
    "encryption_key", "encryption_master_key", "sas_token"]

variable (lower : String → String) (extra : List String)

def normaliseFieldName (name : String) : String :=
  .ofList ((lower name).toList.map fun c => if c = '-' then '_' else c)

def isSecretField (name : String) : Bool :=
  let norm := normaliseFieldName lower name
  norm ∈ secretFieldNames ∨ norm ∈ extra ∨
    secretValueSubstrings.any fun token => token.toList <:+: norm.toList

def isSecretRefField (name : String) : Bool :=
  "_ref".toList.isSuffixOf (normaliseFieldName lower name).toList

def isPlaceholder (value : String) : Bool :=
  "<<secret:".toList.isPrefixOf value.toList

/-- `_redact` at a value that is neither a dict nor a list. -/
def redactLeaf (keyHint : Option String) : Leaf → Leaf
  | .secretStr _ => .str secretRedacted
  | .scalar value => .scalar value
  | .str value => .str <| match keyHint with
    | none => value
    | some key =>
      if isPlaceholder value then value
      else if isSecretRefField lower key then secretPlaceholder value
      else if isSecretField lower extra key then secretRedacted
      else value

def redactSecrets (extraSecretFieldNames : List String) (payload : Payload) : Payload :=
  mapLeaves (redactLeaf lower (extraSecretFieldNames.map (normaliseFieldName lower))) none payload

/-- A text that is no placeholder, in a field named as a secret and not as a reference to one. -/
def Covered (keyHint : Option String) (value : String) : Prop :=
  ∃ key ∈ keyHint, isSecretField lower extra key ∧ ¬isSecretRefField lower key ∧
    ¬isPlaceholder value

/-- The leaf without its secret. -/
noncomputable def maskLeaf (keyHint : Option String) : Leaf → Leaf
  | .secretStr _ => .secretStr ""
  | .scalar value => .scalar value
  | .str value => open Classical in .str (if Covered lower extra keyHint value then "" else value)

/-- The payload without any of its secrets. -/
noncomputable def mask (extraSecretFieldNames : List String) (payload : Payload) : Payload :=
  mapLeaves (maskLeaf lower (extraSecretFieldNames.map (normaliseFieldName lower))) none payload

/-- The payload's dicts, lists and keys, without its texts. -/
def shape (payload : Payload) : Payload :=
  mapLeaves (fun _ => fun | .scalar value => .scalar value | _ => .str "") none payload

variable {lower extra} {keyHint : Option String}

theorem redactLeaf_maskLeaf (leaf : Leaf) :
    redactLeaf lower extra keyHint (maskLeaf lower extra keyHint leaf) =
      redactLeaf lower extra keyHint leaf := by
  cases leaf with
  | secretStr value => rfl
  | scalar value => rfl
  | str value =>
    rw [maskLeaf]
    split
    · rename_i covered
      obtain ⟨key, rfl, secret, notRef, text⟩ := covered
      have empty : ¬isPlaceholder "" := by decide
      simp only [redactLeaf, empty, text, notRef, secret, if_true, if_false, Bool.false_eq_true]
    · rfl

theorem isPlaceholder_secretPlaceholder (name : String) :
    isPlaceholder (secretPlaceholder name) := by
  simp [isPlaceholder, secretPlaceholder, String.toList_append]

theorem redactLeaf_redactLeaf (leaf : Leaf) :
    redactLeaf lower extra keyHint (redactLeaf lower extra keyHint leaf) =
      redactLeaf lower extra keyHint leaf := by
  have redacted : isPlaceholder secretRedacted := by decide
  cases leaf with
  | secretStr value => cases keyHint <;> simp [redactLeaf, redacted]
  | scalar value => rfl
  | str value =>
    cases keyHint with
    | none => rfl
    | some key =>
      by_cases placeholder : isPlaceholder value
      · simp [redactLeaf, placeholder]
      by_cases isRef : isSecretRefField lower key
      · simp [redactLeaf, placeholder, isRef, isPlaceholder_secretPlaceholder]
      by_cases secret : isSecretField lower extra key <;>
        simp [redactLeaf, placeholder, isRef, secret, redacted]

/-- The result depends on no `SecretStr` and on no covered text, and has no `SecretStr`. Shape and
keys are kept, and a second redaction changes nothing. -/
theorem redactSecrets_spec (lower : String → String) (extraSecretFieldNames : List String)
    (payload : Payload) :
    redactSecrets lower extraSecretFieldNames (mask lower extraSecretFieldNames payload) =
      redactSecrets lower extraSecretFieldNames payload ∧
    (∀ leaf ∈ leaves (redactSecrets lower extraSecretFieldNames payload),
      ∀ value, leaf ≠ .secretStr value) ∧
    shape (redactSecrets lower extraSecretFieldNames payload) = shape payload ∧
    redactSecrets lower extraSecretFieldNames
      (redactSecrets lower extraSecretFieldNames payload) =
      redactSecrets lower extraSecretFieldNames payload := by
  refine ⟨?_, forall_leaves (fun label leaf => ?_) none payload, ?_, ?_⟩
  · rw [redactSecrets, mask, mapLeaves_mapLeaves]
    exact congrArg (mapLeaves · none payload) (funext₂ fun _ => redactLeaf_maskLeaf)
  · cases leaf <;> nofun
  · rw [redactSecrets, shape, mapLeaves_mapLeaves]
    exact congrArg (mapLeaves · none payload) (funext₂ fun label leaf => by cases leaf <;> rfl)
  · rw [redactSecrets, redactSecrets, mapLeaves_mapLeaves]
    exact congrArg (mapLeaves · none payload) (funext₂ fun _ => redactLeaf_redactLeaf)

/-- A dict under a secret's name passes, and so do a reference's name and a text that begins like a
placeholder. -/
theorem redactSecrets_passes : isSecretField id [] "password" ∧ isSecretField id [] "api_key_ref" ∧
    redactSecrets id [] (.dict [("password", .dict [("value", .leaf (.str "x"))]),
        ("api_key_ref", .leaf (.str "y")), ("passwd", .leaf (.str "<<secret:z"))]) =
      .dict [("password", .dict [("value", .leaf (.str "x"))]),
        ("api_key_ref", .leaf (.str "<<secret:y>>")), ("passwd", .leaf (.str "<<secret:z"))] :=
  ⟨by decide, by decide, rfl⟩

end Flowfile.SecretRedaction

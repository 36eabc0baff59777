import Flowfile.Library.PartialLists
import Flowfile.Library.StraightLine
import Mathlib.Data.List.Nodup

/-!
# Fusing chains of generated statements

The generator emits one piece of code per node, most often an assignment of a chain of method
calls to the node's variable. A producer with a single consumer whose chain starts at the
producer's variable is absorbed: its statement is dropped and its chain written out at the
consumer's place, so that its variable is no longer assigned.

Consumers are counted along the connections of the graph. A variable can also be read otherwise,
by a node that refers to the model another node trained, or be returned by the function. The fused
code computes what the statements compute exactly when the variable of no absorbed producer is read
or returned in this way.
-/

namespace Flowfile.CodeGen

open Library.PartialLists Library.StraightLine List

/-- A call in a method chain, with the variables it reads and all the words of its text. -/
structure Link where
  text : String
  words : List String
  reads : List String
  readsAreWords : ∀ name ∈ reads, name ∈ words
deriving DecidableEq

/-- What a method chain starts with: a variable, or an expression on its own. -/
inductive Root where
  | ofVariable (name : String)
  | expression (text : String) (reads : List String)
deriving DecidableEq

/-- How an assignment is laid out: `x = y.f()`, or `x = (y` with the chain on lines of its own up
to a closing `)`, or otherwise. -/
inductive Layout where
  | direct
  | parenthesised
  | other
deriving DecidableEq

/-- An assignment of a method chain. -/
structure Assignment where
  target : String
  root : Root
  links : List Link
  layout : Layout
deriving DecidableEq

inductive Code where
  | assignment (statement : Assignment)
  | block (text : String) (reads writes : List String)
deriving DecidableEq

def Root.reads : Root → List String
  | .ofVariable name => [name]
  | .expression _ reads => reads

def Code.reads : Code → List String
  | .assignment statement => statement.root.reads ++ statement.links.flatMap Link.reads
  | .block _ reads _ => reads

def Code.writes : Code → List String
  | .assignment statement => [statement.target]
  | .block _ _ writes => writes

/-- The code of a node with the facts about the graph that fusion needs. -/
structure NodeEmission where
  nodeId : Int
  varName : String
  code : Code
  mainProducerId : Option Int
  numInputs : Nat
  isFlowOutput : Bool
  pinned : Bool
deriving DecidableEq

def isSimple (em : NodeEmission) : Bool :=
  match em.code with
  | .assignment statement => statement.target = em.varName
  | .block _ _ _ => false

/-- An assignment whose text starts a chain at a variable. -/
def Assignment.anchoredAt (statement : Assignment) (variableName : String) : Bool :=
  statement.root = .ofVariable variableName &&
    match statement.layout with
    | .direct => !statement.links.isEmpty
    | .parenthesised => true
    | .other => false

/-- The chain of a consumer applied to the variable of its producer. There is none if the chain
starts elsewhere, or if the variable occurs in it again. -/
def linkSuffix (consumer : NodeEmission) (producerVar : String) : Option (List Link) :=
  match consumer.code with
  | .block _ _ _ => none
  | .assignment statement =>
    if statement.target = consumer.varName && statement.anchoredAt producerVar then
      if statement.links.any (producerVar ∈ ·.words) then none else some statement.links
    else none

/-- The chains of consumers, one applied to the other. -/
def renderLinks : NodeEmission → List NodeEmission → Option (List Link)
  | _, [] => some []
  | producer, node :: rest => do
    let suffix ← linkSuffix node producer.varName
    let later ← renderLinks node rest
    some (suffix ++ later)

/-- Render a chain of producers and consumers as one expression. -/
def renderChain : List NodeEmission → Option (List Code)
  | [] => some []
  | [single] => some [single.code]
  | root :: node :: rest =>
    match root.code with
    | .block _ _ _ => none
    | .assignment statement => do
      let links ← renderLinks root (node :: rest)
      some [.assignment
        { target := ((node :: rest).getLast (cons_ne_nil _ _)).varName
          root := statement.root
          links := statement.links ++ links
          layout := .other }]

section
variable (emissions : List NodeEmission) (consumers : Int → List Int)

def byId (nodeId : Int) : Option NodeEmission :=
  emissions.reverse.find? fun em => em.nodeId = nodeId

def absorber (producer : NodeEmission) : Option Int :=
  if !(byId emissions producer.nodeId).any isSimple || 1 < producer.numInputs ||
      producer.isFlowOutput then none
  else if producer.pinned then none
  else
    match consumers producer.nodeId with
    | [consumerId] =>
      match byId emissions consumerId with
      | none => none
      | some consumer =>
        if !isSimple consumer then none
        else if consumer.numInputs ≠ 1 || consumer.mainProducerId ≠ some producer.nodeId then none
        else if (linkSuffix consumer producer.varName).isNone then none
        else some consumer.nodeId
    | _ => none

def absorbedInto (nodeId : Int) : Option Int :=
  emissions.reverse.findSome? fun producer =>
    if producer.nodeId = nodeId then absorber emissions consumers producer else none

def walkBack : Nat → NodeEmission → List NodeEmission → Option (List NodeEmission)
  | 0, _, _ => none
  | fuel + 1, cur, chain =>
    match cur.mainProducerId with
    | none => some chain
    | some producerId =>
      if absorbedInto emissions consumers producerId = some cur.nodeId then
        match byId emissions producerId with
        | none => none
        | some producer => walkBack fuel producer (producer :: chain)
      else some chain

def renderFrom : List NodeEmission → Option (List Code × List Int)
  | [] => some ([], [])
  | em :: rest =>
    if (absorbedInto emissions consumers em.nodeId).isSome then renderFrom rest
    else do
      let chain ← walkBack emissions consumers emissions.length em [em]
      let (rendered, survivors) ← renderFrom rest
      some ((renderChain chain).getD (chain.map NodeEmission.code) ++ rendered,
        em.nodeId :: survivors)

/-- Render all nodes, with chains of nodes that have a single consumer fused. -/
def renderPipeline : Option (List Code × List Int) := renderFrom emissions consumers emissions

end

/-- A meaning of the texts in generated code: expressions, method calls and blocks are functions of
the receiver and of the values of the variables they read, and may fail. -/
structure Interpretation (Value : Type) where
  expression : String → List Value → Option Value
  call : String → Value → List Value → Option Value
  block : String → List Value → Option (String → Value)

section
variable {Value : Type} (meaning : Interpretation Value)

def Root.value (env : Env String Value) : Root → Option Value
  | .ofVariable name => env name
  | .expression text reads => (reads.mapM env).bind (meaning.expression text)

def chainValue (env : Env String Value) : Value → List Link → Option Value
  | receiver, [] => some receiver
  | receiver, link :: rest =>
    ((link.reads.mapM env).bind (meaning.call link.text receiver)).bind fun value =>
      chainValue env value rest

def Assignment.value (env : Env String Value) (statement : Assignment) : Option Value :=
  (statement.root.value meaning env).bind fun receiver =>
    chainValue meaning env receiver statement.links

def Code.results (env : Env String Value) : Code → Option (String → Value)
  | .assignment statement => (statement.value meaning env).map fun value _ => value
  | .block text reads _ => (reads.mapM env).bind (meaning.block text)

variable {meaning} {env other : Env String Value} {name : String} {links : List Link} {root : Root}

theorem mapM_unbound {names : List String}
    (mem : name ∈ names) (unbound : env name = none) : names.mapM env = none := by
  induction names with
  | nil => cases mem
  | cons first rest ih =>
    rw [mapM_cons]
    rcases mem_cons.mp mem with rfl | inRest
    · rw [unbound]
      rfl
    · rw [ih inRest]
      cases env first <;> rfl

theorem chainValue_append (env : Env String Value) (receiver : Value) (before after : List Link) :
    chainValue meaning env receiver (before ++ after) =
      (chainValue meaning env receiver before).bind fun value =>
        chainValue meaning env value after := by
  induction before generalizing receiver with
  | nil => rfl
  | cons link rest ih =>
    rw [cons_append, chainValue, chainValue, Option.bind_assoc _ _ fun value =>
      chainValue meaning env value after]
    exact congrArg _ (funext ih)

theorem chainValue_congr
    (agree : ∀ name ∈ links.flatMap Link.reads, env name = other name) (receiver : Value) :
    chainValue meaning env receiver links = chainValue meaning other receiver links := by
  induction links generalizing receiver with
  | nil => rfl
  | cons link rest ih =>
    rw [flatMap_cons] at agree
    rw [chainValue, chainValue, mapM_congr fun name mem => agree name (mem_append_left _ mem)]
    exact congrArg _ (funext (ih fun name mem =>
      agree name (mem_append_right _ mem)))

theorem chainValue_unbound
    (mem : name ∈ links.flatMap Link.reads) (unbound : env name = none) (receiver : Value) :
    chainValue meaning env receiver links = none := by
  induction links generalizing receiver with
  | nil => cases mem
  | cons link rest ih =>
    rw [chainValue]
    rcases mem_append.mp (flatMap_cons ▸ mem) with here | later
    · rw [mapM_unbound here unbound]
      rfl
    · cases (link.reads.mapM env).bind (meaning.call link.text receiver) with
      | none => rfl
      | some value => exact ih later value

theorem Root.value_congr (agree : ∀ name ∈ root.reads, env name = other name) :
    root.value meaning env = root.value meaning other := by
  cases root with
  | ofVariable name => exact agree name (mem_singleton_self name)
  | expression text reads =>
    exact congrArg (Option.bind · (meaning.expression text)) (mapM_congr agree)

theorem Root.value_unbound
    (mem : name ∈ root.reads) (unbound : env name = none) : root.value meaning env = none := by
  cases root with
  | ofVariable own => exact (mem_singleton.mp mem) ▸ unbound
  | expression text reads =>
    exact congrArg (Option.bind · (meaning.expression text)) (mapM_unbound mem unbound)

/-- Code as a step of a straight-line program. -/
def Code.step (meaning : Interpretation Value) (code : Code) : Step String Value where
  reads := code.reads
  writes := code.writes
  results env := code.results meaning env
  depends {env other} agree := by
    cases code with
    | assignment statement =>
      have root : statement.root.value meaning env = statement.root.value meaning other :=
        Root.value_congr fun name mem => agree name (mem_append_left _ mem)
      rw [Code.results, Code.results, Assignment.value, Assignment.value, root]
      refine congrArg _ (congrArg _ (funext fun receiver => ?_))
      exact chainValue_congr
        (fun name mem => agree name (mem_append_right _ mem)) receiver
    | block text reads writes =>
      exact congrArg (Option.bind · (meaning.block text)) (mapM_congr agree)
  needs {env name} mem unbound := by
    cases code with
    | assignment statement =>
      rw [Code.results, Assignment.value]
      rcases mem_append.mp mem with inRoot | inLinks
      · rw [Root.value_unbound inRoot unbound]
        rfl
      · cases statement.root.value meaning env with
        | none => rfl
        | some receiver =>
          exact congrArg _ (chainValue_unbound inLinks unbound receiver)
    | block text reads writes =>
      exact congrArg (Option.bind · (meaning.block text)) (mapM_unbound mem unbound)

end

/-- Fusion preserves meaning: whatever the texts mean, where the statements of the nodes run in
order the fused code runs too, and every variable it reads or that is returned ends with the same
value. -/
def Preserves (emissions : List NodeEmission) (consumers : Int → List Int)
    (returned : List String) : Prop :=
  ∃ rendered survivors, renderPipeline emissions consumers = some (rendered, survivors) ∧
    ∀ (Value : Type) (meaning : Interpretation Value) (start final : Env String Value),
      runAll (emissions.map fun em => em.code.step meaning) start = some final →
        ∃ last, runAll (rendered.map (Code.step meaning)) start = some last ∧
          ∀ name, (∃ code ∈ rendered, name ∈ code.reads) ∨ name ∈ returned → last name = final name

end Flowfile.CodeGen

import Flowfile.ChainFusion
import Mathlib.Data.List.Chain

/-!
# When fusion preserves meaning

The statements of the nodes come in the order of the data flow: a variable is assigned before it is
read, and a variable that is read or returned is assigned by one node. The environment they end in
then solves the equation of every statement. So does each fused chain, since the variable of an
absorbed producer holds the value that the chain of its consumer continues with, and it finds what
it reads at its place, after everything the chain depends on.

This needs that nothing else reads the variable of an absorbed producer and that it is not
returned. Otherwise the fused code reads a variable it does not assign, or leaves one unassigned
that is returned.
-/

namespace Flowfile.CodeGen

open Library.StraightLine List

/-- Statements in the order of the data flow: nodes are distinct, what a statement reads is
assigned neither by it nor later, and what is read or returned is assigned by one node. -/
structure InDataFlowOrder (emissions : List NodeEmission) (returned : List String) : Prop where
  distinct : (emissions.map NodeEmission.nodeId).Nodup
  ownReads : ∀ em ∈ emissions, ∀ name ∈ em.code.reads, name ∉ em.code.writes
  ordered : emissions.Pairwise fun earlier later =>
    ∀ name ∈ earlier.code.reads, name ∉ later.code.writes
  oneWriter : emissions.Pairwise fun earlier later =>
    ∀ name ∈ earlier.code.writes, name ∈ later.code.writes →
      (∀ em ∈ emissions, name ∉ em.code.reads) ∧ name ∉ returned

def Hidden (emissions : List NodeEmission) (returned : List String) (producer : NodeEmission)
    (consumerId : Int) : Prop :=
  (∀ reader ∈ emissions, producer.varName ∈ reader.code.reads → reader.nodeId = consumerId) ∧
    producer.varName ∉ returned

variable {emissions : List NodeEmission} {consumers : Int → List Int} {returned : List String}
  {nodeId : Int} {em : NodeEmission}

theorem byId_mem (found : byId emissions nodeId = some em) : em ∈ emissions ∧ em.nodeId = nodeId :=
  ⟨mem_reverse.mp (mem_of_find?_eq_some found),
    of_decide_eq_true (List.find?_some (p := fun em : NodeEmission => em.nodeId = nodeId) found)⟩

theorem byId_self (distinct : (emissions.map NodeEmission.nodeId).Nodup)
    (mem : em ∈ emissions) : byId emissions em.nodeId = some em := by
  cases found : byId emissions em.nodeId with
  | none =>
    have absent := List.find?_eq_none.mp found em (mem_reverse.mpr mem)
    simp at absent
  | some other =>
    obtain ⟨inAll, same⟩ := byId_mem found
    rw [inj_on_of_nodup_map distinct inAll mem same]

variable {links : List Link}

theorem linkSuffix_eq_some {consumer : NodeEmission} {producerVar : String}
    (suffix : linkSuffix consumer producerVar = some links) :
    ∃ statement, consumer.code = .assignment statement ∧ statement.target = consumer.varName ∧
      statement.root = .ofVariable producerVar ∧ statement.links = links ∧
      ∀ link ∈ links, producerVar ∉ link.reads := by
  rw [linkSuffix] at suffix
  split at suffix
  case h_1 => cases suffix
  case h_2 statement code =>
    split at suffix
    case isFalse => cases suffix
    case isTrue anchored =>
      obtain ⟨own, anchored⟩ := Bool.and_eq_true_iff.mp anchored
      rw [Assignment.anchoredAt, Bool.and_eq_true] at anchored
      split at suffix
      case isTrue => cases suffix
      case isFalse silent =>
        cases suffix
        refine ⟨statement, code, of_decide_eq_true own, of_decide_eq_true anchored.1, rfl, ?_⟩
        intro link mem read
        exact silent (any_eq_true.mpr ⟨link, mem, decide_eq_true (link.readsAreWords _ read)⟩)

theorem isSimple_code (simple : isSimple em = true) :
    ∃ statement, em.code = .assignment statement ∧ statement.target = em.varName := by
  rw [isSimple] at simple
  split at simple
  case h_1 statement code => exact ⟨statement, code, of_decide_eq_true simple⟩
  case h_2 => cases simple

variable {consumerId : Int}

theorem absorber_eq_some (distinct : (emissions.map NodeEmission.nodeId).Nodup)
    {producer : NodeEmission} (mem : producer ∈ emissions)
    (absorbed : absorber emissions consumers producer = some consumerId) :
    isSimple producer = true ∧ ∃ consumer ∈ emissions, consumer.nodeId = consumerId ∧
      isSimple consumer = true ∧ consumer.mainProducerId = some producer.nodeId ∧
      ∃ links, linkSuffix consumer producer.varName = some links := by
  rw [absorber, byId_self distinct mem] at absorbed
  split at absorbed
  case isTrue => cases absorbed
  case isFalse candidate =>
    split at absorbed
    case isTrue => cases absorbed
    case isFalse =>
      split at absorbed
      case h_2 => cases absorbed
      case h_1 =>
        split at absorbed
        case h_1 => cases absorbed
        case h_2 consumer found =>
          split at absorbed
          case isTrue => cases absorbed
          case isFalse simple =>
            split at absorbed
            case isTrue => cases absorbed
            case isFalse single =>
              split at absorbed
              case isTrue => cases absorbed
              case isFalse linked =>
                cases absorbed
                simp only [Option.any_some, Bool.or_eq_true, Bool.not_eq_eq_eq_not, Bool.not_true,
                  decide_eq_true_eq, not_or, Bool.not_eq_false] at candidate
                simp only [ne_eq, Bool.or_eq_true, decide_eq_true_eq, not_or, not_not] at single
                exact ⟨candidate.1.1, consumer, (byId_mem found).1, rfl, by simpa using simple,
                  single.2, Option.ne_none_iff_exists'.mp (by simpa using linked)⟩

theorem absorbedInto_eq_some (distinct : (emissions.map NodeEmission.nodeId).Nodup) :
    absorbedInto emissions consumers nodeId = some consumerId ↔
      ∃ producer ∈ emissions, producer.nodeId = nodeId ∧
        absorber emissions consumers producer = some consumerId := by
  constructor
  · intro absorbed
    obtain ⟨producer, mem, found⟩ := exists_of_findSome?_eq_some absorbed
    split at found
    case isTrue same => exact ⟨producer, mem_reverse.mp mem, same, found⟩
    case isFalse => cases found
  · rintro ⟨producer, mem, rfl, found⟩
    cases absorbed : absorbedInto emissions consumers producer.nodeId with
    | none =>
      have skipped := List.findSome?_eq_none_iff.mp absorbed producer (mem_reverse.mpr mem)
      rw [if_pos rfl, found] at skipped
      cases skipped
    | some other =>
    obtain ⟨again, inAll, foundAgain⟩ := exists_of_findSome?_eq_some absorbed
    split at foundAgain
    case isTrue same =>
      rw [inj_on_of_nodup_map distinct (mem_reverse.mp inAll) mem same] at foundAgain
      rw [← foundAgain, found]
    case isFalse => cases foundAgain

structure Linked (emissions : List NodeEmission) (consumers : Int → List Int)
    (producer consumer : NodeEmission) : Prop where
  producerIn : producer ∈ emissions
  consumerIn : consumer ∈ emissions
  absorbed : absorber emissions consumers producer = some consumer.nodeId

namespace Linked

variable {producer consumer : NodeEmission}

/-- What linked nodes are: both simple, the chain of the one starting at the other's variable. -/
theorem spec (linked : Linked emissions consumers producer consumer)
    (distinct : (emissions.map NodeEmission.nodeId).Nodup) :
    isSimple producer = true ∧ isSimple consumer = true ∧
      consumer.mainProducerId = some producer.nodeId ∧
      ∃ links, linkSuffix consumer producer.varName = some links := by
  obtain ⟨simple, other, mem, same, otherSimple, main, suffix⟩ :=
    absorber_eq_some distinct linked.producerIn linked.absorbed
  have equal : other = consumer := inj_on_of_nodup_map distinct mem linked.consumerIn same
  exact ⟨simple, equal ▸ otherSimple, equal ▸ main, equal ▸ suffix⟩

theorem producer_unique {other : NodeEmission}
    (distinct : (emissions.map NodeEmission.nodeId).Nodup)
    (linked : Linked emissions consumers producer consumer)
    (otherLinked : Linked emissions consumers other consumer) : other = producer := by
  obtain ⟨_, _, main, _⟩ := linked.spec distinct
  obtain ⟨_, _, otherMain, _⟩ := otherLinked.spec distinct
  rw [main] at otherMain
  exact (inj_on_of_nodup_map distinct linked.producerIn otherLinked.producerIn
    (Option.some.inj otherMain)).symm

theorem reads (linked : Linked emissions consumers producer consumer)
    (distinct : (emissions.map NodeEmission.nodeId).Nodup) :
    producer.varName ∈ consumer.code.reads := by
  obtain ⟨_, _, _, links, suffix⟩ := linked.spec distinct
  obtain ⟨statement, code, _, root, _⟩ := linkSuffix_eq_some suffix
  rw [code, Code.reads, root]
  exact mem_cons_self

/-- An absorbed producer assigns its variable only. -/
theorem writes (linked : Linked emissions consumers producer consumer)
    (distinct : (emissions.map NodeEmission.nodeId).Nodup) :
    producer.code.writes = [producer.varName] := by
  obtain ⟨statement, code, target⟩ := isSimple_code (linked.spec distinct).1
  rw [code, Code.writes, target]

end Linked

variable {before after : List NodeEmission} {writer : NodeEmission} {name : String}

theorem InDataFlowOrder.writer_before (inOrder : InDataFlowOrder emissions returned)
    (parts : emissions = before ++ em :: after) (mem : writer ∈ emissions)
    (read : name ∈ em.code.reads) (written : name ∈ writer.code.writes) : writer ∈ before := by
  have emIn : em ∈ emissions := parts ▸ mem_append_right _ mem_cons_self
  have ordered := parts ▸ inOrder.ordered
  rcases mem_append.mp (parts ▸ mem) with inBefore | later
  · exact inBefore
  · rcases mem_cons.mp later with rfl | inAfter
    · exact absurd written (inOrder.ownReads writer emIn name read)
    · exact absurd written
        ((pairwise_cons.mp (pairwise_append.mp ordered).2.1).1 writer inAfter name read)

/-- A chain of absorbed producers that ends with an emission and cannot be continued at its
start. -/
structure ChainOf (emissions : List NodeEmission) (consumers : Int → List Int)
    (before : List NodeEmission) (em : NodeEmission) (whole : List NodeEmission) : Prop where
  linked : whole.IsChain (Linked emissions consumers)
  last : whole.getLast? = some em
  members : ∀ mem ∈ whole, mem ∈ before ∨ mem = em
  subset : ∀ mem ∈ whole, mem ∈ emissions
  stops : ∀ head ∈ whole.head?, ∀ producer, ¬ Linked emissions consumers producer head

theorem walkBack_spec (inOrder : InDataFlowOrder emissions returned) (fuel : Nat)
    {tail : List NodeEmission} (parts : emissions = before ++ em :: after)
    (enough : before.length < fuel) (linked : (em :: tail).IsChain (Linked emissions consumers)) :
    ∃ front, walkBack emissions consumers fuel em (em :: tail) = some (front ++ em :: tail) ∧
      (front ++ em :: tail).IsChain (Linked emissions consumers) ∧
      (∀ mem ∈ front, mem ∈ before) ∧
      ∀ head ∈ (front ++ em :: tail).head?, ∀ producer,
        ¬ Linked emissions consumers producer head := by
  have distinct := inOrder.distinct
  induction fuel generalizing before after em tail with
  | zero => omega
  | succ fuel ih =>
    have emIn : em ∈ emissions := parts ▸ mem_append_right _ mem_cons_self
    rw [walkBack]
    cases main : em.mainProducerId with
    | none =>
      refine ⟨[], rfl, linked, by simp, fun head isHead producer link => ?_⟩
      cases isHead
      rw [(link.spec distinct).2.2.1] at main
      cases main
    | some producerId =>
    dsimp only
    by_cases absorbed : absorbedInto emissions consumers producerId = some em.nodeId
    · obtain ⟨producer, mem, rfl, into⟩ := (absorbedInto_eq_some distinct).mp absorbed
      have link : Linked emissions consumers producer em := ⟨mem, emIn, into⟩
      have written : producer.varName ∈ producer.code.writes := by
        rw [link.writes distinct]
        exact mem_singleton_self _
      obtain ⟨earlier, between, split⟩ := append_of_mem
        (inOrder.writer_before parts mem (link.reads distinct) written)
      have splitAll : emissions = earlier ++ producer :: (between ++ em :: after) := by
        rw [parts, split, append_assoc, cons_append]
      have shorter : earlier.length < fuel := by
        rw [split, length_append, length_cons] at enough
        omega
      obtain ⟨front, walked, chained, members, stops⟩ :=
        ih splitAll shorter (.cons_cons link linked)
      refine ⟨front ++ [producer], ?_, ?_, ?_, ?_⟩
      · rw [if_pos absorbed, byId_self distinct mem]
        simpa using walked
      · simpa using chained
      · intro other inFront
        rw [split]
        rcases mem_append.mp inFront with inRest | new
        · exact mem_append_left _ (members other inRest)
        · exact mem_append_right _ (mem_singleton.mp new ▸ mem_cons_self)
      · simpa using stops
    · rw [if_neg absorbed]
      refine ⟨[], rfl, linked, by simp, fun head isHead producer link => ?_⟩
      cases isHead
      have same := (link.spec distinct).2.2.1
      rw [main] at same
      exact absorbed (Option.some.inj same ▸
        (absorbedInto_eq_some distinct).mpr ⟨producer, link.producerIn, rfl, link.absorbed⟩)

theorem chainOf_exists (inOrder : InDataFlowOrder emissions returned)
    {before after : List NodeEmission} {em : NodeEmission}
    (parts : emissions = before ++ em :: after) :
    ∃ whole, walkBack emissions consumers emissions.length em [em] = some whole ∧
      ChainOf emissions consumers before em whole := by
  have enough : before.length < emissions.length := by
    rw [parts, length_append, length_cons]
    omega
  have alone : [em].IsChain (Linked emissions consumers) := .singleton em
  obtain ⟨front, walked, linked, members, stops⟩ :=
    walkBack_spec inOrder emissions.length parts enough alone
  have early : ∀ mem ∈ front ++ [em], mem ∈ before ∨ mem = em := by
    intro mem inWhole
    rcases mem_append.mp inWhole with inFront | last
    · exact .inl (members mem inFront)
    · exact .inr (mem_singleton.mp last)
  refine ⟨front ++ [em], walked, linked, by simp, early, fun mem inWhole => ?_, stops⟩
  rw [parts]
  rcases early mem inWhole with inBefore | rfl
  · exact mem_append_left _ inBefore
  · exact mem_append_right _ mem_cons_self

variable {whole : List NodeEmission}

theorem ChainOf.closed (chain : ChainOf emissions consumers before em whole)
    (distinct : (emissions.map NodeEmission.nodeId).Nodup) {mem producer : NodeEmission}
    (inWhole : mem ∈ whole) (link : Linked emissions consumers producer mem) :
    producer ∈ whole := by
  obtain ⟨front, back, rfl⟩ := append_of_mem inWhole
  cases frontCases : front.reverse with
  | nil =>
    rw [reverse_eq_nil_iff] at frontCases
    subst frontCases
    exact absurd link (chain.stops mem rfl producer)
  | cons last rest =>
  have shape : front = rest.reverse ++ [last] := by
    rw [← reverse_reverse front, frontCases, reverse_cons]
  subst shape
  have direct : Linked emissions consumers last mem := by
    have linked := chain.linked
    rw [append_assoc, singleton_append, isChain_append_cons_cons] at linked
    exact linked.2.1
  rw [direct.producer_unique distinct link]
  simp

def NodeEmission.value {Value : Type} (meaning : Interpretation Value) (env : Env String Value)
    (em : NodeEmission) : Option Value :=
  match em.code with
  | .assignment statement => statement.value meaning env
  | .block _ _ _ => none

theorem Linked.reads_iff {producer consumer : NodeEmission}
    (suffix : linkSuffix consumer producer.varName = some links) :
    name ∈ links.flatMap Link.reads ↔ name ∈ consumer.code.reads ∧ name ≠ producer.varName := by
  obtain ⟨statement, code, _, root, rfl, silent⟩ := linkSuffix_eq_some suffix
  rw [code, Code.reads, root, Root.reads, singleton_append, mem_cons]
  constructor
  · intro mem
    refine ⟨.inr mem, ?_⟩
    rintro rfl
    obtain ⟨link, inLinks, read⟩ := mem_flatMap.mp mem
    exact silent link inLinks read
  · rintro ⟨own | inLinks, apart⟩
    · exact absurd own apart
    · exact inLinks

variable {rest : List NodeEmission}

theorem renderLinks_spec (distinct : (emissions.map NodeEmission.nodeId).Nodup)
    {producer : NodeEmission} (linked : (producer :: rest).IsChain (Linked emissions consumers)) :
    ∃ links, renderLinks producer rest = some links ∧ ∀ name,
      name ∈ links.flatMap Link.reads ↔ ∃ consumer ∈ rest, name ∈ consumer.code.reads ∧
        ∀ other, Linked emissions consumers other consumer → name ≠ other.varName := by
  induction rest generalizing producer with
  | nil => exact ⟨[], rfl, by simp⟩
  | cons node rest ih =>
    obtain ⟨link, later⟩ := isChain_cons_cons.mp linked
    obtain ⟨_, _, _, suffix, isSuffix⟩ := link.spec distinct
    obtain ⟨links, rendered, reads⟩ := ih later
    refine ⟨suffix ++ links, ?_, fun name => ?_⟩
    · rw [renderLinks, isSuffix, rendered]
      rfl
    · have only : (∀ other, Linked emissions consumers other node → name ≠ other.varName) ↔
          name ≠ producer.varName :=
        ⟨fun all => all producer link, fun apart other otherLink =>
          link.producer_unique distinct otherLink ▸ apart⟩
      rw [flatMap_append, mem_append, reads, Linked.reads_iff isSuffix]
      simp only [mem_cons, exists_eq_or_imp, only]

variable {Value : Type} {meaning : Interpretation Value}

theorem renderLinks_value {env : Env String Value}
    (distinct : (emissions.map NodeEmission.nodeId).Nodup)
    (bound : ∀ producer consumer, Linked emissions consumers producer consumer →
      env producer.varName = producer.value meaning env)
    {producer node : NodeEmission}
    (linked : (producer :: node :: rest).IsChain (Linked emissions consumers))
    (rendered : renderLinks producer (node :: rest) = some links) :
    ((env producer.varName).bind fun receiver => chainValue meaning env receiver links) =
      ((node :: rest).getLast (cons_ne_nil _ _)).value meaning env := by
  induction rest generalizing producer node links with
  | nil =>
    obtain ⟨_, _, _, suffix, isSuffix⟩ := (isChain_cons_cons.mp linked).1.spec distinct
    obtain ⟨statement, code, _, root, rfl, _⟩ := linkSuffix_eq_some isSuffix
    rw [renderLinks, isSuffix, renderLinks] at rendered
    cases rendered
    rw [append_nil, getLast_singleton, NodeEmission.value, code]
    dsimp only
    rw [Assignment.value, root, Root.value]
  | cons next rest ih =>
    obtain ⟨link, later⟩ := isChain_cons_cons.mp linked
    obtain ⟨_, _, _, suffix, isSuffix⟩ := link.spec distinct
    obtain ⟨statement, code, _, root, rfl, _⟩ := linkSuffix_eq_some isSuffix
    obtain ⟨laterLinks, laterRendered, _⟩ := renderLinks_spec distinct later
    rw [renderLinks, isSuffix, laterRendered] at rendered
    cases rendered
    have step : env node.varName = (env producer.varName).bind fun receiver =>
        chainValue meaning env receiver statement.links := by
      rw [bound node next (isChain_cons_cons.mp later).1, NodeEmission.value, code]
      dsimp only
      rw [Assignment.value, root, Root.value]
    rw [getLast_cons_cons, ← ih later laterRendered, step, Option.bind_assoc]
    exact congrArg _ (funext fun receiver => chainValue_append env receiver _ _)

/-- The code rendered for an emission: it assigns what the emission assigns, reads what the members
of its chain read besides the variables of absorbed producers, and computes the same. -/
structure Renders (emissions : List NodeEmission) (consumers : Int → List Int)
    (em : NodeEmission) (whole : List NodeEmission) (code : Code) : Prop where
  writes : code.writes = em.code.writes
  reads : ∀ name, name ∈ code.reads ↔ ∃ mem ∈ whole, name ∈ mem.code.reads ∧
    ∀ producer, Linked emissions consumers producer mem → name ≠ producer.varName
  results : ∀ {Value : Type} (meaning : Interpretation Value) (env : Env String Value),
    (∀ producer consumer, Linked emissions consumers producer consumer →
      env producer.varName = producer.value meaning env) →
    code.results meaning env = em.code.results meaning env

theorem ChainOf.renders (chain : ChainOf emissions consumers before em whole)
    (distinct : (emissions.map NodeEmission.nodeId).Nodup) :
    ∃ code, renderChain whole = some [code] ∧ Renders emissions consumers em whole code := by
  match whole, chain with
  | [], chain => cases chain.last
  | [single], chain =>
    cases chain.last
    refine ⟨single.code, rfl, rfl, fun name => ?_, fun _ _ _ => rfl⟩
    simp only [mem_singleton, exists_eq_left]
    exact ⟨fun read => ⟨read, fun producer link => absurd link (chain.stops single rfl producer)⟩,
      And.left⟩
  | root :: node :: rest, chain =>
    have linked := chain.linked
    obtain ⟨statement, code, target⟩ :=
      isSimple_code ((isChain_cons_cons.mp linked).1.spec distinct).1
    obtain ⟨links, rendered, reads⟩ := renderLinks_spec distinct linked
    have last : (node :: rest).getLast (cons_ne_nil _ _) = em := by
      have whole := chain.last
      rw [List.getLast?_cons_cons, List.getLast?_eq_some_getLast (cons_ne_nil _ _)] at whole
      exact Option.some.inj whole
    have simple : isSimple em = true := by
      obtain ⟨front, shape⟩ : ∃ front, root :: node :: rest = front ++ [em] :=
        ⟨_, (dropLast_append_getLast? em chain.last).symm⟩
      cases frontCases : front.reverse with
      | nil =>
        rw [reverse_eq_nil_iff.mp frontCases] at shape
        cases shape
      | cons producer others =>
      have split : front = others.reverse ++ [producer] := by
        rw [← reverse_reverse front, frontCases, reverse_cons]
      rw [shape, split, append_assoc, singleton_append, isChain_append_cons_cons] at linked
      exact (linked.2.1.spec distinct).2.1
    obtain ⟨lastStatement, lastCode, lastTarget⟩ := isSimple_code simple
    refine ⟨.assignment ⟨em.varName, statement.root, statement.links ++ links, .other⟩, ?_, ?_,
      fun name => ?_, fun meaning env bound => ?_⟩
    · rw [renderChain, code, ← last]
      dsimp only
      rw [rendered]
      rfl
    · rw [lastCode, Code.writes, Code.writes, lastTarget]
    · have own : name ∈ root.code.reads ↔ name ∈ root.code.reads ∧
          ∀ producer, Linked emissions consumers producer root → name ≠ producer.varName :=
        ⟨fun read => ⟨read, fun producer link =>
          absurd link (chain.stops root rfl producer)⟩, And.left⟩
      rw [exists_mem_cons_iff, ← reads, ← own, code, Code.reads, Code.reads,
        flatMap_append, ← append_assoc, mem_append]
    · have value : statement.value meaning env = env root.varName := by
        rw [bound root node (isChain_cons_cons.mp linked).1, NodeEmission.value, code]
      have whole := renderLinks_value distinct bound linked rendered
      rw [last, ← value, NodeEmission.value, lastCode] at whole
      dsimp only at whole
      rw [lastCode, Code.results, Code.results, ← whole, Assignment.value, Assignment.value,
        Option.bind_assoc]
      refine congrArg _ (congrArg _ (funext fun receiver => ?_))
      exact chainValue_append env receiver _ _

section

variable (inOrder : InDataFlowOrder emissions returned)
include inOrder

theorem InDataFlowOrder.not_written {reader : NodeEmission}
    (parts : emissions = before ++ em :: after) (earlier : reader ∈ before ∨ reader = em)
    (later : writer ∈ em :: after) (read : name ∈ reader.code.reads) :
    name ∉ writer.code.writes := by
  have emIn : em ∈ emissions := parts ▸ mem_append_right _ mem_cons_self
  have ordered := pairwise_append.mp (parts ▸ inOrder.ordered)
  rcases earlier with inBefore | rfl
  · exact ordered.2.2 reader inBefore writer later name read
  · rcases mem_cons.mp later with rfl | inAfter
    · exact inOrder.ownReads writer emIn name read
    · exact (pairwise_cons.mp ordered.2.1).1 writer inAfter name read

theorem renderFrom_spec {before rest : List NodeEmission} (parts : emissions = before ++ rest) :
    ∃ rendered survivors, renderFrom emissions consumers rest = some (rendered, survivors) ∧
      (∀ code ∈ rendered, ∃ em ∈ rest, absorbedInto emissions consumers em.nodeId = none ∧
        ∃ before whole, ChainOf emissions consumers before em whole ∧
          Renders emissions consumers em whole code) ∧
      (∀ em ∈ rest, absorbedInto emissions consumers em.nodeId = none →
        ∃ code ∈ rendered, ∃ before whole, ChainOf emissions consumers before em whole ∧
          Renders emissions consumers em whole code) ∧
      ∀ {Value : Type} (meaning : Interpretation Value),
        Ordered (rendered.map (Code.step meaning)) := by
  induction rest generalizing before with
  | nil => exact ⟨[], [], rfl, by simp, by simp, fun _ => trivial⟩
  | cons em rest ih =>
    have further : emissions = (before ++ [em]) ++ rest := by
      rw [parts, append_assoc, singleton_append]
    obtain ⟨rendered, survivors, isRendered, sound, complete, ordered⟩ :=
      ih further
    rw [renderFrom]
    cases absorbed : absorbedInto emissions consumers em.nodeId with
    | some consumerId =>
      refine ⟨rendered, survivors, isRendered, fun code mem => ?_, fun other mem free => ?_,
        ordered⟩
      · obtain ⟨source, inRest, facts⟩ := sound code mem
        exact ⟨source, mem_cons_of_mem _ inRest, facts⟩
      · rcases mem_cons.mp mem with rfl | inRest
        · rw [absorbed] at free
          cases free
        · exact complete other inRest free
    | none =>
    obtain ⟨whole, walked, chain⟩ := @chainOf_exists _ consumers _ inOrder _ _ _ parts
    obtain ⟨code, isCode, renders⟩ := chain.renders inOrder.distinct
    refine ⟨code :: rendered, em.nodeId :: survivors, ?_, ?_, ?_,
      fun meaning => ⟨?_, ordered meaning⟩⟩
    · rw [walked, isRendered]
      simp [isCode]
    · intro other mem
      rcases mem_cons.mp mem with rfl | inRendered
      · exact ⟨em, mem_cons_self, absorbed, before, whole, chain, renders⟩
      · obtain ⟨source, inRest, facts⟩ := sound other inRendered
        exact ⟨source, mem_cons_of_mem _ inRest, facts⟩
    · intro other mem free
      rcases mem_cons.mp mem with rfl | inRest
      · exact ⟨code, mem_cons_self, before, whole, chain, renders⟩
      · obtain ⟨found, inRendered, facts⟩ := complete other inRest free
        exact ⟨found, mem_cons_of_mem _ inRendered, facts⟩
    · intro name read later isLater
      obtain ⟨reader, inWhole, readByMember, _⟩ := (renders.reads name).mp read
      have early := chain.members reader inWhole
      obtain ⟨laterCode, inCode, rfl⟩ : ∃ laterCode ∈ code :: rendered,
          laterCode.step meaning = later := mem_map.mp isLater
      rcases mem_cons.mp inCode with rfl | inRendered
      · show name ∉ laterCode.writes
        rw [renders.writes]
        exact inOrder.not_written parts early mem_cons_self readByMember
      · obtain ⟨source, inRest, _, _, _, _, sourceRenders⟩ := sound laterCode inRendered
        show name ∉ laterCode.writes
        rw [sourceRenders.writes]
        exact inOrder.not_written parts early (mem_cons_of_mem _ inRest) readByMember

theorem chain_covers {rendered : List Code}
    (complete : ∀ em ∈ emissions, absorbedInto emissions consumers em.nodeId = none →
      ∃ code ∈ rendered, ∃ before whole, ChainOf emissions consumers before em whole ∧
        Renders emissions consumers em whole code)
    {mem : NodeEmission}
    (parts : emissions = before ++ mem :: after) :
    ∃ code ∈ rendered, ∃ em before whole, ChainOf emissions consumers before em whole ∧
      Renders emissions consumers em whole code ∧ mem ∈ whole := by
  have distinct := inOrder.distinct
  induction count : after.length using Nat.strongRecOn generalizing before after mem with
  | ind _ ih =>
    have memberIn : mem ∈ emissions := parts ▸ mem_append_right _ mem_cons_self
    cases absorbed : absorbedInto emissions consumers mem.nodeId with
    | none =>
      obtain ⟨code, inRendered, earlier, whole, chain, renders⟩ := complete mem memberIn absorbed
      exact ⟨code, inRendered, mem, earlier, whole, chain, renders, mem_of_getLast? chain.last⟩
    | some consumerId =>
    obtain ⟨producer, producerIn, same, into⟩ := (absorbedInto_eq_some distinct).mp absorbed
    obtain rfl := inj_on_of_nodup_map distinct producerIn memberIn same
    obtain ⟨_, consumer, consumerIn, rfl, _⟩ := absorber_eq_some distinct memberIn into
    have link : Linked emissions consumers producer consumer := ⟨memberIn, consumerIn, into⟩
    -- the consumer comes later, since it reads what the producer assigns
    obtain ⟨earlier, later, split⟩ := append_of_mem consumerIn
    have written : producer.varName ∈ producer.code.writes := by
      rw [link.writes distinct]
      exact mem_singleton_self _
    obtain ⟨first, between, beforeConsumer⟩ := append_of_mem
      (inOrder.writer_before split memberIn (link.reads distinct) written)
    have shorter : later.length < after.length := by
      have twoWays : before ++ producer :: after =
          first ++ producer :: (between ++ consumer :: later) := by
        rw [← parts, split, beforeConsumer, append_assoc, cons_append]
      have nodup : (before ++ producer :: after).Nodup := parts ▸ List.Nodup.of_map _ distinct
      obtain ⟨_, fromProducer, apart⟩ := nodup_append.mp nodup
      have tails := (append_cons_inj_of_notMem
        (fun mem => apart producer mem producer mem_cons_self rfl)
        (nodup_cons.mp fromProducer).1).mp twoWays
      rw [tails.2.2, length_append, length_cons]
      omega
    obtain ⟨code, inRendered, em, front, whole, chain, renders, inWhole⟩ :=
      ih _ (count ▸ shorter) split rfl
    exact ⟨code, inRendered, em, front, whole, chain, renders, chain.closed distinct inWhole link⟩

theorem InDataFlowOrder.writer_unique
    {one other : NodeEmission} (oneIn : one ∈ emissions) (otherIn : other ∈ emissions)
    (oneWrites : name ∈ one.code.writes) (otherWrites : name ∈ other.code.writes)
    (used : (∃ em ∈ emissions, name ∈ em.code.reads) ∨ name ∈ returned) : one = other := by
  by_contra apart
  have symm : Std.Symm fun earlier later : NodeEmission =>
      ∀ name ∈ earlier.code.writes, name ∈ later.code.writes →
        (∀ em ∈ emissions, name ∉ em.code.reads) ∧ name ∉ returned :=
    ⟨fun _ _ both name first second => both name second first⟩
  have silent := inOrder.oneWriter.forall oneIn otherIn apart name oneWrites otherWrites
  rcases used with ⟨em, mem, read⟩ | isReturned
  · exact silent.1 em mem read
  · exact silent.2 isReturned

/-- The statements are an ordered program. -/
theorem InDataFlowOrder.ordered_steps (meaning : Interpretation Value) :
    Ordered (emissions.map fun em => em.code.step meaning) := by
  have along : ∀ part : List NodeEmission,
      (∀ em ∈ part, ∀ name ∈ em.code.reads, name ∉ em.code.writes) →
      (part.Pairwise fun earlier later => ∀ name ∈ earlier.code.reads, name ∉ later.code.writes) →
        Ordered (part.map fun em => em.code.step meaning) := by
    intro part own ordered
    induction ordered with
    | nil => trivial
    | @cons em rest first _ ih =>
      refine ⟨fun name read later isLater => ?_,
        ih fun other mem => own other (mem_cons_of_mem _ mem)⟩
      obtain ⟨other, mem, rfl⟩ : ∃ other ∈ em :: rest, other.code.step meaning = later :=
        mem_map.mp isLater
      rcases mem_cons.mp mem with rfl | inRest
      · exact own other mem_cons_self name read
      · exact first other inRest name read
  exact along emissions inOrder.ownReads inOrder.ordered

/-- The environment the statements end in solves the equation of each of them. -/
theorem InDataFlowOrder.solved {start final : Env String Value}
    (ran : runAll (emissions.map fun em => em.code.step meaning) start = some final)
    (mem : em ∈ emissions) :
    ∃ values, em.code.results meaning final = some values ∧ ∀ name ∈ em.code.writes,
      (∃ reader ∈ emissions, name ∈ reader.code.reads) ∨ name ∈ returned →
        final name = some (values name) := by
  obtain ⟨before, after, parts⟩ := append_of_mem mem
  have ordered := inOrder.ordered_steps meaning
  have mapped : (emissions.map fun em => em.code.step meaning) =
      (before.map fun em => em.code.step meaning) ++
        em.code.step meaning :: after.map fun em => em.code.step meaning := by
    rw [parts, map_append, map_cons]
  rw [mapped] at ordered ran
  obtain ⟨values, computed, bound⟩ := ordered.solves ran
  refine ⟨values, computed, fun name written used => bound name written ?_⟩
  intro later isLater laterWrites
  obtain ⟨writer, inAfter, rfl⟩ := mem_map.mp isLater
  have same := inOrder.writer_unique mem
    (parts ▸ mem_append_right _ (mem_cons_of_mem _ inAfter)) written laterWrites used
  have nodup : (before ++ em :: after).Nodup := parts ▸ List.Nodup.of_map _ inOrder.distinct
  exact (nodup_cons.mp (nodup_append.mp nodup).2.1).1 (same ▸ inAfter)

/-- An absorbed producer's variable holds the value of its chain. -/
theorem Linked.bound {start final : Env String Value}
    (ran : runAll (emissions.map fun em => em.code.step meaning) start = some final)
    {producer consumer : NodeEmission} (link : Linked emissions consumers producer consumer) :
    final producer.varName = producer.value meaning final := by
  obtain ⟨statement, code, target⟩ := isSimple_code (link.spec inOrder.distinct).1
  obtain ⟨values, computed, isBound⟩ := inOrder.solved ran link.producerIn
  rw [code, Code.results] at computed
  obtain ⟨value, isValue, rfl⟩ := Option.map_eq_some_iff.mp computed
  rw [NodeEmission.value, code]
  dsimp only
  rw [isValue]
  refine isBound producer.varName ?_ (.inl ⟨consumer, link.consumerIn, link.reads inOrder.distinct⟩)
  rw [link.writes inOrder.distinct]
  exact mem_singleton_self _

end

/-- A meaning in which everything succeeds. -/
def succeeding : Interpretation Unit where
  expression _ _ := some ()
  call _ _ _ := some ()
  block _ _ := some fun _ => ()

/-- Where all names are bound, everything succeeds. -/
theorem succeeding_results (code : Code) :
    ∃ values, code.results succeeding (fun _ => some ()) = some values := by
  have list : ∀ names : List String, ∃ values, names.mapM (fun _ => some ()) = some values := by
    intro names
    induction names with
    | nil => exact ⟨[], rfl⟩
    | cons name rest ih =>
      obtain ⟨values, bound⟩ := ih
      exact ⟨() :: values, by rw [mapM_cons, bound]; rfl⟩
  have chain : ∀ (links : List Link) (receiver : Unit),
      ∃ value, chainValue succeeding (fun _ => some ()) receiver links = some value := by
    intro links
    induction links with
    | nil => exact fun receiver => ⟨receiver, rfl⟩
    | cons link rest ih =>
      intro receiver
      obtain ⟨values, bound⟩ := list link.reads
      obtain ⟨value, later⟩ := ih ()
      exact ⟨value, by rw [chainValue, bound]; exact later⟩
  cases code with
  | assignment statement =>
    obtain ⟨receiver, bound⟩ : ∃ receiver,
        statement.root.value succeeding (fun _ => some ()) = some receiver := by
      cases statement.root with
      | ofVariable name => exact ⟨(), rfl⟩
      | expression text reads =>
        obtain ⟨values, bound⟩ := list reads
        exact ⟨(), by rw [Root.value, bound]; rfl⟩
    obtain ⟨value, later⟩ := chain statement.links receiver
    refine ⟨fun _ => value, ?_⟩
    rw [Code.results, Assignment.value, bound, Option.bind_some, later]
    rfl
  | block text reads writes =>
    obtain ⟨values, bound⟩ := list reads
    exact ⟨fun _ => (), by rw [Code.results, bound]; rfl⟩

section

variable (inOrder : InDataFlowOrder emissions returned)
include inOrder

/-- Where the names that are never assigned are bound, the statements run, and all names end up
bound. -/
theorem InDataFlowOrder.succeeds {start : Env String Unit}
    (given : ∀ name, (∀ em ∈ emissions, name ∉ em.code.writes) → start name = some ()) :
    runAll (emissions.map fun em => em.code.step succeeding) start = some fun _ => some () := by
  have available : Available (fun _ => True)
      (fun name => ∀ em ∈ emissions, name ∉ em.code.writes)
      (emissions.map fun em => em.code.step succeeding) :=
    (inOrder.ordered_steps succeeding).available (fun _ _ _ _ => trivial)
      fun name _ unwritten em mem => unwritten _ (mem_map_of_mem mem)
  have solves : ∀ step ∈ emissions.map fun em => em.code.step succeeding,
      Solves (fun _ => some ()) (fun _ => True) step := by
    intro step isStep
    obtain ⟨em, _, rfl⟩ := mem_map.mp isStep
    obtain ⟨values, computed⟩ := succeeding_results em.code
    exact ⟨values, computed, fun _ _ _ => rfl⟩
  obtain ⟨last, ran, agrees⟩ := runAll_solves solves available (fun _ _ => trivial) given
  rw [ran]
  refine congrArg some (funext fun name => agrees name ?_)
  by_cases written : ∃ em ∈ emissions, name ∈ em.code.writes
  · obtain ⟨em, mem, writes⟩ := written
    exact .inr ⟨trivial, _, mem_map_of_mem mem, writes⟩
  · exact .inl fun em mem writes => written ⟨em, mem, writes⟩

theorem Linked.unassigned {producer consumer : NodeEmission}
    (link : Linked emissions consumers producer consumer) (mem : em ∈ emissions)
    (free : absorbedInto emissions consumers em.nodeId = none) :
    producer.varName ∉ em.code.writes := by
  intro written
  have own : producer.varName ∈ producer.code.writes := by
    rw [link.writes inOrder.distinct]
    exact mem_singleton_self _
  obtain rfl := inOrder.writer_unique mem link.producerIn written own
    (.inl ⟨consumer, link.consumerIn, link.reads inOrder.distinct⟩)
  rw [(absorbedInto_eq_some inOrder.distinct).mpr ⟨em, mem, rfl, link.absorbed⟩] at free
  cases free

/-- Where fusion preserves meaning, variables of absorbed producers are not read otherwise and not
returned: else the fused code would need a variable that it does not assign. -/
theorem Preserves.hidden (preserved : Preserves emissions consumers returned)
    {producer consumer : NodeEmission} (link : Linked emissions consumers producer consumer) :
    Hidden emissions returned producer consumer.nodeId := by
  have distinct := inOrder.distinct
  obtain ⟨rendered, survivors, isRendered, sound, complete, _⟩ :=
    @renderFrom_spec emissions consumers returned inOrder [] emissions rfl
  obtain ⟨_, _, again, preserves⟩ := preserved
  cases again.symm.trans isRendered
  have own : producer.varName ∈ producer.code.writes := by
    rw [link.writes distinct]
    exact mem_singleton_self _
  have unassigned : ∀ step ∈ rendered.map (Code.step succeeding),
      producer.varName ∉ step.writes := by
    intro step isStep
    obtain ⟨code, inRendered, rfl⟩ := mem_map.mp isStep
    obtain ⟨em, mem, free, _, _, _, renders⟩ := sound code inRendered
    show producer.varName ∉ code.writes
    rw [renders.writes]
    exact link.unassigned inOrder mem free
  -- bind everything else, so that the statements of the nodes run
  obtain ⟨start, given, missing⟩ : ∃ start : Env String Unit,
      (∀ name, (∀ em ∈ emissions, name ∉ em.code.writes) → start name = some ()) ∧
        start producer.varName = none := by
    refine ⟨fun name => if name = producer.varName then none else some (),
      fun name unwritten => if_neg ?_, if_pos rfl⟩
    rintro rfl
    exact unwritten producer link.producerIn own
  obtain ⟨last, ran, agrees⟩ := preserves Unit succeeding start _ (inOrder.succeeds given)
  constructor
  · intro reader readerIn read
    by_contra apart
    obtain ⟨before, after, parts⟩ := append_of_mem readerIn
    obtain ⟨code, inRendered, em, _, whole, chain, renders, inWhole⟩ :=
      chain_covers inOrder complete parts
    have readByCode : producer.varName ∈ code.reads := by
      refine (renders.reads _).mpr ⟨reader, inWhole, read, fun other otherLink same => ?_⟩
      have otherOwn : producer.varName ∈ other.code.writes := by
        rw [otherLink.writes distinct, same]
        exact mem_singleton_self _
      obtain rfl := inOrder.writer_unique link.producerIn otherLink.producerIn own otherOwn
        (.inl ⟨reader, readerIn, read⟩)
      exact apart (Option.some.inj (otherLink.absorbed.symm.trans link.absorbed))
    have fails := runAll_unbound missing unassigned
      ⟨code.step succeeding, mem_map_of_mem inRendered, readByCode⟩
    rw [ran] at fails
    cases fails
  · intro isReturned
    have kept := runAll_frame ran unassigned
    rw [agrees _ (.inr isReturned), missing] at kept
    cases kept

end

def Remains (emissions : List NodeEmission) (consumers : Int → List Int) (returned : List String)
    (name : String) : Prop :=
  ((∃ em ∈ emissions, name ∈ em.code.reads) ∨ name ∈ returned) ∧
    ∀ producer consumer, Linked emissions consumers producer consumer → name ≠ producer.varName

section

variable (inOrder : InDataFlowOrder emissions returned)
include inOrder

theorem Remains.free (remains : Remains emissions consumers returned name) (mem : em ∈ emissions)
    (written : name ∈ em.code.writes) :
    absorbedInto emissions consumers em.nodeId = none := by
  have distinct := inOrder.distinct
  by_contra isAbsorbed
  obtain ⟨consumerId, isInto⟩ := Option.ne_none_iff_exists'.mp isAbsorbed
  obtain ⟨producer, producerIn, same, absorbed⟩ := (absorbedInto_eq_some distinct).mp isInto
  obtain rfl := inj_on_of_nodup_map distinct producerIn mem same
  obtain ⟨_, consumer, consumerIn, rfl, _⟩ := absorber_eq_some distinct mem absorbed
  have link : Linked emissions consumers producer consumer := ⟨mem, consumerIn, absorbed⟩
  rw [link.writes distinct, mem_singleton] at written
  exact remains.2 producer consumer link written

theorem Renders.remains
    (hidden : ∀ producer consumer, Linked emissions consumers producer consumer →
      Hidden emissions returned producer consumer.nodeId)
    {code : Code}
    (chain : ChainOf emissions consumers before em whole)
    (renders : Renders emissions consumers em whole code)
    (read : name ∈ code.reads) : Remains emissions consumers returned name := by
  obtain ⟨reader, inWhole, readByMember, others⟩ := (renders.reads name).mp read
  have readerIn := chain.subset reader inWhole
  refine ⟨.inl ⟨reader, readerIn, readByMember⟩, fun producer consumer link same => ?_⟩
  subst same
  have only := (hidden producer consumer link).1 reader readerIn readByMember
  obtain rfl := inj_on_of_nodup_map inOrder.distinct readerIn link.consumerIn only
  exact others producer link rfl

theorem preserves_of_hidden
    (hidden : ∀ producer consumer, Linked emissions consumers producer consumer →
      Hidden emissions returned producer consumer.nodeId) :
    Preserves emissions consumers returned := by
  obtain ⟨rendered, survivors, isRendered, sound, complete, ordered⟩ :=
    @renderFrom_spec emissions consumers returned inOrder [] emissions rfl
  refine ⟨rendered, survivors, isRendered, fun Value meaning start final ran => ?_⟩
  have readsRemain : ∀ code ∈ rendered, ∀ name ∈ code.reads,
      Remains emissions consumers returned name := by
    intro code inRendered name read
    obtain ⟨em, _, _, _, whole, chain, renders⟩ := sound code inRendered
    exact renders.remains inOrder hidden chain read
  have solves : ∀ step ∈ rendered.map (Code.step meaning),
      Solves final (Remains emissions consumers returned) step := by
    intro step isStep
    obtain ⟨code, inRendered, rfl⟩ := mem_map.mp isStep
    obtain ⟨em, mem, _, _, _, _, renders⟩ := sound code inRendered
    obtain ⟨values, computed, bound⟩ := inOrder.solved ran mem
    refine ⟨values, ?_, fun name written remains => bound name (renders.writes ▸ written) remains.1⟩
    exact (renders.results meaning final fun producer consumer link =>
      link.bound inOrder ran).trans computed
  have available : Available (Remains emissions consumers returned)
      (fun name => Remains emissions consumers returned name ∧
        ∀ code ∈ rendered, name ∉ code.writes)
      (rendered.map (Code.step meaning)) := by
    apply (ordered meaning).available
    · intro step isStep name read
      obtain ⟨code, inRendered, rfl⟩ := mem_map.mp isStep
      exact readsRemain code inRendered name read
    · exact fun name remains unwritten =>
        ⟨remains, fun code mem => unwritten _ (mem_map_of_mem mem)⟩
  -- what the fused code does not assign is not assigned by the statements either
  have initial : ∀ name, Remains emissions consumers returned name ∧
      (∀ code ∈ rendered, name ∉ code.writes) → start name = final name := by
    rintro name ⟨remains, unwritten⟩
    refine (runAll_frame ran fun step isStep written => ?_).symm
    obtain ⟨em, mem, rfl⟩ := mem_map.mp isStep
    obtain ⟨code, inRendered, _, _, _, renders⟩ :=
      complete em mem (remains.free inOrder mem written)
    exact unwritten code inRendered (renders.writes ▸ written)
  obtain ⟨last, ranFused, agrees⟩ := runAll_solves solves available (fun _ both => both.1) initial
  refine ⟨last, ranFused, fun name wanted => agrees name ?_⟩
  have remains : Remains emissions consumers returned name := by
    rcases wanted with ⟨code, inRendered, read⟩ | isReturned
    · exact readsRemain code inRendered name read
    · exact ⟨.inr isReturned, fun producer consumer link same =>
        (hidden producer consumer link).2 (same ▸ isReturned)⟩
  by_cases written : ∃ code ∈ rendered, name ∈ code.writes
  · obtain ⟨code, inRendered, writes⟩ := written
    exact .inr ⟨remains, _, mem_map_of_mem inRendered, writes⟩
  · exact .inl ⟨remains, fun code inRendered writes => written ⟨code, inRendered, writes⟩⟩

end

/-- A method call that reads no variable. -/
def plainCall (text : String) (words : List String) : Link := ⟨text, words, [], by simp⟩

def givenFrame : NodeEmission :=
  ⟨1, "df_1", .assignment ⟨"df_1", .expression "ff.from_raw_data(...)" [], [], .other⟩, none, 0,
    false, false⟩

def trainedModel : NodeEmission :=
  ⟨2, "df_2", .assignment ⟨"df_2", .ofVariable "df_1", [plainCall ".train_model(target='y')"
    ["train_model", "target", "y"]], .direct⟩, some 1, 1, false, false⟩

def cutMetrics : NodeEmission :=
  ⟨3, "df_3", .assignment ⟨"df_3", .ofVariable "df_2", [plainCall ".head(n=1)"
    ["head", "n", "1"]], .direct⟩, some 2, 1, false, false⟩

def waitingFrame : NodeEmission :=
  ⟨4, "df_4", .assignment ⟨"df_4", .ofVariable "df_1",
    [⟨".wait_for(df_3)", ["wait_for", "df_3"], ["df_3"], by decide⟩], .direct⟩, none, 2, false,
    false⟩

def appliedModel : NodeEmission :=
  ⟨5, "df_5", .assignment ⟨"df_5", .ofVariable "df_4",
    [⟨".apply_model(upstream=df_2)", ["apply_model", "upstream", "df_2"], ["df_2"], by decide⟩],
    .direct⟩, some 4, 1, false, false⟩

/-- The consumers of these nodes, along their connections. -/
def modelConsumers (nodeId : Int) : List Int :=
  if nodeId = 1 then [2, 4] else if nodeId = 2 then [3] else if nodeId = 3 then [4]
  else if nodeId = 4 then [5] else []

end Flowfile.CodeGen

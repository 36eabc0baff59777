import Flowfile.Graph
import Flowfile.Library.FiniteDag
import Flowfile.Library.PartialLists

/-!
# What hashing and resetting do to the cached hashes

A cached hash is settled when every input has a cached hash and the node's own hash is the one
computed from these. It is up to date when it is settled or missing.

Hashing only fills missing caches, with settled hashes. A reset may clear caches. It ends with the
node itself settled, with every node up to date that was so before, and with no cache lost, provided
that every node is listed by its inputs: clearing a hash unsettles exactly the nodes that have it as
an input, and these are reset next. This is about resets that return, whatever the shape.

On a graph without cycles both return, within fuel that does not depend on what is cached. And a
graph whose caches are all settled has no cycle, since hashes contain those of inputs.
-/

namespace Flowfile.Graph

open Library.FiniteDag Library.PartialLists

variable {P : Type} {graph : FlowGraph P}

def Settled (graph : FlowGraph P) (hashes : Hashes P) (ref : NodeRef) : Prop :=
  ∃ inputs, (graph.heap ref).allInputs.mapM hashes = some inputs ∧
    hashes ref = some (getHash inputs (graph.heap ref).setting.digest)

def UpToDate (graph : FlowGraph P) (hashes : Hashes P) (ref : NodeRef) : Prop :=
  hashes ref = none ∨ Settled graph hashes ref

/-- Caches are kept, and new ones are settled. -/
structure Fills (graph : FlowGraph P) (before after : Hashes P) : Prop where
  kept : ∀ ref hash, before ref = some hash → after ref = some hash
  settled : ∀ ref, before ref = none → UpToDate graph after ref

theorem Settled.mono {before after : Hashes P} {ref : NodeRef} (settled : Settled graph before ref)
    (kept : ∀ ref hash, before ref = some hash → after ref = some hash) :
    Settled graph after ref := by
  obtain ⟨inputs, computed, stored⟩ := settled
  exact ⟨inputs, mapM_mono _ _ (fun ref _ => kept ref) computed, kept ref _ stored⟩

namespace Fills

/-- Doing nothing fills nothing. -/
theorem refl (hashes : Hashes P) : Fills graph hashes hashes :=
  ⟨fun _ _ cached => cached, fun _ missing => Or.inl missing⟩

theorem trans {before middle after : Hashes P} (first : Fills graph before middle)
    (second : Fills graph middle after) : Fills graph before after := by
  constructor
  case kept => exact fun ref hash cached => second.kept ref hash (first.kept ref hash cached)
  case settled =>
    intro ref missing
    cases first.settled ref missing with
    | inl stillMissing => exact second.settled ref stillMissing
    | inr settled => exact Or.inr (settled.mono second.kept)

end Fills

variable {hashOf : Hashes P → NodeRef → Option (NodeHash P × Hashes P)}

theorem collectHashes_fills
    (each : ∀ before ref hash after, hashOf before ref = some (hash, after) →
      Fills graph before after ∧ after ref = some hash)
    (refs : List NodeRef) (before after : Hashes P) (hashes : List (NodeHash P))
    (returned : collectHashes hashOf refs before = some (hashes, after)) :
    Fills graph before after ∧ refs.mapM after = some hashes := by
  induction refs generalizing before hashes with
  | nil =>
    simp only [collectHashes, Option.some.injEq, Prod.mk.injEq] at returned
    obtain ⟨rfl, rfl⟩ := returned
    exact ⟨Fills.refl before, rfl⟩
  | cons ref rest ih =>
    obtain ⟨⟨hash, middle⟩, first, continued⟩ := Option.bind_eq_some_iff.mp returned
    obtain ⟨⟨others, final⟩, second, ⟨⟩⟩ := Option.bind_eq_some_iff.mp continued
    obtain ⟨firstFills, cached⟩ := each before ref hash middle first
    obtain ⟨laterFills, laterCached⟩ := ih middle others second
    have head : after ref = some hash := laterFills.kept ref hash cached
    refine ⟨firstFills.trans laterFills, ?_⟩
    rw [List.mapM_cons, head, laterCached]
    rfl

theorem nodeHash_fills (fuel : Nat) (before after : Hashes P) (ref : NodeRef) (hash : NodeHash P)
    (returned : nodeHash graph fuel before ref = some (hash, after)) :
    Fills graph before after ∧ after ref = some hash := by
  induction fuel generalizing before after ref hash with
  | zero => simp [nodeHash] at returned
  | succ fuel ih =>
    rw [nodeHash] at returned
    cases cached : before ref with
    | some known =>
      simp only [cached, Option.some.injEq, Prod.mk.injEq] at returned
      obtain ⟨rfl, rfl⟩ := returned
      exact ⟨Fills.refl before, cached⟩
    | none =>
    simp only [cached] at returned
    obtain ⟨⟨inputs, middle⟩, collected, ⟨⟩⟩ := Option.bind_eq_some_iff.mp returned
    obtain ⟨fills, computed⟩ := collectHashes_fills
      (fun before ref hash after => ih before after ref hash) _ _ _ _ collected
    -- A cycle may have cached the node already, but then with the same hash.
    have kept : ∀ other hash, middle other = some hash → Function.update middle ref
          (some (getHash inputs (graph.heap ref).setting.digest)) other = some hash := by
      intro other hash known
      by_cases same : other = ref
      · subst same
        cases fills.settled other cached with
        | inl missing => simp [missing] at known
        | inr settled =>
        obtain ⟨others, recomputed, stored⟩ := settled
        rw [computed, Option.some.injEq] at recomputed
        subst recomputed
        simpa [stored] using known
      · simpa [same] using known
    have own : Settled graph (Function.update middle ref
        (some (getHash inputs (graph.heap ref).setting.digest))) ref :=
      ⟨inputs, mapM_mono _ _ (fun other _ => kept other) computed, by simp⟩
    refine ⟨⟨fun other hash known => kept other hash (fills.kept other hash known), ?_⟩, by simp⟩
    intro other missing
    by_cases same : other = ref
    · exact Or.inr (same ▸ own)
    · cases fills.settled other missing with
      | inl stillMissing => exact Or.inl (by simpa [same] using stillMissing)
      | inr settled => exact Or.inr (settled.mono kept)

theorem calculateHash_fills (fuel : Nat) (before after : Hashes P) (ref : NodeRef)
    (hash : NodeHash P) (returned : calculateHash graph fuel before ref = some (hash, after)) :
    Fills graph before after ∧ ∃ inputs, (graph.heap ref).allInputs.mapM after = some inputs ∧
      hash = getHash inputs (graph.heap ref).setting.digest := by
  obtain ⟨⟨inputs, middle⟩, collected, ⟨⟩⟩ := Option.bind_eq_some_iff.mp returned
  obtain ⟨fills, computed⟩ := collectHashes_fills
    (fun before ref hash after => nodeHash_fills fuel before after ref hash) _ _ _ _ collected
  exact ⟨fills, inputs, computed, rfl⟩

/-- Nodes stay up to date, and no cache is lost. -/
structure Refreshes (graph : FlowGraph P) (before after : Hashes P) : Prop where
  upToDate : ∀ ref, UpToDate graph before ref → UpToDate graph after ref
  cached : ∀ ref, (before ref).isSome → (after ref).isSome

theorem Fills.refreshes {before after : Hashes P} (fills : Fills graph before after) :
    Refreshes graph before after := by
  constructor
  case upToDate =>
    rintro ref (missing | settled)
    · exact fills.settled ref missing
    · exact Or.inr (settled.mono fills.kept)
  case cached =>
    intro ref known
    obtain ⟨hash, stored⟩ := Option.isSome_iff_exists.mp known
    exact Option.isSome_iff_exists.mpr ⟨hash, fills.kept ref hash stored⟩

theorem Refreshes.trans {before middle after : Hashes P} (first : Refreshes graph before middle)
    (second : Refreshes graph middle after) : Refreshes graph before after :=
  ⟨fun ref known => second.upToDate ref (first.upToDate ref known),
    fun ref known => second.cached ref (first.cached ref known)⟩

theorem foldlM_refreshes {step : Hashes P → NodeRef → Option (Hashes P)}
    (each : ∀ before ref after, step before ref = some after →
      Refreshes graph before after ∧ Settled graph after ref)
    (refs : List NodeRef) (before after : Hashes P)
    (returned : refs.foldlM step before = some after) :
    Refreshes graph before after ∧ ∀ ref ∈ refs, UpToDate graph after ref := by
  induction refs generalizing before with
  | nil =>
    cases returned
    exact ⟨(Fills.refl _).refreshes, by simp⟩
  | cons ref rest ih =>
    rw [List.foldlM_cons] at returned
    obtain ⟨middle, first, continued⟩ := Option.bind_eq_some_iff.mp returned
    obtain ⟨firstRefreshes, settled⟩ := each before ref middle first
    obtain ⟨laterRefreshes, later⟩ := ih middle continued
    refine ⟨firstRefreshes.trans laterRefreshes, ?_⟩
    rintro other (_ | ⟨_, inRest⟩)
    · exact laterRefreshes.upToDate ref (Or.inr settled)
    · exact later other inRest

theorem upToDate_clear {hashes : Hashes P} {ref other : NodeRef}
    (upToDate : UpToDate graph hashes other) (apart : ref ∉ (graph.heap other).allInputs) :
    UpToDate graph (Function.update hashes ref none) other := by
  by_cases same : other = ref
  · exact Or.inl (by simp [same])
  cases upToDate with
  | inl missing => exact Or.inl (by simpa [same] using missing)
  | inr settled =>
  obtain ⟨inputs, computed, stored⟩ := settled
  have kept : ∀ input ∈ (graph.heap other).allInputs, ∀ hash, hashes input = some hash →
      Function.update hashes ref none input = some hash := by
    intro input mem hash cached
    have different : input ≠ ref := by
      rintro rfl
      exact apart mem
    simpa [different] using cached
  exact Or.inr ⟨inputs, mapM_mono _ _ kept computed, by simpa [same] using stored⟩

theorem reset_refreshes [DecidableEq P]
    (listed : ∀ source target, source ∈ (graph.heap target).allInputs →
      target ∈ (graph.heap source).leadsToNodes)
    (fuel : Nat) (before after : Hashes P) (ref : NodeRef)
    (returned : reset graph fuel before ref = some after) :
    Refreshes graph before after ∧ Settled graph after ref := by
  induction fuel generalizing before after ref with
  | zero => simp [reset] at returned
  | succ fuel ih =>
    rw [reset] at returned
    obtain ⟨⟨current, calculated⟩, computed, continued⟩ := Option.bind_eq_some_iff.mp returned
    obtain ⟨fills, inputs, stored, rfl⟩ := calculateHash_fills _ _ _ _ _ computed
    dsimp only at continued
    split at continued
    case isTrue unchanged =>
      cases continued
      exact ⟨fills.refreshes, inputs, stored, fills.kept ref _ unchanged⟩
    case isFalse =>
      obtain ⟨evaluated, passed, hashed⟩ := Option.bind_eq_some_iff.mp continued
      obtain ⟨⟨hash, final⟩, rehashed, finished⟩ := Option.bind_eq_some_iff.mp hashed
      cases finished
      obtain ⟨passedRefreshes, leadsUpToDate⟩ := foldlM_refreshes
        (fun before ref after => ih before after ref) _ _ _ passed
      obtain ⟨lastFills, own⟩ := nodeHash_fills _ _ _ _ _ rehashed
      have ownUpToDate : UpToDate graph final ref :=
        lastFills.refreshes.upToDate ref (passedRefreshes.upToDate ref (Or.inl (by simp)))
      refine ⟨⟨?upToDate, ?cached⟩, ?settled⟩
      case upToDate =>
        intro other known
        apply lastFills.refreshes.upToDate
        -- Nodes fed by the cleared one are among the successors reset in the meantime.
        by_cases feeds : ref ∈ (graph.heap other).allInputs
        · exact leadsUpToDate other (listed ref other feeds)
        · exact passedRefreshes.upToDate other
            (upToDate_clear (fills.refreshes.upToDate other known) feeds)
      case cached =>
        intro other known
        by_cases same : other = ref
        · simp [same, own]
        · apply lastFills.refreshes.cached
          apply passedRefreshes.cached
          simpa [same] using fills.refreshes.cached other known
      case settled =>
        cases ownUpToDate with
        | inl missing => simp [missing] at own
        | inr settled => exact settled

/-- Number of parts of a hash. -/
def NodeHash.size : NodeHash P → Nat
  | .settings _ => 1
  | .input hash rest => hash.size + rest.size + 1

theorem size_lt_getHash (inputs : List (NodeHash P)) (digest : NodeSetting P) (hash : NodeHash P)
    (mem : hash ∈ inputs) : hash.size < (getHash inputs digest).size := by
  induction inputs with
  | nil => simp at mem
  | cons first rest ih =>
    have unfolded : (getHash (first :: rest) digest).size =
        first.size + (getHash rest digest).size + 1 := rfl
    cases mem with
    | head => omega
    | tail _ inRest =>
      have smaller := ih inRest
      omega

/-- Inputs, as a relation from sources to the nodes of the graph they feed. -/
def FlowGraph.feeds (graph : FlowGraph P) (source target : NodeRef) : Prop :=
  target ∈ graph.nodeDb ∧ source ∈ (graph.heap target).allInputs

theorem acyclic_of_settled (hashes : Hashes P)
    (settled : ∀ ref ∈ graph.nodeDb, Settled graph hashes ref) : Acyclic graph.feeds := by
  apply acyclic_of_rank fun ref => ((hashes ref).map NodeHash.size).getD 0
  rintro source target ⟨mem, input⟩
  obtain ⟨inputs, computed, stored⟩ := settled target mem
  obtain ⟨hash, inHashes, cached⟩ := mapM_step hashes _ inputs computed source input
  simpa [cached, stored] using size_lt_getHash inputs _ hash inHashes

section

variable (region : NodeRef → Prop)

theorem collectHashes_returns
    (refs : List NodeRef) (each : ∀ ref ∈ refs, ∀ hashes, ∃ result, hashOf hashes ref = some result)
    (hashes : Hashes P) : ∃ result, collectHashes hashOf refs hashes = some result := by
  induction refs generalizing hashes with
  | nil => exact ⟨_, rfl⟩
  | cons ref rest ih =>
    obtain ⟨⟨hash, middle⟩, first⟩ := each ref (by simp) hashes
    obtain ⟨⟨others, final⟩, later⟩ := ih
      (fun other mem => each other (List.mem_cons_of_mem _ mem)) middle
    exact ⟨(hash :: others, final), by simp [collectHashes, first, later]⟩

section

variable
  (closed : ∀ target, region target → ∀ source ∈ (graph.heap target).allInputs, region source)
  (founded : WellFounded fun source target =>
    region target ∧ source ∈ (graph.heap target).allInputs)
include closed founded

theorem nodeHash_returns (ref : NodeRef) (inside : region ref) :
    ∃ bound, ∀ fuel, bound ≤ fuel → ∀ hashes,
      ∃ result, nodeHash graph fuel hashes ref = some result := by
  induction ref using founded.induction with
  | _ ref ih =>
    obtain ⟨bound, enough⟩ := common_bound
      (fun source fuel => ∀ hashes, ∃ result, nodeHash graph fuel hashes source = some result)
      (graph.heap ref).allInputs
      (fun source mem => ih source ⟨inside, mem⟩
        (closed ref inside source mem))
    refine ⟨bound + 1, fun fuel large hashes => ?_⟩
    obtain ⟨fuel, rfl⟩ : ∃ smaller, fuel = smaller + 1 := ⟨fuel - 1, by omega⟩
    rw [nodeHash]
    cases hashes ref with
    | some hash => exact ⟨_, rfl⟩
    | none =>
      obtain ⟨⟨inputs, collected⟩, returned⟩ := collectHashes_returns (graph.heap ref).allInputs
        (fun source mem => enough source mem fuel (by omega)) hashes
      exact ⟨_, by simp only [returned]; rfl⟩

theorem calculateHash_returns (ref : NodeRef) (inside : region ref) :
    ∃ bound, ∀ fuel, bound ≤ fuel → ∀ hashes,
      ∃ result, calculateHash graph fuel hashes ref = some result := by
  obtain ⟨bound, enough⟩ := common_bound
    (fun source fuel => ∀ hashes, ∃ result, nodeHash graph fuel hashes source = some result)
    (graph.heap ref).allInputs
    (fun source mem => nodeHash_returns region closed founded source
      (closed ref inside source mem))
  refine ⟨bound, fun fuel large hashes => ?_⟩
  obtain ⟨⟨inputs, collected⟩, returned⟩ := collectHashes_returns (graph.heap ref).allInputs
    (fun source mem => enough source mem fuel large) hashes
  exact ⟨_, by simp only [calculateHash, returned]; rfl⟩

theorem reset_returns [DecidableEq P]
    (leadsClosed : ∀ source, region source →
      ∀ target ∈ (graph.heap source).leadsToNodes, region target)
    (leadsFounded : WellFounded fun target source =>
      region source ∧ target ∈ (graph.heap source).leadsToNodes)
    (ref : NodeRef) (inside : region ref) :
    ∃ bound, ∀ fuel, bound ≤ fuel → ∀ hashes,
      ∃ after, reset graph fuel hashes ref = some after := by
  induction ref using leadsFounded.induction with
  | _ ref ih =>
    obtain ⟨ownBound, ownEnough⟩ := nodeHash_returns region closed founded ref inside
    obtain ⟨newBound, newEnough⟩ := calculateHash_returns region closed founded ref inside
    obtain ⟨leadsBound, leadsEnough⟩ := common_bound
      (fun target fuel => ∀ hashes, ∃ after, reset graph fuel hashes target = some after)
      (graph.heap ref).leadsToNodes
      (fun target mem => ih target ⟨inside, mem⟩
        (leadsClosed ref inside target mem))
    refine ⟨max ownBound (max newBound leadsBound) + 1, fun fuel large hashes => ?_⟩
    obtain ⟨fuel, rfl⟩ : ∃ smaller, fuel = smaller + 1 := ⟨fuel - 1, by omega⟩
    obtain ⟨⟨current, calculated⟩, computed⟩ := newEnough fuel (by omega) hashes
    simp only [reset, computed, Option.bind_eq_bind, Option.bind_some]
    split
    · exact ⟨_, rfl⟩
    · obtain ⟨evaluated, passed, _⟩ := foldlM_returns (reset graph fuel) (fun _ => True)
        (graph.heap ref).leadsToNodes (Function.update calculated ref none)
        (fun hashes target mem _ => by
          obtain ⟨after, returned⟩ := leadsEnough target mem fuel (by omega) hashes
          exact ⟨after, returned, trivial⟩) trivial
      obtain ⟨⟨hash, hashed⟩, rehashed⟩ := ownEnough fuel (by omega) evaluated
      exact ⟨hashed, by simp [passed, rehashed]⟩

end

end

end Flowfile.Graph

import Flowfile.DrawnInputs
import Mathlib.Data.List.TakeWhile

/-!
# Reused frames are current

The nodes whose frames count as current are those that exist, are built and carry no mark while no
full run clears. Each of them has the frame that would be built now, of inputs that count as well:
an edit that changes what a node is built from marks the node and, along the edges, all that are
built from it. Since a frame contains those of its inputs, such frames are current all the way up.
-/

namespace Flowfile.BrowserReuse

open Function BrowserStore Library.Dictionaries Library.EventRuns Library.GraphWalks List
  Library.PartialLists
open Option (bind_some any_some bind_eq_some_iff map_eq_some_iff isSome_iff_exists)

variable {S F : Type}

variable {id input : Nat} {frame : Frame S F}

namespace LiveStore

variable {store later : LiveStore S F}

/-- The frames that count as current are the ones that would be built now, of inputs that count as
current. -/
def Clean (store : LiveStore S F) : Prop :=
  ∀ id, store.Trusted id →
    store.lazyframes id = store.fresh id ∧ ∀ input ∈ store.inputs id, store.Trusted input

theorem fresh_congr (recipe : later.recipe id = store.recipe id)
    (frames : ∀ input ∈ store.inputs id, later.lazyframes input = store.lazyframes input) :
    later.fresh id = store.fresh id := by
  rw [fresh, fresh, recipe]
  cases found : store.recipe id with
  | none => rfl
  | some recipe =>
    simp only [inputs, found, Option.map_some, Option.getD_some] at frames
    rw [bind_some, bind_some, build, build, mapM_congr frames]

theorem sizeOf_lt_of_fresh {part : Frame S F}
    (fresh : store.fresh id = some frame) (named : input ∈ store.inputs id)
    (stored : store.lazyframes input = some part) : sizeOf part < sizeOf frame := by
  obtain ⟨recipe, found, built⟩ := bind_eq_some_iff.mp fresh
  obtain ⟨frames, mapped, rfl⟩ := map_eq_some_iff.mp built
  rw [inputs, found] at named
  have mem := (mem_mapM _ _ _ mapped part).mpr ⟨input, named, stored⟩
  have smaller := sizeOf_lt_of_mem mem
  rw [Frame.mk.sizeOf_spec]
  omega

theorem Clean.current (clean : store.Clean) (trusted : store.Trusted id) : store.Current id := by
  obtain ⟨frame, stored⟩ := isSome_iff_exists.mp trusted.built
  induction size : sizeOf frame using Nat.strongRecOn generalizing id frame with
  | _ size ih =>
    subst size
    obtain ⟨same, inputsTrusted⟩ := clean id trusted
    have fresh : store.fresh id = some frame := same.symm.trans stored
    refine .intro stored fresh fun input named => ?_
    obtain ⟨part, partStored⟩ := isSome_iff_exists.mp (inputsTrusted input named).built
    exact ih _ (sizeOf_lt_of_fresh fresh named partStored)
      (inputsTrusted input named) part partStored rfl

/-- A step keeps what counts as current when it changes neither recipes nor frames of the nodes that
count afterwards, and their inputs go on to count. -/
theorem Clean.transfer (clean : store.Clean) (trusted : ∀ id, later.Trusted id → store.Trusted id)
    (recipe : ∀ id, later.Trusted id → later.recipe id = store.recipe id)
    (frames : ∀ id, store.Trusted id → later.lazyframes id = store.lazyframes id)
    (inward : ∀ id input, later.Trusted id → input ∈ store.inputs id → store.Trusted input →
      later.Trusted input) : later.Clean := by
  intro id counts
  obtain ⟨same, inputsTrusted⟩ := clean id (trusted id counts)
  have sameInputs : later.inputs id = store.inputs id := by rw [inputs, inputs, recipe id counts]
  constructor
  · rw [frames id (trusted id counts), same]
    exact (fresh_congr (recipe id counts) fun input named =>
      frames input (inputsTrusted input named)).symm
  · intro input named
    rw [sameInputs] at named
    exact inward id input counts named (inputsTrusted input named)

end LiveStore

/-- The node that an execution is about to store a frame of. -/
def Phase.node : Phase S F → Option Nat
  | .reading task | .decoding task _ | .running task _ _ => some task.id
  | _ => none

variable {flow : FlowStore} {settings : S} {other target : Nat} {phase : Phase S F} {reply : Reply}

namespace LiveStore

/-- An execution builds nodes whose ids were given out. One that reuses frames is under way only
while none are cleared, knows only of frames that are there and has only nodes ahead that exist. -/
structure Fits (store : LiveStore S F) (execution : Execution S F) : Prop where
  walks : execution.phase = .listing → execution.built.isSome
  counted : ∀ id, execution.phase.node = some id → id ≤ store.flow.nodeIdCounter
  settled : execution.built.isSome → ¬store.Clearing
  stored : ∀ ids, execution.built = some ids → ∀ id, ids id = true → (store.lazyframes id).isSome
  ahead : execution.built.isSome → ∀ id ∈ execution.rest, store.flow.Has id

structure Sound (store : LiveStore S F) : Prop where
  clean : store.Clean
  drawn : Drawn store.flow
  nodesCounted : ∀ id, store.flow.Has id → id ≤ store.flow.nodeIdCounter
  framesCounted : ∀ id, (store.lazyframes id).isSome → id ≤ store.flow.nodeIdCounter
  fits : ∀ job execution, store.executions job = some execution → store.Fits execution

variable {store later : LiveStore S F}

/-- Nothing is asked of an execution that reuses no frames. -/
theorem fits_of_alone {execution : Execution S F} (alone : execution.built = none)
    (under : execution.phase ≠ .listing)
    (counted : ∀ id, execution.phase.node = some id → id ≤ store.flow.nodeIdCounter) :
    store.Fits execution := by
  have never : ∀ {motive : Prop}, execution.built.isSome → motive := fun chain => by
    rw [alone] at chain
    cases chain
  exact ⟨fun listing => absurd listing under, counted, never,
    fun ids known => never (by rw [known]; rfl), never⟩

theorem sound_empty : (empty : LiveStore S F).Sound where
  clean _ trusted := by cases trusted.built
  drawn := .empty
  nodesCounted _ found := by cases found
  framesCounted _ found := by cases found
  fits _ _ found := by cases found

theorem recipe_congr (node : later.flow.nodes.get id = store.flow.nodes.get id)
    (settings : later.settings id = store.settings id)
    (content : later.fileContents id = store.fileContents id) :
    later.recipe id = store.recipe id := by
  rw [recipe, recipe, node, settings, content]

theorem linked_of_mem_inputs (drawn : Drawn store.flow)
    (named : input ∈ store.inputs id) : (input, id) ∈ links store.flow := by
  rw [inputs] at named
  cases found : store.recipe id with
  | none =>
    rw [found] at named
    cases named
  | some recipe =>
  rw [found] at named
  obtain ⟨node, stored, rest⟩ := bind_eq_some_iff.mp found
  obtain ⟨settings, _, rest⟩ := bind_eq_some_iff.mp rest
  obtain ⟨inputs, read, rfl⟩ := map_eq_some_iff.mp rest
  exact drawn.inputs id node stored input (fedBy_of_executorInputs read named)

theorem Clean.marked (clean : store.Clean) {changed : Nat}
    (frames : later.lazyframes = store.lazyframes)
    (executions : later.executions = store.executions)
    (marks : later.dirtyNodes = downstream (links flow) changed ++ store.dirtyNodes)
    (has : ∀ id, later.flow.Has id ↔ store.flow.Has id)
    (recipe : ∀ id, id ≠ changed → later.recipe id = store.recipe id)
    (linked : ∀ id, ∀ input ∈ store.inputs id, (input, id) ∈ links flow) : later.Clean := by
  obtain ⟨self, closed⟩ := downstream_spec (links flow) changed
  have clearing : later.Clearing ↔ store.Clearing := by rw [Clearing, Clearing, executions]
  have unmarked : ∀ id, later.Trusted id → id ∉ downstream (links flow) changed :=
    fun id trusted marked => trusted.clean (marks ▸ mem_append_left _ marked)
  refine clean.transfer (fun id trusted => ?_) (fun id trusted => ?_) (fun id _ => by rw [frames])
    fun id input trusted named inputTrusted => ?_
  · exact ⟨(has id).mp trusted.has, frames ▸ trusted.built,
      fun dirty => trusted.clean (marks ▸ mem_append_right _ dirty),
      fun clears => trusted.settled (clearing.mpr clears)⟩
  · exact recipe id fun same => unmarked id trusted (same ▸ self)
  · refine ⟨(has input).mpr inputTrusted.has, by rw [frames]; exact inputTrusted.built, ?_,
      trusted.settled⟩
    rw [marks, mem_append, not_or]
    exact ⟨fun marked => unmarked id trusted (closed _ (linked id input named) marked),
      inputTrusted.clean⟩

theorem clears_map_detach (id : Nat) (settings : Option S) (execution : Option (Execution S F)) :
    clears (execution.map fun execution =>
      { execution with phase := execution.phase.detach id settings }) = clears execution := by
  cases execution with
  | none => rfl
  | some execution =>
    obtain ⟨built, rest, phase⟩ := execution
    cases phase <;> rfl

theorem node_detach (id : Nat) (settings : Option S) (phase : Phase S F) :
    (phase.detach id settings).node = phase.node := by
  have same : ∀ task : Task S, (task.detach id settings).id = task.id := by
    intro task
    rw [Task.detach]
    split <;> rfl
  cases phase <;> simp [Phase.detach, Phase.node, same]

theorem clearing_detach (id : Nat) (settings : Option S) :
    (store.detach id settings).Clearing ↔ store.Clearing :=
  exists_congr fun job => by rw [detach, clears_map_detach]

/-- Replacing a node by a copy changes nothing but what executions hold of it. -/
theorem Sound.detach (sound : store.Sound) (id : Nat) (settings : Option S) :
    (store.detach id settings).Sound :=
  { sound with
    clean := by
      have clearing : (store.detach id settings).Clearing ↔ store.Clearing :=
        clearing_detach id settings
      exact sound.clean.transfer
        (fun _ trusted => ⟨trusted.has, trusted.built, trusted.clean,
          fun clears => trusted.settled (clearing.mpr clears)⟩)
        (fun _ _ => rfl) (fun _ _ => rfl)
        fun _ _ trusted _ before => ⟨before.has, before.built, before.clean, trusted.settled⟩
    fits job execution found := by
      obtain ⟨before, stored, rfl⟩ := map_eq_some_iff.mp found
      have fits := sound.fits job before stored
      refine ⟨fun listing => fits.walks ?_, fun node same => fits.counted node
        ((node_detach id settings before.phase).symm.trans same),
        fun chain clears => fits.settled chain ((clearing_detach id settings).mp clears),
        fits.stored, fits.ahead⟩
      obtain ⟨built, rest, phase⟩ := before
      cases phase <;> first | rfl | cases listing }

theorem Sound.writeSettings (sound : store.Sound)
    (kept : store.settings id = some settings ∨ ¬store.Trusted id) :
    (store.writeSettings id settings).Sound := by
  rw [LiveStore.writeSettings]
  split
  case isFalse => exact sound
  case isTrue =>
    refine ⟨?_, sound.drawn, sound.nodesCounted, sound.framesCounted, fun job execution found =>
      ?_⟩
    · refine sound.clean.transfer (fun other trusted => ⟨trusted.has, trusted.built,
        trusted.clean, trusted.settled⟩) (fun other trusted => recipe_congr rfl ?_ rfl)
        (fun _ _ => rfl) fun _ _ _ _ before => ⟨before.has, before.built, before.clean,
          before.settled⟩
      by_cases same : other = id
      · subst same
        rcases kept with kept | untrusted
        · exact (update_self _ _ _).trans kept.symm
        · exact absurd ⟨trusted.has, trusted.built, trusted.clean, trusted.settled⟩ untrusted
      · exact update_of_ne same _ _
    · have fits := sound.fits job execution found
      exact ⟨fits.walks, fits.counted, fits.settled, fits.stored, fits.ahead⟩

theorem Sound.addNode (sound : store.Sound) (type : String) (settings : S) :
    (store.addNode type settings).Sound where
  clean := by
    have apart : ∀ id, id ≤ store.flow.nodeIdCounter → id ≠ store.flow.nodeIdCounter + 1 :=
      fun id counted same => Nat.not_succ_le_self _ (same ▸ counted)
    refine sound.clean.transfer (fun id trusted => ⟨?_, trusted.built, trusted.clean,
      trusted.settled⟩) (fun id trusted => ?_) (fun _ _ => rfl)
      fun id input _ _ before => ⟨(FlowStore.has_addNode type input).mpr (.inl before.has),
        before.built, before.clean, before.settled⟩
    · exact ((FlowStore.has_addNode type id).mp trusted.has).resolve_right
        (apart id (sound.framesCounted id trusted.built))
    · have fresh := apart id (sound.framesCounted id trusted.built)
      refine recipe_congr ?_ (update_of_ne fresh _ _) rfl
      exact Dictionary.get_set.trans (if_neg fresh)
  drawn := sound.drawn.addNode type
  nodesCounted id found := by
    rcases (FlowStore.has_addNode type id).mp found with before | rfl
    · exact Nat.le_succ_of_le (sound.nodesCounted id before)
    · exact Nat.le_refl _
  framesCounted id found := Nat.le_succ_of_le (sound.framesCounted id found)
  fits job execution found := by
    have fits := sound.fits job execution found
    exact ⟨fits.walks, fun id same => Nat.le_succ_of_le (fits.counted id same), fits.settled,
      fits.stored,
      fun chain id mem => (FlowStore.has_addNode type id).mpr (.inl (fits.ahead chain id mem))⟩

theorem recipe_removeNode {recipe : Recipe S F}
    (found : store.recipe other = some recipe) (apart : other ≠ id) (absent : id ∉ recipe.inputs) :
    (store.removeNode id).recipe other = some recipe := by
  obtain ⟨node, stored, rest⟩ := bind_eq_some_iff.mp found
  obtain ⟨settings, chosen, rest⟩ := bind_eq_some_iff.mp rest
  obtain ⟨inputs, read, rfl⟩ := map_eq_some_iff.mp rest
  have kept : (store.removeNode id).flow.nodes.get other = some (node.disconnect id) := by
    rw [removeNode, FlowStore.removeNode, Dictionary.get_mapValues, Dictionary.get_erase,
      if_neg apart, stored, Option.map_some]
  have sameSettings : (store.removeNode id).settings other = some settings :=
    (update_of_ne apart _ _).trans chosen
  have sameContent : (store.removeNode id).fileContents other = store.fileContents other :=
    update_of_ne apart _ _
  rw [LiveStore.recipe, kept, bind_some, sameSettings, bind_some,
    executorInputs_disconnect read absent, sameContent]
  rfl

section

variable (sound : store.Sound)
include sound

theorem Sound.removeNode
    (unread : ∀ reader, store.Trusted reader → id ∉ store.inputs reader)
    (behind : ∀ job execution, store.executions job = some execution → execution.built.isSome →
      id ∉ execution.rest) : (store.removeNode id).Sound where
  clean := by
    have clearing : (store.detach id (store.settings id)).Clearing ↔ store.Clearing :=
      clearing_detach id (store.settings id)
    have kept : ∀ other, (store.removeNode id).Trusted other →
        store.Trusted other ∧ other ≠ id := by
      intro other trusted
      obtain ⟨has, apart⟩ := (FlowStore.has_removeNode id other).mp trusted.has
      exact ⟨⟨has, trusted.built, fun dirty => trusted.clean (mem_filter.mpr
        ⟨dirty, decide_eq_true apart⟩), fun clears => trusted.settled (clearing.mpr clears)⟩, apart⟩
    refine sound.clean.transfer (fun other trusted => (kept other trusted).1)
      (fun other trusted => ?_) (fun _ _ => rfl) fun other input trusted named before => ?_
    · obtain ⟨before, apart⟩ := kept other trusted
      obtain ⟨frame, stored⟩ := isSome_iff_exists.mp before.built
      obtain ⟨recipe, found, _⟩ :=
        bind_eq_some_iff.mp ((sound.clean other before).1.symm.trans stored)
      have absent := unread other before
      rw [inputs, found] at absent
      rw [found, recipe_removeNode found apart absent]
    · have apart : input ≠ id := fun same => unread other (kept other trusted).1 (same ▸ named)
      exact ⟨(FlowStore.has_removeNode id input).mpr ⟨before.has, apart⟩, before.built,
        fun dirty => before.clean (mem_filter.mp dirty).1, trusted.settled⟩
  drawn := sound.drawn.removeNode id
  nodesCounted other found :=
    sound.nodesCounted other ((FlowStore.has_removeNode id other).mp found).1
  framesCounted := sound.framesCounted
  fits job execution found := by
    have detached := (sound.detach id (store.settings id)).fits job execution found
    obtain ⟨before, stored, rfl⟩ := map_eq_some_iff.mp found
    refine ⟨detached.walks, detached.counted, detached.settled, detached.stored,
      fun chain other mem => ?_⟩
    exact (FlowStore.has_removeNode id other).mpr ⟨detached.ahead chain other mem,
      fun same => behind job before stored chain (same ▸ mem)⟩

/-- Changing the edges of a flow and marking what lies downstream keeps what executions hold. -/
theorem Sound.rewired (clean : later.Clean) (drawn : Drawn later.flow)
    (has : ∀ id, later.flow.Has id ↔ store.flow.Has id)
    (counter : later.flow.nodeIdCounter = store.flow.nodeIdCounter)
    (frames : later.lazyframes = store.lazyframes)
    (executions : later.executions = store.executions) : later.Sound where
  clean := clean
  drawn := drawn
  nodesCounted id found := counter ▸ sound.nodesCounted id ((has id).mp found)
  framesCounted id found := counter ▸ sound.framesCounted id (frames ▸ found)
  fits job execution found := by
    have fits := sound.fits job execution (executions ▸ found)
    refine ⟨fits.walks, fun id same => counter ▸ fits.counted id same,
      fun chain clears => fits.settled chain ?_,
      fun ids known id mem => frames ▸ fits.stored ids known id mem,
      fun chain id mem => (has id).mpr (fits.ahead chain id mem)⟩
    rwa [Clearing, executions] at clears

/-- Changing the inputs of one node, and marking what lies downstream of it if it exists. -/
theorem Sound.redrawn {through : FlowStore}
    (drawn : Drawn flow) (has : ∀ id, flow.Has id ↔ store.flow.Has id)
    (counter : flow.nodeIdCounter = store.flow.nodeIdCounter)
    (elsewhere : ∀ id, id ≠ target → flow.nodes.get id = store.flow.nodes.get id)
    (linked : ∀ id, ∀ input ∈ store.inputs id, (input, id) ∈ links through) :
    (if store.flow.Has target then
        ({ store with flow := flow } : LiveStore S F).invalidatePreviewCache through target
      else { store with flow := flow }).Sound := by
  split
  · refine sound.rewired (sound.clean.marked rfl rfl rfl has (fun id apart => ?_) linked) drawn has
      counter rfl rfl
    exact recipe_congr (elsewhere id apart) rfl rfl
  case isFalse absent =>
    refine sound.rewired (sound.clean.transfer (fun id trusted => ⟨(has id).mp trusted.has,
      trusted.built, trusted.clean, trusted.settled⟩) (fun id trusted => ?_) (fun _ _ => rfl)
      fun _ input _ _ before => ⟨(has input).mpr before.has, before.built, before.clean,
        before.settled⟩) drawn has counter rfl rfl
    exact recipe_congr (elsewhere id fun same => absent (same ▸ (has id).mp trusted.has)) rfl rfl

theorem Sound.addEdge {edge : FlowEdge}
    (told : ∀ other ∈ store.flow.edges, other.id = edge.id →
      other.source = edge.source ∧ other.target = edge.target) :
    (store.addEdge edge).Sound := by
  rw [LiveStore.addEdge]
  split
  · exact sound
  case isFalse new =>
    have added : store.flow.addEdge edge = { store.flow with
        edges := store.flow.edges ++ [edge]
        nodes := store.flow.nodes.modify edge.target
          (FlowNode.connect edge.source edge.targetHandle) } := by
      rw [FlowStore.addEdge, if_neg (mt contains_iff_mem.mpr new)]
    refine sound.redrawn (sound.drawn.addEdge told) (fun id => FlowStore.has_addEdge edge id)
      (by rw [added]) (fun id apart => ?_) fun id input named => ?_
    · rw [added]
      exact (Dictionary.get_modify _).trans (if_neg apart)
    · obtain ⟨other, mem, ends⟩ := mem_links.mp (linked_of_mem_inputs sound.drawn named)
      rw [added]
      exact mem_links.mpr ⟨other, mem_append_left _ mem, ends⟩

theorem Sound.removeEdge (edgeId : String) : (store.removeEdge edgeId).Sound := by
  rw [LiveStore.removeEdge]
  split
  case h_2 => exact sound
  case h_1 edge first =>
    have removed : store.flow.removeEdge edgeId = { store.flow with
        edges := store.flow.edges.filter fun other => other.id ≠ edgeId
        nodes := store.flow.nodes.modify edge.target (FlowNode.disconnect edge.source) } := by
      rw [FlowStore.removeEdge, first]
    refine sound.redrawn (sound.drawn.removeEdge edgeId)
      (fun id => FlowStore.has_removeEdge edgeId id) (by rw [removed]) (fun id apart => ?_)
      fun id input named => linked_of_mem_inputs sound.drawn named
    rw [removed]
    exact (Dictionary.get_modify _).trans (if_neg apart)

theorem Sound.updateNodeSettings (id : Nat) (settings : S) :
    (store.updateNodeSettings id settings).Sound := by
  rw [LiveStore.updateNodeSettings]
  split
  case isFalse => exact sound
  case isTrue present =>
    rw [LiveStore.writeSettings, if_pos present]
    refine sound.rewired (sound.clean.marked rfl rfl rfl (fun _ => Iff.rfl) (fun other apart => ?_)
      fun other input named => linked_of_mem_inputs sound.drawn named) sound.drawn
      (fun _ => Iff.rfl) rfl rfl rfl
    exact recipe_congr rfl (update_of_ne apart _ _) rfl

theorem Sound.setFileContent (id : Nat) (content : F) :
    (store.setFileContent id content).Sound := by
  refine sound.rewired (sound.clean.marked rfl rfl rfl (fun _ => Iff.rfl) (fun other apart => ?_)
    fun other input named => linked_of_mem_inputs sound.drawn named) sound.drawn
    (fun _ => Iff.rfl) rfl rfl rfl
  exact recipe_congr rfl rfl (update_of_ne apart _ _)

theorem Sound.edit (edit : Edit S F) (keeps : store.KeepsEdit edit) : (store.edit edit).Sound := by
  cases edit with
  | addNode type settings => exact sound.addNode type settings
  | removeNode id => exact sound.removeNode keeps.1 keeps.2
  | addEdge edge => exact sound.addEdge keeps
  | removeEdge edgeId => exact sound.removeEdge edgeId
  | updateNode id => exact sound.detach id (store.settings id)
  | updateNodeSettings id settings => exact sound.updateNodeSettings id settings
  | updateNodeSettingsSilent id settings => exact (sound.writeSettings keeps).detach id _
  | writeSettings id settings => exact sound.writeSettings keeps
  | setFileContent id content => exact sound.setFileContent id content

end

@[simp] theorem executions_put_self (job : Nat) (execution : Option (Execution S F)) :
    (store.put job execution).executions job = execution := by
  simp only [LiveStore.put, update_self]

theorem executions_put_of_ne {job : Nat} (apart : other ≠ job)
    (execution : Option (Execution S F)) :
    (store.put job execution).executions other = store.executions other := by
  simp only [LiveStore.put, update_of_ne apart]

theorem clearing_put_iff {job : Nat} {execution : Option (Execution S F)}
    (same : clears execution = clears (store.executions job)) :
    (store.put job execution).Clearing ↔ store.Clearing := by
  refine exists_congr fun other => ?_
  by_cases here : other = job
  · rw [here, executions_put_self, same]
  · rw [executions_put_of_ne here]

/-- An execution that goes on and clears nothing more or less leaves what counts as current. -/
theorem Sound.put (sound : store.Sound) {job : Nat} {execution : Option (Execution S F)}
    (same : clears execution = clears (store.executions job))
    (fits : ∀ after, execution = some after → store.Fits after) :
    (store.put job execution).Sound :=
  { sound with
    clean := by
      have clearing := clearing_put_iff same
      exact sound.clean.transfer
        (fun _ trusted => ⟨trusted.has, trusted.built, trusted.clean,
          fun clears => trusted.settled (clearing.mpr clears)⟩)
        (fun _ _ => rfl) (fun _ _ => rfl)
        fun _ _ trusted _ before => ⟨before.has, before.built, before.clean, trusted.settled⟩
    fits other after found := by
      have kept : store.Fits after := by
        by_cases here : other = job
        · exact fits after ((executions_put_self job execution).symm.trans (here ▸ found))
        · exact sound.fits other after ((executions_put_of_ne here execution).symm.trans found)
      exact ⟨kept.walks, kept.counted,
        fun chain clears => kept.settled chain ((clearing_put_iff same).mp clears), kept.stored,
        kept.ahead⟩ }

section

variable {job : Nat} {execution : Execution S F}

theorem Fits.goesOn (fits : store.Fits execution) {rest : List Nat}
    (fewer : ∀ id ∈ rest, id ∈ execution.rest) (under : phase ≠ .listing)
    (counted : ∀ id, phase.node = some id → id ≤ store.flow.nodeIdCounter) :
    store.Fits { execution with rest := rest, phase := phase } :=
  ⟨fun listing => absurd listing under, counted, fits.settled, fits.stored,
    fun chain id mem => fits.ahead chain id (fewer id mem)⟩

section

variable (sound : store.Sound) (settled : clears (store.executions job) = false)
  (fits : store.Fits execution)
include sound settled fits

theorem Sound.failNode : (store.failNode job execution).Sound := by
  rw [LiveStore.failNode]
  split
  · exact sound.put (by rw [settled]; rfl) nofun
  · refine sound.put (by rw [settled]; rfl) fun after found => ?_
    cases found
    exact fits.goesOn (fun _ mem => mem) nofun nofun

theorem Sound.startNode (id : Nat) : (store.startNode job execution id).Sound := by
  rw [LiveStore.startNode]
  split
  · exact sound.failNode settled fits
  case h_2 node found =>
    split
    · exact sound.failNode settled fits
    · refine sound.put (by rw [settled]; rfl) fun after same => ?_
      cases same
      refine fits.goesOn (fun _ mem => mem) nofun fun other same => ?_
      cases same
      exact sound.nodesCounted id (by rw [FlowStore.Has, found]; rfl)

theorem Sound.next : (store.next job execution).Sound := by
  rw [LiveStore.next]
  have sublist := dropWhile_sublist (l := execution.rest) (store.reusable execution.built)
  split
  · exact sound.put (by rw [settled]; rfl) nofun
  case h_2 id rest ahead =>
    rw [ahead] at sublist
    have onward : store.Fits { execution with rest := rest } :=
      ⟨fits.walks, fits.counted, fits.settled, fits.stored, fun chain other mem =>
        fits.ahead chain other (sublist.subset (mem_cons_of_mem _ mem))⟩
    exact sound.startNode settled onward id

end

@[simp] theorem lazyframes_storeLazyframe_self (id : Nat) (frame : Frame S F) :
    (store.storeLazyframe id frame).lazyframes id = some frame := by
  simp only [LiveStore.storeLazyframe, update_self]

theorem lazyframes_storeLazyframe_of_ne (apart : other ≠ id) (frame : Frame S F) :
    (store.storeLazyframe id frame).lazyframes other = store.lazyframes other := by
  simp only [LiveStore.storeLazyframe, update_of_ne apart]

section

variable (sound : store.Sound)
include sound

theorem Sound.storeLazyframe
    (counted : id ≤ store.flow.nodeIdCounter)
    (current : store.flow.Has id → id ∉ store.dirtyNodes → ¬store.Clearing →
      store.fresh id = some frame ∧ ∀ input ∈ store.inputs id, store.Trusted input) :
    (store.storeLazyframe id frame).Sound :=
  { sound with
    clean := by
      have agree : ∀ other, store.Trusted other →
          (store.storeLazyframe id frame).lazyframes other = store.lazyframes other := by
        intro other trusted
        by_cases here : other = id
        · subst here
          rw [lazyframes_storeLazyframe_self, (sound.clean other trusted).1,
            (current trusted.has trusted.clean trusted.settled).1]
        · exact lazyframes_storeLazyframe_of_ne here frame
      intro other trusted
      have both : (store.storeLazyframe id frame).lazyframes other = store.fresh other ∧
          ∀ input ∈ store.inputs other, store.Trusted input := by
        by_cases here : other = id
        · subst here
          obtain ⟨fresh, inputs⟩ := current trusted.has trusted.clean trusted.settled
          exact ⟨(lazyframes_storeLazyframe_self other frame).trans fresh.symm, inputs⟩
        · have built : (store.storeLazyframe id frame).lazyframes other = store.lazyframes other :=
            lazyframes_storeLazyframe_of_ne here frame
          have before : store.Trusted other :=
            ⟨trusted.has, built ▸ trusted.built, trusted.clean, trusted.settled⟩
          exact ⟨built.trans (sound.clean other before).1, (sound.clean other before).2⟩
      have same : (store.storeLazyframe id frame).fresh other = store.fresh other :=
        fresh_congr rfl fun input named => agree input (both.2 input named)
      refine ⟨both.1.trans same.symm, fun input named => ?_⟩
      have before := both.2 input named
      exact ⟨before.has, agree input before ▸ before.built, before.clean, before.settled⟩
    framesCounted other found := by
      by_cases here : other = id
      · exact here ▸ counted
      · rw [lazyframes_storeLazyframe_of_ne here] at found
        exact sound.framesCounted other found
    fits job execution found := by
      have fits := sound.fits job execution found
      refine ⟨fits.walks, fits.counted, fits.settled, fun ids known other mem => ?_, fits.ahead⟩
      by_cases here : other = id
      · rw [here, lazyframes_storeLazyframe_self]
        rfl
      · rw [lazyframes_storeLazyframe_of_ne here]
        exact fits.stored ids known other mem }

theorem Sound.execute (found : store.executions job = some execution) {task : Task S}
    {file : Option F} (running : execution.phase = .running task file settings)
    (keeps : store.KeepsProceed (.running task file settings) .done) :
    (store.execute job execution task file settings).Sound := by
  have settled : clears (store.executions job) = false := by
    rw [found, clears, any_some, running]
  have fits := sound.fits job execution found
  rw [LiveStore.execute]
  split
  · exact sound.failNode settled fits
  case h_2 frames mapped =>
    have counted : task.id ≤ store.flow.nodeIdCounter := fits.counted task.id (by rw [running]; rfl)
    have stored : (store.storeLazyframe task.id ⟨settings, file, frames⟩).Sound := by
      refine sound.storeLazyframe counted fun has clean still => ?_
      obtain ⟨recipe, inputsTrusted⟩ := keeps has clean still (by rw [mapped]; rfl)
      refine ⟨by rw [fresh, recipe, bind_some, build, mapped]; rfl, fun input named => ?_⟩
      rw [inputs, recipe] at named
      exact inputsTrusted input named
    refine stored.put settled.symm fun after same => ?_
    cases same
    exact (stored.fits job execution found).goesOn (fun _ mem => mem) nofun nofun

/-- A node that loses its mark has to be built as it would be now. -/
theorem Sound.unmarked
    (current : store.flow.Has id → id ∈ store.dirtyNodes → ¬store.Clearing →
      (store.lazyframes id).isSome →
        store.lazyframes id = store.fresh id ∧ ∀ input ∈ store.inputs id, store.Trusted input) :
    ({ store with dirtyNodes := store.dirtyNodes.filter fun other => other ≠ id } :
      LiveStore S F).Sound :=
  { sound with
    clean := by
      intro other trusted
      have both : store.lazyframes other = store.fresh other ∧
          ∀ input ∈ store.inputs other, store.Trusted input := by
        by_cases dirty : other ∈ store.dirtyNodes
        · by_cases here : other = id
          · subst here
            exact current trusted.has dirty trusted.settled trusted.built
          · exact absurd (mem_filter.mpr ⟨dirty, decide_eq_true here⟩) trusted.clean
        · exact sound.clean other ⟨trusted.has, trusted.built, dirty, trusted.settled⟩
      refine ⟨both.1, fun input named => ?_⟩
      have before := both.2 input named
      exact ⟨before.has, before.built, fun dirty => before.clean (mem_filter.mp dirty).1,
        before.settled⟩
    fits job execution found := by
      have fits := sound.fits job execution found
      exact ⟨fits.walks, fits.counted, fits.settled, fits.stored, fits.ahead⟩ }

theorem Sound.markedAlone (unread : ∀ reader, store.Trusted reader → id ∉ store.inputs reader) :
    ({ store with dirtyNodes := id :: store.dirtyNodes } : LiveStore S F).Sound :=
  { sound with
    clean := by
      have before : ∀ other, ({ store with dirtyNodes := id :: store.dirtyNodes } :
          LiveStore S F).Trusted other → store.Trusted other :=
        fun other trusted => ⟨trusted.has, trusted.built,
          fun dirty => trusted.clean (mem_cons_of_mem _ dirty), trusted.settled⟩
      refine sound.clean.transfer before (fun _ _ => rfl) (fun _ _ => rfl)
        fun other input trusted named inputTrusted => ⟨inputTrusted.has, inputTrusted.built,
          fun dirty => ?_, trusted.settled⟩
      rcases mem_cons.mp dirty with rfl | dirty
      · exact unread other (before other trusted) named
      · exact inputTrusted.clean dirty
    fits job execution found := by
      have fits := sound.fits job execution found
      exact ⟨fits.walks, fits.counted, fits.settled, fits.stored, fits.ahead⟩ }

/-- While frames are about to be cleared, any of them may go. -/
theorem Sound.dropped (clearing : store.Clearing) {lazyframes : Nat → Option (Frame S F)}
    (fewer : ∀ id, (lazyframes id).isSome → (store.lazyframes id).isSome) :
    ({ store with lazyframes := lazyframes } : LiveStore S F).Sound :=
  { sound with
    clean _ trusted := absurd clearing trusted.settled
    framesCounted id found := sound.framesCounted id (fewer id found)
    fits job execution found := by
      have fits := sound.fits job execution found
      exact ⟨fits.walks, fits.counted, fits.settled, fun ids known => absurd clearing
        (fits.settled (by rw [known]; rfl)), fits.ahead⟩ }

end

theorem Fits.alone_of_clearing (fits : store.Fits execution) (clearing : store.Clearing) :
    execution.built = none := by
  cases chain : execution.built with
  | none => rfl
  | some ids => exact absurd clearing (fits.settled (by rw [chain]; rfl))

/-- When clearing ends, no frame is left that could count. -/
theorem Sound.settles (sound : store.Sound) (clearing : store.Clearing)
    (nothing : ∀ id, store.flow.Has id → id ∉ store.dirtyNodes → store.lazyframes id = none)
    {after : Option (Execution S F)}
    (fresh : ∀ execution, after = some execution →
      execution.built = none ∧ execution.phase = .cleared) : (store.put job after).Sound :=
  { sound with
    clean id trusted := by
      have gone : (store.put job after).lazyframes id = none :=
        nothing id trusted.has trusted.clean
      have built := trusted.built
      rw [gone] at built
      cases built
    fits other execution found := by
      by_cases here : other = job
      · obtain ⟨built, phase⟩ := fresh execution
          ((executions_put_self job after).symm.trans (here ▸ found))
        exact fits_of_alone built (by rw [phase]; nofun) (by rw [phase]; nofun)
      · have fits := sound.fits other execution ((executions_put_of_ne here after).symm.trans found)
        have built := fits.alone_of_clearing clearing
        exact fits_of_alone built
          (fun listing => absurd (fits.walks listing) (by rw [built]; nofun)) fits.counted }

theorem Sound.finish (sound : store.Sound) (found : store.executions job = some execution)
    (stored : execution.phase = .stored id) (keeps : store.KeepsProceed (.stored id) reply) :
    (store.finish job execution id reply).Sound := by
  have settled : clears (store.executions job) = false := by
    rw [found, clears, any_some, stored]
  cases reply with
  | done =>
    have unmarked := sound.unmarked keeps
    refine unmarked.put settled.symm fun after same => ?_
    cases same
    exact (unmarked.fits job execution found).goesOn (fun _ mem => mem) nofun nofun
  | failed => exact sound.failNode settled (sound.fits job execution found)
  | failedMarked =>
    have marked := sound.markedAlone keeps
    exact marked.failNode settled (marked.fits job execution found)

theorem has_of_mem_order {order : List Nat}
    (found : getExecutionOrder flow = some order) : ∀ id ∈ order, flow.Has id := by
  rw [getExecutionOrder] at found
  split at found
  · cases found
  · obtain ⟨walked, returned, rfl⟩ := map_eq_some_iff.mp found
    have listed := foldlM_preserves _
      (fun state : List Nat × List Nat => ∀ id ∈ state.2, (nodeDependencies flow id).isSome)
      _ _ walked (fun _ _ _ _ => walk_listed) (fun _ mem => (not_mem_nil mem).elim)
      returned
    intro id mem
    have known := listed id mem
    rwa [nodeDependencies, Option.isSome_map] at known

theorem has_of_mem_chain {chain : List Nat}
    (found : getAncestorChain flow target = some chain) : ∀ id ∈ chain, flow.Has id := by
  obtain ⟨order, ordered, rfl⟩ := map_eq_some_iff.mp found
  exact fun id mem => has_of_mem_order ordered id (mem_filter.mp mem).1

theorem clearing_of (found : store.executions job = some execution)
    (at_phase : execution.phase = phase)
    (clearing : phase = .clearing ∨ ∃ nodeIds, phase = .cleaning nodeIds) : store.Clearing := by
  refine ⟨job, ?_⟩
  rw [found, clears, any_some, at_phase]
  rcases clearing with rfl | ⟨nodeIds, rfl⟩ <;> rfl

theorem Sound.proceed (sound : store.Sound) (found : store.executions job = some execution)
    (keeps : store.KeepsProceed execution.phase reply) :
    (store.proceed job execution reply).Sound := by
  have fits := sound.fits job execution found
  rw [LiveStore.proceed]
  cases phase : execution.phase with
  | cleaning nodeIds =>
    have clearing := clearing_of found phase (.inr ⟨nodeIds, rfl⟩)
    dsimp only
    split
    · have fewer : ∀ id, (if id ∈ nodeIds then store.lazyframes id else none).isSome →
          (store.lazyframes id).isSome := by
        intro id kept
        split at kept
        · exact kept
        · cases kept
      have dropped := sound.dropped clearing fewer
      refine dropped.put (by rw [found, clears, clears, any_some, any_some, phase])
        fun after same => ?_
      cases same
      exact (dropped.fits job execution found).goesOn (fun _ mem => mem) nofun nofun
    case isFalse failed =>
      rw [phase] at keeps
      exact sound.settles clearing (keeps failed) nofun
  | clearing =>
    have clearing := clearing_of found phase (.inl rfl)
    dsimp only
    split
    · have fewer : ∀ id, (none : Option (Frame S F)).isSome → (store.lazyframes id).isSome :=
        fun _ kept => by cases kept
      have dropped := sound.dropped clearing fewer
      refine dropped.settles clearing (fun _ _ _ => rfl) fun after same => ?_
      cases same
      exact ⟨fits.alone_of_clearing clearing, rfl⟩
    case isFalse failed =>
      rw [phase] at keeps
      exact sound.settles clearing (keeps failed) nofun
  | cleared =>
    have settled : clears (store.executions job) = false := by
      rw [found, clears, any_some, phase]
    dsimp only
    cases ordered : getExecutionOrder store.flow with
    | none => exact sound.put settled.symm nofun
    | some order =>
      refine sound.put settled.symm fun after same => ?_
      cases same
      exact ⟨nofun, nofun, fits.settled, fits.stored, fun _ => has_of_mem_order ordered⟩
  | listing =>
    have settled : clears (store.executions job) = false := by
      rw [found, clears, any_some, phase]
    refine sound.put settled.symm fun after same => ?_
    cases same
    have chain := fits.walks phase
    refine ⟨nofun, nofun, fun _ => fits.settled chain, fun ids known id mem => ?_,
      fun _ => fits.ahead chain⟩
    cases known
    exact (Bool.and_eq_true_iff.mp mem).2
  | between =>
    exact sound.next (by rw [found, clears, any_some, phase]) fits
  | reading task =>
    have settled : clears (store.executions job) = false := by
      rw [found, clears, any_some, phase]
    have counted := fits.counted task.id (by rw [phase]; rfl)
    have decoding : ∀ file : Option F,
        (store.put job (some { execution with phase := .decoding task file })).Sound := by
      intro file
      refine sound.put settled.symm fun after same => ?_
      cases same
      exact fits.goesOn (fun _ mem => mem) nofun fun id same => Option.some.inj same ▸ counted
    dsimp only
    split
    · rw [readFile]
      split
      · split
        · exact sound.failNode settled fits
        · exact decoding _
      · exact decoding none
    · exact sound.failNode settled fits
  | decoding task file =>
    have settled : clears (store.executions job) = false := by
      rw [found, clears, any_some, phase]
    have counted := fits.counted task.id (by rw [phase]; rfl)
    dsimp only
    split
    · rw [runExecutor]
      split
      · exact sound.failNode settled fits
      · refine sound.put settled.symm fun after same => ?_
        cases same
        exact fits.goesOn (fun _ mem => mem) nofun
          fun id same => Option.some.inj same ▸ counted
    · exact sound.failNode settled fits
  | running task file settings =>
    dsimp only
    split
    case isTrue done => exact sound.execute found phase (by rw [phase, done] at keeps; exact keeps)
    case isFalse =>
      exact sound.failNode (by rw [found, clears, any_some, phase]) fits
  | stored id => exact sound.finish found phase (phase ▸ keeps)

end

theorem Sound.executeFlow (sound : store.Sound) (job : Nat)
    (keeps : ∀ job execution, store.executions job = some execution → execution.built = none) :
    (store.executeFlow job).Sound :=
  { sound with
    clean id trusted := by
      refine absurd ⟨job, ?_⟩ trusted.settled
      rw [LiveStore.executeFlow, executions_put_self]
      rfl
    fits other execution found := by
      rw [LiveStore.executeFlow] at found
      by_cases here : other = job
      · rw [here, executions_put_self] at found
        cases found
        exact fits_of_alone rfl nofun nofun
      · rw [executions_put_of_ne here] at found
        have fits := sound.fits other execution found
        have built := keeps other execution found
        exact fits_of_alone built
          (fun listing => absurd (fits.walks listing) (by rw [built]; nofun)) fits.counted }

theorem Sound.step (sound : store.Sound) (event : Event S F) (keeps : store.Keeps event) :
    (store.step event).Sound := by
  cases event with
  | edit edit => exact sound.edit edit keeps
  | executeFlow job =>
    rw [LiveStore.step]
    split
    · exact sound
    · exact sound.executeFlow job keeps
  | executeNodeWithUpstream job id =>
    rw [LiveStore.step]
    split
    · exact sound
    case isFalse free =>
      rw [LiveStore.executeNodeWithUpstream]
      have idle : store.executions job = none := Option.not_isSome_iff_eq_none.mp free
      split
      · exact sound
      case h_2 chain found =>
        refine sound.put (by rw [idle]; rfl) fun after same => ?_
        cases same
        refine ⟨fun _ => rfl, nofun, fun _ => keeps, fun ids known id mem => ?_,
          fun _ => has_of_mem_chain found⟩
        cases known
        cases mem
  | executeNode job id =>
    rw [LiveStore.step]
    split
    · exact sound
    case isFalse free =>
      have idle : store.executions job = none := Option.not_isSome_iff_eq_none.mp free
      have fits : store.Fits ⟨none, [], .between⟩ := fits_of_alone rfl nofun nofun
      exact sound.startNode (by rw [idle]; rfl) fits id
  | resume job reply =>
    rw [LiveStore.step, LiveStore.resume]
    split
    · exact sound
    case h_2 execution found => exact sound.proceed found (keeps execution found)

/-- What an execution reuses counts as current. -/
theorem Sound.trusted_of_mem_reused (sound : store.Sound) {job : Nat}
    (mem : id ∈ store.reused job) : store.Trusted id := by
  rw [reused] at mem
  split at mem
  case h_2 => exact (not_mem_nil mem).elim
  case h_1 built rest found =>
    have fits := sound.fits job _ found
    have passed := mem_takeWhile_imp mem
    cases built with
    | none => cases passed
    | some ids =>
      obtain ⟨known, clean⟩ := Bool.and_eq_true_iff.mp passed
      exact ⟨fits.ahead rfl id ((takeWhile_sublist _).subset mem),
        fits.stored ids rfl id known, of_decide_eq_true clean, fits.settled rfl⟩

end LiveStore

open LiveStore

end Flowfile.BrowserReuse

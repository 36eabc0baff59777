import Flowfile.Library.Dictionaries
import Flowfile.Library.GraphWalks
import Mathlib.Algebra.GroupWithZero.Nat
import Mathlib.Data.List.Chain
import Mathlib.Data.List.Perm.Subperm
import Mathlib.Logic.Function.Basic

/-!
# Execution order in the browser

Before nodes are put in order their inputs are searched for a cycle. The search keeps the nodes that
it has visited, those that it is still below, and from which node it came to each; the cycle is read
back from the latter. Then a walk lists each node after its inputs. Both look at a left and a right
input only when its id counts as true, which zero does not.

What is found is a cycle, and without one each node comes after the inputs that are looked at. That
is so for all inputs when no node has zero for its left or right input, unless zero is no node or
is reached through inputs that are looked at.
-/

namespace Flowfile.BrowserOrder

open Function Library.Dictionaries Library.GraphWalks List
open Option (isSome_map mem_toList ext)

variable {ι : Type} [DecidableEq ι] [Zero ι]

structure FlowNode (ι : Type) where
  type : String
  inputIds : List ι
  leftInputId : Option ι
  rightInputId : Option ι

/-- The id, where it is there and counts as true. -/
def truthy (id : Option ι) : Option ι :=
  id.filter fun id => id ≠ 0

def FlowNode.dependencies (node : FlowNode ι) : List ι :=
  node.inputIds ++ ((truthy node.leftInputId).toList ++ (truthy node.rightInputId).toList)

def FlowNode.inputs (node : FlowNode ι) : List ι :=
  node.inputIds ++ (node.leftInputId.toList ++ node.rightInputId.toList)

abbrev Nodes (ι : Type) [DecidableEq ι] := Dictionary ι (FlowNode ι)

namespace Nodes

variable (nodes : Nodes ι)

def dependencies (id : ι) : Option (List ι) :=
  (nodes.get id).map FlowNode.dependencies

def inputs (id : ι) : Option (List ι) :=
  (nodes.get id).map FlowNode.inputs

def keys : List ι :=
  nodes.entries.map Prod.fst

end Nodes

structure Search (ι : Type) where
  visited : List ι
  recursionStack : List ι
  parent : ι → Option ι

/-- Search the inputs of a node one after the other. -/
def searchDependencies (dfs : ι → Search ι → Option (Option ι × Search ι)) (id : ι) :
    List ι → Search ι → Option (Option ι × Search ι)
  | [], state => some (none, state)
  | depId :: rest, state =>
    let followed := { state with parent := update state.parent depId (some id) }
    if depId ∉ state.visited then
      (dfs depId followed).bind fun
        | (some cycleStart, state) => some (some cycleStart, state)
        | (none, state) => searchDependencies dfs id rest state
    else if depId ∈ state.recursionStack then some (some depId, followed)
    else searchDependencies dfs id rest state

/-- Search from a node. The result is a node of a cycle, if one is found. -/
def dfs (nodes : Nodes ι) : Nat → ι → Search ι → Option (Option ι × Search ι)
  | 0, _, _ => none
  | fuel + 1, id, state =>
    let entered := { state with
      visited := id :: state.visited
      recursionStack := id :: state.recursionStack }
    match nodes.dependencies id with
    | none =>
      some (none, { entered with recursionStack := entered.recursionStack.filter (· ≠ id) })
    | some dependencies =>
      (searchDependencies (dfs nodes fuel) id dependencies entered).map fun
        | (some cycleStart, state) => (some cycleStart, state)
        | (none, state) =>
          (none, { state with recursionStack := state.recursionStack.filter (· ≠ id) })

def searchNodes (nodes : Nodes ι) (fuel : Nat) : List ι → Search ι → Option (Option ι × Search ι)
  | [], state => some (none, state)
  | id :: rest, state =>
    if id ∈ state.visited then searchNodes nodes fuel rest state
    else (dfs nodes fuel id state).bind fun
      | (some cycleStart, state) => some (some cycleStart, state)
      | (none, state) => searchNodes nodes fuel rest state

def pathFrom (parent : ι → Option ι) (cycleStart : ι) : Nat → Option ι → Option (List ι)
  | 0, _ => none
  | _ + 1, none => some []
  | fuel + 1, some current =>
    if current = cycleStart then some []
    else (pathFrom parent cycleStart fuel (parent current)).map fun path => current :: path

def detectCycle (nodes : Nodes ι) (fuel : Nat) : Option (Option (List ι)) :=
  (searchNodes nodes fuel nodes.keys ⟨[], [], fun _ => none⟩).bind fun
    | (none, _) => some none
    | (some cycleStart, state) =>
      (pathFrom state.parent cycleStart fuel (state.parent cycleStart)).map fun path =>
        some (cycleStart :: (path ++ [cycleStart]))

/-- List a node after its inputs. -/
def visit (nodes : Nodes ι) (fuel : Nat) (state : List ι × List ι) (id : ι) :
    Option (List ι × List ι) :=
  walk nodes.dependencies false fuel [] state id

variable [ToString ι]

def describeCycle (nodes : Nodes ι) (cycle : List ι) : String :=
  "Circular dependency detected: " ++ String.intercalate " -> " (cycle.map fun id =>
    match nodes.get id with
    | some node => node.type ++ " (#" ++ toString id ++ ")"
    | none => "#" ++ toString id)

def getExecutionOrder (nodes : Nodes ι) (fuel : Nat) : Option (Except String (List ι)) :=
  (detectCycle nodes fuel).bind fun
    | some cycle => some (.error (describeCycle nodes cycle))
    | none => (nodes.keys.foldlM (visit nodes fuel) ([], [])).map fun state => .ok state.2

variable {id : ι} {state : Search ι} {depId : ι} {above : List ι} {after : Search ι}

section

omit [ToString ι]

variable {nodes : Nodes ι}

/-- The search came to the one node from the other. -/
def Above (nodes : Nodes ι) (parent : ι → Option ι) (below above : ι) : Prop :=
  parent below = some above ∧ Names nodes.dependencies above below

structure Traced (nodes : Nodes ι) (state : Search ι) : Prop where
  chain : state.recursionStack.IsChain (Above nodes state.parent)
  nodup : state.recursionStack.Nodup
  seen : ∀ id ∈ state.recursionStack, id ∈ state.visited
  known : ∀ id ∈ state.recursionStack, (nodes.dependencies id).isSome

structure Ring (nodes : Nodes ι) (parent : ι → Option ι) (cycleStart : ι) (above : List ι) :
    Prop where
  path : ∀ fuel, above.length < fuel →
    pathFrom parent cycleStart fuel (parent cycleStart) = some above
  cycle : (cycleStart :: (above ++ [cycleStart])).IsChain
    fun input node => Names nodes.dependencies node input
  simple : (cycleStart :: above).Nodup
  short : above.length < nodes.keys.length

theorem known_mem_keys (known : (nodes.dependencies id).isSome) : id ∈ nodes.keys := by
  rw [Nodes.dependencies, isSome_map] at known
  exact Dictionary.mem_keys_iff.mpr known

omit [Zero ι] in
theorem pathFrom_chain {parent : ι → Option ι} {cycleStart : ι} (last : Option ι) {below : List ι}
    (apart : cycleStart ∉ below)
    (chain : (below ++ [cycleStart]).IsChain fun node above => parent node = some above) :
    ∀ fuel, below.length < fuel → pathFrom (update parent cycleStart last) cycleStart fuel
      (below ++ [cycleStart]).head? = some below := by
  induction below with
  | nil =>
    intro fuel enough
    obtain ⟨fuel, rfl⟩ := Nat.exists_eq_succ_of_ne_zero (Nat.ne_of_gt enough)
    exact if_pos rfl
  | cons node rest ih =>
    intro fuel enough
    obtain ⟨fuel, rfl⟩ := Nat.exists_eq_succ_of_ne_zero (Nat.ne_of_gt (Nat.zero_lt_of_lt enough))
    obtain ⟨notNode, notRest⟩ := not_or.mp (mt mem_cons.mpr apart)
    rw [cons_append, isChain_cons] at chain
    have next : parent node = (rest ++ [cycleStart]).head? := by
      cases first : (rest ++ [cycleStart]).head? with
      | none => simp at first
      | some above => exact chain.1 above (by rw [first]; rfl)
    change (if node = cycleStart then some [] else
      (pathFrom (update parent cycleStart last) cycleStart fuel
        (update parent cycleStart last node)).map fun path => node :: path) = _
    rw [if_neg (Ne.symm notNode), update_of_ne (Ne.symm notNode), next,
      ih notRest chain.2 fuel (Nat.lt_of_succ_lt_succ enough)]
    rfl

/-- An input that the search is below closes a cycle. -/
theorem Traced.ring (traced : Traced nodes state) (top : state.recursionStack = id :: above)
    (named : Names nodes.dependencies id depId) (back : depId ∈ state.recursionStack) :
    ∃ path, Ring nodes (update state.parent depId (some id)) depId path := by
  obtain ⟨below, rest, split⟩ := append_of_mem back
  have nodup := traced.nodup
  rw [split] at nodup
  have distinct : depId ∉ below := fun mem =>
    (nodup_append.mp nodup).2.2 depId mem depId mem_cons_self rfl
  have chain := traced.chain
  rw [split, isChain_split] at chain
  have first : (below ++ [depId]).head? = some id := by
    have same : (below ++ depId :: rest).head? = some id := by rw [← split, top]; rfl
    cases below with
    | nil => exact same
    | cons node others => exact same
  have begins : (below ++ [depId]).Sublist state.recursionStack := by
    have joined : below ++ depId :: rest = (below ++ [depId]) ++ rest := by
      rw [append_assoc]
      rfl
    rw [split, joined]
    exact sublist_append_left _ _
  have simple := traced.nodup.sublist begins
  refine ⟨below, fun fuel enough => ?_, ?_, ?_, ?_⟩
  · rw [update_self, ← first]
    exact pathFrom_chain _ distinct (chain.1.imp fun _ _ link => link.1) fuel enough
  · refine isChain_cons.mpr ⟨fun node isFirst => ?_, chain.1.imp fun _ _ link => link.2⟩
    rw [first] at isFirst
    exact Option.some.inj isFirst ▸ named
  · exact (perm_append_singleton depId below).nodup simple
  · have within : (below ++ [depId]).Subperm nodes.keys :=
      simple.subperm fun node mem => known_mem_keys (traced.known node (begins.subset mem))
    have short := within.length_le
    rw [length_append] at short
    exact short

/-- What a search did without finding a cycle: it is where it was and has visited more. -/
structure Passed (state after : Search ι) : Prop where
  stack : after.recursionStack = state.recursionStack
  visited : state.visited ⊆ after.visited
  parent : ∀ id ∈ state.visited, after.parent id = state.parent id

omit [DecidableEq ι] [Zero ι] in
theorem Passed.trans {middle : Search ι} (first : Passed state middle)
    (second : Passed middle after) : Passed state after :=
  ⟨second.stack.trans first.stack, fun _ mem => second.visited (first.visited mem),
    fun id mem => (second.parent id (first.visited mem)).trans (first.parent id mem)⟩

omit [Zero ι] in
/-- Coming to a node that was not visited changes nothing for those that were. -/
theorem passed_followed (fresh : depId ∉ state.visited) (id : ι) :
    Passed state { state with parent := update state.parent depId (some id) } :=
  ⟨rfl, fun _ mem => mem, fun other mem =>
    update_of_ne (fun same : other = depId => fresh (same ▸ mem)) _ _⟩

theorem Traced.passed (traced : Traced nodes state)
    (passed : Passed state after) : Traced nodes after := by
  refine ⟨?_, passed.stack ▸ traced.nodup, fun id isAbove => ?_, fun id isAbove => ?_⟩
  · rw [passed.stack]
    refine List.IsChain.imp_of_mem_imp (fun below above isBelow _ link => ?_) traced.chain
    exact ⟨(passed.parent below (traced.seen below isBelow)).trans link.1, link.2⟩
  · exact passed.visited (traced.seen id (passed.stack ▸ isAbove))
  · exact traced.known id (passed.stack ▸ isAbove)

/-- A search either passes, where the walk that is checked returns with the same nodes visited, or
it finds a ring. -/
def Finds (nodes : Nodes ι) (state : Search ι) (walked : List ι × List ι → Option (List ι × List ι))
    (result : Option (Option ι × Search ι)) : Prop :=
  (∃ after, result = some (none, after) ∧ Passed state after ∧
    ∀ order, ∃ order', walked (state.visited, order) = some (after.visited, order')) ∨
  ∃ cycleStart after path, result = some (some cycleStart, after) ∧
    Ring nodes after.parent cycleStart path

theorem searchDependencies_spec {fuel : Nat}
    (each : ∀ (state : Search ι) (depId : ι), Traced nodes state → depId ∉ state.visited →
      (depId :: state.recursionStack).IsChain (Above nodes state.parent) →
      (nodes.keys.filter fun other => other ∉ state.visited).length < fuel →
      Finds nodes state
        (fun walked => walk nodes.dependencies true fuel state.recursionStack walked depId)
        (dfs nodes fuel depId state))
    {dependencies : List ι} (named : ∀ depId ∈ dependencies, Names nodes.dependencies id depId)
    (traced : Traced nodes state) (top : state.recursionStack = id :: above)
    (enough : (nodes.keys.filter fun other => other ∉ state.visited).length < fuel) :
    Finds nodes state
      (dependencies.foldlM (walk nodes.dependencies true fuel state.recursionStack))
      (searchDependencies (dfs nodes fuel) id dependencies state) := by
  induction dependencies generalizing state with
  | nil => exact .inl ⟨state, rfl, ⟨rfl, fun _ mem => mem, fun _ _ => rfl⟩,
      fun order => ⟨order, rfl⟩⟩
  | cons depId rest ih =>
    have namesDep := named depId mem_cons_self
    have namesRest : ∀ other ∈ rest, Names nodes.dependencies id other :=
      fun other mem => named other (mem_cons_of_mem _ mem)
    have positive : ∃ less, fuel = less + 1 :=
      Nat.exists_eq_succ_of_ne_zero (Nat.ne_of_gt (Nat.zero_lt_of_lt enough))
    rw [searchDependencies]
    by_cases visited : depId ∈ state.visited
    · rw [if_neg (not_not.mpr visited)]
      by_cases back : depId ∈ state.recursionStack
      · rw [if_pos back]
        obtain ⟨path, ring⟩ := traced.ring top namesDep back
        exact .inr ⟨depId, _, path, rfl, ring⟩
      · -- An input that the search has left is passed over by both.
        rw [if_neg back]
        refine (ih namesRest traced top enough).imp_left ?_
        rintro ⟨after, found, passed, walks⟩
        refine ⟨after, found, passed, fun order => ?_⟩
        obtain ⟨order', walked⟩ := walks order
        obtain ⟨less, rfl⟩ := positive
        refine ⟨order', ?_⟩
        beta_reduce
        rw [foldlM_cons, walk, if_pos visited, if_neg (by simp [back])]
        exact walked
    · rw [if_pos visited]
      have followed := passed_followed visited id
      have tracedFollowed := traced.passed followed
      have link : (depId :: state.recursionStack).IsChain
          (Above nodes (update state.parent depId (some id))) := by
        refine isChain_cons.mpr ⟨fun node isFirst => ?_, tracedFollowed.chain⟩
        rw [top] at isFirst
        obtain rfl : id = node := Option.some.inj isFirst
        exact ⟨update_self _ _ _, namesDep⟩
      rcases each _ depId tracedFollowed visited link enough with
        ⟨middle, found, passed, walks⟩ | ⟨cycleStart, after, path, found, ring⟩
      · have reached := followed.trans passed
        rw [found]
        rcases ih namesRest (traced.passed reached) (reached.stack.trans top)
            (Nat.lt_of_le_of_lt (unvisited_le reached.visited) enough) with
          ⟨after, foundRest, passedRest, walksRest⟩ | others
        · refine .inl ⟨after, foundRest, reached.trans passedRest, fun order => ?_⟩
          obtain ⟨order', walked⟩ := walks order
          beta_reduce at walked
          obtain ⟨order'', walkedRest⟩ := walksRest order'
          rw [reached.stack] at walkedRest
          refine ⟨order'', ?_⟩
          beta_reduce
          rw [foldlM_cons, walked]
          exact walkedRest
        · exact .inr others
      · rw [found]
        exact .inr ⟨cycleStart, after, path, rfl, ring⟩

theorem dfs_spec {fuel : Nat} {state : Search ι} {id : ι} (traced : Traced nodes state)
    (fresh : id ∉ state.visited)
    (link : (id :: state.recursionStack).IsChain (Above nodes state.parent))
    (enough : (nodes.keys.filter fun other => other ∉ state.visited).length < fuel) :
    Finds nodes state
      (fun walked => walk nodes.dependencies true fuel state.recursionStack walked id)
      (dfs nodes fuel id state) := by
  induction fuel generalizing state id with
  | zero => exact absurd enough (Nat.not_lt_zero _)
  | succ fuel ih =>
    have notAbove : id ∉ state.recursionStack := fun isAbove => fresh (traced.seen id isAbove)
    have popped : (id :: state.recursionStack).filter (· ≠ id) = state.recursionStack := by
      rw [filter_cons_of_neg (by simp), filter_eq_self]
      exact fun other mem => decide_eq_true fun same => notAbove (same ▸ mem)
    rw [dfs]
    cases found : nodes.dependencies id with
    | none =>
      refine .inl ⟨_, rfl, ⟨popped, subset_cons_self _ _, fun _ _ => rfl⟩, fun order => ⟨order, ?_⟩⟩
      beta_reduce
      rw [walk, if_neg fresh, found]
    | some dependencies =>
    have known : (nodes.dependencies id).isSome := by rw [found]; rfl
    have entered : Traced nodes ⟨id :: state.visited, id :: state.recursionStack,
        state.parent⟩ := by
      refine ⟨link, nodup_cons.mpr ⟨notAbove, traced.nodup⟩, fun other isAbove => ?_,
        fun other isAbove => ?_⟩
      · exact (mem_cons.mp isAbove).elim (fun same => same ▸ mem_cons_self)
          fun before => mem_cons_of_mem _ (traced.seen other before)
      · exact (mem_cons.mp isAbove).elim (fun same => same ▸ known) (traced.known other)
    have fewer := unvisited_lt (known_mem_keys known) fresh
    have searched := searchDependencies_spec (fun state depId => @ih state depId)
      (fun depId mem => ⟨dependencies, found, mem⟩) entered rfl
      (Nat.lt_of_lt_of_le fewer (Nat.le_of_lt_succ enough))
    rcases searched with ⟨after, found', passed, walks⟩ | ⟨cycleStart, after, path, found', ring⟩
    · refine .inl ⟨{ after with recursionStack := after.recursionStack.filter (· ≠ id) }, ?_,
        ⟨?_, fun _ mem => passed.visited (mem_cons_of_mem _ mem),
          fun other mem => passed.parent other (mem_cons_of_mem _ mem)⟩,
        fun order => ?_⟩
      · dsimp only
        rw [found']
        rfl
      · rw [passed.stack]
        exact popped
      · obtain ⟨order', walked⟩ := walks order
        refine ⟨order' ++ [id], ?_⟩
        beta_reduce
        rw [walk, if_neg fresh, found]
        dsimp only at walked ⊢
        rw [walked]
        rfl
    · refine .inr ⟨cycleStart, after, path, ?_, ring⟩
      dsimp only
      rw [found']
      rfl

theorem searchNodes_spec {fuel : Nat} {ids : List ι} {state : Search ι}
    (outside : state.recursionStack = [])
    (enough : (nodes.keys.filter fun other => other ∉ state.visited).length < fuel) :
    Finds nodes state (ids.foldlM (walk nodes.dependencies true fuel []))
      (searchNodes nodes fuel ids state) := by
  induction ids generalizing state with
  | nil => exact .inl ⟨state, rfl, ⟨rfl, fun _ mem => mem, fun _ _ => rfl⟩,
      fun order => ⟨order, rfl⟩⟩
  | cons id rest ih =>
    rw [searchNodes]
    by_cases visited : id ∈ state.visited
    · rw [if_pos visited]
      refine (ih outside enough).imp_left ?_
      rintro ⟨after, found, passed, walks⟩
      refine ⟨after, found, passed, fun order => ?_⟩
      obtain ⟨order', walked⟩ := walks order
      obtain ⟨less, rfl⟩ := Nat.exists_eq_succ_of_ne_zero (Nat.ne_of_gt (Nat.zero_lt_of_lt enough))
      refine ⟨order', ?_⟩
      beta_reduce
      rw [foldlM_cons, walk, if_pos visited, if_neg (by simp)]
      exact walked
    · rw [if_neg visited]
      have traced : Traced nodes state := by
        refine ⟨?_, ?_, ?_, ?_⟩ <;> rw [outside]
        · exact .nil
        · exact .nil
        · exact fun _ isAbove => (not_mem_nil isAbove).elim
        · exact fun _ isAbove => (not_mem_nil isAbove).elim
      have searched := dfs_spec traced visited (by rw [outside]; exact .singleton id) enough
      rw [outside] at searched
      rcases searched with ⟨middle, found, passed, walks⟩ | ⟨cycleStart, after, path, found, ring⟩
      · rw [found]
        rcases ih (passed.stack.trans outside)
            (Nat.lt_of_le_of_lt (unvisited_le passed.visited) enough) with
          ⟨after, foundRest, passedRest, walksRest⟩ | others
        · refine .inl ⟨after, foundRest, passed.trans passedRest, fun order => ?_⟩
          obtain ⟨order', walked⟩ := walks order
          obtain ⟨order'', walkedRest⟩ := walksRest order'
          beta_reduce at walked
          refine ⟨order'', ?_⟩
          beta_reduce
          rw [foldlM_cons, walked]
          exact walkedRest
        · exact .inr others
      · rw [found]
        exact .inr ⟨cycleStart, after, path, rfl, ring⟩

end

def IsCycle (inputs : ι → Option (List ι)) (cycle : List ι) : Prop :=
  ∃ start path, cycle = start :: (path ++ [start]) ∧ (start :: path).Nodup ∧
    cycle.IsChain fun input node => Names inputs node input

def Cyclic (inputs : ι → Option (List ι)) : Prop :=
  ∃ id, Relation.TransGen (Names inputs) id id

variable {cycle : List ι} {input : ι} {order : Nodes ι}

section

omit [ToString ι]

variable {nodes : Nodes ι} {fuel : Nat}

omit [DecidableEq ι] [Zero ι] in
theorem IsCycle.cyclic {inputs : ι → Option (List ι)}
    (isCycle : IsCycle inputs cycle) : Cyclic inputs := by
  obtain ⟨start, path, rfl, _, chain⟩ := isCycle
  have leads : ∀ (path : List ι) (first : ι),
      (first :: (path ++ [start])).IsChain (fun input node => Names inputs node input) →
        Relation.TransGen (Names inputs) start first := by
    intro path
    induction path with
    | nil => exact fun first chain => .single (isChain_cons_cons.mp chain).1
    | cons node rest ih =>
      intro first chain
      obtain ⟨link, others⟩ := isChain_cons_cons.mp chain
      exact (ih node others).tail link
  exact ⟨start, leads path start chain⟩

theorem mem_truthy {id : Option ι} : input ∈ (truthy id).toList ↔ id = some input ∧ input ≠ 0 := by
  rw [mem_toList, truthy, Option.filter_eq_some_iff, decide_eq_true_eq]

theorem inputs_isSome (id : ι) : (nodes.inputs id).isSome = (nodes.dependencies id).isSome := by
  rw [Nodes.inputs, Nodes.dependencies, isSome_map, isSome_map]

theorem names_inputs (named : Names nodes.dependencies id input) : Names nodes.inputs id input := by
  obtain ⟨dependencies, found, mem⟩ := named
  obtain ⟨node, isNode, rfl⟩ := Option.map_eq_some_iff.mp found
  refine ⟨node.inputs, by rw [Nodes.inputs, isNode]; rfl, ?_⟩
  simp only [FlowNode.dependencies, mem_append, mem_truthy] at mem
  simp only [FlowNode.inputs, mem_append, mem_toList]
  exact mem.imp_right (Or.imp And.left And.left)

theorem names_zero (named : Names nodes.inputs id input) :
    Names nodes.dependencies id input ∨ input = 0 ∧ ∃ node, nodes.get id = some node ∧
      (node.leftInputId = some 0 ∨ node.rightInputId = some 0) := by
  obtain ⟨inputs, found, mem⟩ := named
  obtain ⟨node, isNode, rfl⟩ := Option.map_eq_some_iff.mp found
  by_cases isZero : input = 0
  · by_cases sides : node.leftInputId = some 0 ∨ node.rightInputId = some 0
    · exact .inr ⟨isZero, node, isNode, sides⟩
    · refine .inl ⟨node.dependencies, by rw [Nodes.dependencies, isNode]; rfl, ?_⟩
      obtain rfl := isZero
      simp only [FlowNode.inputs, mem_append, mem_toList] at mem
      exact mem_append_left _ (mem.resolve_right sides)
  · refine .inl ⟨node.dependencies, by rw [Nodes.dependencies, isNode]; rfl, ?_⟩
    simp only [FlowNode.inputs, mem_append, mem_toList] at mem
    simp only [FlowNode.dependencies, mem_append, mem_truthy]
    exact mem.imp_right (Or.imp (⟨·, isZero⟩) (⟨·, isZero⟩))

omit [Zero ι] in
theorem get_of_perm (same : order.entries.Perm nodes.entries) (id : ι) :
    order.get id = nodes.get id := by
  refine ext fun node => ?_
  rw [← Dictionary.mem_entries_iff, ← Dictionary.mem_entries_iff, same.mem_iff]

theorem dependencies_of_perm (same : order.entries.Perm nodes.entries) :
    order.dependencies = nodes.dependencies :=
  funext fun id => by rw [Nodes.dependencies, Nodes.dependencies, get_of_perm same]

/-- The search finds a cycle of the inputs that are followed, if they have one. -/
theorem detectCycle_spec (enough : nodes.keys.length < fuel) :
    (∃ cycle, detectCycle nodes fuel = some (some cycle) ∧ IsCycle nodes.dependencies cycle) ∨
      detectCycle nodes fuel = some none ∧ ¬Cyclic nodes.dependencies := by
  have fuelled := Nat.lt_of_le_of_lt (length_filter_le (fun other => other ∉ ([] : List ι))
    nodes.keys) enough
  rcases @searchNodes_spec _ _ _ nodes fuel nodes.keys ⟨[], [], fun _ => none⟩ rfl fuelled with
    ⟨after, found, _, walks⟩ | ⟨cycleStart, after, path, found, ring⟩
  · refine .inr ⟨by rw [detectCycle, found]; rfl, ?_⟩
    rintro ⟨id, cycle⟩
    obtain ⟨order, walked⟩ := walks []
    obtain ⟨sorted, all⟩ := walks_walked nofun walked
    exact sorted.sorted.acyclic (fun node known => all node (known_mem_keys known) known) id cycle
  · refine .inl ⟨cycleStart :: (path ++ [cycleStart]), ?_, cycleStart, path, rfl, ring.simple,
      ring.cycle⟩
    rw [detectCycle, found]
    change (pathFrom after.parent cycleStart fuel (after.parent cycleStart)).map _ = _
    rw [ring.path fuel (Nat.lt_trans ring.short enough)]
    rfl

/-- Without a cycle all nodes are listed, each after its inputs that are followed. -/
theorem visits_spec (acyclic : ¬Cyclic nodes.dependencies) (enough : nodes.keys.length < fuel) :
    ∃ after, nodes.keys.foldlM (visit nodes fuel) ([], []) = some after ∧
      after.2.Perm nodes.keys ∧ Sorted nodes.dependencies after.2 := by
  have returns : ∀ state id, id ∈ nodes.keys → ∃ after, visit nodes fuel state id = some after := by
    intro state id _
    obtain ⟨after, walked, _⟩ := @walk_returns _ _ nodes.dependencies false nodes.keys
      (fun _ => known_mem_keys) nofun fuel [] state id
      (Nat.lt_of_le_of_lt (length_filter_le _ _) enough)
      (fun _ isAbove => (not_mem_nil isAbove).elim)
    exact ⟨after, walked⟩
  obtain ⟨after, walked, _⟩ := Library.PartialLists.foldlM_returns (visit nodes fuel)
    (fun _ => True) nodes.keys ([], []) (fun state id mem _ => by
      obtain ⟨after, walked⟩ := returns state id mem
      exact ⟨after, walked, trivial⟩) trivial
  obtain ⟨sorted, all⟩ := walks_walked (fun _ id cycle => acyclic ⟨id, cycle⟩) walked
  have keysKnown : ∀ id, id ∈ nodes.keys ↔ (nodes.dependencies id).isSome := fun id => by
    rw [Nodes.dependencies, isSome_map, Nodes.keys, Dictionary.mem_keys_iff]
  refine ⟨after, walked, ?_, sorted.sorted⟩
  refine (perm_ext_iff_of_nodup sorted.nodup nodes.distinct).mpr fun id => ⟨fun listed => ?_,
    fun isKey => ?_⟩
  · exact (keysKnown id).mpr (sorted.listed id listed).2
  · exact all id isKey ((keysKnown id).mp isKey)

end

/-- What the order of execution is to be: a cycle is thrown, otherwise each node is listed once and
after its inputs. -/
structure Orders (nodes : Nodes ι) (fuel : Nat) : Prop where
  returns : ∃ result, getExecutionOrder nodes fuel = some result
  throws : (∃ message, getExecutionOrder nodes fuel = some (.error message)) ↔ Cyclic nodes.inputs
  ordered : ∀ order, getExecutionOrder nodes fuel = some (.ok order) →
    order.Perm nodes.keys ∧ Sorted nodes.inputs order
  cycle : ∀ cycle, detectCycle nodes fuel = some (some cycle) → IsCycle nodes.inputs cycle

omit [ToString ι] in
def FollowsZero (nodes : Nodes ι) : Prop :=
  Cyclic nodes.dependencies ∨ ∀ id node, nodes.get id = some node →
    (node.leftInputId = some 0 ∨ node.rightInputId = some 0) → (nodes.get 0).isSome →
      Relation.TransGen (Names nodes.dependencies) id 0

section

variable {nodes : Nodes ι} {fuel : Nat}

omit [ToString ι] in
theorem FollowsZero.perm (same : order.entries.Perm nodes.entries)
    (follows : FollowsZero nodes) : FollowsZero order := by
  rw [FollowsZero, dependencies_of_perm same]
  refine follows.imp_right fun all id node isNode sides known => ?_
  rw [get_of_perm same] at isNode known
  exact all id node isNode sides known

omit [ToString ι] in
theorem isCycle_inputs (isCycle : IsCycle nodes.dependencies cycle) :
    IsCycle nodes.inputs cycle := by
  obtain ⟨start, path, same, simple, chain⟩ := isCycle
  exact ⟨start, path, same, simple, chain.imp fun _ _ => names_inputs⟩

/-- With a cycle of the inputs that are followed, it is thrown. -/
theorem orders_cyclic (enough : nodes.keys.length < fuel) (cyclic : Cyclic nodes.dependencies) :
    Orders nodes fuel := by
  rcases detectCycle_spec enough with ⟨cycle, found, isCycle⟩ | ⟨_, acyclic⟩
  · have thrown : getExecutionOrder nodes fuel = some (.error (describeCycle nodes cycle)) := by
      rw [getExecutionOrder, found]
      rfl
    refine ⟨⟨_, thrown⟩, ⟨fun _ => (isCycle_inputs isCycle).cyclic, fun _ => ⟨_, thrown⟩⟩,
      fun order listed => ?_, fun other foundOther => ?_⟩
    · rw [thrown] at listed
      cases listed
    · cases Option.some.inj (found.symm.trans foundOther)
      exact isCycle_inputs isCycle
  · exact absurd cyclic acyclic

/-- Without one, each node is listed after its inputs that are followed. -/
theorem getExecutionOrder_acyclic (enough : nodes.keys.length < fuel)
    (acyclic : ¬Cyclic nodes.dependencies) :
    detectCycle nodes fuel = some none ∧
      ∃ after, nodes.keys.foldlM (visit nodes fuel) ([], []) = some after ∧
        getExecutionOrder nodes fuel = some (.ok after.2) ∧ after.2.Perm nodes.keys ∧
          Sorted nodes.dependencies after.2 := by
  rcases detectCycle_spec enough with ⟨cycle, _, isCycle⟩ | ⟨found, _⟩
  · exact absurd isCycle.cyclic acyclic
  · obtain ⟨after, visited, all, sorted⟩ := visits_spec acyclic enough
    refine ⟨found, after, visited, ?_, all, sorted⟩
    rw [getExecutionOrder, found, Option.bind_some, visited]
    rfl

theorem FollowsZero.orders (follows : FollowsZero nodes) (enough : nodes.keys.length < fuel) :
    Orders nodes fuel := by
  by_cases cyclic : Cyclic nodes.dependencies
  · exact orders_cyclic enough cyclic
  obtain ⟨found, after, _, listed, all, sorted⟩ := getExecutionOrder_acyclic enough cyclic
  have complete : ∀ id, (nodes.dependencies id).isSome → id ∈ after.2 :=
    fun id known => all.mem_iff.mpr (known_mem_keys known)
  have sortedAll : Sorted nodes.inputs after.2 := by
    intro id mem input named known
    rw [inputs_isSome] at known
    rcases names_zero named with followed | ⟨rfl, node, isNode, sides⟩
    · exact sorted id mem input followed known
    · refine sorted.reaches complete (follows.resolve_left cyclic id node isNode sides ?_) known
      rwa [Nodes.dependencies, isSome_map] at known
  refine ⟨⟨_, listed⟩, ⟨?_, ?_⟩, fun order isOrder => ?_, fun cycle isCycle => ?_⟩
  · rintro ⟨message, thrown⟩
    rw [listed] at thrown
    cases thrown
  · rintro ⟨id, cycle⟩
    exact absurd cycle (sortedAll.acyclic
      (fun node known => complete node (inputs_isSome node ▸ known)) id)
  · cases Option.some.inj (listed.symm.trans isOrder)
    exact ⟨all, sortedAll⟩
  · rw [found] at isCycle
    cases isCycle

omit [ToString ι] in
theorem visits_first {other : ι} {rest : List ι} {after : List ι × List ι}
    (visited : (id :: rest).foldlM (visit nodes fuel) ([], []) = some after)
    (acyclic : ¬Cyclic nodes.dependencies) (known : (nodes.dependencies id).isSome)
    (apart : ¬Relation.ReflTransGen (Names nodes.dependencies) id other) :
    after.2.idxOf id < after.2.idxOf other := by
  rw [foldlM_cons] at visited
  obtain ⟨first, walked, later⟩ := Option.bind_eq_some_iff.mp visited
  obtain ⟨new, extended, reached⟩ := walk_extends walked
  rw [nil_append] at extended
  have nothing : Walked nodes.dependencies [] [] [] := ⟨nofun, .nil, nofun, nofun, nofun⟩
  have listed : id ∈ first.2 := (walk_walked (fun _ node cycle => acyclic ⟨node, cycle⟩)
    (fun _ isAbove => (not_mem_nil isAbove).elim) nothing walked).2.2.2.2 known
  obtain ⟨more, longer⟩ := Library.PartialLists.foldlM_preserves _
    (fun state => ∃ more, state.2 = new ++ more) rest first after
    (fun state input next _ ⟨more, longer⟩ stepped => by
      obtain ⟨others, further, _⟩ := walk_extends stepped
      exact ⟨more ++ others, by rw [further, longer, append_assoc]⟩)
    ⟨[], by rw [extended, append_nil]⟩ later
  rw [extended] at listed
  rw [longer, idxOf_append_of_mem listed,
    idxOf_append_of_notMem fun mem => apart (reached other mem)]
  exact Nat.lt_add_right _ (idxOf_lt_length_iff.mpr listed)

omit [Zero ι] [ToString ι] in
theorem exists_first {node : FlowNode ι} (isNode : nodes.get id = some node) :
    ∃ (order : Nodes ι) (rest : List ι), order.entries.Perm nodes.entries ∧
      order.keys = id :: rest := by
  obtain ⟨before, behind, split⟩ := append_of_mem (Dictionary.mem_entries_iff.mpr isNode)
  have same : ((id, node) :: (before ++ behind)).Perm nodes.entries := by
    rw [split]
    exact perm_middle.symm
  exact ⟨⟨(id, node) :: (before ++ behind), (same.map Prod.fst).nodup_iff.mpr nodes.distinct⟩,
    (before ++ behind).map Prod.fst, same, rfl⟩

end

/-- The order of execution is right however the nodes were entered if and only if each node with
zero for its left or right input is after it for other inputs, or a cycle is thrown. -/
theorem getExecutionOrder_iff (nodes : Nodes ι) :
    (∀ order : Nodes ι, order.entries.Perm nodes.entries →
      ∀ fuel, order.keys.length < fuel → Orders order fuel) ↔ FollowsZero nodes := by
  refine ⟨fun orders => ?_, fun follows order same fuel enough => (follows.perm same).orders enough⟩
  by_contra fails
  obtain ⟨acyclic, notAll⟩ := not_or.mp fails
  push Not at notAll
  obtain ⟨id, node, isNode, sides, known, apart⟩ := notAll
  obtain ⟨order, rest, same, first⟩ := exists_first isNode
  rw [← dependencies_of_perm same] at acyclic apart
  have isNodeThere := (get_of_perm same id).trans isNode
  have enough := Nat.lt_succ_self order.keys.length
  obtain ⟨_, after, visited, listed, all, _⟩ := getExecutionOrder_acyclic enough acyclic
  have named : Names order.inputs id 0 := by
    refine ⟨node.inputs, by rw [Nodes.inputs, isNodeThere]; rfl, ?_⟩
    simp only [FlowNode.inputs, mem_append, mem_toList]
    exact .inr sides
  have knownThere : (order.inputs 0).isSome := by
    rwa [Nodes.inputs, isSome_map, get_of_perm same]
  have isListed : id ∈ after.2 := all.mem_iff.mpr (by rw [first]; exact mem_cons_self)
  have earlier := ((orders order same _ enough).ordered after.2 listed).2 id isListed 0 named
    knownThere
  rw [first] at visited
  refine Nat.lt_asymm earlier (visits_first visited acyclic ?_ fun reaches => ?_)
  · rw [Nodes.dependencies, isNodeThere]
    rfl
  · rcases Relation.reflTransGen_iff_eq_or_transGen.mp reaches with same | reaches
    · rw [same] at earlier
      exact Nat.lt_irrefl _ earlier
    · exact apart reaches

/-- Two nodes that wait for each other, the one with zero for its left input. -/
def looped : Nodes ℕ where
  entries := [(0, ⟨"filter", [1], none, none⟩), (1, ⟨"join", [], some 0, none⟩)]
  distinct := by decide

/-- The cycle is not thrown, and the join is listed before its left input. -/
theorem looped_listed : getExecutionOrder looped 3 = some (.ok [1, 0]) ∧ ¬Orders looped 3 := by
  have listed : getExecutionOrder looped 3 = some (.ok [1, 0]) := rfl
  refine ⟨listed, fun orders => ?_⟩
  have toFirst : Names looped.inputs 1 0 := ⟨[0], rfl, mem_cons_self⟩
  have toSecond : Names looped.inputs 0 1 := ⟨[1], rfl, mem_cons_self⟩
  obtain ⟨message, thrown⟩ := orders.throws.mpr ⟨0, .tail (.single toSecond) toFirst⟩
  rw [listed] at thrown
  cases thrown

end Flowfile.BrowserOrder

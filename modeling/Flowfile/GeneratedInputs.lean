import Flowfile.Graph
import Flowfile.Library.ColumnFrames
import Flowfile.Library.WrittenNumbers
import Mathlib.Data.List.Sort
import Mathlib.Data.String.Basic

/-!
# How generated code passes the inputs of a node

The generator names the frame each node computes and collects, for a node with inputs, a
dictionary from labels to the names of the frames it reads. A single main input has the label
`main`, several have `main_0`, `main_1` and so on. The handler of a union reads the dictionary
in the order it was filled. The handler of custom code sorts the labels as strings first, and
from eleven inputs on this is another order, since `main_10` comes before `main_2`.

A node is executed on its main inputs in the order of its connections.
-/

namespace Flowfile.CodeGen

open Flowfile.Graph Library.ColumnFrames Library.WrittenNumbers List

variable {P : Type}

/-- The names of frames generated so far: of a node's frame, and of the frame behind one of
several outputs. -/
structure VarMappings where
  nodeVarMapping : Int → Option String
  nodeHandleVarMapping : Int × String → Option String

def resolveUpstreamVar (mappings : VarMappings) (downstream : FlowNode P) (upstreamId : Int)
    (otherwise : String) : String :=
  let handle := (downstream.inputOutputHandles upstreamId).getD "output-0"
  match mappings.nodeHandleVarMapping (upstreamId, handle) with
  | some perHandle => perHandle
  | none => (mappings.nodeVarMapping upstreamId).getD otherwise

def mainInputVars (mappings : VarMappings) (node : FlowNode P) : List (String × String) :=
  match node.mainInputs.getD [] with
  | [input] => [("main", resolveUpstreamVar mappings node input.nodeId "df")]
  | inputs => inputs.zipIdx.map fun (input, i) =>
    ("main_" ++ toString i, resolveUpstreamVar mappings node input.nodeId ("df_" ++ toString i))

/-- Labels and frames of all inputs, in the order they are entered. -/
def getInputVars (mappings : VarMappings) (node : FlowNode P) : List (String × String) :=
  mainInputVars mappings node ++ node.leftInput.toList.map (fun input =>
      ("left", resolveUpstreamVar mappings node input.nodeId "df_left")) ++
    node.rightInput.toList.map fun input =>
      ("right", resolveUpstreamVar mappings node input.nodeId "df_right")

/-- Labels of main inputs. -/
def startsWithMain (key : String) : Bool :=
  "main".toList.isPrefixOf key.toList

/-- The frames a generated union concatenates, with their labels. -/
def handleUnion (inputVars : List (String × String)) : List (String × String) :=
  match dictGet inputVars "main" with
  | some df => [("main", df)]
  | none => inputVars.filter fun entry => startsWithMain entry.1

/-- The frames generated custom code is called with, with their labels. -/
def handlePolarsCode (inputVars : List (String × String)) : List (String × String) :=
  match inputVars with
  | [] => []
  | [entry] => [entry]
  | _ => (((inputVars.map Prod.fst).insertionSort (· ≤ ·)).filter startsWithMain).map fun key =>
    (key, (dictGet inputVars key).getD "")

def passedInputs (mappings : VarMappings) (node : FlowNode P) : Option (List (String × String)) :=
  if node.setting.payload.isNone || node.setting.isUserDefined then none
  else match node.nodeType with
    | "union" => some (handleUnion (getInputVars mappings node))
    | "polars_code" => some (handlePolarsCode (getInputVars mappings node))
    | _ => none

def passedMainInputs (passed : List (String × String)) : List (String × String) :=
  passed.filter fun entry => startsWithMain entry.1

def mainLabel (count i : Nat) : String :=
  if count = 1 then "main" else "main_" ++ toString i

/-- The inputs a node is executed on that are main inputs, in the order they are handed over:
each under its label and with the frame generated code has for it. -/
def executedMainInputs (mappings : VarMappings) (node : FlowNode P) : List (String × String) :=
  let count := (node.mainInputs.getD []).length
  (node.allInputs.take count).zipIdx.map fun (input, i) =>
    (mainLabel count i, resolveUpstreamVar mappings node input.nodeId
      (if count = 1 then "df" else "df_" ++ toString i))

theorem filter_insertionSort_iff {α : Type} [LinearOrder α] (keys : List α) (chosen : α → Bool) :
    (keys.insertionSort (· ≤ ·)).filter chosen = keys.filter chosen ↔
      (keys.filter chosen).Pairwise (· ≤ ·) := by
  have sorted : ((keys.insertionSort (· ≤ ·)).filter chosen).Pairwise (· ≤ ·) :=
    (pairwise_insertionSort (· ≤ ·) keys).filter chosen
  constructor
  · intro same
    rwa [same] at sorted
  · intro ordered
    exact ((perm_insertionSort (· ≤ ·) keys).filter chosen).eq_of_pairwise' sorted ordered

/-- Decimal labels of the first numbers are in order as long as they have one digit. -/
theorem mainLabels_ordered_iff (count : Nat) :
    ((List.range count).map fun i => "main_" ++ toString i).Pairwise (· ≤ ·) ↔ count ≤ 10 := by
  constructor
  · intro ordered
    by_contra many
    have both : [2, 10].Sublist (List.range count) := by
      have first : [2, 10].Sublist (List.range 11) := by decide
      exact first.trans (range_sublist.mpr (by omega))
    have listed := ordered.sublist (both.map fun i => "main_" ++ toString i)
    simp only [map_cons, map_nil, pairwise_cons] at listed
    have compared := listed.1 _ (mem_singleton_self _)
    revert compared
    decide +kernel
  · intro few
    have ten : ((List.range 10).map fun i => "main_" ++ toString i).Pairwise (· ≤ ·) := by
      decide +kernel
    exact ten.sublist ((range_sublist.mpr few).map _)

variable (mappings : VarMappings) (node : FlowNode P)

theorem take_allInputs :
    node.allInputs.take (node.mainInputs.getD []).length = node.mainInputs.getD [] := by
  rw [FlowNode.allInputs, append_assoc, take_left]

theorem mainInputVars_eq : mainInputVars mappings node = executedMainInputs mappings node := by
  rw [executedMainInputs, mainInputVars]
  dsimp only
  rw [take_allInputs]
  generalize node.mainInputs.getD [] = inputs
  split
  case h_1 input => rfl
  case h_2 several =>
    have others : inputs.length ≠ 1 := by
      intro single
      obtain ⟨input, same⟩ := length_eq_one_iff.mp single
      exact several input same
    simp only [mainLabel, if_neg others]

theorem mainInputVars_labels : (mainInputVars mappings node).map Prod.fst =
      (List.range (node.mainInputs.getD []).length).map
        (mainLabel (node.mainInputs.getD []).length) := by
  rw [mainInputVars_eq, executedMainInputs]
  dsimp only
  rw [take_allInputs, range_eq_range', ← zipIdx_map_snd, map_map, map_map]
  rfl

theorem startsWithMain_mainLabel (count i : Nat) : startsWithMain (mainLabel count i) = true := by
  rw [mainLabel]
  split
  · decide
  · rw [startsWithMain, isPrefixOf_iff_prefix, String.toList_append]
    have stem : "main".toList <+: "main_".toList := by decide
    exact stem.trans (prefix_append _ _)

theorem filter_getInputVars :
    (getInputVars mappings node).filter (fun entry => startsWithMain entry.1) =
      mainInputVars mappings node := by
  have recognised : ∀ entry ∈ mainInputVars mappings node, startsWithMain entry.1 = true := by
    intro entry mem
    have label := mem_map_of_mem mem (f := Prod.fst)
    rw [mainInputVars_labels] at label
    obtain ⟨i, _, same⟩ := mem_map.mp label
    rw [← same]
    exact startsWithMain_mainLabel _ i
  have left : startsWithMain "left" = false := by decide
  have right : startsWithMain "right" = false := by decide
  rw [getInputVars, filter_append, filter_append, filter_eq_self.mpr recognised]
  cases node.leftInput <;> cases node.rightInput <;> simp [left, right]

theorem mainInputVars_nodup : ((mainInputVars mappings node).map Prod.fst).Nodup := by
  rw [mainInputVars_labels]
  generalize (node.mainInputs.getD []).length = count
  apply nodup_range.map_on
  intro i below j alsoBelow same
  rw [mem_range] at below alsoBelow
  by_cases single : count = 1
  · omega
  · rw [mainLabel, mainLabel, if_neg single, if_neg single] at same
    exact toString_injective ((String.append_right_inj _).mp same)

theorem dictGet_mainInput {entry : String × String} (mem : entry ∈ mainInputVars mappings node) :
    dictGet (getInputVars mappings node) entry.1 = some entry.2 := by
  rw [← filter_getInputVars] at mem
  obtain ⟨inVars, label⟩ := mem_filter.mp mem
  apply dictGet_of_mem _ inVars
  intro other otherInVars
  have otherMember : (entry.1, other) ∈ mainInputVars mappings node := by
    rw [← filter_getInputVars]
    exact mem_filter.mpr ⟨otherInVars, label⟩
  rw [filter_getInputVars] at mem
  have same := inj_on_of_nodup_map (mainInputVars_nodup mappings node) otherMember mem rfl
  exact congrArg Prod.snd same

theorem mainLabel_eq_main {count i : Nat} (same : mainLabel count i = "main") : count = 1 := by
  by_contra several
  rw [mainLabel, if_neg several] at same
  have lengths := congrArg String.length same
  rw [String.length_append] at lengths
  have stem : "main_".length = 5 := by decide
  have whole : "main".length = 4 := by decide
  omega

theorem handleUnion_inputs :
    handleUnion (getInputVars mappings node) = executedMainInputs mappings node := by
  rw [← mainInputVars_eq, handleUnion]
  split
  case h_2 => exact filter_getInputVars mappings node
  case h_1 df found =>
    have mem : ("main", df) ∈ mainInputVars mappings node := by
      rw [← filter_getInputVars]
      exact mem_filter.mpr ⟨mem_of_dictGet found, startsWithMain_mainLabel 1 0⟩
    have labels := mainInputVars_labels mappings node
    have label := mem_map_of_mem (f := Prod.fst) mem
    rw [labels] at label
    obtain ⟨i, _, same⟩ := mem_map.mp label
    have lengths := congrArg List.length labels
    rw [length_map, length_map, length_range, mainLabel_eq_main same] at lengths
    obtain ⟨entry, single⟩ := length_eq_one_iff.mp lengths
    rw [single] at mem ⊢
    rw [mem_singleton.mp mem]

theorem labels_ordered_iff : ((mainInputVars mappings node).map Prod.fst).Pairwise (· ≤ ·) ↔
      (node.mainInputs.getD []).length ≤ 10 := by
  rw [mainInputVars_labels]
  by_cases single : (node.mainInputs.getD []).length = 1
  · simp [single]
  have numbered : mainLabel (node.mainInputs.getD []).length = fun i => "main_" ++ toString i := by
    funext i
    rw [mainLabel, if_neg single]
  rw [numbered]
  exact mainLabels_ordered_iff _

theorem handlePolarsCode_sorted (several : 1 < (getInputVars mappings node).length) :
    handlePolarsCode (getInputVars mappings node) =
      ((((getInputVars mappings node).map Prod.fst).insertionSort (· ≤ ·)).filter
        startsWithMain).map fun key =>
          (key, (dictGet (getInputVars mappings node) key).getD "") := by
  generalize getInputVars mappings node = inputVars at several
  match inputVars with
  | [] => simp at several
  | [_] => simp at several
  | _ :: _ :: _ => rfl

/-- One input at most is passed as it is. -/
theorem handlePolarsCode_single {inputVars : List (String × String)}
    (single : inputVars.length ≤ 1) : handlePolarsCode inputVars = inputVars := by
  match inputVars with
  | [] => rfl
  | [_] => rfl
  | _ :: _ :: _ => simp at single

theorem handlePolarsCode_inputs_iff :
    passedMainInputs (handlePolarsCode (getInputVars mappings node)) =
        executedMainInputs mappings node ↔
      (node.mainInputs.getD []).length ≤ 10 := by
  rw [← mainInputVars_eq]
  have filtered := filter_getInputVars mappings node
  have keys : ((getInputVars mappings node).map Prod.fst).filter startsWithMain =
      (mainInputVars mappings node).map Prod.fst := by
    rw [filter_map, ← filtered]
    rfl
  by_cases several : 1 < (getInputVars mappings node).length
  · have allMain : passedMainInputs (handlePolarsCode (getInputVars mappings node)) =
        handlePolarsCode (getInputVars mappings node) := by
      rw [handlePolarsCode_sorted mappings node several]
      apply filter_eq_self.mpr
      intro entry mem
      obtain ⟨key, listed, rfl⟩ := mem_map.mp mem
      exact (mem_filter.mp listed).2
    rw [allMain, handlePolarsCode_sorted mappings node several, ← labels_ordered_iff mappings node,
      ← keys, ← filter_insertionSort_iff, keys]
    constructor
    · intro same
      have labels := congrArg (List.map Prod.fst) same
      rwa [map_map, map_id''] at labels
      exact fun _ => rfl
    · intro same
      rw [same, map_map]
      apply (map_congr_left fun entry mem => ?_).trans (map_id _)
      rw [Function.comp_apply, dictGet_mainInput mappings node mem]
      rfl
  · have fewVars : (mainInputVars mappings node).length ≤ (getInputVars mappings node).length := by
      rw [← filtered]
      exact length_filter_le _ _
    have counted := congrArg List.length (mainInputVars_labels mappings node)
    rw [length_map, length_map, length_range] at counted
    rw [handlePolarsCode_single (Nat.le_of_not_lt several), passedMainInputs, filtered]
    simp only [true_iff]
    omega

/-- The code generated for a union or for custom code passes the main inputs in the order of
execution exactly when the node is a union or has at most ten main inputs. -/
theorem main_inputs_in_order_iff {passed : List (String × String)}
    (generated : passedInputs mappings node = some passed) :
    passedMainInputs passed = executedMainInputs mappings node ↔
      node.nodeType = "union" ∨ (node.mainInputs.getD []).length ≤ 10 := by
  rw [passedInputs] at generated
  split at generated
  · simp at generated
  · split at generated
    case h_1 isUnion =>
      rw [← Option.some.inj generated, handleUnion_inputs, ← mainInputVars_eq]
      simp only [isUnion, true_or, iff_true]
      rw [← filter_getInputVars, passedMainInputs, filter_filter]
      simp
    case h_2 isCode =>
      have notUnion : "polars_code" ≠ "union" := by decide
      rw [← Option.some.inj generated, handlePolarsCode_inputs_iff, isCode]
      simp only [notUnion, false_or]
    case h_3 => simp at generated

/-- Frames named after the ids of their nodes. -/
def idMappings : VarMappings where
  nodeVarMapping nodeId := some ("df_" ++ toString nodeId)
  nodeHandleVarMapping _ := none

/-- Custom code on the frames of the nodes from `1` on. -/
def codeNode (count : Nat) : FlowNode Unit where
  nodeType := "polars_code"
  nodeTemplate := { input := 10, multi := true, canBeStart := true }
  setting :=
    { payload := some (), isSetup := true, posX := 0, posY := 0, groupId := none,
      description := "", nodeReference := none, dependingOnId := none, cacheResults := false,
      isUserDefined := false }
  mainInputs := some ((List.range count).map fun i : Nat => ⟨(i : Int) + 1, i⟩)
  leftInput := none
  rightInput := none
  leadsToNodes := []
  inputOutputHandles _ := some "output-0"

theorem threeInputs_passed : passedInputs idMappings (codeNode 3) =
        some [("main_0", "df_1"), ("main_1", "df_2"), ("main_2", "df_3")] ∧
      passedMainInputs [("main_0", "df_1"), ("main_1", "df_2"), ("main_2", "df_3")] =
        executedMainInputs idMappings (codeNode 3) := by
  have passed : passedInputs idMappings (codeNode 3) =
      some [("main_0", "df_1"), ("main_1", "df_2"), ("main_2", "df_3")] := by decide +kernel
  exact ⟨passed, (main_inputs_in_order_iff idMappings (codeNode 3) passed).mpr (.inr (by decide))⟩

theorem eleventhInput_thirdPassed : ∃ passed, passedInputs idMappings (codeNode 11) = some passed ∧
      passed.map Prod.snd = ["df_1", "df_2", "df_11", "df_3", "df_4", "df_5", "df_6", "df_7",
        "df_8", "df_9", "df_10"] ∧
      (executedMainInputs idMappings (codeNode 11)).map Prod.snd = ["df_1", "df_2", "df_3",
        "df_4", "df_5", "df_6", "df_7", "df_8", "df_9", "df_10", "df_11"] ∧
      passedMainInputs passed ≠ executedMainInputs idMappings (codeNode 11) := by
  refine ⟨handlePolarsCode (getInputVars idMappings (codeNode 11)), rfl, ?_⟩
  decide +kernel

end Flowfile.CodeGen

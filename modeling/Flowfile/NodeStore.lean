import Flowfile.GraphEdits

/-!
# The node types that come with the program

Every node type is registered with a template and configured by an adder. Readers that
work without the worker are configured in place and keep the object, all others go
through a step. A type that is not listed has no template and no adder.

Whether the adders of union, code and query nodes may create a node depends on the
input ids in their settings. They are taken as given here.
-/

namespace Flowfile.Graph

variable {P : Type}

def nodeTemplates : List (String × NodeTemplate) :=
  let single (item : String) : String × NodeTemplate := (item, ⟨1, false, false⟩)
  let source (item : String) : String × NodeTemplate := (item, ⟨0, false, false⟩)
  let pair (item : String) : String × NodeTemplate := (item, ⟨2, false, false⟩)
  let code (item : String) : String × NodeTemplate := (item, ⟨10, true, true⟩)
  [source "external_source", source "manual_input", source "read", pair "join",
    single "formula", single "output", single "api_response", single "select",
    single "dynamic_rename", single "filter", single "group_by", single "window_functions",
    pair "fuzzy_match", single "sort", single "record_id", single "sample",
    single "random_split", single "explore_data", single "pivot", single "unpivot",
    ("union", ⟨10, true, false⟩), single "unique", single "graph_solver",
    single "record_count", pair "cross_join", single "text_to_rows", code "polars_code",
    code "sql_query", code "python_script", source "database_reader", single "database_writer",
    source "cloud_storage_reader", source "catalog_reader", single "catalog_writer",
    single "cloud_storage_writer", source "kafka_source", source "google_analytics_reader",
    source "rest_api_reader", single "train_model", single "apply_model",
    single "evaluate_model", pair "wait_for", source "spatial_read", pair "spatial_join",
    single "buffer_geometry", source "polars_lazy_frame"]

/-- Types configured in place, with the flag for starting nodes. -/
def inPlaceTypes : List (String × Bool) :=
  [("manual_input", true), ("read", true), ("database_reader", true), ("kafka_source", true),
    ("google_analytics_reader", true), ("rest_api_reader", true), ("spatial_read", true),
    ("spatial_join", false), ("buffer_geometry", false)]

variable (nodeType : String)

def nodeAdder : Option (Adder P) :=
  match inPlaceTypes.lookup nodeType with
  | some starting => some (.inPlace starting)
  | none =>
    if nodeType = "external_source" then some .inPlaceThenStep
    else if nodeType = "polars_lazy_frame" then none
    else (nodeTemplates.lookup nodeType).map fun _ =>
      .step (fun _ => nodeType ≠ "database_writer")
        (nodeType = "cloud_storage_reader" || nodeType = "catalog_reader")

/-- The program without custom nodes. Sets are read in the order they were filled. -/
def standardEnvironment : Environment P where
  template nodeType := nodeTemplates.lookup nodeType
  adder := nodeAdder
  setOrder members := members.dedup
  setOrder_perm _ := List.Perm.refl _
  pairOrder members := members.dedup
  pairOrder_perm _ := List.Perm.refl _

theorem template_of_adder (configurable : (nodeAdder (P := P) nodeType).isSome) :
    (standardEnvironment (P := P).template nodeType).isSome := by
  have registered : ∀ entry ∈ inPlaceTypes, (nodeTemplates.lookup entry.1).isSome := by decide
  rw [nodeAdder] at configurable
  split at configurable
  case h_1 starting listed =>
    obtain ⟨before, after, split, _⟩ := List.lookup_eq_some_iff.mp listed
    exact registered (nodeType, starting) (by simp [split])
  case h_2 =>
    split at configurable
    case isTrue external =>
      subst external
      have external : (nodeTemplates.lookup "external_source").isSome := by decide
      exact external
    case isFalse =>
      split at configurable
      case isTrue => simp at configurable
      case isFalse =>
        rw [Option.isSome_map] at configurable
        exact configurable

def promiseSetting : NodeSetting P :=
  ⟨none, false, 0, 0, none, "", none, none, false, false⟩

end Flowfile.Graph

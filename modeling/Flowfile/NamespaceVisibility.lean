import Flowfile.AccessListing

/-!
# Which namespaces a user sees

The namespaces shown to a user are meant to be those that the user owns, the public ones, and those
granted to the user's groups with what lies directly in them. What a grant of a namespace hands down
does reach the inner namespaces: the user may write to them, and use the items in them. But the
namespaces shown are looked up without handing grants down, so an inner namespace is shown only if
it is owned, public or granted itself.
-/

namespace Flowfile.Sharing

open Library.RaisedEntries
open AccessResolver (visibleNamespaceIds accessibleIds writableNamespaceIds)

variable (resolver : AccessResolver)

def AccessResolver.grantedNamespaceIds : Finset Nat :=
  directGrantedIds resolver.sharingEnabled resolver.db resolver.user.id .catalogNamespace .use none

/-- The namespaces that lie directly in those. -/
def AccessResolver.innerNamespaceIds : Finset Nat :=
  ((resolver.db.namespaces.filter fun row =>
    row.parentId.any (· ∈ resolver.grantedNamespaceIds)).map NamespaceRow.id).toFinset

def AccessResolver.ownedNamespaceIds : Finset Nat :=
  ((resolver.db.namespaces.filter fun row => row.ownerId = resolver.user.id).map
    NamespaceRow.id).toFinset

/-- Visibility is closed: what may be written to is visible, items reached with a namespace lie in a
visible one, and what is visible is owned, public, granted or inside something granted. -/
structure VisibilityClosed (resolver : AccessResolver) : Prop where
  writable : resolver.writableNamespaceIds ⊆ resolver.visibleNamespaceIds
  items : ∀ resourceType ∈ namespaceScopedTypes, ∀ row ∈ resolver.db.rows resourceType,
    ∀ namespaceId, row.namespaceId = some namespaceId →
      namespaceId ∈ expandNamespaceGrants resolver.sharingEnabled resolver.db resolver.user.id .use
        (some resolver.groupIds) (some resolver.namespacePermissions) →
      namespaceId ∈ resolver.visibleNamespaceIds
  visible : resolver.visibleNamespaceIds = resolver.ownedNamespaceIds ∪
    resolver.publicNamespaceIds ∪ resolver.grantedNamespaceIds ∪ resolver.innerNamespaceIds

variable {resolver}

theorem ownedIds_catalogNamespace (resolver : AccessResolver) :
    resolver.db.ownedIds resolver.user.id .catalogNamespace = resolver.ownedNamespaceIds := by
  ext id
  simp [Database.ownedIds, Database.rows, AccessResolver.ownedNamespaceIds, List.filter_map,
    Function.comp_def]

theorem grantedResourceIds_catalogNamespace (resolver : AccessResolver) :
    grantedResourceIds resolver.sharingEnabled resolver.db resolver.user.id .catalogNamespace .use
      none none = resolver.grantedNamespaceIds := by
  rw [AccessResolver.grantedNamespaceIds]
  cases resolver.sharingEnabled with
  | true => rfl
  | false =>
    ext id
    rw [mem_directGrantedIds]
    exact iff_of_false (Finset.notMem_empty id) (not_granted_off _ id _)

theorem visibleNamespaceIds_eq (resolver : AccessResolver) :
    resolver.visibleNamespaceIds = resolver.ownedNamespaceIds ∪ resolver.publicNamespaceIds ∪
      resolver.grantedNamespaceIds := by
  rw [visibleNamespaceIds, accessibleIds,
    grantedResourceIds_remembered, ownedIds_catalogNamespace, grantedResourceIds_catalogNamespace,
    Finset.union_right_comm]

theorem mem_innerNamespaceIds {id : Nat} :
    id ∈ resolver.innerNamespaceIds ↔ ∃ child ∈ resolver.db.namespaces, child.id = id ∧
      ∃ parentId, child.parentId = some parentId ∧ Granted resolver.sharingEnabled resolver.db
        resolver.user.id .catalogNamespace parentId .use := by
  rw [AccessResolver.innerNamespaceIds, List.mem_toFinset, List.mem_map]
  simp only [List.mem_filter, Option.any_eq_true, decide_eq_true_eq]
  simp only [AccessResolver.grantedNamespaceIds, mem_directGrantedIds]
  constructor
  · rintro ⟨child, ⟨mem, inside⟩, sameId⟩
    exact ⟨child, mem, sameId, inside⟩
  · rintro ⟨child, mem, sameId, inside⟩
    exact ⟨child, ⟨mem, inside⟩, sameId⟩

theorem expandNamespaceGrants_use (resolver : AccessResolver) :
    expandNamespaceGrants resolver.sharingEnabled resolver.db resolver.user.id .use
        (some resolver.groupIds) (some resolver.namespacePermissions) =
      resolver.grantedNamespaceIds ∪ resolver.innerNamespaceIds := by
  ext id
  rw [Finset.mem_union, mem_innerNamespaceIds, AccessResolver.grantedNamespaceIds,
    mem_directGrantedIds]
  -- What the resolver remembers is what would be computed.
  change id ∈ expandNamespaceGrants resolver.sharingEnabled resolver.db resolver.user.id .use none
    none ↔ _
  cases resolver.sharingEnabled with
  | true =>
    rw [mem_expandNamespaceGrants]
    exact mem_grantedNamespacePermissions
  | false =>
  refine iff_of_false (Finset.notMem_empty id) ?_
  rintro (granted | ⟨_, _, _, _, _, granted⟩)
  · exact not_granted_off _ _ _ granted
  · exact not_granted_off _ _ _ granted

theorem expandNamespaceGrants_manage_subset (resolver : AccessResolver) :
    expandNamespaceGrants resolver.sharingEnabled resolver.db resolver.user.id .manage
        (some resolver.groupIds) (some resolver.namespacePermissions) ⊆
      expandNamespaceGrants resolver.sharingEnabled resolver.db resolver.user.id .use
        (some resolver.groupIds) (some resolver.namespacePermissions) := by
  intro id managed
  rw [expandNamespaceGrants] at managed ⊢
  cases sharing : resolver.sharingEnabled with
  | false =>
    rw [sharing] at managed
    exact absurd managed (Finset.notMem_empty id)
  | true =>
    rw [sharing] at managed
    have listed := (List.mem_filter.mp (List.mem_toFinset.mp managed)).1
    exact List.mem_toFinset.mpr listed

theorem visibilityClosed_iff (resolver : AccessResolver) :
    VisibilityClosed resolver ↔ resolver.innerNamespaceIds ⊆ resolver.ownedNamespaceIds ∪
      resolver.publicNamespaceIds ∪ resolver.grantedNamespaceIds := by
  constructor
  · intro closed
    rw [← visibleNamespaceIds_eq, closed.visible]
    exact Finset.subset_union_right
  · intro inside
    rw [← visibleNamespaceIds_eq] at inside
    have reached : resolver.grantedNamespaceIds ∪ resolver.innerNamespaceIds ⊆
        resolver.visibleNamespaceIds := by
      refine Finset.union_subset ?_ inside
      rw [visibleNamespaceIds_eq]
      exact Finset.subset_union_right
    refine ⟨?_, ?_, ?_⟩
    · rw [writableNamespaceIds]
      refine Finset.union_subset (Finset.union_subset ?_ ?_) ?_
      · rw [visibleNamespaceIds_eq, Finset.union_assoc]
        exact Finset.subset_union_left
      · refine (expandNamespaceGrants_manage_subset resolver).trans ?_
        rwa [expandNamespaceGrants_use]
      · rw [visibleNamespaceIds]
        exact Finset.subset_union_right
    · intro _ _ _ _ namespaceId _ granted
      rw [expandNamespaceGrants_use] at granted
      exact reached granted
    · rw [← visibleNamespaceIds_eq]
      exact (Finset.union_eq_left.mpr inside).symm

variable (resourceType : ResourceType)

/-- A schema inside a catalog, both of user 1, and a table in the schema. -/
def nestedItems : List ResourceRow :=
  if resourceType = .catalogTable then [⟨1, some 1, some 2⟩] else []

theorem nestedItems_distinct : ((nestedItems resourceType).map ResourceRow.id).Nodup := by
  cases resourceType <;> decide

def sharedCatalog : Database where
  users := [⟨1, "alice", false⟩, ⟨2, "bob", false⟩]
  memberships := [⟨1, 2⟩]
  grants := [⟨.catalogNamespace, 1, 1, .manage, some 1⟩]
  namespaces := [⟨1, 1, none, false⟩, ⟨2, 1, some 1, false⟩]
  distinctNamespaces := by decide
  items := nestedItems
  distinctItems := nestedItems_distinct

/-- The member of the group may write to the schema and use the table there, and does not see the
schema. -/
theorem sharedCatalog_hidden :
    2 ∈ writableNamespaceIds ⟨true, sharedCatalog, ⟨2, "bob", false⟩⟩ ∧
      1 ∈ accessibleIds ⟨true, sharedCatalog, ⟨2, "bob", false⟩⟩ .catalogTable ∧
      2 ∉ visibleNamespaceIds ⟨true, sharedCatalog, ⟨2, "bob", false⟩⟩ ∧
      ¬ VisibilityClosed ⟨true, sharedCatalog, ⟨2, "bob", false⟩⟩ := by
  rw [visibilityClosed_iff]
  decide

end Flowfile.Sharing

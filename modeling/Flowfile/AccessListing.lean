import Flowfile.Sharing

/-!
# Listing and checking access

What a user may use is checked for single resources and listed for whole types. Both go back to the
grants of the user's groups; a namespace hands its grants down to what lies in it. Here the sets and
dictionaries of the source are described by the grants they come from, and from this the listing and
the checks are compared.

They agree for users who are neither admins nor the principal of internal calls, on resources that
exist. The namespaces shown to a user lack those that a grant reaches through their parent.
-/

namespace Flowfile.Sharing

open Library.RaisedEntries List
open AccessResolver (nsPermsFor accessDetails accessibleIds)

def IsManage (permission : Permission) : Prop :=
  permission = .manage

/-- A detail with the highest permission. -/
def Detail.IsManage (detail : Detail) : Prop :=
  detail.1 = .manage

variable {perms : Dict Nat Permission} {child : NamespaceRow} {parentId : Nat}
  {permission : Permission}

section

variable {sharingEnabled : Bool} {db : Database} {userId : Nat}

theorem grantNamespace_raises (perms : Dict Nat Permission) (grant : ResourceGrant) :
    Raises IsManage grant.resourceId (grant.permission = .manage) perms
      (grantNamespace perms grant) := by
  rw [grantNamespace]
  split
  case isTrue enters =>
    refine raises_insert perms _ _ fun topped => ?_
    exact enters.elim id fun absent => absurd topped.mem absent
  case isFalse stays =>
    rw [not_or, not_not] at stays
    exact raises_self stays.2 fun manages => absurd manages stays.1

theorem mem_grantNamespaces (grants : List ResourceGrant) (id : Nat) :
    id ∈ grants.foldl grantNamespace ∅ ↔ ∃ grant ∈ grants, grant.resourceId = id := by
  rw [mem_foldl fun perms grant _ => grantNamespace_raises perms grant]
  exact or_iff_right (AList.notMem_empty id)

theorem extendToChild_eq (isParent : child.parentId = some parentId)
    (found : perms.lookup parentId = some permission) :
    extendToChild perms child =
      if child.id ∉ perms ∨ permission = .manage then perms.insert child.id permission
      else perms := by
  rw [extendToChild, isParent, Option.bind_some, found]

theorem extendToChild_raises
    (isParent : child.parentId = some parentId) (present : parentId ∈ perms) :
    Raises IsManage child.id (Topped IsManage perms parentId) perms
      (extendToChild perms child) := by
  obtain ⟨permission, found⟩ := Option.isSome_iff_exists.mp (AList.lookup_isSome.mpr present)
  have brings : Topped IsManage perms parentId ↔ permission = .manage := by
    rw [Topped, found]
    simp [IsManage]
  rw [extendToChild_eq isParent found, brings]
  split
  case isTrue enters =>
    refine raises_insert perms _ _ fun topped => ?_
    exact enters.elim (fun absent => absurd topped.mem absent) id
  case isFalse stays =>
    rw [not_or, not_not] at stays
    exact raises_self stays.1 fun manages => absurd manages stays.2

theorem mem_childrenOf : child ∈ db.childrenOf perms ↔
      child ∈ db.namespaces ∧ ∃ parentId, child.parentId = some parentId ∧ parentId ∈ perms := by
  rw [Database.childrenOf, mem_filter]
  simp [Option.any_eq_true]

theorem mem_extendToChildren (perms : Dict Nat Permission) (id : Nat) :
    id ∈ (db.childrenOf perms).foldl extendToChild perms ↔
      id ∈ perms ∨ ∃ child ∈ db.childrenOf perms, child.id = id := by
  -- The loop never drops a parent.
  refine holds_foldl (fun dict key => key ∈ dict)
    (fun (child : NamespaceRow) key => child.id = key)
    (fun dict => ∀ parentId ∈ perms, parentId ∈ dict) (fun dict child isChild kept => ?_)
    (fun _ isKey => isKey) id
  obtain ⟨_, parentId, isParent, present⟩ := mem_childrenOf.mp isChild
  have raises := extendToChild_raises isParent (kept parentId present)
  exact ⟨raises.mem_iff, fun other isKey => (raises.mem_iff other).mpr (.inl (kept other isKey))⟩

end

variable {resourceType : ResourceType} {resourceId id : Nat}

section

variable (sharingEnabled : Bool) (db : Database) (userId : Nat)

def Granted (resourceType : ResourceType) (resourceId : Nat) (permission : Permission) : Prop :=
  ∃ grant ∈ db.grantsTo (userGroupIds sharingEnabled db userId) resourceType,
    grant.resourceId = resourceId ∧ (permission = .manage → grant.permission = .manage)

def NamespaceGranted (namespaceId : Nat) (permission : Permission) : Prop :=
  Granted sharingEnabled db userId .catalogNamespace namespaceId permission ∨
    ∃ child ∈ db.namespaces, child.id = namespaceId ∧ ∃ parentId, child.parentId = some parentId ∧
      Granted sharingEnabled db userId .catalogNamespace parentId permission

variable {sharingEnabled db userId}

theorem not_granted_off (resourceType : ResourceType) (resourceId : Nat)
    (permission : Permission) : ¬ Granted false db userId resourceType resourceId permission := by
  rintro ⟨grant, mem, _⟩
  have inGroup := (mem_filter.mp mem).2
  simp [userGroupIds] at inGroup

theorem mem_directGrantedIds :
    resourceId ∈ directGrantedIds sharingEnabled db userId resourceType permission none ↔
      Granted sharingEnabled db userId resourceType resourceId permission := by
  rw [directGrantedIds, mem_toFinset, mem_map, Granted]
  cases permission with
  | use => simp
  | manage => simp [and_assoc, and_comm]

theorem mem_grantedNamespaces :
    id ∈ (db.grantsTo (userGroupIds sharingEnabled db userId) .catalogNamespace).foldl
        grantNamespace ∅ ↔
      Granted sharingEnabled db userId .catalogNamespace id .use := by
  rw [mem_grantNamespaces, Granted]
  simp

/-- The keys of the dictionary of namespaces. -/
theorem mem_grantedNamespacePermissions :
    id ∈ grantedNamespacePermissions sharingEnabled db userId none ↔
      NamespaceGranted sharingEnabled db userId id .use := by
  rw [grantedNamespacePermissions, Option.getD_none, mem_extendToChildren, NamespaceGranted,
    mem_grantedNamespaces]
  refine or_congr_right (exists_congr fun child => ?_)
  rw [mem_childrenOf]
  constructor
  · rintro ⟨⟨isNamespace, parentId, isParent, present⟩, sameId⟩
    exact ⟨isNamespace, sameId, parentId, isParent, mem_grantedNamespaces.mp present⟩
  · rintro ⟨isNamespace, sameId, parentId, isParent, granted⟩
    exact ⟨⟨isNamespace, parentId, isParent, mem_grantedNamespaces.mpr granted⟩, sameId⟩

theorem mem_expandNamespaceGrants : id ∈ expandNamespaceGrants true db userId permission none none ↔
      if permission = .manage then
        Topped IsManage (grantedNamespacePermissions true db userId none) id
      else id ∈ grantedNamespacePermissions true db userId none := by
  rw [expandNamespaceGrants, if_pos rfl, Option.getD_none]
  split
  case isTrue =>
    rw [mem_toFinset, mem_filter, decide_eq_true_eq, Topped]
    constructor
    · rintro ⟨_, found⟩
      exact ⟨.manage, found, rfl⟩
    · rintro ⟨_, found, rfl⟩
      exact ⟨AList.lookup_isSome.mp (Option.isSome_iff_exists.mpr ⟨_, found⟩), found⟩
  case isFalse => rw [mem_toFinset, AList.mem_keys]

theorem mem_idsIn {namespaceIds : Finset Nat} :
    id ∈ db.idsIn resourceType namespaceIds ↔ ∃ row ∈ db.rows resourceType, row.id = id ∧
      ∃ namespaceId, row.namespaceId = some namespaceId ∧ namespaceId ∈ namespaceIds := by
  rw [Database.idsIn, mem_toFinset, mem_map]
  simp only [mem_filter, Option.any_eq_true, decide_eq_true_eq]
  constructor
  · rintro ⟨row, ⟨mem, inside⟩, sameId⟩
    exact ⟨row, mem, sameId, inside⟩
  · rintro ⟨row, mem, sameId, inside⟩
    exact ⟨row, ⟨mem, inside⟩, sameId⟩

theorem mem_grantedResourceIds :
    id ∈ grantedResourceIds true db userId resourceType permission none none ↔
      Granted true db userId resourceType id permission ∨
        resourceType ∈ namespaceScopedTypes ∧ ∃ row ∈ db.rows resourceType, row.id = id ∧
          ∃ namespaceId, row.namespaceId = some namespaceId ∧
            namespaceId ∈ expandNamespaceGrants true db userId permission none none := by
  rw [grantedResourceIds, if_pos rfl]
  by_cases nested : resourceType ∈ namespaceScopedTypes
  · simp only [if_pos nested, Finset.mem_union, mem_directGrantedIds, mem_idsIn]
    exact or_congr_right (and_iff_right nested).symm
  · simp only [if_neg nested, mem_directGrantedIds]
    exact (or_iff_left fun inherited => nested inherited.1).symm

end

variable {row : ResourceRow}

section

variable {db : Database} {userId : Nat}

theorem enterDetail_raises (details : Dict Nat Detail) (resourceId : Nat) (detail : Detail) :
    Raises Detail.IsManage resourceId detail.IsManage details
      (enterDetail details resourceId detail) := by
  rw [enterDetail]
  cases found : details.lookup resourceId with
  | none =>
    refine raises_insert details _ _ fun topped => ?_
    exact absurd topped.mem (AList.lookup_eq_none.mp found)
  | some existing =>
  by_cases exceeds : detail.1 = .manage ∧ existing.1 ≠ .manage
  · simp only [if_pos exceeds]
    exact raises_insert details _ _ fun _ => exceeds.1
  simp only [if_neg exceeds]
  refine raises_self ?_ fun manages => ?_
  · exact AList.lookup_isSome.mp (Option.isSome_iff_exists.mpr ⟨_, found⟩)
  · rw [not_and, not_not] at exceeds
    exact ⟨existing, found, exceeds manages⟩

theorem enterInherited_raises {namespaceId : Nat} (inNamespace : row.namespaceId = some namespaceId)
    (present : namespaceId ∈ perms) (details : Dict Nat Detail) :
    Raises Detail.IsManage row.id (Topped IsManage perms namespaceId) details
      (enterInherited perms details row) := by
  obtain ⟨permission, found⟩ := Option.isSome_iff_exists.mp (AList.lookup_isSome.mpr present)
  have managed : Topped IsManage perms namespaceId ↔ Detail.IsManage (permission, none) := by
    rw [Topped, found]
    simp [IsManage, Detail.IsManage]
  rw [enterInherited, inNamespace, Option.bind_some, found, managed]
  exact enterDetail_raises details row.id (permission, none)

theorem manage_enterInherited (perms : Dict Nat Permission) (rows : List ResourceRow)
    (details : Dict Nat Detail) (id : Nat) :
    Topped Detail.IsManage ((rows.filter fun row => row.namespaceId.any (· ∈ perms)).foldl
        (enterInherited perms) details) id ↔
      Topped Detail.IsManage details id ∨ ∃ row ∈ rows, row.id = id ∧
        ∃ namespaceId, row.namespaceId = some namespaceId ∧ Topped IsManage perms namespaceId := by
  have raises : ∀ details, ∀ row ∈ rows.filter fun row => row.namespaceId.any (· ∈ perms),
      Raises Detail.IsManage row.id
        (∃ namespaceId, row.namespaceId = some namespaceId ∧ Topped IsManage perms namespaceId)
        details (enterInherited perms details row) := by
    intro details row mem
    obtain ⟨namespaceId, inNamespace, present⟩ : ∃ namespaceId,
        row.namespaceId = some namespaceId ∧ namespaceId ∈ perms := by
      simpa [Option.any_eq_true] using (mem_filter.mp mem).2
    have managed : (∃ otherId, row.namespaceId = some otherId ∧ Topped IsManage perms otherId) ↔
        Topped IsManage perms namespaceId := by
      simp [inNamespace]
    rw [managed]
    exact enterInherited_raises inNamespace present details
  rw [topped_foldl raises]
  refine or_congr_right (exists_congr fun row => ?_)
  rw [mem_filter]
  constructor
  · rintro ⟨⟨mem, _⟩, sameId, managed⟩
    exact ⟨mem, sameId, managed⟩
  · rintro ⟨mem, sameId, namespaceId, inNamespace, managed⟩
    refine ⟨⟨mem, ?_⟩, sameId, namespaceId, inNamespace, managed⟩
    rw [inNamespace, Option.any_some, decide_eq_true_eq]
    exact managed.mem

theorem manage_grantedAccessDetails :
    Topped Detail.IsManage (grantedAccessDetails true db userId resourceType none none) id ↔
      id ∈ grantedResourceIds true db userId resourceType .manage none none := by
  have direct : Topped Detail.IsManage
      ((db.grantsTo (userGroupIds true db userId) resourceType).foldl (fun details grant =>
        enterDetail details grant.resourceId (grant.permission, grant.grantedBy)) ∅) id ↔
      Granted true db userId resourceType id .manage := by
    rw [topped_foldl fun details grant _ => enterDetail_raises details grant.resourceId
      (grant.permission, grant.grantedBy), or_iff_right (not_topped_empty _ id), Granted]
    simp [Detail.IsManage]
  rw [mem_grantedResourceIds, grantedAccessDetails, if_pos rfl, Option.getD_none, ← direct]
  by_cases nested : resourceType ∈ namespaceScopedTypes
  · simp only [if_pos nested, Option.getD_none]
    rw [manage_enterInherited]
    refine or_congr_right (Iff.trans ?_ (and_iff_right nested).symm)
    simp only [mem_expandNamespaceGrants]
    rfl
  · simp only [if_neg nested]
    exact (or_iff_left fun inherited => nested inherited.1).symm

end

section

theorem Database.rows_nodup (db : Database) (resourceType : ResourceType) :
    ((db.rows resourceType).map ResourceRow.id).Nodup := by
  cases resourceType
  case catalogNamespace =>
    rw [Database.rows, map_map]
    exact db.distinctNamespaces
  all_goals exact db.distinctItems _

variable {db : Database}

theorem Database.resolveOwnerId_row (mem : row ∈ db.rows resourceType) :
    db.resolveOwnerId resourceType row.id = some row.ownerId := by
  rw [Database.resolveOwnerId]
  cases found : (db.rows resourceType).find? fun other => other.id = row.id with
  | none => simpa using List.find?_eq_none.mp found row mem
  | some other =>
    have sameId : other.id = row.id := by simpa using List.find?_some found
    rw [inj_on_of_nodup_map (db.rows_nodup resourceType) (mem_of_find?_eq_some found)
      mem sameId, Option.map_some]

theorem Database.resolveOwnerId_absent
    (absent : ∀ row ∈ db.rows resourceType, row.id ≠ resourceId) :
    db.resolveOwnerId resourceType resourceId = none := by
  rw [Database.resolveOwnerId, List.find?_eq_none.mpr, Option.map_none]
  intro row mem
  simpa using absent row mem

theorem Database.mem_ownedIds {userId : Nat} (mem : row ∈ db.rows resourceType) :
    row.id ∈ db.ownedIds userId resourceType ↔ row.ownerId = some userId := by
  rw [Database.ownedIds, mem_toFinset, mem_map]
  simp only [mem_filter, decide_eq_true_eq]
  constructor
  · rintro ⟨other, ⟨isOther, owned⟩, sameId⟩
    rwa [inj_on_of_nodup_map (db.rows_nodup resourceType) isOther mem sameId] at owned
  · intro owned
    exact ⟨row, ⟨mem, owned⟩, rfl⟩

variable (resolver : AccessResolver)

theorem grantedResourceIds_remembered (resourceType : ResourceType) (permission : Permission) :
    grantedResourceIds resolver.sharingEnabled resolver.db resolver.user.id resourceType permission
        (some resolver.groupIds) (resolver.nsPermsFor resourceType) =
      grantedResourceIds resolver.sharingEnabled resolver.db resolver.user.id resourceType
        permission none none := by
  rw [nsPermsFor, grantedResourceIds, grantedResourceIds]
  by_cases nested : resourceType ∈ namespaceScopedTypes
  · simp only [if_pos nested]
    rfl
  · simp only [if_neg nested]
    rfl

theorem accessDetails_remembered (resourceType : ResourceType) :
    resolver.accessDetails resourceType =
      grantedAccessDetails resolver.sharingEnabled resolver.db resolver.user.id resourceType none
        none := by
  rw [accessDetails, nsPermsFor, grantedAccessDetails, grantedAccessDetails]
  by_cases nested : resourceType ∈ namespaceScopedTypes
  · simp only [if_pos nested]
    rfl
  · simp only [if_neg nested]
    rfl

/-- The check of a row by its owner: admins pass, the principal of internal calls does not, and
others need to own the row or to have it granted. -/
theorem grantsAccess_iff (sharingEnabled : Bool) (db : Database) (user : User)
    (resourceType : ResourceType) (resourceId : Nat) (ownerId : Option Nat)
    (permission : Permission) :
    grantsAccess sharingEnabled db user resourceType resourceId ownerId permission = true ↔
      user.isAdmin = true ∨ isSyntheticPrincipal user = false ∧
        (ownerId = some user.id ∨ resourceId ∈
          grantedResourceIds sharingEnabled db user.id resourceType permission none none) := by
  have off : resourceId ∉ grantedResourceIds false db user.id resourceType permission none none :=
    Finset.notMem_empty resourceId
  rw [grantsAccess]
  cases user.isAdmin <;> cases isSyntheticPrincipal user <;> cases sharingEnabled <;>
    simp [off]

def ReportsManage (details : Dict Nat Detail) (resourceId : Nat) : Prop :=
  ∃ grantedBy, details.lookup resourceId = some (.manage, grantedBy)

theorem reportsManage_iff {details : Dict Nat Detail} :
    ReportsManage details resourceId ↔ Topped Detail.IsManage details resourceId := by
  constructor
  · rintro ⟨grantedBy, found⟩
    exact ⟨_, found, rfl⟩
  · rintro ⟨⟨permission, grantedBy⟩, found, manages⟩
    cases (manages : permission = .manage)
    exact ⟨grantedBy, found⟩

theorem reportsManage_accessDetails (resourceType : ResourceType) (resourceId : Nat) :
    ReportsManage (resolver.accessDetails resourceType) resourceId ↔ resourceId ∈
      grantedResourceIds resolver.sharingEnabled resolver.db resolver.user.id resourceType .manage
        none none := by
  rw [reportsManage_iff, accessDetails_remembered]
  cases resolver.sharingEnabled with
  | true => exact manage_grantedAccessDetails
  | false => exact iff_of_false (not_topped_empty _ resourceId) (Finset.notMem_empty resourceId)

/-- A resource can be used exactly when it exists and the user is an admin, or has it listed and is
not the principal of internal calls. One that the user does not own can be managed exactly when the
user is an admin, or has management of it reported and is not that principal. -/
theorem access_listed (resourceType : ResourceType) : (∀ resourceId,
      canUse resolver.sharingEnabled resolver.db resolver.user resourceType resourceId none = true ↔
        (∃ row ∈ resolver.db.rows resourceType, row.id = resourceId) ∧
          (resolver.user.isAdmin = true ∨ isSyntheticPrincipal resolver.user = false ∧
            resourceId ∈ resolver.accessibleIds resourceType)) ∧
      ∀ row ∈ resolver.db.rows resourceType, row.ownerId ≠ some resolver.user.id →
        (canManage resolver.sharingEnabled resolver.db resolver.user resourceType row.id none =
            true ↔
          resolver.user.isAdmin = true ∨ isSyntheticPrincipal resolver.user = false ∧
            ReportsManage (resolver.accessDetails resourceType) row.id) := by
  refine ⟨fun resourceId => ?_, fun row mem notOwned => ?_⟩
  · by_cases listed : ∃ row ∈ resolver.db.rows resourceType, row.id = resourceId
    · obtain ⟨row, mem, rfl⟩ := listed
      have sameOwner := resolver.db.resolveOwnerId_row mem
      rw [canUse, hasAccess, sameOwner]
      simp only [grantsAccess_iff, accessibleIds, Finset.mem_union,
        Database.mem_ownedIds mem, grantedResourceIds_remembered]
      exact (and_iff_right ⟨row, mem, rfl⟩).symm
    · rw [canUse, hasAccess, Database.resolveOwnerId_absent (by simpa using listed)]
      exact iff_of_false Bool.false_ne_true fun accessible => listed accessible.1
  · rw [canManage, hasAccess, Database.resolveOwnerId_row mem]
    simp only [grantsAccess_iff, reportsManage_accessDetails, or_iff_right notOwned]

end

/-- Secret 1 of user 2, granted to the group of user 3. -/
def secretItems (resourceType : ResourceType) : List ResourceRow :=
  if resourceType = .secret then [⟨1, some 2, none⟩] else []

theorem secretItems_distinct (resourceType : ResourceType) :
    ((secretItems resourceType).map ResourceRow.id).Nodup := by
  cases resourceType <;> decide

def sharedSecret : Database where
  users := [⟨1, "admin", true⟩, ⟨2, "alice", false⟩, ⟨3, "bob", false⟩]
  memberships := [⟨1, 3⟩]
  grants := [⟨.secret, 1, 1, .use, some 2⟩, ⟨.catalogTable, 7, 1, .use, some 2⟩]
  namespaces := []
  distinctNamespaces := nodup_nil
  items := secretItems
  distinctItems := secretItems_distinct

theorem sharedSecret_listed : canUse true sharedSecret ⟨3, "bob", false⟩ .secret 1 none = true ∧
      ¬ canManage true sharedSecret ⟨3, "bob", false⟩ .secret 1 none = true := by
  have listed := access_listed ⟨true, sharedSecret, ⟨3, "bob", false⟩⟩ .secret
  constructor
  · exact (listed.1 1).mpr ⟨⟨⟨1, some 2, none⟩, by decide, rfl⟩, .inr (by decide)⟩
  · rw [listed.2 ⟨1, some 2, none⟩ (by decide) (by decide), reportsManage_accessDetails]
    decide

/-- An admin may use and manage what is not listed, the principal of internal calls may not use what
is, and neither may anyone use what is gone. -/
theorem sharedSecret_unlisted : (canUse true sharedSecret ⟨1, "admin", true⟩ .secret 1 none = true ∧
      1 ∉ accessibleIds ⟨true, sharedSecret, ⟨1, "admin", true⟩⟩ .secret ∧
      canManage true sharedSecret ⟨1, "admin", true⟩ .secret 1 none = true ∧
      ¬ ReportsManage (accessDetails ⟨true, sharedSecret, ⟨1, "admin", true⟩⟩ .secret) 1) ∧
      (canUse true sharedSecret ⟨2, "_internal_service", false⟩ .secret 1 none = false ∧
        1 ∈ accessibleIds ⟨true, sharedSecret, ⟨2, "_internal_service", false⟩⟩ .secret) ∧
      canUse true sharedSecret ⟨3, "bob", false⟩ .catalogTable 7 none = false ∧
        7 ∈ accessibleIds ⟨true, sharedSecret, ⟨3, "bob", false⟩⟩
          .catalogTable := by
  rw [reportsManage_accessDetails]
  decide

end Flowfile.Sharing

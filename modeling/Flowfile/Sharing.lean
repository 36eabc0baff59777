import Flowfile.Library.RaisedEntries
import Mathlib.Data.Finset.Basic

/-!
# Sharing of resources with groups

A resource belongs to a user, if to anyone, and may be granted to groups for use or for management.
A grant of a namespace also covers the namespaces directly in it, and the items in these and in
itself. Admins may do everything; the principal that stands for internal calls may do nothing.

Whether a user may use or manage a resource is asked for single resources, and lists are made of all
that a user may use. Both are computed here as in the source, from the same rows.
-/

namespace Flowfile.Sharing

open Library.RaisedEntries

inductive Permission where
  | use
  | manage
deriving DecidableEq

/-- The types of resources that can be granted. -/
inductive ResourceType where
  | secret
  | databaseConnection
  | cloudConnection
  | gaConnection
  | kafkaConnection
  | catalogNamespace
  | catalogTable
  | flow
  | visualization
  | dashboard
  | catalogNotebook
  | globalArtifact
deriving DecidableEq

def namespaceScopedTypes : List ResourceType :=
  [.catalogTable, .flow, .visualization, .dashboard, .catalogNotebook, .globalArtifact]

/-- What matters of a row of any type: who owns it, and the namespace it lies in. -/
structure ResourceRow where
  id : Nat
  ownerId : Option Nat
  namespaceId : Option Nat
deriving DecidableEq

structure NamespaceRow where
  id : Nat
  ownerId : Nat
  parentId : Option Nat
  isPublic : Bool

/-- A user, or the principal of internal calls. -/
structure User where
  id : Nat
  username : String
  isAdmin : Bool

structure UserGroupMembership where
  groupId : Nat
  userId : Nat

structure ResourceGrant where
  resourceType : ResourceType
  resourceId : Nat
  groupId : Nat
  permission : Permission
  grantedBy : Option Nat
deriving DecidableEq

/-- The rows that access depends on. -/
structure Database where
  users : List User
  memberships : List UserGroupMembership
  grants : List ResourceGrant
  namespaces : List NamespaceRow
  distinctNamespaces : (namespaces.map NamespaceRow.id).Nodup
  items : ResourceType → List ResourceRow
  distinctItems : ∀ resourceType, ((items resourceType).map ResourceRow.id).Nodup

def Database.rows (db : Database) : ResourceType → List ResourceRow
  | .catalogNamespace => db.namespaces.map fun row => ⟨row.id, some row.ownerId, none⟩
  | resourceType => db.items resourceType

/-- The name of the principal of internal calls. -/
def internalServiceUsername : String :=
  "_internal_service"

def isSyntheticPrincipal (user : User) : Bool :=
  user.username = internalServiceUsername

section

variable (sharingEnabled : Bool) (db : Database) (userId : Nat)

def userGroupIds : List Nat :=
  if sharingEnabled then
    (db.memberships.filter fun row => row.userId = userId).map UserGroupMembership.groupId
  else []

variable (perms : Dict Nat Permission)

def grantNamespace (grant : ResourceGrant) : Dict Nat Permission :=
  if grant.permission = .manage ∨ grant.resourceId ∉ perms then
    perms.insert grant.resourceId grant.permission
  else perms

def extendToChild (child : NamespaceRow) : Dict Nat Permission :=
  match child.parentId.bind fun parentId => perms.lookup parentId with
  | none => perms
  | some parentPermission =>
    if child.id ∉ perms ∨ parentPermission = .manage then perms.insert child.id parentPermission
    else perms

/-- The namespaces that lie directly in those of a dictionary. -/
def Database.childrenOf : List NamespaceRow :=
  db.namespaces.filter fun row => row.parentId.any (· ∈ perms)

def Database.grantsTo (groupIds : List Nat) (resourceType : ResourceType) : List ResourceGrant :=
  db.grants.filter fun grant => grant.resourceType = resourceType && grant.groupId ∈ groupIds

/-- The highest permission for each namespace that is granted, and for those that lie in it. The
groups may be given. -/
def grantedNamespacePermissions (groupIds : Option (List Nat)) : Dict Nat Permission :=
  let perms := (db.grantsTo (groupIds.getD (userGroupIds sharingEnabled db userId))
    .catalogNamespace).foldl grantNamespace ∅
  (db.childrenOf perms).foldl extendToChild perms

def expandNamespaceGrants (permission : Permission) (groupIds : Option (List Nat))
    (nsPerms : Option (Dict Nat Permission)) : Finset Nat :=
  if sharingEnabled then
    let perms := nsPerms.getD (grantedNamespacePermissions sharingEnabled db userId groupIds)
    if permission = .manage then
      (perms.keys.filter fun id => perms.lookup id = some .manage).toFinset
    else perms.keys.toFinset
  else ∅

def directGrantedIds (resourceType : ResourceType) (permission : Permission)
    (groupIds : Option (List Nat)) : Finset Nat :=
  let granted := db.grantsTo (groupIds.getD (userGroupIds sharingEnabled db userId)) resourceType
  let matching :=
    if permission = .manage then granted.filter fun grant => grant.permission = .manage
    else granted
  (matching.map ResourceGrant.resourceId).toFinset

def Database.idsIn (resourceType : ResourceType) (namespaceIds : Finset Nat) : Finset Nat :=
  (((db.rows resourceType).filter fun row =>
    row.namespaceId.any (· ∈ namespaceIds)).map ResourceRow.id).toFinset

def grantedResourceIds (resourceType : ResourceType) (permission : Permission)
    (groupIds : Option (List Nat)) (nsPerms : Option (Dict Nat Permission)) : Finset Nat :=
  if sharingEnabled then
    let ids := directGrantedIds sharingEnabled db userId resourceType permission groupIds
    if resourceType ∈ namespaceScopedTypes then
      ids ∪ db.idsIn resourceType
        (expandNamespaceGrants sharingEnabled db userId permission groupIds nsPerms)
    else ids
  else ∅

/-- The permission and the granter of a resource. -/
abbrev Detail : Type :=
  Permission × Option Nat

def enterDetail (details : Dict Nat Detail) (resourceId : Nat) (detail : Detail) :
    Dict Nat Detail :=
  match details.lookup resourceId with
  | none => details.insert resourceId detail
  | some existing =>
    if detail.1 = .manage ∧ existing.1 ≠ .manage then details.insert resourceId detail else details

def enterInherited (details : Dict Nat Detail) (row : ResourceRow) : Dict Nat Detail :=
  match row.namespaceId.bind fun namespaceId => perms.lookup namespaceId with
  | none => details
  | some permission => enterDetail details row.id (permission, none)

def grantedAccessDetails (resourceType : ResourceType) (groupIds : Option (List Nat))
    (nsPerms : Option (Dict Nat Permission)) : Dict Nat Detail :=
  if sharingEnabled then
    let groups := groupIds.getD (userGroupIds sharingEnabled db userId)
    let details := (db.grantsTo groups resourceType).foldl
      (fun details grant =>
        enterDetail details grant.resourceId (grant.permission, grant.grantedBy)) ∅
    if resourceType ∈ namespaceScopedTypes then
      let perms :=
        nsPerms.getD (grantedNamespacePermissions sharingEnabled db userId (some groups))
      ((db.rows resourceType).filter fun row => row.namespaceId.any (· ∈ perms)).foldl
        (enterInherited perms) details
    else details
  else ∅

end

section

variable (sharingEnabled : Bool) (db : Database)

def Database.resolveOwnerId (resourceType : ResourceType) (resourceId : Nat) :
    Option (Option Nat) :=
  ((db.rows resourceType).find? fun row => row.id = resourceId).map ResourceRow.ownerId

/-- The check of a user, whose result depends on who owns the resource. -/
def grantsAccess (user : User) (resourceType : ResourceType) (resourceId : Nat)
    (ownerId : Option Nat) (permission : Permission) : Bool :=
  if ownerId = some user.id ∧ isSyntheticPrincipal user = false then true
  else if user.isAdmin then true
  else if sharingEnabled = false ∨ isSyntheticPrincipal user then false
  else resourceId ∈ grantedResourceIds sharingEnabled db user.id resourceType permission none none

/-- Whether a user has access. The owner may be given, and is looked up otherwise. -/
def hasAccess (user : User) (resourceType : ResourceType) (resourceId : Nat)
    (ownerId : Option Nat) (permission : Permission) : Bool :=
  match ownerId with
  | some owner =>
    grantsAccess sharingEnabled db user resourceType resourceId (some owner) permission
  | none =>
    match db.resolveOwnerId resourceType resourceId with
    | none => false
    | some owner => grantsAccess sharingEnabled db user resourceType resourceId owner permission

def canUse (user : User) (resourceType : ResourceType) (resourceId : Nat)
    (ownerId : Option Nat) : Bool :=
  hasAccess sharingEnabled db user resourceType resourceId ownerId .use

def canManage (user : User) (resourceType : ResourceType) (resourceId : Nat)
    (ownerId : Option Nat) : Bool :=
  hasAccess sharingEnabled db user resourceType resourceId ownerId .manage

/-- The check of a bare user id. Calls without one are not restricted. -/
def userIdCanUse (userId : Option Nat) (resourceType : ResourceType) (resourceId : Nat) : Bool :=
  match userId with
  | none => true
  | some id =>
    if sharingEnabled then
      match db.users.find? fun user => user.id = id with
      | none => false
      | some user => canUse sharingEnabled db user resourceType resourceId none
    else true

/-- The rows that a user owns or was granted, as a condition of list queries. -/
def accessibleFilter (userId : Nat) (resourceType : ResourceType) (permission : Permission)
    (row : ResourceRow) : Bool :=
  row.ownerId = some userId ||
    row.id ∈ grantedResourceIds sharingEnabled db userId resourceType permission none none

end

structure AccessResolver where
  sharingEnabled : Bool
  db : Database
  user : User

variable (resolver : AccessResolver)

/-- Whether the catalog is filtered for the user. -/
def AccessResolver.restricted : Bool :=
  resolver.sharingEnabled && !resolver.user.isAdmin && !isSyntheticPrincipal resolver.user

def AccessResolver.groupIds : List Nat :=
  userGroupIds resolver.sharingEnabled resolver.db resolver.user.id

def AccessResolver.namespacePermissions : Dict Nat Permission :=
  grantedNamespacePermissions resolver.sharingEnabled resolver.db resolver.user.id
    (some resolver.groupIds)

variable (resourceType : ResourceType)

def AccessResolver.nsPermsFor : Option (Dict Nat Permission) :=
  if resourceType ∈ namespaceScopedTypes then some resolver.namespacePermissions else none

variable (resourceId : Nat) (ownerId : Option Nat)

def AccessResolver.canUse
    : Bool :=
  if resolver.restricted then
    Sharing.canUse resolver.sharingEnabled resolver.db resolver.user resourceType resourceId ownerId
  else true

def AccessResolver.canManage
    : Bool :=
  if resolver.restricted then
    Sharing.canManage resolver.sharingEnabled resolver.db resolver.user resourceType resourceId
      ownerId
  else true

def Database.ownedIds (db : Database) (userId : Nat) (resourceType : ResourceType) : Finset Nat :=
  (((db.rows resourceType).filter fun row => row.ownerId = some userId).map ResourceRow.id).toFinset

def AccessResolver.accessibleIds : Finset Nat :=
  resolver.db.ownedIds resolver.user.id resourceType ∪
    grantedResourceIds resolver.sharingEnabled resolver.db resolver.user.id resourceType .use
      (some resolver.groupIds) (resolver.nsPermsFor resourceType)

def AccessResolver.accessDetails : Dict Nat Detail :=
  grantedAccessDetails resolver.sharingEnabled resolver.db resolver.user.id resourceType
    (some resolver.groupIds) (resolver.nsPermsFor resourceType)

def AccessResolver.publicNamespaceIds : Finset Nat :=
  ((resolver.db.namespaces.filter fun row => row.isPublic).map NamespaceRow.id).toFinset

/-- The namespaces that the user sees. -/
def AccessResolver.visibleNamespaceIds : Finset Nat :=
  resolver.accessibleIds .catalogNamespace ∪ resolver.publicNamespaceIds

/-- The namespaces that the user may create items in or move items to. -/
def AccessResolver.writableNamespaceIds : Finset Nat :=
  ((resolver.db.namespaces.filter fun row => row.ownerId = resolver.user.id).map
      NamespaceRow.id).toFinset ∪
    expandNamespaceGrants resolver.sharingEnabled resolver.db resolver.user.id .manage
      (some resolver.groupIds) (some resolver.namespacePermissions) ∪
    resolver.publicNamespaceIds

end Flowfile.Sharing

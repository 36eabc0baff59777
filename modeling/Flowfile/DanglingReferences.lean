import Flowfile.CatalogDeletes

/-!
# Dangling references

Which requests leave references to rows that they delete, or make references to rows that do not
exist, is told exactly, request by request: a state without dangling references stays one exactly
when the request meets its condition. Most requests have none, since they look rows up before they
refer to them, and take the references along when they delete. A run keeps clear of dangling
references exactly when each of its requests meets its condition.

Ids are given out again, so a reference that dangles names the next row that gets the id.
-/

namespace Flowfile.CatalogRows

open Function Library.EventRuns Library.References List
open Scheduler (ScheduleType)
open Sharing
open Database (has hasNamespace add bulkDelete setStatus countIn)

variable (db : Database)

def Database.Granted (resourceType : ResourceType) (id : Nat) : Prop :=
  ∃ grant ∈ db.grants, grant.resourceType = resourceType ∧ grant.resourceId = id

def Database.Triggers (tableId : Nat) : Prop :=
  (∃ link ∈ db.triggerTables, link.tableId = tableId) ∨
    ∃ schedule ∈ db.schedules, schedule.triggerTableId = some tableId

def Database.Occupied (namespaceId : Nat) : Prop :=
  ∃ resourceType, ∃ row ∈ db.rows resourceType, namespaceOf resourceType row = some namespaceId

variable {db} {id : Nat}

theorem refers_leaf_iff {resourceType : ResourceType}
    (leaf : resourceType ∉ [.catalogNamespace, .catalogTable, .flow]) :
    db.Refers (.resource resourceType) id ↔ db.Granted resourceType id := by
  constructor
  · intro refers
    cases refers with
    | grant grant stored => exact ⟨grant, stored, rfl, rfl⟩
    | readTable | readBy | triggeredBy | triggerTable | liesIn => simp at leaf
  · rintro ⟨grant, stored, rfl, rfl⟩
    exact .grant grant stored

theorem refers_flow_iff : db.Refers (.resource .flow) id ↔
      db.Granted .flow id ∨ ∃ link ∈ db.readLinks, link.registrationId = id := by
  constructor
  · intro refers
    generalize kindIs : Kind.resource .flow = kind at refers
    cases refers with
    | grant grant stored =>
      exact Or.inl ⟨grant, stored, (Kind.resource.inj kindIs).symm, rfl⟩
    | readBy link stored => exact Or.inr ⟨link, stored, rfl⟩
    | readTable | triggers | triggeredBy | triggerTable | liesIn => cases kindIs
  · rintro (⟨grant, stored, granted, rfl⟩ | ⟨link, stored, rfl⟩)
    · rw [← granted]
      exact .grant grant stored
    · exact .readBy link stored

theorem refers_table_iff : db.Refers (.resource .catalogTable) id ↔
      db.Granted .catalogTable id ∨ (∃ link ∈ db.readLinks, link.tableId = id) ∨
        db.Triggers id := by
  constructor
  · intro refers
    generalize kindIs : Kind.resource .catalogTable = kind at refers
    cases refers with
    | grant grant stored =>
      exact Or.inl ⟨grant, stored, (Kind.resource.inj kindIs).symm, rfl⟩
    | readTable link stored => exact Or.inr (Or.inl ⟨link, stored, rfl⟩)
    | triggeredBy link stored => exact Or.inr (Or.inr (Or.inl ⟨link, stored, rfl⟩))
    | triggerTable schedule stored tableId named =>
      exact Or.inr (Or.inr (Or.inr ⟨schedule, stored, named⟩))
    | readBy | triggers | liesIn => cases kindIs
  · rintro (⟨grant, stored, granted, rfl⟩ | ⟨link, stored, rfl⟩ | ⟨link, stored, rfl⟩ |
      ⟨schedule, stored, named⟩)
    · rw [← granted]
      exact .grant grant stored
    · exact .readTable link stored
    · exact .triggeredBy link stored
    · exact .triggerTable schedule stored id named

theorem refers_namespace_iff : db.Refers (.resource .catalogNamespace) id ↔
      db.Granted .catalogNamespace id ∨ db.Occupied id := by
  constructor
  · intro refers
    generalize kindIs : Kind.resource .catalogNamespace = kind at refers
    cases refers with
    | grant grant stored =>
      exact Or.inl ⟨grant, stored, (Kind.resource.inj kindIs).symm, rfl⟩
    | liesIn resourceType row stored namespaceId named =>
      exact Or.inr ⟨resourceType, row, stored, named⟩
    | readTable | readBy | triggers | triggeredBy | triggerTable => cases kindIs
  · rintro (⟨grant, stored, granted, rfl⟩ | ⟨resourceType, row, stored, named⟩)
    · rw [← granted]
      exact .grant grant stored
    · exact .liesIn resourceType row stored id named

theorem refers_schedule_iff :
    db.Refers .schedule id ↔ ∃ link ∈ db.triggerTables, link.scheduleId = id := by
  constructor
  · intro refers
    cases refers with
    | triggers link stored => exact ⟨link, stored, rfl⟩
  · rintro ⟨link, stored, rfl⟩
    exact .triggers link stored

variable {db' : Database} {kind : Kind}

theorem Database.Refers.mono (refers : db'.Refers kind id) (grants : db'.grants ⊆ db.grants)
    (readLinks : db'.readLinks ⊆ db.readLinks)
    (triggerTables : db'.triggerTables ⊆ db.triggerTables)
    (schedules : db'.schedules ⊆ db.schedules)
    (rows : ∀ resourceType, db'.rows resourceType ⊆ db.rows resourceType) :
    db.Refers kind id := by
  cases refers with
  | grant grant stored => exact .grant grant (grants stored)
  | readTable link stored => exact .readTable link (readLinks stored)
  | readBy link stored => exact .readBy link (readLinks stored)
  | triggers link stored => exact .triggers link (triggerTables stored)
  | triggeredBy link stored => exact .triggeredBy link (triggerTables stored)
  | triggerTable schedule stored _ named => exact .triggerTable schedule (schedules stored) _ named
  | liesIn resourceType row stored _ named =>
    exact .liesIn resourceType row (rows resourceType stored) _ named

/-- When no row goes, only what is new among the rows that refer needs a look. -/
theorem Database.NoDangling.change (sound : db.NoDangling)
    (kept : ∀ kind id, id ∈ db.ids kind → id ∈ db'.ids kind)
    (grants : ∀ grant ∈ db'.grants,
      grant ∈ db.grants ∨ grant.resourceId ∈ db'.ids (.resource grant.resourceType))
    (readLinks : ∀ link ∈ db'.readLinks, link ∈ db.readLinks ∨
      link.tableId ∈ db'.ids (.resource .catalogTable) ∧
        link.registrationId ∈ db'.ids (.resource .flow))
    (triggerTables : ∀ link ∈ db'.triggerTables, link ∈ db.triggerTables ∨
      link.scheduleId ∈ db'.ids .schedule ∧ link.tableId ∈ db'.ids (.resource .catalogTable))
    (schedules : ∀ schedule ∈ db'.schedules, schedule ∈ db.schedules ∨
      ∀ tableId, schedule.triggerTableId = some tableId →
        tableId ∈ db'.ids (.resource .catalogTable))
    (rows : ∀ resourceType, ∀ row ∈ db'.rows resourceType, ∃ before ∈ db.rows resourceType,
        namespaceOf resourceType before = namespaceOf resourceType row) :
    db'.NoDangling := by
  intro kind id refers
  cases refers with
  | grant grant stored =>
    exact (grants grant stored).elim (fun old => kept _ _ (sound _ _ (.grant grant old))) id
  | readTable link stored =>
    exact (readLinks link stored).elim (fun old => kept _ _ (sound _ _ (.readTable link old)))
      And.left
  | readBy link stored =>
    exact (readLinks link stored).elim (fun old => kept _ _ (sound _ _ (.readBy link old)))
      And.right
  | triggers link stored =>
    exact (triggerTables link stored).elim (fun old => kept _ _ (sound _ _ (.triggers link old)))
      And.left
  | triggeredBy link stored =>
    exact (triggerTables link stored).elim
      (fun old => kept _ _ (sound _ _ (.triggeredBy link old))) And.right
  | triggerTable schedule stored _ named =>
    exact (schedules schedule stored).elim
      (fun old => kept _ _ (sound _ _ (.triggerTable schedule old _ named)))
      fun looked => looked _ named
  | liesIn resourceType row stored _ named =>
    obtain ⟨before, old, same⟩ := rows resourceType row stored
    exact kept _ _ (sound _ _ (.liesIn resourceType before old _ (same.trans named)))

theorem has_iff {resourceType : ResourceType} :
    db.has resourceType id = true ↔ id ∈ db.ids (.resource resourceType) := by
  rw [has, decide_eq_true_eq]

variable {namespaceId : Option Nat}

theorem hasNamespace_iff : db.hasNamespace namespaceId = true ↔
      ∀ id, namespaceId = some id → id ∈ db.ids (.resource .catalogNamespace) := by
  cases namespaceId with
  | none => simp [hasNamespace]
  | some id => simp [hasNamespace, has_iff]

variable {other : ResourceType}

section

variable {resourceType : ResourceType} {row : Row resourceType}
  (fresh : rowId resourceType row = db.nextId resourceType)

theorem mem_ids_add {id : Nat} : id ∈ (db.add resourceType row fresh).ids kind ↔
      id ∈ db.ids kind ∨ kind = .resource resourceType ∧ id = rowId resourceType row := by
  cases kind with
  | schedule => simp [add, Database.ids]
  | resource other =>
  by_cases same : other = resourceType
  · subst same
    simp [add, Database.ids]
  · simp [add, Database.ids, same]

theorem rows_add_self :
    (db.add resourceType row fresh).rows resourceType = db.rows resourceType ++ [row] :=
  update_self ..

theorem rows_add_of_ne (different : other ≠ resourceType) :
    (db.add resourceType row fresh).rows other = db.rows other :=
  update_of_ne different ..

theorem refers_add_iff {id : Nat} : (db.add resourceType row fresh).Refers kind id ↔
      db.Refers kind id ∨
        kind = .resource .catalogNamespace ∧ namespaceOf resourceType row = some id := by
  constructor
  · intro refers
    cases refers with
    | grant grant stored => exact Or.inl (.grant grant stored)
    | readTable link stored => exact Or.inl (.readTable link stored)
    | readBy link stored => exact Or.inl (.readBy link stored)
    | triggers link stored => exact Or.inl (.triggers link stored)
    | triggeredBy link stored => exact Or.inl (.triggeredBy link stored)
    | triggerTable schedule stored _ named =>
      have kept : schedule ∈ db.schedules := stored
      exact Or.inl (.triggerTable schedule kept _ named)
    | liesIn other present stored _ named =>
      by_cases same : other = resourceType
      · subst same
        rw [rows_add_self, mem_append, mem_singleton] at stored
        rcases stored with old | rfl
        · exact Or.inl (.liesIn other present old _ named)
        · exact Or.inr ⟨rfl, named⟩
      · rw [rows_add_of_ne fresh same] at stored
        exact Or.inl (.liesIn other present stored _ named)
  · rintro (refers | ⟨rfl, named⟩)
    · refine refers.mono (List.Subset.refl _) (List.Subset.refl _) (List.Subset.refl _)
        (List.Subset.refl _) fun other => ?_
      by_cases same : other = resourceType
      · subst same
        rw [rows_add_self]
        exact subset_append_left ..
      · rw [rows_add_of_ne fresh same]
        exact List.Subset.refl _
    · refine .liesIn resourceType row ?_ id named
      rw [rows_add_self]
      exact mem_append_right _ (mem_singleton_self row)

theorem noDangling_add_iff (sound : db.NoDangling) : (db.add resourceType row fresh).NoDangling ↔
      db.hasNamespace (namespaceOf resourceType row) = true := by
  have grown := Resolved.add_iff sound
    (fun kind id listed => (mem_ids_add fresh).mpr (Or.inl listed))
    (fun kind id => refers_add_iff fresh)
  rw [Database.NoDangling, grown, hasNamespace_iff]
  constructor
  · intro resolved id named
    rcases (mem_ids_add fresh).mp (resolved _ id ⟨rfl, named⟩) with listed | ⟨same, _⟩
    · exact listed
    · obtain rfl := Kind.resource.inj same
      cases named
  · rintro listed kind id ⟨rfl, named⟩
    exact (mem_ids_add fresh).mpr (Or.inl (listed id named))

end

section

variable {resourceType : ResourceType} {matching : Row resourceType → Bool}

theorem rows_bulkDelete_self : (db.bulkDelete resourceType matching).rows resourceType =
      (db.rows resourceType).filter fun row => !matching row :=
  update_self ..

theorem rows_bulkDelete_of_ne (different : other ≠ resourceType) :
    (db.bulkDelete resourceType matching).rows other = db.rows other :=
  update_of_ne different ..

theorem rows_bulkDelete_subset (other : ResourceType) :
    (db.bulkDelete resourceType matching).rows other ⊆ db.rows other := by
  by_cases same : other = resourceType
  · subst same
    rw [rows_bulkDelete_self]
    exact filter_subset_self _
  · rw [rows_bulkDelete_of_ne same]
    exact List.Subset.refl _

theorem mem_ids_bulkDelete {id : Nat} : id ∈ (db.bulkDelete resourceType matching).ids kind ↔
      id ∈ db.ids kind ∧ ¬(kind = .resource resourceType ∧
        ∃ row ∈ db.rows resourceType, matching row = true ∧ rowId resourceType row = id) := by
  cases kind with
  | schedule => simp [bulkDelete, Database.ids]
  | resource other =>
  by_cases same : other = resourceType
  · subst same
    simp only [Database.ids, bulkDelete, update_self, mem_map, mem_filter, true_and]
    constructor
    · rintro ⟨row, ⟨stored, unmatched⟩, rfl⟩
      refine ⟨⟨row, stored, rfl⟩, ?_⟩
      rintro ⟨second, stored', matched, sameId⟩
      rw [inj_on_of_nodup_map (db.distinct other) stored' stored sameId] at matched
      simp [matched] at unmatched
    · rintro ⟨⟨row, stored, rfl⟩, unmatched⟩
      refine ⟨row, ⟨stored, ?_⟩, rfl⟩
      rw [Bool.not_eq_true']
      exact Bool.eq_false_iff.mpr fun matched => unmatched ⟨row, stored, matched, rfl⟩
  · simp [bulkDelete, Database.ids, same]

theorem refers_of_bulkDelete {id : Nat}
    (refers : (db.bulkDelete resourceType matching).Refers kind id) : db.Refers kind id :=
  refers.mono (List.Subset.refl _) (List.Subset.refl _) (List.Subset.refl _) (List.Subset.refl _)
    rows_bulkDelete_subset

theorem noDangling_bulkDelete_iff (sound : db.NoDangling)
    (leaf : resourceType ∉ [.catalogNamespace, .catalogTable, .flow]) :
    (db.bulkDelete resourceType matching).NoDangling ↔
      ∀ row ∈ db.rows resourceType, matching row = true →
        ¬db.Granted resourceType (rowId resourceType row) := by
  rw [Database.NoDangling, sound.remove_iff (fun _ _ => refers_of_bulkDelete)
    fun _ _ => mem_ids_bulkDelete]
  constructor
  · intro none row stored matched granted
    exact none _ _ ⟨rfl, row, stored, matched, rfl⟩ ((refers_leaf_iff leaf).mpr granted)
  · rintro none kind id ⟨rfl, row, stored, matched, rfl⟩ refers
    exact none row stored matched ((refers_leaf_iff leaf).mp (refers_of_bulkDelete refers))

end

section

variable {resourceType : ResourceType} {resourceId : Nat}

theorem granted_deleteGrants_iff {id : Nat} :
    (db.deleteGrantsForResource resourceType resourceId).Granted other id ↔
      db.Granted other id ∧ ¬(other = resourceType ∧ id = resourceId) := by
  simp only [Database.Granted, Database.deleteGrantsForResource, mem_filter,
    Bool.not_eq_true', Bool.and_eq_false_imp, decide_eq_true_eq, decide_eq_false_iff_not]
  constructor
  · rintro ⟨grant, ⟨stored, other⟩, rfl, rfl⟩
    exact ⟨⟨grant, stored, rfl, rfl⟩, fun both => other both.1 both.2⟩
  · rintro ⟨⟨grant, stored, rfl, rfl⟩, other⟩
    exact ⟨grant, ⟨stored, fun first second => other ⟨first, second⟩⟩, rfl, rfl⟩

theorem granted_deleteGrants_ne (granted : db.Granted resourceType resourceId)
    (other : ResourceType) (id : Nat) (different : resourceType ≠ other) :
    (db.deleteGrantsForResource other id).Granted resourceType resourceId :=
  granted_deleteGrants_iff.mpr ⟨granted, fun both => different both.1⟩

theorem granted_delete_ne (granted : db.Granted resourceType resourceId)
    (other : ResourceType) (id : Nat) (different : resourceType ≠ other) :
    (db.delete other id).Granted resourceType resourceId :=
  granted_deleteGrants_iff.mpr ⟨granted, fun both => different both.1⟩

theorem refers_of_deleteGrants {id : Nat}
    (refers : (db.deleteGrantsForResource resourceType resourceId).Refers kind id) :
    db.Refers kind id :=
  refers.mono (filter_subset_self _) (List.Subset.refl _) (List.Subset.refl _)
    (List.Subset.refl _) fun _ => List.Subset.refl _

/-- Grants can go at any time. -/
theorem noDangling_deleteGrants (sound : db.NoDangling) :
    (db.deleteGrantsForResource resourceType resourceId).NoDangling :=
  sound.mono (fun _ _ => refers_of_deleteGrants) fun _ _ listed => listed

theorem mem_ids_delete {id : Nat} : id ∈ (db.delete resourceType resourceId).ids kind ↔
      id ∈ db.ids kind ∧ ¬(kind = .resource resourceType ∧ id = resourceId) := by
  refine mem_ids_bulkDelete.trans (and_congr_right fun listed => ?_)
  rw [not_iff_not]
  constructor
  · rintro ⟨rfl, row, _, matched, rfl⟩
    exact ⟨rfl, by simpa using matched⟩
  · rintro ⟨rfl, rfl⟩
    obtain ⟨row, stored, rfl⟩ := mem_map.mp listed
    exact ⟨rfl, row, stored, by simp, rfl⟩

theorem rows_delete_of_ne (different : other ≠ resourceType) :
    (db.delete resourceType resourceId).rows other = db.rows other :=
  rows_bulkDelete_of_ne different

theorem refers_of_delete {id : Nat}
    (refers : (db.delete resourceType resourceId).Refers kind id) : db.Refers kind id :=
  refers_of_bulkDelete (refers_of_deleteGrants refers)

/-- A row that is only granted can be deleted through the mapper at any time. -/
theorem noDangling_delete (sound : db.NoDangling)
    (leaf : resourceType ∉ [.catalogNamespace, .catalogTable, .flow]) :
    (db.delete resourceType resourceId).NoDangling := by
  rw [Database.NoDangling, sound.remove_iff (fun _ _ => refers_of_delete) fun _ _ => mem_ids_delete]
  rintro kind id ⟨rfl, rfl⟩ refers
  exact (granted_deleteGrants_iff.mp ((refers_leaf_iff leaf).mp refers)).2 ⟨rfl, rfl⟩

end

section

variable {artifactId : Nat} {status : GlobalArtifacts.ArtifactStatus}

theorem mem_rows_setStatus {resourceType : ResourceType} {row : Row resourceType}
    (stored : row ∈ (db.setStatus artifactId status).rows resourceType) :
    ∃ before ∈ db.rows resourceType,
      namespaceOf resourceType before = namespaceOf resourceType row := by
  by_cases same : resourceType = .globalArtifact
  · subst same
    rw [setStatus] at stored
    simp only [update_self, mem_map] at stored
    obtain ⟨before, old, rfl⟩ := stored
    refine ⟨before, old, ?_⟩
    split <;> rfl
  · rw [setStatus] at stored
    simp only [update_of_ne same] at stored
    exact ⟨row, stored, rfl⟩

theorem mem_ids_setStatus {id : Nat} (listed : id ∈ db.ids kind) :
    id ∈ (db.setStatus artifactId status).ids kind := by
  cases kind with
  | schedule => exact listed
  | resource resourceType =>
  by_cases same : resourceType = .globalArtifact
  · subst same
    obtain ⟨row, stored, rfl⟩ := mem_map.mp listed
    refine mem_map.mpr ⟨if row.id = artifactId then { row with status } else row, ?_, ?_⟩
    · rw [setStatus]
      simp only [update_self]
      exact mem_map_of_mem stored
    · split <;> rfl
  · rw [Database.ids, setStatus]
    simp only [update_of_ne same]
    exact listed

theorem noDangling_setStatus (sound : db.NoDangling) :
    (db.setStatus artifactId status).NoDangling := by
  refine sound.change (fun _ _ => mem_ids_setStatus) (fun _ => Or.inl) (fun _ => Or.inl)
    (fun _ => Or.inl) (fun _ => Or.inl) fun resourceType row stored => ?_
  exact mem_rows_setStatus stored

theorem noDangling_softDelete (sound : db.NoDangling) : (db.softDelete artifactId).NoDangling :=
  noDangling_deleteGrants (noDangling_setStatus sound)

end

section

variable (sound : db.NoDangling)
include sound

theorem noDangling_addChecked {resourceType : ResourceType}
    {row : Row resourceType} (fresh : rowId resourceType row = db.nextId resourceType)
    (named : namespaceOf resourceType row = namespaceId) :
    (if db.hasNamespace namespaceId then db.add resourceType row fresh else db).NoDangling := by
  split
  case isTrue checked =>
    rw [noDangling_add_iff fresh sound, named]
    exact checked
  case isFalse => exact sound

theorem noDangling_createNamespace (ownerId : Nat)
    (parentId : Option Nat) : (db.createNamespace ownerId parentId).NoDangling := by
  rw [Database.createNamespace]
  split
  · exact (noDangling_add_iff rfl sound).mpr rfl
  · exact sound

theorem noDangling_storeSecret (userId : Nat) (name : String) :
    (db.storeSecret userId name).NoDangling :=
  (noDangling_add_iff rfl sound).mpr rfl

theorem noDangling_addConnection (userId : Nat) (connectionName : String)
    (secretIds : List Nat) (kind : ConnectionKind) :
    (db.addConnection userId connectionName secretIds kind).NoDangling := by
  cases kind <;> exact (noDangling_add_iff rfl sound).mpr rfl

theorem noDangling_createConnection (kind : ConnectionKind) (userId : Nat)
    (connectionName : String) (secretNames : List String) :
    (db.createConnection kind userId connectionName secretNames).NoDangling := by
  refine noDangling_addConnection ?_ _ _ _ _
  induction secretNames generalizing db with
  | nil => exact sound
  | cons name rest ih =>
    exact ih (noDangling_storeSecret sound userId name)

theorem noDangling_createVisualization_iff (catalogTableId namespaceId : Option Nat) :
    (db.createVisualization catalogTableId namespaceId).NoDangling ↔
      (catalogTableId.all (db.has .catalogTable) = true → db.hasNamespace namespaceId = true) := by
  rw [Database.createVisualization]
  split
  case isFalse refused => simp [refused, sound]
  case isTrue exists' =>
    refine (noDangling_add_iff rfl sound).trans ?_
    rw [forall_prop_of_true exists']
    cases namespaceId with
    | some id => rfl
    | none =>
    refine iff_of_true (hasNamespace_iff.mpr fun id named => ?_) rfl
    obtain ⟨tableId, -, found⟩ := Option.bind_eq_some_iff.mp named
    obtain ⟨row, isRow, lies⟩ := Option.bind_eq_some_iff.mp found
    exact sound _ id (.liesIn .catalogTable row (mem_of_find?_eq_some isRow) id lies)

theorem noDangling_deleteArtifacts
    (checked : db.hasNamespace namespaceId = true) (artifacts : List ArtifactRow) :
    (artifacts.foldl (fun db row => db.delete .globalArtifact row.id) db).NoDangling ∧
      (artifacts.foldl (fun db row => db.delete .globalArtifact row.id) db).hasNamespace
        namespaceId = true := by
  induction artifacts generalizing db with
  | nil => exact ⟨sound, checked⟩
  | cons row rest ih =>
    refine ih (noDangling_delete sound (by decide)) ?_
    rw [hasNamespace_iff] at checked ⊢
    exact fun id named => mem_ids_delete.mpr ⟨checked id named, fun both => by cases both.1⟩

theorem noDangling_prepareUpload (name : String)
    (sourceRegistrationId : Nat) (namespaceId : Option Nat) (inserted : Bool) :
    (db.prepareUpload name sourceRegistrationId namespaceId inserted).NoDangling := by
  rw [Database.prepareUpload]
  split
  case h_1 => exact sound
  case h_2 registration _ =>
    dsimp only
    split
    case isFalse => exact sound
    case isTrue checked =>
      have cleaned := noDangling_deleteArtifacts sound checked
        (db.staleArtifacts name (namespaceId <|> namespaceOf .flow registration))
      split
      · exact (noDangling_add_iff rfl cleaned.1).mpr cleaned.2
      · exact cleaned.1

theorem noDangling_finalizeUpload (artifactId : Nat) (verified : Bool) :
    (db.finalizeUpload artifactId verified).NoDangling := by
  rw [Database.finalizeUpload]
  split
  · exact noDangling_setStatus sound
  · exact sound

/-- Only what exists can be shared. -/
theorem noDangling_createShare (grant : ResourceGrant) : (db.createShare grant).NoDangling := by
  rw [Database.createShare]
  split
  case isFalse => exact sound
  case isTrue checked =>
    refine sound.change (fun _ _ listed => listed) (fun other stored => ?_) (fun _ => Or.inl)
      (fun _ => Or.inl) (fun _ => Or.inl) fun _ row stored => ⟨row, stored, rfl⟩
    rcases mem_append.mp stored with old | new
    · exact Or.inl old
    · obtain rfl := mem_singleton.mp new
      exact Or.inr (has_iff.mp (Bool.and_eq_true_iff.mp checked).1)

end

/-- The tables that a schedule of several tables names were looked up. -/
theorem has_of_validateScheduleCreate {triggerTableId : Option Nat} {triggerTableIds : List Nat}
    (valid : db.validateScheduleCreate triggerTableId triggerTableIds .tableSetTrigger = true) :
    ∀ tableId ∈ triggerTableIds, db.has .catalogTable tableId = true :=
  all_eq_true.mp (Bool.and_eq_true_iff.mp valid).2

section

variable (sound : db.NoDangling)
include sound

variable (registrationId : Nat)

theorem noDangling_createSchedule_iff
    (scheduleType : ScheduleType) (triggerTableId : Option Nat) (triggerTableIds : List Nat) :
    (db.createSchedule registrationId scheduleType triggerTableId triggerTableIds).NoDangling ↔
      ((db.has .flow registrationId &&
          db.validateScheduleCreate triggerTableId triggerTableIds scheduleType) = true →
        triggerTableId.all (db.has .catalogTable) = true) := by
  rw [Database.createSchedule]
  split
  case isFalse refused => simp [refused, sound]
  case isTrue checked =>
    rw [forall_prop_of_true checked]
    constructor
    · intro sound'
      cases triggerTableId with
      | none => rfl
      | some tableId =>
        exact has_iff.mpr (sound' _ tableId
          (.triggerTable _ (mem_append_right _ (mem_singleton_self _)) tableId rfl))
    · intro named
      refine sound.change (fun kind id listed => ?_) (fun _ => Or.inl) (fun _ => Or.inl)
        (fun link stored => ?_) (fun schedule stored => ?_) fun _ row stored => ⟨row, stored, rfl⟩
      · cases kind with
        | resource resourceType => exact listed
        | schedule =>
          change id ∈ List.map FlowSchedule.id (_ ++ [_])
          rw [map_append]
          exact mem_append_left _ listed
      · have valid := (Bool.and_eq_true_iff.mp checked).2
        dsimp only at stored
        split at stored
        case isFalse => exact Or.inl stored
        case isTrue isSet =>
          subst isSet
          rcases mem_append.mp stored with old | new
          · exact Or.inl (mem_of_mem_filter old)
          · obtain ⟨tableId, listed, rfl⟩ := mem_map.mp new
            refine Or.inr ⟨?_, has_iff.mp (has_of_validateScheduleCreate valid tableId listed)⟩
            exact mem_map_of_mem (mem_append_right _ (mem_singleton_self _))
      · rcases mem_append.mp stored with old | new
        · exact Or.inl old
        · obtain rfl := mem_singleton.mp new
          refine Or.inr fun tableId isNamed => has_iff.mp ?_
          exact Option.all_eq_true _ _ |>.mp named tableId isNamed

/-- Nobody looks up what a read link names. -/
theorem noDangling_upsertReadLink_iff (tableId registrationId : Nat) :
    (db.upsertReadLink tableId registrationId).NoDangling ↔
      db.has .catalogTable tableId = true ∧ db.has .flow registrationId = true := by
  rw [Database.upsertReadLink, has_iff, has_iff]
  split
  case isTrue old =>
    exact iff_of_true sound ⟨sound _ _ (.readTable _ old), sound _ _ (.readBy _ old)⟩
  case isFalse =>
    constructor
    · intro sound'
      have new : (⟨tableId, registrationId⟩ : CatalogTableReadLink) ∈
          db.readLinks ++ [⟨tableId, registrationId⟩] :=
        mem_append_right _ (mem_singleton_self _)
      exact ⟨sound' _ _ (.readTable _ new), sound' _ _ (.readBy _ new)⟩
    · intro there
      refine sound.change (fun _ _ listed => listed) (fun _ => Or.inl) (fun link stored => ?_)
        (fun _ => Or.inl) (fun _ => Or.inl) fun _ row stored => ⟨row, stored, rfl⟩
      rcases mem_append.mp stored with old | new
      · exact Or.inl old
      · obtain rfl := mem_singleton.mp new
        exact Or.inr there

theorem noDangling_deleteShare (grant : ResourceGrant) : (db.deleteShare grant).NoDangling :=
  sound.mono (fun _ _ refers => refers.mono (filter_subset_self _) (List.Subset.refl _)
    (List.Subset.refl _) (List.Subset.refl _) fun _ => List.Subset.refl _) fun _ _ listed => listed

/-- A namespace may go when nothing lies in it. -/
theorem noDangling_deleteNamespaceRow_iff (namespaceId : Nat) :
    (db.delete .catalogNamespace namespaceId).NoDangling ↔ ¬db.Occupied namespaceId := by
  rw [Database.NoDangling, sound.remove_iff (fun _ _ => refers_of_delete) fun _ _ => mem_ids_delete]
  have occupied : (db.delete .catalogNamespace namespaceId).Occupied namespaceId ↔
      db.Occupied namespaceId := by
    constructor
    · rintro ⟨resourceType, row, stored, named⟩
      exact ⟨resourceType, row, rows_bulkDelete_subset resourceType stored, named⟩
    · rintro ⟨resourceType, row, stored, named⟩
      refine ⟨resourceType, row, ?_, named⟩
      by_cases same : resourceType = .catalogNamespace
      · subst same
        cases named
      · exact (rows_delete_of_ne same).symm ▸ stored
  constructor
  · intro none isOccupied
    exact none _ _ ⟨rfl, rfl⟩ (refers_namespace_iff.mpr (Or.inr (occupied.mpr isOccupied)))
  · rintro none kind id ⟨rfl, rfl⟩ refers
    rcases refers_namespace_iff.mp refers with granted | isOccupied
    · exact (granted_deleteGrants_iff.mp granted).2 ⟨rfl, rfl⟩
    · exact none (occupied.mp isOccupied)

theorem noDangling_deleteFlowRow_iff : (db.delete .flow registrationId).NoDangling ↔
      ∀ link ∈ db.readLinks, link.registrationId ≠ registrationId := by
  rw [Database.NoDangling, sound.remove_iff (fun _ _ => refers_of_delete) fun _ _ => mem_ids_delete]
  constructor
  · intro none link stored named
    exact none _ _ ⟨rfl, rfl⟩ (refers_flow_iff.mpr (Or.inr ⟨link, stored, named⟩))
  · rintro none kind id ⟨rfl, rfl⟩ refers
    rcases refers_flow_iff.mp refers with granted | ⟨link, stored, named⟩
    · exact (granted_deleteGrants_iff.mp granted).2 ⟨rfl, rfl⟩
    · exact none link stored named

theorem noDangling_deleteTableRow_iff (tableId : Nat) :
    (db.delete .catalogTable tableId).NoDangling ↔
      (∀ link ∈ db.readLinks, link.tableId ≠ tableId) ∧ ¬db.Triggers tableId := by
  rw [Database.NoDangling, sound.remove_iff (fun _ _ => refers_of_delete) fun _ _ => mem_ids_delete]
  constructor
  · intro none
    refine ⟨fun link stored named => none _ _ ⟨rfl, rfl⟩ ?_, fun triggers => none _ _ ⟨rfl, rfl⟩ ?_⟩
    · exact refers_table_iff.mpr (Or.inr (Or.inl ⟨link, stored, named⟩))
    · exact refers_table_iff.mpr (Or.inr (Or.inr triggers))
  · rintro ⟨unread, untriggered⟩ kind id ⟨rfl, rfl⟩ refers
    rcases refers_table_iff.mp refers with granted | ⟨link, stored, named⟩ | triggers
    · exact (granted_deleteGrants_iff.mp granted).2 ⟨rfl, rfl⟩
    · exact unread link stored named
    · exact untriggered triggers

end

theorem countIn_eq_zero_iff {resourceType : ResourceType} {namespaceId : Nat} :
    db.countIn resourceType namespaceId = 0 ↔
      ∀ row ∈ db.rows resourceType, namespaceOf resourceType row ≠ some namespaceId := by
  simp [countIn, filter_eq_nil_iff]

/-- The types whose rows lie in namespaces, but that `delete_namespace` does not count. -/
def uncounted : List ResourceType :=
  [.visualization, .dashboard, .globalArtifact]

/-- What `delete_namespace` looks for, and the rest. -/
theorem occupied_iff {namespaceId : Nat} (empty : db.namespaceNotEmpty namespaceId = false) :
    db.Occupied namespaceId ↔
      ∃ resourceType ∈ uncounted, db.countIn resourceType namespaceId ≠ 0 := by
  simp only [Database.namespaceNotEmpty, Bool.or_eq_false_iff, decide_eq_false_iff_not,
    Nat.not_lt, Nat.le_zero] at empty
  obtain ⟨⟨⟨-, noFlows⟩, noTables⟩, noNotebooks⟩ := empty
  constructor
  · rintro ⟨resourceType, row, stored, named⟩
    have counted : db.countIn resourceType namespaceId ≠ 0 :=
      fun none => countIn_eq_zero_iff.mp none row stored named
    cases resourceType with
    | flow => exact absurd noFlows counted
    | catalogTable => exact absurd noTables counted
    | catalogNotebook => exact absurd noNotebooks counted
    | visualization => exact ⟨.visualization, by decide, counted⟩
    | dashboard => exact ⟨.dashboard, by decide, counted⟩
    | globalArtifact => exact ⟨.globalArtifact, by decide, counted⟩
    | secret | databaseConnection | cloudConnection | gaConnection | kafkaConnection
    | catalogNamespace => cases named
  · rintro ⟨resourceType, -, counted⟩
    by_contra none
    exact counted (countIn_eq_zero_iff.mpr fun row stored named =>
      none ⟨resourceType, row, stored, named⟩)

/-- Visualizations, dashboards and artifacts must not be left in a namespace that goes. -/
theorem noDangling_deleteNamespace_iff (sound : db.NoDangling) (namespaceId : Nat) :
    (db.deleteNamespace namespaceId).NoDangling ↔
      ((db.has .catalogNamespace namespaceId && !db.namespaceNotEmpty namespaceId) = true →
        ∀ resourceType ∈ uncounted, db.countIn resourceType namespaceId = 0) := by
  rw [Database.deleteNamespace]
  split
  case isFalse refused => simp [refused, sound]
  case isTrue checked =>
    have empty := (Bool.not_eq_true' _).mp (Bool.and_eq_true_iff.mp checked).2
    rw [forall_prop_of_true checked,
      noDangling_deleteNamespaceRow_iff (noDangling_deleteGrants sound)]
    change ¬db.Occupied namespaceId ↔ _
    rw [occupied_iff empty]
    simp only [not_exists, not_and, not_not]

theorem noDangling_unscheduled (sound : db.NoDangling) (registrationId : Nat) :
    Database.NoDangling { db with
      triggerTables := db.triggerTables.filter fun link => link.scheduleId ∉
        (db.schedules.filter fun schedule =>
          schedule.registrationId = registrationId).map FlowSchedule.id
      schedules := db.schedules.filter fun schedule =>
        schedule.registrationId ≠ registrationId } := by
  intro kind id refers
  cases refers with
  | grant grant stored => exact sound _ _ (.grant grant stored)
  | readTable link stored => exact sound _ _ (.readTable link stored)
  | readBy link stored => exact sound _ _ (.readBy link stored)
  | triggeredBy link stored => exact sound _ _ (.triggeredBy link (mem_of_mem_filter stored))
  | triggerTable schedule stored _ named =>
    exact sound _ _ (.triggerTable schedule (mem_of_mem_filter stored) _ named)
  | liesIn resourceType row stored _ named =>
    have kept : row ∈ db.rows resourceType := stored
    exact sound _ _ (.liesIn resourceType row kept _ named)
  | triggers link stored =>
    obtain ⟨old, other⟩ := mem_filter.mp stored
    obtain ⟨schedule, scheduled, isIt⟩ := mem_map.mp (sound _ _ (.triggers link old))
    refine mem_map.mpr ⟨schedule, mem_filter.mpr ⟨scheduled, ?_⟩, isIt⟩
    rw [decide_eq_true_eq] at other ⊢
    intro ofFlow
    exact other (mem_map.mpr ⟨schedule, mem_filter.mpr ⟨scheduled, decide_eq_true ofFlow⟩, isIt⟩)

theorem noDangling_deleteFlow_iff (sound : db.NoDangling) (registrationId : Nat) :
    (db.deleteFlow registrationId).NoDangling ↔
      ((db.has .flow registrationId && !db.hasActiveArtifacts registrationId) = true →
        (∀ link ∈ db.readLinks, link.registrationId ≠ registrationId) ∧
          ∀ row ∈ db.rows .globalArtifact, ArtifactRow.sourceRegistrationId row = registrationId →
            ¬db.Granted .globalArtifact (rowId .globalArtifact row)) := by
  rw [Database.deleteFlow]
  split
  case isFalse refused => simp [refused, sound]
  case isTrue checked =>
    have inactive := (Bool.not_eq_true' _).mp (Bool.and_eq_true_iff.mp checked).2
    have deleted : ∀ row ∈ db.rows .globalArtifact,
        ArtifactRow.sourceRegistrationId row = registrationId →
          ArtifactRow.status row = .deleted := by
      intro row stored ofFlow
      have inactiveRow := any_eq_false.mp inactive row stored
      by_contra active
      exact inactiveRow (by simp [ofFlow, active])
    rw [forall_prop_of_true checked]
    dsimp only
    have unscheduled := noDangling_unscheduled sound registrationId
    constructor
    · intro sound'
      constructor
      · intro link stored named
        have refers := sound' _ _ (.readBy link stored)
        exact (mem_ids_delete.mp refers).2 ⟨rfl, named⟩
      · intro row stored ofFlow granted
        have kept := granted_delete_ne
          (granted_deleteGrants_ne granted .flow registrationId (by decide))
          .flow registrationId (by decide)
        have listed := sound' _ _ ((refers_leaf_iff (by decide)).mpr kept)
        refine (mem_ids_bulkDelete.mp (mem_ids_delete.mp listed).1).2 ⟨rfl, row, stored, ?_, rfl⟩
        simp [ofFlow, deleted row stored ofFlow]
    · rintro ⟨unread, ungranted⟩
      refine (noDangling_deleteFlowRow_iff (noDangling_deleteGrants
        ((noDangling_bulkDelete_iff unscheduled (by decide)).mpr ?_)) _).mpr unread
      intro row stored matched
      rw [Bool.and_eq_true_iff, decide_eq_true_eq] at matched
      exact ungranted row stored matched.1

theorem foldl_deleteGrants_eq (resourceType : ResourceType) (ids : List Nat) :
    ids.foldl (fun db id => db.deleteGrantsForResource resourceType id) db =
      { db with grants := db.grants.filter fun grant =>
          !(grant.resourceType = resourceType && grant.resourceId ∈ ids) } := by
  induction ids generalizing db with
  | nil => simp
  | cons id rest ih =>
    rw [foldl_cons, ih]
    simp only [Database.deleteGrantsForResource, filter_filter, mem_cons]
    congr 2
    funext grant
    by_cases ofType : grant.resourceType = resourceType <;>
      by_cases isFirst : grant.resourceId = id <;> simp [ofType, isFirst]

section

variable (sound : db.NoDangling)
include sound

theorem noDangling_deleteCharts (tableId : Nat)
    (ungranted : ∀ id ∈ db.visualizationIds tableId, ¬db.Granted .visualization id) :
    (db.bulkDelete .visualization fun row : VisualizationRow =>
      row.catalogTableId = some tableId).NoDangling := by
  refine (noDangling_bulkDelete_iff sound (by decide)).mpr fun row stored matched => ?_
  exact ungranted _ (mem_map_of_mem (mem_filter.mpr ⟨stored, matched⟩))

/-- Read links and charts go along with a table; schedules must not name it. -/
theorem noDangling_deleteTable_iff (tableId : Nat) : (db.deleteTable tableId).NoDangling ↔
      (db.has .catalogTable tableId = true → ¬db.Triggers tableId) := by
  rw [Database.deleteTable]
  split
  case isFalse refused => simp [refused, sound]
  case isTrue there =>
    rw [forall_prop_of_true there]
    dsimp only
    rw [foldl_deleteGrants_eq]
    have unread : Database.NoDangling { db with
        readLinks := db.readLinks.filter fun link => link.tableId ≠ tableId
        grants := db.grants.filter fun grant => !(grant.resourceType = .visualization &&
          grant.resourceId ∈ db.visualizationIds tableId) } :=
      sound.mono (fun _ _ refers => refers.mono (filter_subset_self _)
        (filter_subset_self _) (List.Subset.refl _) (List.Subset.refl _)
        fun _ => List.Subset.refl _) fun _ _ listed => listed
    have withoutCharts := noDangling_deleteCharts unread tableId
      fun id listed granted => by
        obtain ⟨grant, isLeft, ofType, isRow⟩ := granted
        have gone := (mem_filter.mp isLeft).2
        rw [Bool.not_eq_true', ofType, isRow] at gone
        have charted : id ∈ db.visualizationIds tableId := listed
        simp [charted] at gone
    rw [noDangling_deleteTableRow_iff (noDangling_deleteGrants withoutCharts)]
    refine and_iff_right fun link stored => ?_
    have other := (mem_filter.mp stored).2
    rwa [decide_eq_true_eq] at other

theorem noDangling_deleteItem {resourceType : ResourceType}
    (leaf : resourceType ∉ [.catalogNamespace, .catalogTable, .flow]) (id : Nat) :
    (db.deleteItem resourceType id).NoDangling := by
  rw [Database.deleteItem]
  split
  · exact noDangling_delete (noDangling_deleteGrants sound) leaf
  · exact sound

theorem noDangling_deleteArtifact (artifactId : Nat) :
    (db.deleteArtifact artifactId).NoDangling := by
  rw [Database.deleteArtifact]
  split
  · exact noDangling_softDelete sound
  · exact sound

theorem noDangling_deleteAllVersions (name : String)
    (namespaceId : Option Nat) : (db.deleteAllVersions name namespaceId).NoDangling :=
  List.foldlRecOn (motive := Database.NoDangling) _ _ sound
    fun _ kept _ _ => noDangling_softDelete kept

variable (userId : Nat)

theorem noDangling_deleteSecret (name : String) : (db.deleteSecret userId name).NoDangling := by
  rw [Database.deleteSecret]
  split
  · exact sound
  · exact noDangling_delete (noDangling_deleteGrants sound) (by decide)

theorem noDangling_deleteUserSecret_iff (name : String) :
    (db.deleteUserSecret userId name).NoDangling ↔
      ∀ row ∈ db.rows .secret, SecretRow.name row = name → SecretRow.userId row = userId →
        ¬db.Granted .secret (rowId .secret row) := by
  rw [Database.deleteUserSecret, noDangling_bulkDelete_iff sound (by decide)]
  refine forall_congr' fun row => forall_congr' fun _ => ?_
  rw [Bool.and_eq_true_iff, decide_eq_true_eq, decide_eq_true_eq, and_imp]

theorem noDangling_deleteStoredSecret (secretId : Nat) :
    (db.deleteStoredSecret secretId).NoDangling := by
  rw [Database.deleteStoredSecret]
  split
  · exact noDangling_delete sound (by decide)
  · exact sound

variable (connectionName : String)

theorem noDangling_deleteDatabaseConnection
    : (db.deleteDatabaseConnection userId connectionName).NoDangling := by
  rw [Database.deleteDatabaseConnection]
  split
  · exact sound
  · exact List.foldlRecOn (motive := Database.NoDangling) _ _
      (noDangling_delete (noDangling_deleteGrants sound) (by decide))
      fun _ kept secretId _ => noDangling_deleteStoredSecret kept secretId

theorem noDangling_deleteKafkaConnection (connectionId : Nat) :
    (db.deleteKafkaConnection userId connectionId).NoDangling := by
  rw [Database.deleteKafkaConnection]
  split
  · exact sound
  · exact noDangling_delete (List.foldlRecOn (motive := Database.NoDangling) _ _
      (noDangling_deleteGrants sound) fun _ kept secretId _ =>
        noDangling_deleteStoredSecret kept secretId) (by decide)

theorem noDangling_deleteSchedule (scheduleId : Nat) :
    (db.deleteSchedule scheduleId).NoDangling := by
  have fewer : ∀ kind id, (db.deleteSchedule scheduleId).Refers kind id → db.Refers kind id :=
    fun _ _ refers => refers.mono (List.Subset.refl _) (List.Subset.refl _)
      (filter_subset_self _) (filter_subset_self _) fun _ => List.Subset.refl _
  have left : ∀ kind id, id ∈ (db.deleteSchedule scheduleId).ids kind ↔
      id ∈ db.ids kind ∧ ¬(kind = .schedule ∧ id = scheduleId) := by
    intro kind id
    cases kind with
    | resource resourceType => simp [Database.deleteSchedule, Database.ids]
    | schedule =>
    simp only [Database.deleteSchedule, Database.ids, mem_map, mem_filter,
      decide_eq_true_eq, true_and]
    constructor
    · rintro ⟨schedule, ⟨stored, other⟩, rfl⟩
      exact ⟨⟨schedule, stored, rfl⟩, other⟩
    · rintro ⟨⟨schedule, stored, rfl⟩, other⟩
      exact ⟨schedule, ⟨stored, other⟩, rfl⟩
  refine (sound.remove_iff fewer left).mpr ?_
  rintro kind id ⟨rfl, rfl⟩ refers
  obtain ⟨link, stored, named⟩ := refers_schedule_iff.mp refers
  have other := (mem_filter.mp stored).2
  rw [decide_eq_true_eq] at other
  exact other named

theorem noDangling_bulkDeleteSecrets_iff (secretIds : List Nat) :
    (db.bulkDeleteSecrets secretIds).NoDangling ↔ ∀ id ∈ secretIds, ¬db.Granted .secret id := by
  rw [Database.bulkDeleteSecrets, noDangling_bulkDelete_iff sound (by decide)]
  constructor
  · intro none id listed granted
    obtain ⟨row, stored, rfl⟩ := mem_map.mp
      (sound _ _ ((refers_leaf_iff (by decide)).mpr granted))
    exact none row stored (decide_eq_true listed) granted
  · intro none row _ matched
    exact none _ (of_decide_eq_true matched)

theorem noDangling_deleteCloudConnection_iff :
    (db.deleteCloudConnection userId connectionName).NoDangling ↔
      ∀ row ∈ db.getOwnCloudConnection userId connectionName, ∀ id ∈ row.secretIds,
        ¬db.Granted .secret id := by
  rw [Database.deleteCloudConnection]
  split
  case h_1 missing => simp [missing, sound]
  case h_2 row found =>
    simp only [found, Option.mem_some_iff, forall_eq']
    constructor
    · intro sound' id listed granted
      have kept := granted_delete_ne
        (granted_deleteGrants_ne granted .cloudConnection row.id (by decide))
        .cloudConnection row.id (by decide)
      have there : id ∈ (db.bulkDeleteSecrets row.secretIds).ids (.resource .secret) :=
        (mem_ids_delete.mp (sound' _ _ ((refers_leaf_iff (by decide)).mpr kept))).1
      have left := mem_ids_bulkDelete.mp there
      obtain ⟨secret, stored, rfl⟩ := mem_map.mp left.1
      exact left.2 ⟨rfl, secret, stored, decide_eq_true listed, rfl⟩
    · intro none
      exact noDangling_delete (noDangling_deleteGrants
        ((noDangling_bulkDeleteSecrets_iff sound _).mpr none)) (by decide)

theorem noDangling_deleteGaConnection_iff :
    (db.deleteGaConnection userId connectionName).NoDangling ↔
      ∀ row ∈ db.getOwnGaConnection userId connectionName, ∀ id ∈ row.secretIds,
        ¬db.Granted .secret id := by
  rw [Database.deleteGaConnection]
  split
  case h_1 missing => simp [missing, sound]
  case h_2 row found =>
    rw [noDangling_bulkDeleteSecrets_iff
      (noDangling_delete (noDangling_deleteGrants sound) (by decide))]
    simp only [found, Option.mem_some_iff, forall_eq']
    refine forall_congr' fun id => forall_congr' fun _ => not_congr ?_
    constructor
    · intro granted
      exact (granted_deleteGrants_iff.mp (granted_deleteGrants_iff.mp granted).1).1
    · intro granted
      exact granted_delete_ne (granted_deleteGrants_ne granted _ _ (by decide)) _ _ (by decide)

end

/-- What a request must meet to leave no reference dangling. -/
def Request.Clean (db : Database) : Request → Prop
  | .createVisualization catalogTableId namespaceId =>
    catalogTableId.all (db.has .catalogTable) = true → db.hasNamespace namespaceId = true
  | .createSchedule registrationId scheduleType triggerTableId triggerTableIds =>
    (db.has .flow registrationId &&
        db.validateScheduleCreate triggerTableId triggerTableIds scheduleType) = true →
      triggerTableId.all (db.has .catalogTable) = true
  | .upsertReadLink tableId registrationId =>
    db.has .catalogTable tableId = true ∧ db.has .flow registrationId = true
  | .deleteNamespace namespaceId =>
    (db.has .catalogNamespace namespaceId && !db.namespaceNotEmpty namespaceId) = true →
      ∀ resourceType ∈ uncounted, db.countIn resourceType namespaceId = 0
  | .deleteFlow registrationId =>
    (db.has .flow registrationId && !db.hasActiveArtifacts registrationId) = true →
      (∀ link ∈ db.readLinks, link.registrationId ≠ registrationId) ∧
        ∀ row ∈ db.rows .globalArtifact, ArtifactRow.sourceRegistrationId row = registrationId →
          ¬db.Granted .globalArtifact (rowId .globalArtifact row)
  | .deleteTable tableId => db.has .catalogTable tableId = true → ¬db.Triggers tableId
  | .deleteUserSecret userId name =>
    ∀ row ∈ db.rows .secret, SecretRow.name row = name → SecretRow.userId row = userId →
      ¬db.Granted .secret (rowId .secret row)
  | .deleteCloudConnection userId connectionName =>
    ∀ row ∈ db.getOwnCloudConnection userId connectionName, ∀ id ∈ row.secretIds,
      ¬db.Granted .secret id
  | .deleteGaConnection userId connectionName =>
    ∀ row ∈ db.getOwnGaConnection userId connectionName, ∀ id ∈ row.secretIds,
      ¬db.Granted .secret id
  | _ => True

theorem noDangling_perform_iff (sound : db.NoDangling) (request : Request) :
    (db.perform request).NoDangling ↔ request.Clean db := by
  cases request with
  | createNamespace ownerId parentId =>
    exact iff_true_intro (noDangling_createNamespace sound ownerId parentId)
  | registerFlow | registerTable | createDashboard | createNotebook =>
    exact iff_true_intro (noDangling_addChecked sound rfl rfl)
  | createVisualization => exact noDangling_createVisualization_iff sound _ _
  | prepareUpload => exact iff_true_intro (noDangling_prepareUpload sound _ _ _ _)
  | finalizeUpload => exact iff_true_intro (noDangling_finalizeUpload sound _ _)
  | storeSecret => exact iff_true_intro (noDangling_storeSecret sound _ _)
  | createConnection => exact iff_true_intro (noDangling_createConnection sound _ _ _ _)
  | createShare => exact iff_true_intro (noDangling_createShare sound _)
  | createSchedule => exact noDangling_createSchedule_iff sound _ _ _ _
  | upsertReadLink => exact noDangling_upsertReadLink_iff sound _ _
  | deleteShare => exact iff_true_intro (noDangling_deleteShare sound _)
  | deleteNamespace => exact noDangling_deleteNamespace_iff sound _
  | deleteFlow => exact noDangling_deleteFlow_iff sound _
  | deleteTable => exact noDangling_deleteTable_iff sound _
  | deleteVisualization | deleteDashboard | deleteNotebook =>
    exact iff_true_intro (noDangling_deleteItem sound (by decide) _)
  | deleteArtifact => exact iff_true_intro (noDangling_deleteArtifact sound _)
  | deleteAllVersions => exact iff_true_intro (noDangling_deleteAllVersions sound _ _)
  | deleteSecret => exact iff_true_intro (noDangling_deleteSecret sound _ _)
  | deleteUserSecret => exact noDangling_deleteUserSecret_iff sound _ _
  | deleteDatabaseConnection =>
    exact iff_true_intro (noDangling_deleteDatabaseConnection sound _ _)
  | deleteCloudConnection => exact noDangling_deleteCloudConnection_iff sound _ _
  | deleteGaConnection => exact noDangling_deleteGaConnection_iff sound _ _
  | deleteKafkaConnection => exact iff_true_intro (noDangling_deleteKafkaConnection sound _ _)
  | deleteSchedule => exact iff_true_intro (noDangling_deleteSchedule sound _)

/-- A request that passes its other checks meets its condition. -/
def Attempt.Clean (db : Database) (attempt : Attempt) : Prop :=
  attempt.passes = true → attempt.request.Clean db

theorem noDangling_attempt_iff (sound : db.NoDangling) (attempt : Attempt) :
    (db.attempt attempt).NoDangling ↔ attempt.Clean db := by
  rw [Database.attempt, Attempt.Clean]
  split
  case isTrue passes => rw [forall_prop_of_true passes, noDangling_perform_iff sound]
  case isFalse refused => simp [refused, sound]

def secretGrant : ResourceGrant :=
  ⟨.secret, 1, 7, .use, some 1⟩

/-- A user stores a connection to a cloud with a secret, shares the secret with a group, and deletes
the connection. -/
def sharedThenDeleted : List Attempt :=
  [⟨.createConnection .cloud 1 "lake" ["lake_key"], true⟩, ⟨.createShare secretGrant, true⟩,
    ⟨.deleteCloudConnection 1 "lake", true⟩]

/-- Another user stores a secret afterwards. -/
def reissued : Database :=
  (sharedThenDeleted.foldl Database.attempt Database.empty).attempt
    ⟨.storeSecret 2 "other", true⟩

theorem noDangling_empty : Database.empty.NoDangling := by
  intro kind id refers
  cases refers with
  | grant _ stored | readTable _ stored | readBy _ stored | triggers _ stored
  | triggeredBy _ stored | triggerTable _ stored | liesIn _ _ stored => cases stored

def sharedTableDeleted : List Attempt :=
  [⟨.createNamespace 1 none, true⟩, ⟨.registerTable 1 (some 1), true⟩,
    ⟨.createShare ⟨.catalogTable, 1, 7, .use, some 1⟩, true⟩, ⟨.deleteTable 1, true⟩,
    ⟨.storeSecret 1 "key", true⟩]

end Flowfile.CatalogRows

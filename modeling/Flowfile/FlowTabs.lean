import Flowfile.FlowSnapshots
import Flowfile.Library.EventRuns
import Mathlib.Data.List.InsertIdx
import Mathlib.Data.List.Perm.Subperm

/-!
# Tabs of open flows

Only the active flow is edited; of every other tab there is a snapshot. Leaving a tab captures the
active flow, activating one loads its snapshot. What the tabs are for are flows that are open side
by side: each is what it was last edited to be, whichever is active.

The tabs hold these flows in every run in which each flow that is left has nothing but what is
saved of it, every file that is opened either is rejected before the import or is read to its end,
and no new tab has the id of another.
-/

namespace Flowfile.BrowserTabs

open BrowserStore Library.Dictionaries Library.EventRuns Library.PartialLists List
open Library.WrittenNumbers

variable {F : Type}

/-- Code points of the characters that are trimmed. -/
def whitespace : List Nat :=
  [9, 10, 11, 12, 13, 32, 160, 5760, 8192, 8193, 8194, 8195, 8196, 8197, 8198, 8199, 8200, 8201,
    8202, 8232, 8233, 8239, 8287, 12288, 65279]

def trim (name : String) : String :=
  let start := name.toList.dropWhile fun c => c.toNat ∈ whitespace
  String.ofList (start.reverse.dropWhile fun c => c.toNat ∈ whitespace).reverse

/-- The first name that no tab has. -/
def uniqueUntitledName (names : List String) : String :=
  let base := "Untitled Flow"
  if base ∉ names then base
  else (((List.range (names.length + 1)).map fun n => base ++ (" " ++ toString (n + 2))).find?
    fun name => name ∉ names).getD base

theorem uniqueUntitledName_free (names : List String) : uniqueUntitledName names ∉ names := by
  rw [uniqueUntitledName]
  split
  case isTrue free => exact free
  case isFalse =>
    cases found : ((List.range (names.length + 1)).map fun n =>
        "Untitled Flow" ++ (" " ++ toString (n + 2))).find? fun name => name ∉ names with
    | some name =>
      have free := List.find?_some found
      exact of_decide_eq_true free
    | none =>
      exfalso
      have taken : ((List.range (names.length + 1)).map fun n =>
          "Untitled Flow" ++ (" " ++ toString (n + 2))) ⊆ names := by
        intro name mem
        have free := List.find?_eq_none.mp found name mem
        simpa using free
      have distinct : ((List.range (names.length + 1)).map fun n =>
          "Untitled Flow" ++ (" " ++ toString (n + 2))).Nodup := by
        refine nodup_range.map fun first second same => ?_
        have written := (String.append_right_inj _).mp ((String.append_right_inj _).mp same)
        exact Nat.add_right_cancel (toString_injective written)
      have short := (distinct.subperm taken).length_le
      rw [length_map, length_range] at short
      exact Nat.not_succ_le_self _ short

/-- Nodes that read a file are looked through for files that are missing; one without settings
raises an error. -/
def missingFilesFound (flow : LiveFlow F) : Bool :=
  flow.nodes.entries.all fun entry => entry.2.type ≠ "read" || entry.2.settings.isSome

def loadFlowfile (data : FlowfileData) (flow : LiveFlow F) : LiveFlow F × Bool :=
  let imported := importFromFlowfile data flow
  (imported.1, imported.2 && missingFilesFound imported.1)

structure Tab (F : Type) extends FlowStateSnapshot F where
  id : String

structure TabStore (F : Type) where
  tabs : List (Tab F)
  activeTabId : String
  flowStore : LiveFlow F

inductive Event (F : Type)
  /-- The active flow is edited to another. -/
  | edit (flow : LiveFlow F)
  | switchTab (id : String)
  | newTab (newId : String)
  /-- A loader leaves a flow and tells whether it succeeded. -/
  | openWith (newId : String) (loaded : LiveFlow F) (ok : Bool)
  /-- Open a file; one that cannot be parsed has no data. -/
  | openFile (newId : String) (file : Option FlowfileData)
  | closeTab (id : String) (confirmed : Bool) (newId : String)
  | renameTab (id : String) (name : String)

namespace TabStore

variable (store : TabStore F)

def ids : List String := store.tabs.map Tab.id

def activeTab : Option (Tab F) :=
  store.tabs.find? fun tab => tab.id = store.activeTabId

def captureActive : Option (TabStore F) :=
  match store.activeTab with
  | none => some store
  | some _ => store.flowStore.captureSnapshot.map fun snap =>
    { store with tabs := store.tabs.map fun tab =>
        if tab.id = store.activeTabId then { snap with id := tab.id } else tab }

def load (tab : Tab F) : TabStore F :=
  { store with
    activeTabId := tab.id
    flowStore := loadFromSnapshot tab.toFlowStateSnapshot store.flowStore }

def adopt (newId : String) (flow : LiveFlow F) : TabStore F :=
  match flow.captureSnapshot with
  | none => { store with flowStore := flow }
  | some snap =>
    { tabs := store.tabs ++ [{ snap with id := newId }], activeTabId := newId, flowStore := flow }

def tabHasContent (tab : Tab F) : Bool :=
  if tab.id = store.activeTabId then !store.flowStore.nodes.entries.isEmpty
  else !tab.snapshot.nodes.isEmpty

def switchTab (id : String) : TabStore F :=
  if id = store.activeTabId then store
  else match store.tabs.find? fun tab => tab.id = id with
    | none => store
    | some target =>
      match store.captureActive with
      | none => store
      | some captured => captured.load target

def newTab (newId : String) : TabStore F :=
  match store.captureActive with
  | none => store
  | some captured =>
    captured.adopt newId (.blank (uniqueUntitledName (captured.tabs.map fun tab => tab.name)))

/-- A loader that fails is undone from the snapshot. -/
def openWith (newId : String) (loaded : LiveFlow F) (ok : Bool) : TabStore F :=
  match store.captureActive with
  | none => store
  | some captured =>
    if ok then captured.adopt newId loaded
    else match captured.activeTab with
      | none => { captured with flowStore := loaded }
      | some previous => { captured with
          flowStore := loadFromSnapshot previous.toFlowStateSnapshot loaded }

/-- An import that fails is not undone. -/
def openFile (newId : String) (file : Option FlowfileData) : TabStore F :=
  match store.captureActive with
  | none => store
  | some captured =>
    match file with
    | none => captured
    | some data =>
      let imported := loadFlowfile data captured.flowStore
      if imported.2 then captured.adopt newId imported.1
      else { captured with flowStore := imported.1 }

/-- When the last tab is closed there is a new one; otherwise a neighbour is active. -/
def closeTab (id : String) (confirmed : Bool) (newId : String) : TabStore F :=
  match store.tabs[store.ids.idxOf id]? with
  | none => store
  | some tab =>
    if store.tabHasContent tab && !confirmed then store
    else
      let kept := { store with tabs := store.tabs.eraseIdx (store.ids.idxOf id) }
      match kept.tabs[min (store.ids.idxOf id) (kept.tabs.length - 1)]? with
      | none => kept.adopt newId (.blank "Untitled Flow")
      | some next => if id = store.activeTabId then kept.load next else kept

def renameTab (id name : String) : TabStore F :=
  if id ∉ store.ids ∨ trim name = "" then store
  else { store with
    tabs := store.tabs.map fun tab => if tab.id = id then { tab with name := trim name } else tab
    flowStore := if id = store.activeTabId then { store.flowStore with name := trim name }
      else store.flowStore }

def step : Event F → TabStore F
  | .edit flow => { store with flowStore := flow }
  | .switchTab id => store.switchTab id
  | .newTab newId => store.newTab newId
  | .openWith newId loaded ok => store.openWith newId loaded ok
  | .openFile newId file => store.openFile newId file
  | .closeTab id confirmed newId => store.closeTab id confirmed newId
  | .renameTab id name => store.renameTab id name

end TabStore

/-- What the tabs are for. -/
structure OpenFlows (F : Type) where
  flows : List (String × LiveFlow F)
  active : String

namespace OpenFlows

variable (open_ : OpenFlows F)

def ids : List String := open_.flows.map Prod.fst

def change (id : String) (change : LiveFlow F → LiveFlow F) : OpenFlows F :=
  { open_ with flows := open_.flows.map fun entry =>
      if entry.1 = id then (entry.1, change entry.2) else entry }

def add (newId : String) (flow : LiveFlow F) : OpenFlows F :=
  ⟨open_.flows ++ [(newId, flow)], newId⟩

def openFile (newId : String) : Option FlowfileData → OpenFlows F
  | none => open_
  | some data =>
    let imported := loadFlowfile data (.blank "Untitled Flow")
    if imported.2 then open_.add newId imported.1 else open_

def closeTab (id : String) (confirmed : Bool) (newId : String) : OpenFlows F :=
  match open_.flows[open_.ids.idxOf id]? with
  | none => open_
  | some entry =>
    if !entry.2.nodes.entries.isEmpty && !confirmed then open_
    else
      let kept := open_.flows.eraseIdx (open_.ids.idxOf id)
      match kept[min (open_.ids.idxOf id) (kept.length - 1)]? with
      | none => OpenFlows.add ⟨kept, open_.active⟩ newId (.blank "Untitled Flow")
      | some next => ⟨kept, if id = open_.active then next.1 else open_.active⟩

def step : Event F → OpenFlows F
  | .edit flow => open_.change open_.active fun _ => flow
  | .switchTab id => if id ∈ open_.ids then { open_ with active := id } else open_
  | .newTab newId =>
    open_.add newId (.blank (uniqueUntitledName (open_.flows.map fun entry => entry.2.name)))
  | .openWith newId loaded ok => if ok then open_.add newId loaded else open_
  | .openFile newId file => open_.openFile newId file
  | .closeTab id confirmed newId => open_.closeTab id confirmed newId
  | .renameTab id name =>
    if trim name = "" then open_ else open_.change id fun flow => { flow with name := trim name }

end OpenFlows

/-- The tabs are those of the open flows, the active flow is the one that is edited, and every other
tab loads as its flow, whatever is loaded over. -/
structure Lossless (store : TabStore F) (open_ : OpenFlows F) : Prop where
  ids : store.ids = open_.ids
  active : store.activeTabId = open_.active
  live : ∃ flow, (open_.active, flow) ∈ open_.flows ∧ Same store.flowStore flow
  stashed : ∀ tab ∈ store.tabs, tab.id ≠ store.activeTabId → ∃ flow, (tab.id, flow) ∈ open_.flows ∧
      ∀ former, Same (loadFromSnapshot tab.toFlowStateSnapshot former) flow

/-- Every entry of the data is a node with settings. -/
def FlowfileData.Readable (data : FlowfileData) : Prop :=
  ∀ entry ∈ data.nodes, ∃ saved, entry = some saved ∧ saved.settingInput.isSome

/-- A flow that is left has nothing but what is saved of it; data that is imported can be read, and
a loader leaves nodes with settings; the id of a new tab is new. -/
def TabStore.Keeps (store : TabStore F) : Event F → Prop
  | .switchTab id => id = store.activeTabId ∨ id ∉ store.ids ∨ store.flowStore.Restorable
  | .newTab newId => newId ∉ store.ids ∧ store.flowStore.Restorable
  | .openWith newId loaded ok => store.flowStore.Restorable ∧
      (ok → newId ∉ store.ids ∧ ∀ entry ∈ loaded.nodes.entries, entry.2.settings.isSome)
  | .openFile newId (some data) => newId ∉ store.ids ∧ store.flowStore.Restorable ∧ data.Readable
  | _ => True

abbrev Session (F : Type) := TabStore F × OpenFlows F

namespace Session

/-- One tab with an empty flow. -/
def start (id : String) : Session F :=
  (⟨[⟨⟨"Untitled Flow", none, ⟨"Untitled Flow", [], []⟩, fun _ => none, 0⟩, id⟩], id,
      .blank "Untitled Flow"⟩,
    ⟨[(id, .blank "Untitled Flow")], id⟩)

def step (session : Session F) (event : Event F) : Session F :=
  (session.1.step event, session.2.step event)

def Lossless (session : Session F) : Prop :=
  BrowserTabs.Lossless session.1 session.2

def Keeps (session : Session F) (event : Event F) : Prop :=
  session.1.Keeps event

end Session

structure Agrees (store : TabStore F) (open_ : OpenFlows F) : Prop where
  ids : store.ids = open_.ids
  distinct : open_.ids.Nodup
  active : store.activeTabId = open_.active
  live : ∃ flow, (open_.active, flow) ∈ open_.flows ∧ Same store.flowStore flow
  held : ∀ tab ∈ store.tabs, ∀ flow, (tab.id, flow) ∈ open_.flows → tab.id ≠ store.activeTabId →
    Holds tab.toFlowStateSnapshot flow

structure HoldsAll (tabs : List (Tab F)) (open_ : OpenFlows F) : Prop where
  ids : tabs.map Tab.id = open_.ids
  distinct : open_.ids.Nodup
  held : ∀ tab ∈ tabs, ∀ flow, (tab.id, flow) ∈ open_.flows → Holds tab.toFlowStateSnapshot flow

variable {id : String} {tabs : List (Tab F)} {tab : Tab F} {newId : String} {flow : LiveFlow F}
  {flows : List (String × LiveFlow F)}

section

variable {store captured : TabStore F} {open_ : OpenFlows F}

theorem flow_unique (distinct : open_.ids.Nodup) {first second : LiveFlow F}
    (here : (id, first) ∈ open_.flows) (there : (id, second) ∈ open_.flows) : first = second := by
  have same := inj_on_of_nodup_map distinct here there rfl
  exact congrArg Prod.snd same

theorem exists_flow (ids : tabs.map Tab.id = open_.ids)
    (mem : tab ∈ tabs) : ∃ flow, (tab.id, flow) ∈ open_.flows := by
  have named : tab.id ∈ open_.ids := ids ▸ mem_map_of_mem mem
  obtain ⟨⟨id, flow⟩, found, same⟩ := mem_map.mp named
  exact ⟨flow, by rw [← same]; exact found⟩

theorem Agrees.lossless (agrees : Agrees store open_) : Lossless store open_ :=
  { agrees with
    stashed tab mem inactive := by
      obtain ⟨flow, found⟩ := exists_flow agrees.ids mem
      exact ⟨flow, found, (agrees.held tab mem flow found inactive).restored⟩ }

theorem agrees_start (id : String) : Agrees (Session.start id : Session F).1
    (Session.start id).2 where
  ids := rfl
  distinct := nodup_singleton _
  active := rfl
  live := ⟨_, mem_singleton_self _, .refl _⟩
  held tab mem flow _ inactive := by
    rw [mem_singleton.mp mem] at inactive
    exact absurd rfl inactive

theorem Agrees.capture (agrees : Agrees store open_) (restorable : store.flowStore.Restorable) :
    ∃ captured, store.captureActive = some captured ∧ HoldsAll captured.tabs open_ ∧
      captured.activeTabId = store.activeTabId ∧ captured.flowStore = store.flowStore ∧
      ∀ tab ∈ store.tabs, tab.id ≠ store.activeTabId → tab ∈ captured.tabs := by
  obtain ⟨snap, taken, holds⟩ := restorable.holds
  obtain ⟨flow, found, same⟩ := agrees.live
  have named : store.activeTabId ∈ store.ids := by
    rw [agrees.ids, agrees.active]
    exact mem_map_of_mem found
  obtain ⟨tab, mem, isActive⟩ := mem_map.mp named
  have inTab : ∃ current, store.activeTab = some current := by
    cases search : store.activeTab with
    | some current => exact ⟨current, rfl⟩
    | none => exact absurd (decide_eq_true isActive) (List.find?_eq_none.mp search tab mem)
  obtain ⟨current, currentFound⟩ := inTab
  have captured : store.captureActive = some { store with tabs := store.tabs.map fun tab =>
      if tab.id = store.activeTabId then { snap with id := tab.id } else tab } := by
    rw [TabStore.captureActive, currentFound, taken]
    rfl
  refine ⟨_, captured, ⟨?_, agrees.distinct, ?_⟩, rfl, rfl, fun tab mem inactive =>
    mem_map.mpr ⟨tab, mem, if_neg inactive⟩⟩
  · rw [map_map, ← agrees.ids]
    refine map_congr_left fun tab _ => ?_
    rw [Function.comp_apply]
    split <;> rfl
  · intro after afterMember other there
    obtain ⟨before, beforeMember, rfl⟩ := mem_map.mp afterMember
    split at there
    case isTrue here =>
      rw [if_pos here]
      have here' : (open_.active, other) ∈ open_.flows := by
        rw [← agrees.active, ← here]
        exact there
      rw [flow_unique agrees.distinct here' found]
      exact holds.trans same
    case isFalse apart =>
      rw [if_neg apart]
      exact agrees.held before beforeMember other there apart

theorem HoldsAll.agrees_load (all : HoldsAll tabs open_) (mem : tab ∈ tabs) (former : LiveFlow F) :
    Agrees ⟨tabs, tab.id, loadFromSnapshot tab.toFlowStateSnapshot former⟩
      { open_ with active := tab.id } :=
  { all with
    active := rfl
    live := by
      obtain ⟨flow, found⟩ := exists_flow all.ids mem
      exact ⟨flow, found, (all.held tab mem flow found).restored _⟩
    held other otherMember flow found _ := all.held other otherMember flow found }

theorem HoldsAll.agrees_adopt (all : HoldsAll captured.tabs open_) (new : newId ∉ open_.ids)
    {snap : FlowStateSnapshot F} (taken : flow.captureSnapshot = some snap) :
    Agrees (captured.adopt newId flow) (open_.add newId flow) := by
  rw [TabStore.adopt, taken]
  refine ⟨?_, ?_, rfl, ⟨flow, mem_append_right _ mem_cons_self, .refl _⟩, ?_⟩
  · rw [TabStore.ids, map_append, all.ids, OpenFlows.ids, OpenFlows.ids, OpenFlows.add, map_append]
    rfl
  · rw [OpenFlows.ids, OpenFlows.add, map_append]
    refine nodup_append.mpr ⟨all.distinct, nodup_singleton _, ?_⟩
    rintro first mem second last rfl
    obtain rfl : first = newId := mem_singleton.mp last
    exact new mem
  · intro tab mem other found inactive
    rcases mem_append.mp mem with mem | last
    · rcases mem_append.mp found with found | here
      · exact all.held tab mem other found
      · exact absurd (congrArg Prod.fst (mem_singleton.mp here)) inactive
    · rw [mem_singleton.mp last] at inactive
      exact absurd rfl inactive

theorem map_congr_of_ids {β : Type} {read : Tab F → β} {view : LiveFlow F → β}
    (ids : tabs.map Tab.id = flows.map Prod.fst)
    (same : ∀ tab ∈ tabs, ∀ flow, (tab.id, flow) ∈ flows → read tab = view flow) :
    tabs.map read = flows.map fun entry => view entry.2 := by
  induction flows generalizing tabs with
  | nil =>
    rw [map_nil, map_eq_nil_iff] at ids
    rw [ids]
    rfl
  | cons entry rest ih =>
    cases tabs with
    | nil => cases ids
    | cons tab others =>
    obtain ⟨id, later⟩ := List.cons.inj ids
    rw [map_cons, map_cons, ih later fun other mem flow found =>
      same other (mem_cons_of_mem _ mem) flow (mem_cons_of_mem _ found)]
    rw [same tab mem_cons_self entry.2 (by rw [id]; exact mem_cons_self)]

theorem captureSnapshot_returns (settings : ∀ entry ∈ flow.nodes.entries, entry.2.settings.isSome) :
    ∃ snap, flow.captureSnapshot = some snap := by
  have each : ∀ entry ∈ flow.nodes.entries, ∃ saved, flow.exportNode entry = some saved := by
    intro entry mem
    obtain ⟨fields, present⟩ := Option.isSome_iff_exists.mp (settings entry mem)
    have description : ∃ description, exportedDescription entry.2 = some description := by
      rw [exportedDescription, present]
      split <;> exact ⟨_, rfl⟩
    have reference : ∃ reference, exportedReference entry.2 = some reference := by
      rw [exportedReference, present]
      split <;> exact ⟨_, rfl⟩
    obtain ⟨_, description⟩ := description
    obtain ⟨_, reference⟩ := reference
    exact ⟨_, by rw [LiveFlow.exportNode, description, reference]; rfl⟩
  obtain ⟨saved, exported⟩ := mapM_returns flow.exportNode flow.nodes.entries each
  exact ⟨_, by rw [LiveFlow.captureSnapshot, LiveFlow.exportToFlowfile, exported]; rfl⟩

theorem saved_of_readable {nodes : List (Option SavedNode)}
    (readable : ∀ entry ∈ nodes, ∃ saved, entry = some saved ∧ saved.settingInput.isSome) :
    ∃ saved : List SavedNode, nodes = saved.map some ∧
      ∀ node ∈ saved, node.settingInput.isSome := by
  induction nodes with
  | nil => exact ⟨[], rfl, nofun⟩
  | cons entry rest ih =>
    obtain ⟨first, rfl, filled⟩ := readable entry mem_cons_self
    obtain ⟨later, rfl, others⟩ := ih fun other mem =>
      readable other (mem_cons_of_mem _ mem)
    refine ⟨first :: later, rfl, fun node mem => ?_⟩
    rcases mem_cons.mp mem with rfl | mem
    · exact filled
    · exact others node mem

/-- Data that can be read to its end is imported over any flow alike. -/
theorem FlowfileData.Readable.loaded {data : FlowfileData} (readable : data.Readable) :
    ∃ flow : LiveFlow F, (∀ former, loadFlowfile data former = (flow, true)) ∧
      ∃ snap, flow.captureSnapshot = some snap := by
  obtain ⟨saved, nodes, filled⟩ := saved_of_readable readable
  have imported : ∀ former : LiveFlow F, importFromFlowfile data former =
      ((importFromFlowfile data (.blank "")).1, true) := by
    intro former
    rw [importFromFlowfile, importFromFlowfile, nodes, importNodes_some]
    rfl
  have built : (importFromFlowfile data (.blank "" : LiveFlow F)).1.nodes =
      Dictionary.empty.setAll (saved.map fun node => (node.id, importNode node)) := by
    rw [importFromFlowfile, nodes, importNodes_some]
    rfl
  have settings : ∀ entry ∈ (importFromFlowfile data (.blank "" : LiveFlow F)).1.nodes.entries,
      entry.2.settings.isSome := by
    intro entry mem
    have found : _ = some entry.2 := Dictionary.mem_entries_iff.mp mem
    rw [built] at found
    rcases Dictionary.get_setAll found with impossible | mem
    · cases impossible
    · obtain ⟨node, nodeMember, written⟩ := mem_map.mp mem
      rw [← congrArg Prod.snd written, importNode, Option.isSome_map]
      exact filled node nodeMember
  refine ⟨_, fun former => ?_, captureSnapshot_returns settings⟩
  have complete : missingFilesFound (importFromFlowfile data (.blank "" : LiveFlow F)).1 = true :=
    all_eq_true.mpr fun entry mem => by rw [settings entry mem, Bool.or_true]
  rw [loadFlowfile, imported former]
  dsimp only
  rw [complete]
  rfl

theorem mem_change {other : String} {change : LiveFlow F → LiveFlow F} :
    (other, flow) ∈ (open_.change id change).flows ↔ ∃ before, (other, before) ∈ open_.flows ∧
      flow = if other = id then change before else before := by
  rw [OpenFlows.change, mem_map]
  constructor
  · rintro ⟨⟨key, before⟩, mem, same⟩
    dsimp only at same
    split at same
    case isTrue here =>
      obtain ⟨rfl, rfl⟩ := Prod.mk.inj same
      exact ⟨before, mem, (if_pos here).symm⟩
    case isFalse apart =>
      cases same
      exact ⟨_, mem, (if_neg apart).symm⟩
  · rintro ⟨before, mem, rfl⟩
    refine ⟨(other, before), mem, ?_⟩
    dsimp only
    split <;> rfl

theorem ids_change (id : String) (change : LiveFlow F → LiveFlow F) :
    (open_.change id change).ids = open_.ids := by
  rw [OpenFlows.ids, OpenFlows.change, map_map]
  refine map_congr_left fun entry _ => ?_
  rw [Function.comp_apply]
  split <;> rfl

theorem active_change (id : String) (change : LiveFlow F → LiveFlow F) :
    (open_.change id change).active = open_.active := rfl

theorem change_absent (absent : id ∉ open_.ids)
    (change : LiveFlow F → LiveFlow F) : open_.change id change = open_ := by
  have same : (open_.flows.map fun entry =>
      if entry.1 = id then (entry.1, change entry.2) else entry) = open_.flows := by
    conv_rhs => rw [← map_id open_.flows]
    refine map_congr_left fun entry mem => if_neg fun here => absent ?_
    rw [← here]
    exact mem_map_of_mem mem
  rw [OpenFlows.change, same]

section

variable (agrees : Agrees store open_)
include agrees

theorem Agrees.edit (flow : LiveFlow F) :
    Agrees (store.step (.edit flow)) (open_.step (.edit flow)) where
  ids := agrees.ids.trans (ids_change _ _).symm
  distinct := by
    rw [OpenFlows.step, ids_change]
    exact agrees.distinct
  active := agrees.active
  live := by
    obtain ⟨before, found, _⟩ := agrees.live
    exact ⟨flow, mem_change.mpr ⟨before, found, (if_pos rfl).symm⟩, .refl _⟩
  held tab mem other found inactive := by
    obtain ⟨before, there, rfl⟩ := mem_change.mp found
    rw [if_neg fun same => inactive (same.trans agrees.active.symm)]
    exact agrees.held tab mem before there inactive

theorem Agrees.switchTab (keeps : store.Keeps (.switchTab id)) :
    Agrees (store.step (.switchTab id)) (open_.step (.switchTab id)) := by
  rw [TabStore.step, TabStore.switchTab, OpenFlows.step]
  by_cases isActive : id = store.activeTabId
  · obtain ⟨flow, found, _⟩ := agrees.live
    have present : id ∈ open_.ids := by
      rw [isActive, agrees.active]
      exact mem_map_of_mem found
    rw [if_pos isActive, if_pos present, isActive, agrees.active]
    exact agrees
  rw [if_neg isActive]
  cases search : store.tabs.find? fun tab => tab.id = id with
  | none =>
    have absent : id ∉ open_.ids := by
      rw [← agrees.ids]
      intro named
      obtain ⟨tab, mem, same⟩ := mem_map.mp named
      exact absurd (decide_eq_true same) (List.find?_eq_none.mp search tab mem)
    rw [if_neg absent]
    exact agrees
  | some target =>
    have mem := mem_of_find?_eq_some search
    have named : target.id = id := by simpa using List.find?_some search
    have present : id ∈ store.ids := named ▸ mem_map_of_mem mem
    have restorable := (keeps.resolve_left isActive).resolve_left (not_not_intro present)
    obtain ⟨captured, taken, all, _, _, kept⟩ := agrees.capture restorable
    rw [taken, if_pos (agrees.ids ▸ present), ← named]
    exact all.agrees_load (kept target mem (named ▸ isActive)) captured.flowStore

theorem Agrees.newTab (new : newId ∉ store.ids) (restorable : store.flowStore.Restorable) :
    Agrees (store.step (.newTab newId)) (open_.step (.newTab newId)) := by
  obtain ⟨captured, taken, all, _⟩ := agrees.capture restorable
  have names : (captured.tabs.map fun tab => tab.name) =
      open_.flows.map fun entry => entry.2.name :=
    map_congr_of_ids all.ids fun tab mem flow found => (all.held tab mem flow found).name
  rw [TabStore.step, TabStore.newTab, taken, OpenFlows.step, ← names]
  exact all.agrees_adopt (agrees.ids ▸ new) rfl

theorem Agrees.openWith {loaded : LiveFlow F}
    {ok : Bool} (keeps : store.Keeps (.openWith newId loaded ok)) :
    Agrees (store.step (.openWith newId loaded ok)) (open_.step (.openWith newId loaded ok)) := by
  obtain ⟨captured, taken, all, sameActive, _⟩ := agrees.capture keeps.1
  rw [TabStore.step, TabStore.openWith, taken, OpenFlows.step]
  cases ok with
  | true =>
    obtain ⟨new, settings⟩ := keeps.2 rfl
    obtain ⟨snap, taken⟩ := captureSnapshot_returns settings
    exact all.agrees_adopt (agrees.ids ▸ new) taken
  | false =>
  obtain ⟨flow, found, _⟩ := agrees.live
  cases search : captured.activeTab with
  | none =>
    have named : open_.active ∈ captured.tabs.map Tab.id :=
      all.ids ▸ mem_map_of_mem found
    obtain ⟨tab, mem, same⟩ := mem_map.mp named
    have isActive : tab.id = captured.activeTabId :=
      same.trans (agrees.active.symm.trans sameActive.symm)
    exact absurd (decide_eq_true isActive) (List.find?_eq_none.mp search tab mem)
  | some previous =>
    have mem := mem_of_find?_eq_some search
    have isActive : previous.id = captured.activeTabId := by simpa using List.find?_some search
    have restored := all.agrees_load mem loaded
    rw [isActive, sameActive, agrees.active] at restored
    dsimp only
    rw [if_neg Bool.false_ne_true, search]
    dsimp only
    rw [sameActive, agrees.active]
    exact restored

theorem Agrees.of_capture
    (taken : store.captureActive = some captured) : Agrees captured open_ := by
  rw [TabStore.captureActive] at taken
  split at taken
  · exact Option.some.inj taken ▸ agrees
  obtain ⟨snap, _, rfl⟩ := Option.map_eq_some_iff.mp taken
  refine ⟨?_, agrees.distinct, agrees.active, agrees.live, fun after mem flow there inactive =>
    ?_⟩
  · rw [TabStore.ids, map_map, ← agrees.ids]
    refine map_congr_left fun tab _ => ?_
    rw [Function.comp_apply]
    split <;> rfl
  · obtain ⟨before, beforeMember, rfl⟩ := mem_map.mp mem
    split at there
    case isTrue here =>
      rw [if_pos here] at inactive
      exact absurd here inactive
    case isFalse apart =>
      rw [if_neg apart]
      exact agrees.held before beforeMember flow there apart

theorem Agrees.openFile {file : Option FlowfileData} (keeps : store.Keeps (.openFile newId file)) :
    Agrees (store.step (.openFile newId file)) (open_.step (.openFile newId file)) := by
  rw [TabStore.step, TabStore.openFile, OpenFlows.step]
  cases file with
  | none =>
    cases taken : store.captureActive with
    | none => exact agrees
    | some captured => exact agrees.of_capture taken
  | some data =>
  obtain ⟨new, restorable, readable⟩ := keeps
  obtain ⟨captured, taken, all, _⟩ := agrees.capture restorable
  obtain ⟨flow, loaded, snap, capturable⟩ := readable.loaded (F := F)
  rw [taken, OpenFlows.openFile]
  dsimp only
  rw [loaded, loaded]
  exact all.agrees_adopt (agrees.ids ▸ new) capturable

theorem Agrees.tabHasContent (mem : tab ∈ store.tabs) (found : (tab.id, flow) ∈ open_.flows) :
    store.tabHasContent tab = !flow.nodes.entries.isEmpty := by
  rw [TabStore.tabHasContent]
  split
  case isTrue isActive =>
    obtain ⟨live, there, same⟩ := agrees.live
    rw [isActive, agrees.active] at found
    rw [flow_unique agrees.distinct found there]
    congr 1
    rw [Bool.eq_iff_iff, List.isEmpty_iff, List.isEmpty_iff, entries_eq_nil_iff, entries_eq_nil_iff]
    exact forall_congr' fun id => by rw [same.nodes id]
  case isFalse inactive =>
    have blank := (agrees.held tab mem flow found inactive).blank
    congr 1
    rw [Bool.eq_iff_iff, List.isEmpty_iff, List.isEmpty_iff, entries_eq_nil_iff]
    exact blank

end

theorem getElem?_of_ids (ids : tabs.map Tab.id = flows.map Prod.fst) (i : Nat) :
    tabs[i]?.map Tab.id = flows[i]?.map Prod.fst := by
  rw [← List.getElem?_map, ids, List.getElem?_map]

section

variable (agrees : Agrees store open_)
include agrees

theorem Agrees.erased {place : Nat} (found : store.tabs[place]? = some tab) :
    (store.tabs.eraseIdx place).map Tab.id = (open_.flows.eraseIdx place).map Prod.fst ∧
      ((open_.flows.eraseIdx place).map Prod.fst).Nodup ∧
      (∀ other ∈ store.tabs.eraseIdx place, other.id ≠ tab.id) ∧
      ∀ entry ∈ open_.flows, entry.1 ≠ tab.id → entry ∈ open_.flows.eraseIdx place := by
  have ids : store.tabs.map Tab.id = open_.flows.map Prod.fst := agrees.ids
  have distinct : (store.tabs.map Tab.id).Nodup := ids ▸ agrees.distinct
  refine ⟨?_, agrees.distinct.sublist ((eraseIdx_sublist _ _).map _), ?_, ?_⟩
  · rw [← eraseIdx_map, ids, eraseIdx_map]
  · intro other mem same
    obtain ⟨i, apart, there⟩ := mem_eraseIdx_iff_getElem?.mp mem
    have inside : i < (store.tabs.map Tab.id).length := by
      rw [length_map]
      exact (List.getElem?_eq_some_iff.mp there).1
    refine apart ((List.getElem?_inj inside distinct).mp ?_)
    rw [List.getElem?_map, List.getElem?_map, there, found, Option.map_some, Option.map_some, same]
  · intro entry mem apart
    obtain ⟨i, there⟩ := mem_iff_getElem?.mp mem
    refine mem_eraseIdx_iff_getElem?.mpr ⟨i, ?_, there⟩
    rintro rfl
    have same := getElem?_of_ids ids i
    rw [found, there] at same
    exact apart (Option.some.inj same).symm

theorem Agrees.closeTab (id : String) (confirmed : Bool)
    (newId : String) : Agrees (store.step (.closeTab id confirmed newId))
      (open_.step (.closeTab id confirmed newId)) := by
  rw [TabStore.step, TabStore.closeTab, OpenFlows.step, OpenFlows.closeTab, ← agrees.ids]
  have sameAt := getElem?_of_ids agrees.ids (store.ids.idxOf id)
  cases found : store.tabs[store.ids.idxOf id]? with
  | none =>
    rw [found] at sameAt
    rw [Option.map_eq_none_iff.mp sameAt.symm]
    exact agrees
  | some tab =>
  rw [found] at sameAt
  obtain ⟨⟨_, flow⟩, there, rfl⟩ := Option.map_eq_some_iff.mp sameAt.symm
  have mem := mem_of_getElem? found
  have flowMember := mem_of_getElem? there
  have named : tab.id = id := by
    have present : id ∈ store.ids := idxOf_lt_length_iff.mp (by
      rw [TabStore.ids, length_map]
      exact (List.getElem?_eq_some_iff.mp found).1)
    have here : store.ids[store.ids.idxOf id]? = some id := List.getElem?_idxOf present
    have same : store.ids[store.ids.idxOf id]? = some tab.id := by
      rw [TabStore.ids, List.getElem?_map, ← TabStore.ids, found, Option.map_some]
    exact Option.some.inj (same.symm.trans here)
  rw [there]
  dsimp only
  rw [agrees.tabHasContent mem flowMember]
  split
  · exact agrees
  obtain ⟨ids, distinct, apart, others⟩ := agrees.erased found
  have length : (store.tabs.eraseIdx (store.ids.idxOf id)).length =
      (open_.flows.eraseIdx (store.ids.idxOf id)).length := by
    simpa using congrArg List.length ids
  rw [length]
  have nextAt := getElem?_of_ids ids (min (store.ids.idxOf id)
    ((open_.flows.eraseIdx (store.ids.idxOf id)).length - 1))
  cases chosen : (store.tabs.eraseIdx (store.ids.idxOf id))[min (store.ids.idxOf id)
      ((open_.flows.eraseIdx (store.ids.idxOf id)).length - 1)]? with
  | none =>
    rw [chosen] at nextAt
    rw [Option.map_eq_none_iff.mp nextAt.symm]
    -- No tab is left.
    have none_left : store.tabs.eraseIdx (store.ids.idxOf id) = [] := by
      have outside := List.getElem?_eq_none_iff.mp chosen
      refine eq_nil_of_length_eq_zero ?_
      omega
    have all : HoldsAll
        (TabStore.tabs { store with tabs := store.tabs.eraseIdx (store.ids.idxOf id) })
        ⟨open_.flows.eraseIdx (store.ids.idxOf id), open_.active⟩ :=
      ⟨ids, distinct, fun tab mem => by rw [none_left] at mem; cases mem⟩
    have new : newId ∉ (open_.flows.eraseIdx (store.ids.idxOf id)).map Prod.fst := by
      rw [← ids, none_left]
      exact not_mem_nil
    exact all.agrees_adopt new rfl
  | some next =>
    rw [chosen] at nextAt
    obtain ⟨⟨_, nextFlow⟩, nextThere, rfl⟩ := Option.map_eq_some_iff.mp nextAt.symm
    rw [nextThere]
    dsimp only
    have held : ∀ other ∈ store.tabs.eraseIdx (store.ids.idxOf id),
        ∀ flow, (other.id, flow) ∈ open_.flows.eraseIdx (store.ids.idxOf id) →
          other.id ≠ store.activeTabId → Holds other.toFlowStateSnapshot flow :=
      fun other otherMember flow there => agrees.held other (mem_of_mem_eraseIdx otherMember)
        flow (mem_of_mem_eraseIdx there)
    by_cases isActive : id = store.activeTabId
    · have all : HoldsAll (store.tabs.eraseIdx (store.ids.idxOf id))
          ⟨open_.flows.eraseIdx (store.ids.idxOf id), open_.active⟩ :=
        ⟨ids, distinct, fun other otherMember flow there => held other otherMember flow there
          (isActive ▸ named ▸ apart other otherMember)⟩
      rw [if_pos isActive, if_pos (isActive.trans agrees.active)]
      exact all.agrees_load (mem_of_getElem? chosen) store.flowStore
    · rw [if_neg isActive, if_neg fun same => isActive (same.trans agrees.active.symm)]
      obtain ⟨live, liveThere, same⟩ := agrees.live
      exact ⟨ids, distinct, agrees.active, ⟨live, others _ liveThere fun here => isActive
        (named.symm.trans (here.symm.trans agrees.active.symm)), same⟩, held⟩

theorem Agrees.renameTab (id name : String) :
    Agrees (store.step (.renameTab id name)) (open_.step (.renameTab id name)) := by
  rw [TabStore.step, TabStore.renameTab, OpenFlows.step]
  by_cases empty : trim name = ""
  · rw [if_pos (.inr empty), if_pos empty]
    exact agrees
  rw [if_neg empty]
  by_cases present : id ∈ store.ids
  · rw [if_neg (not_or.mpr ⟨not_not_intro present, empty⟩)]
    refine ⟨?_, (ids_change id _).symm ▸ agrees.distinct, agrees.active, ?_, ?_⟩
    · rw [ids_change, ← agrees.ids, TabStore.ids, map_map]
      refine map_congr_left fun tab _ => ?_
      rw [Function.comp_apply]
      split <;> rfl
    · obtain ⟨flow, found, same⟩ := agrees.live
      refine ⟨_, mem_change.mpr ⟨flow, found, rfl⟩, ?_⟩
      rw [agrees.active, active_change]
      by_cases isActive : id = open_.active
      · rw [if_pos isActive, if_pos isActive.symm]
        exact same.rename _
      · rw [if_neg isActive, if_neg (Ne.symm isActive)]
        exact same
    · intro after mem flow found inactive
      obtain ⟨before, beforeMember, rfl⟩ := mem_map.mp mem
      obtain ⟨flowBefore, there, rfl⟩ := mem_change.mp found
      by_cases here : before.id = id
      · rw [if_pos here] at there inactive ⊢
        dsimp only at there inactive
        rw [if_pos here]
        exact (agrees.held before beforeMember flowBefore there inactive).rename _
      · rw [if_neg here] at there inactive ⊢
        rw [if_neg here]
        exact agrees.held before beforeMember flowBefore there inactive
  · rw [if_pos (.inl present), change_absent (agrees.ids ▸ present)]
    exact agrees

theorem Agrees.step (event : Event F) (keeps : store.Keeps event) :
    Agrees (store.step event) (open_.step event) := by
  cases event with
  | edit flow => exact agrees.edit flow
  | switchTab id => exact agrees.switchTab keeps
  | newTab newId => exact agrees.newTab keeps.1 keeps.2
  | openWith newId loaded ok => exact agrees.openWith keeps
  | openFile newId file => exact agrees.openFile keeps
  | closeTab id confirmed newId => exact agrees.closeTab id confirmed newId
  | renameTab id name => exact agrees.renameTab id name

end

end

/-- No tab loses its flow while every flow that is left has nothing but what is saved of it, every
file that is imported can be read, and the ids of new tabs are new. -/
theorem lossless_along {id : String} {events : List (Event F)}
    (meets : EachStep Session.step Session.Keeps (Session.start id) events) :
    ∀ session ∈ statesAlong Session.step (Session.start id) events, session.Lossless := by
  have agrees := meets.invariant_along (fun session => Agrees session.1 session.2)
    (fun session event agrees keeps => agrees.step event keeps) (agrees_start id)
  exact fun session mem => (agrees session mem).lossless

def plainSettings : Settings := fun key =>
  if key = "description" then .text "" else
    if key = "cache_results" then .boolean true else .null

def plainNode (id : Nat) (type : String) (inputIds : List Nat) : LiveNode where
  id := id
  type := type
  inputIds := inputIds
  leftInputId := none
  rightInputId := none
  x := 120
  y := 80
  settings := some plainSettings
  description := .text ""
  nodeReference := .null

def twoNodes : LiveFlow Unit where
  nodes := ⟨[(1, plainNode 1 "manual_input" []), (2, plainNode 2 "explore_data" [1])], by decide⟩
  edges := [drawEdge 2 "input-0" 1]
  nodeIdCounter := 2
  fileContents := fun _ => none
  externalSchemas := fun _ => none
  name := "Report"
  flowId := some "saved"

theorem plainNode_restorable (id : Nat) {type : String} (inputIds : List Nat)
    (current : currentType type = type) (other : type ≠ "dynamic_rename") :
    Restorable none (plainNode id type inputIds) plainSettings where
  present := rfl
  bare key excluded notDescription _ := by
    rw [plainSettings, if_neg notDescription, if_neg]
    rintro rfl
    exact absurd excluded (by decide)
  plain key := by
    rw [plainSettings]
    split
    · rfl
    · split <;> rfl
  description := rfl
  described := .inr rfl
  reference := rfl
  referred := .inr rfl
  left := rfl
  x := (by decide +kernel : round 120 = 120)
  y := (by decide +kernel : round 80 = 80)
  type := current
  received := by decide
  renamed isRename := absurd isRename other
  external _ _ := nofun

theorem blank_restorable (name : String) : (.blank name : LiveFlow F).Restorable where
  keyed := nofun
  nodes := nofun
  edges := .refl _

theorem twoNodes_restorable : twoNodes.Restorable where
  keyed := by decide
  nodes entry mem := by
    rcases mem_cons.mp mem with rfl | mem
    · exact ⟨_, plainNode_restorable 1 [] rfl (by decide)⟩
    · rw [mem_singleton.mp mem]
      exact ⟨_, plainNode_restorable 2 [1] rfl (by decide)⟩
  edges := .refl _

/-- The flow is left for a new tab and is there again afterwards. -/
theorem lossless_reopened : ∃ session ∈ statesAlong Session.step (Session.start "a")
    [.edit twoNodes, .newTab "b", .switchTab "a"], session.1.activeTabId = "a" ∧
      session.Lossless := by
  have meets : EachStep Session.step Session.Keeps (Session.start "a")
      [.edit twoNodes, .newTab "b", .switchTab "a"] :=
    ⟨trivial, ⟨by decide, twoNodes_restorable⟩, .inr (.inr (blank_restorable _)), trivial⟩
  exact ⟨_, mem_of_getLast? rfl, rfl, lossless_along meets _ (mem_of_getLast? rfl)⟩

/-- A file with an entry that is no node clears the flow that was active. -/
theorem openFile_clears : ¬ ∀ session ∈ statesAlong Session.step (Session.start "a")
    [.edit twoNodes, .openFile "b" (some ⟨"", [none], []⟩)], session.Lossless := by
  intro lossless
  obtain ⟨flow, found, same⟩ := (lossless _ (mem_of_getLast? rfl)).live
  have edited : flow = twoNodes := congrArg Prod.snd (mem_singleton.mp found)
  have lost := same.nodes 1
  rw [edited] at lost
  exact nomatch lost

end Flowfile.BrowserTabs

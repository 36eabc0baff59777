import Flowfile.Library.Dictionaries
import Flowfile.Library.EventRuns
import Mathlib.Data.List.Sort

/-!
# Visualisation sessions

A session is a child process that holds a dataset and answers requests, with a queue to it and one
from it. The registry finds the session of a key or spawns one, and calls put their request and
wait for a response, one call at a time for each session. Sessions are killed when they are evicted,
idle, too many, or not healthy any more.

Every call gets the response to its own request or an error, and every child is registered or about
to be killed, along every run in which no request is put to a child that still owes a response or
has been told to shut down, and no child that lives but is not healthy any more is found registered
when another one is registered for its key.
-/

namespace Flowfile.VizSessions

open Library.Dictionaries Library.EventRuns List
open Function (update_self update_of_ne)

inductive Message where
  | request (id : Nat)
  | shutdown

inductive Response where
  | answer (id : Nat) (ok : Bool)
  | fatal
  | bye

/-- A child process with its queues, and what the registry notes of it. -/
structure Handle where
  key : String
  alive : Bool
  loaded : Bool
  requests : List Message
  responses : List Response
  startedAt : Nat
  lastUsedAt : Nat
  requestsServed : Nat
  /-- The thread that holds the lock of the handle. -/
  owner : Option Nat
  /-- A thread has it to kill. -/
  doomed : Bool

def requestQueueMaxsize : Nat := 8
def idleTtlSeconds : Nat := 300
def maxSessions : Nat := 32
def maxRequestsPerChild : Nat := 500
def maxChildLifetimeSeconds : Nat := 1800

namespace Handle

variable (handle : Handle)

/-- A child that has just been started. -/
def started (key : String) (now : Nat) : Handle :=
  ⟨key, true, false, [], [], now, now, 0, none, false⟩

/-- No child. -/
def absent : Handle := ⟨"", false, false, [], [], 0, 0, 0, none, false⟩

def isHealthy (now : Nat) : Bool :=
  handle.alive && handle.requestsServed < maxRequestsPerChild &&
    now - handle.startedAt < maxChildLifetimeSeconds

/-- The child has built its dataset. -/
def load : Handle := if handle.alive then { handle with loaded := true } else handle

/-- The child could not build its dataset. -/
def failLoad : Handle :=
  if handle.alive && !handle.loaded then
    { handle with responses := handle.responses ++ [.fatal], alive := false }
  else handle

/-- The child answers the next message. -/
def serve (ok : Bool) : Handle :=
  if handle.alive && handle.loaded then
    match handle.requests with
    | [] => handle
    | .request id :: rest =>
      { handle with requests := rest, responses := handle.responses ++ [.answer id ok] }
    | .shutdown :: rest =>
      { handle with requests := rest, responses := handle.responses ++ [.bye], alive := false }
  else handle

def die : Handle := { handle with alive := false }

/-- A thread that kills the child tells it first, if there is room. -/
def tell : Handle :=
  if handle.doomed && handle.requests.length < requestQueueMaxsize then
    { handle with requests := handle.requests ++ [.shutdown] }
  else handle

def terminate : Handle := if handle.doomed then { handle with alive := false } else handle

def drain : Handle :=
  if handle.doomed && !handle.alive then { handle with requests := [], responses := [] }
  else handle

end Handle

inductive Operation where
  | execute
  | fields
  | columnStats
deriving DecidableEq

/-- Where a call is: before the step named. -/
inductive Call where
  | idle
  | looking (key : String) (operation : Operation)
  | spawning (key : String) (operation : Operation)
  | registering (handle : Nat) (operation : Operation)
  | entering (handle : Nat) (operation : Operation)
  | putting (handle : Nat) (operation : Operation)
  | awaiting (handle : Nat) (operation : Operation) (request : Nat)
  | evicting (handle : Nat)

/-- How a call ended: with a result, the one of the request named if it names one, or an error. -/
inductive Outcome where
  | returned (request : Nat) (answered : Option Nat)
  | raised (request : Nat)
  | mismatched (request other : Nat)
  | malformed (request : Nat)
  | timedOut (request : Nat)
  | died (request : Nat)
  | loadFailed
  | busy

/-- The sessions by key, all children by the number of their spawning, and the calls by thread. -/
structure Registry where
  sessions : Dictionary String Nat
  handles : Nat → Handle
  spawned : Nat
  calls : Nat → Call
  requested : Nat
  now : Nat
  outcomes : List Outcome

def Registry.initial : Registry := ⟨.empty, fun _ => .absent, 0, fun _ => .idle, 0, 0, []⟩

namespace Registry

variable (registry : Registry) (thread handle : Nat) (operation : Operation)

def move (call : Call) : Registry :=
  { registry with calls := Function.update registry.calls thread call }

def finish (outcome : Outcome) : Registry :=
  { registry.move thread .idle with outcomes := registry.outcomes ++ [outcome] }

def update (change : Handle → Handle) : Registry :=
  { registry with
    handles := Function.update registry.handles handle (change (registry.handles handle)) }

/-- Give these children to threads that kill them. -/
def doom (handles : List Nat) : Registry :=
  { registry with handles := fun id =>
      if id ∈ handles then { registry.handles id with doomed := true } else registry.handles id }

def dismiss (test : String → Nat → Bool) : Registry :=
  { registry.doom ((registry.sessions.keep test).entries.map Prod.snd) with
    sessions := registry.sessions.keep fun key id => !test key id }

variable (key : String)

def evict : Registry := registry.dismiss fun other _ => other = key

def evictAll : Registry := registry.dismiss fun _ _ => true

/-- Sessions that have not been used for long. -/
def reap : Registry :=
  registry.dismiss fun _ id => (registry.handles id).lastUsedAt + idleTtlSeconds < registry.now

/-- Kill a child, and take it from the registry if it is there. -/
def evictHandle : Registry :=
  (registry.dismiss fun key id => key = (registry.handles handle).key && id = handle).doom [handle]

/-- When there are too many sessions, those that were used least recently go. -/
def enforceLimit : Registry :=
  let excess := registry.sessions.entries.length - maxSessions
  let ordered := registry.sessions.entries.insertionSort fun first second =>
    (registry.handles first.2).lastUsedAt ≤ (registry.handles second.2).lastUsedAt
  registry.dismiss fun key _ => key ∈ (ordered.take excess).map Prod.fst

def lookUp : Registry :=
  match registry.sessions.get key with
  | none => registry.move thread (.spawning key operation)
  | some existing =>
    if (registry.handles existing).isHealthy registry.now then
      registry.move thread (.entering existing operation)
    else (registry.evict key).move thread (.spawning key operation)

def spawnChild : Registry :=
  { registry.move thread (.registering registry.spawned operation) with
    handles := Function.update registry.handles registry.spawned (.started key registry.now)
    spawned := registry.spawned + 1 }

/-- Register a child under its key, unless a healthy one has been registered meanwhile. -/
def register : Registry :=
  let key := (registry.handles handle).key
  let placed := ({ registry with sessions := registry.sessions.set key handle }.enforceLimit).move
    thread (.entering handle operation)
  match registry.sessions.get key with
  | none => placed
  | some winner =>
    if (registry.handles winner).isHealthy registry.now then
      (registry.doom [handle]).move thread (.entering winner operation)
    else placed

def enter : Registry :=
  if (registry.handles handle).owner.isNone then
    (registry.update handle fun child => { child with owner := some thread }).move thread
      (.putting handle operation)
  else registry

def put : Registry :=
  if (registry.handles handle).requests.length < requestQueueMaxsize then
    { (registry.update handle fun child =>
        { child with
          requests := child.requests ++ [.request registry.requested]
          lastUsedAt := registry.now
          requestsServed := child.requestsServed + 1 }).move thread
        (.awaiting handle operation registry.requested) with
      requested := registry.requested + 1 }
  else (registry.update handle fun child => { child with owner := none }).finish thread .busy

variable (request : Nat)

/-- What a call makes of a response. A farewell is no mapping, as the result of `execute` must be,
but passes for the result of the other operations. -/
def conclude : Response → Registry
  | .fatal => registry.move thread (.evicting handle)
  | .answer id ok =>
    if id = request then
      registry.finish thread (if ok then .returned request (some id) else .raised request)
    else registry.finish thread (.mismatched request id)
  | .bye =>
    if operation = .execute then registry.finish thread (.malformed request)
    else registry.finish thread (.returned request none)

def receive : Registry :=
  match (registry.handles handle).responses with
  | [] => registry
  | response :: rest =>
    (registry.update handle fun child => { child with responses := rest, owner := none }).conclude
      thread handle operation request response

/-- The time to wait for a response is over. -/
def expire : Registry :=
  if (registry.handles handle).responses.isEmpty then
    let released := registry.update handle fun child => { child with owner := none }
    if (registry.handles handle).alive then released.finish thread (.timedOut request)
    else (released.evictHandle handle).finish thread (.died request)
  else registry

/-- The next step of a call. -/
def proceed : Registry :=
  match registry.calls thread with
  | .idle => registry
  | .looking key operation => registry.lookUp thread operation key
  | .spawning key operation => registry.spawnChild thread operation key
  | .registering handle operation => registry.register thread handle operation
  | .entering handle operation => registry.enter thread handle operation
  | .putting handle operation => registry.put thread handle operation
  | .awaiting handle operation request => registry.receive thread handle operation request
  | .evicting handle => (registry.evictHandle handle).finish thread .loadFailed

end Registry

/-- What happens to a child, by itself or by a thread that kills it. -/
inductive ChildEvent where
  | load
  | failLoad
  | serve (ok : Bool)
  | die
  | tell
  | terminate
  | drain

def Handle.react (handle : Handle) : ChildEvent → Handle
  | .load => handle.load
  | .failLoad => handle.failLoad
  | .serve ok => handle.serve ok
  | .die => handle.die
  | .tell => handle.tell
  | .terminate => handle.terminate
  | .drain => handle.drain

inductive Event where
  | start (thread : Nat) (key : String) (operation : Operation)
  | proceed (thread : Nat)
  | expire (thread : Nat)
  | child (handle : Nat) (event : ChildEvent)
  | evict (key : String)
  | evictAll
  | reap
  | tick

def Registry.step (registry : Registry) : Event → Registry
  | .start thread key operation =>
    match registry.calls thread with
    | .idle => registry.move thread (.looking key operation)
    | _ => registry
  | .proceed thread => registry.proceed thread
  | .expire thread =>
    match registry.calls thread with
    | .awaiting handle _ request => registry.expire thread handle request
    | _ => registry
  | .child handle event => registry.update handle fun child => child.react event
  | .evict key => registry.evict key
  | .evictAll => registry.evictAll
  | .reap => registry.reap
  | .tick => { registry with now := registry.now + 1 }

/-- Results belong to the request of the call, no response to another request is met, every living
child is registered, being killed or in the hands of the thread that spawned it, and there are not
too many sessions. -/
structure Registry.Orderly (registry : Registry) : Prop where
  returned : ∀ request answered, .returned request answered ∈ registry.outcomes →
    answered = some request
  matched : ∀ request other, .mismatched request other ∉ registry.outcomes
  accounted : ∀ id, (registry.handles id).alive = true →
    registry.sessions.get (registry.handles id).key = some id ∨
      (registry.handles id).doomed = true ∨
      ∃ thread operation, registry.calls thread = .registering id operation
  bounded : registry.sessions.entries.length ≤ maxSessions

/-- A child owes nothing: no answer or farewell waits to be read, and if it lives no message waits
to be served. -/
def Handle.Settled (handle : Handle) : Prop :=
  (∀ response ∈ handle.responses, response = .fatal) ∧ (handle.alive = true → handle.requests = [])

/-- Requests are put to children that owe nothing, and a child that is registered replaces none
that lives. -/
def Registry.Careful (registry : Registry) : Event → Prop
  | .proceed thread =>
    match registry.calls thread with
    | .putting handle _ => (registry.handles handle).Settled
    | .registering handle _ => ∀ winner,
        registry.sessions.get (registry.handles handle).key = some winner →
          (registry.handles winner).alive = true →
            (registry.handles winner).isHealthy registry.now = true
    | _ => True
  | _ => True

section

variable {registry next : Registry} {thread id : Nat} {operation : Operation}

/-- The child is registered under its key, being killed, or in the hands of the thread that spawned
it. -/
def Registry.Accounted (registry : Registry) (id : Nat) : Prop :=
  registry.sessions.get (registry.handles id).key = some id ∨ (registry.handles id).doomed = true ∨
    ∃ thread operation, registry.calls thread = .registering id operation

/-- Sessions stand under their keys, and every living child is accounted for and has a number that
was given out. -/
structure Registry.Kept (registry : Registry) : Prop where
  keyed : ∀ key id, registry.sessions.get key = some id →
    (registry.handles id).key = key ∧ id < registry.spawned
  accounted : ∀ id, (registry.handles id).alive = true → registry.Accounted id
  numbered : ∀ id, (registry.handles id).alive = true → id < registry.spawned
  registering : ∀ thread id operation, registry.calls thread = .registering id operation →
    id < registry.spawned

theorem kept_initial : Registry.initial.Kept where
  keyed _ _ found := by cases found
  accounted _ alive := by cases alive
  numbered _ alive := by cases alive
  registering _ _ _ impossible := by cases impossible

/-- Children may die and be given to a killer, and calls go on, as long as no call drops a child it
has spawned. -/
theorem Registry.Kept.of_handles (kept : registry.Kept)
    (sessions : next.sessions = registry.sessions) (spawned : next.spawned = registry.spawned)
    (key : ∀ id, (next.handles id).key = (registry.handles id).key)
    (alive : ∀ id, (next.handles id).alive = true → (registry.handles id).alive = true)
    (doomed : ∀ id, (registry.handles id).doomed = true → (next.handles id).doomed = true)
    (calls : ∀ thread id operation, next.calls thread = .registering id operation ↔
      registry.calls thread = .registering id operation) : next.Kept where
  keyed := by
    intro name id found
    rw [sessions] at found
    rw [key, spawned]
    exact kept.keyed name id found
  accounted := by
    intro id lives
    rcases kept.accounted id (alive id lives)
      with registered | dooming | ⟨thread, operation, call⟩
    · exact .inl (by rw [sessions, key]; exact registered)
    · exact .inr (.inl (doomed id dooming))
    · exact .inr (.inr ⟨thread, operation, (calls thread id operation).mpr call⟩)
  numbered := by
    intro id lives
    rw [spawned]
    exact kept.numbered id (alive id lives)
  registering := by
    intro thread id operation call
    rw [spawned]
    exact kept.registering thread id operation ((calls thread id operation).mp call)

@[simp] theorem Registry.handles_doom (handles : List Nat) : (registry.doom handles).handles id =
      if id ∈ handles then { registry.handles id with doomed := true }
      else registry.handles id := rfl

theorem Registry.Kept.doom (kept : registry.Kept) (handles : List Nat) :
    (registry.doom handles).Kept :=
  kept.of_handles rfl rfl
    (fun id => by rw [Registry.handles_doom]; split <;> rfl)
    (fun id => by rw [Registry.handles_doom]; split <;> exact fun alive => alive)
    (fun id doomed => by
      rw [Registry.handles_doom]
      split
      · rfl
      · exact doomed)
    fun _ _ _ => Iff.rfl

@[simp] theorem Registry.key_doom (handles : List Nat) :
    ((registry.doom handles).handles id).key = (registry.handles id).key := by
  rw [Registry.handles_doom]
  split <;> rfl

@[simp] theorem Registry.key_dismiss (test : String → Nat → Bool) :
    ((registry.dismiss test).handles id).key = (registry.handles id).key :=
  Registry.key_doom _

theorem Registry.get_dismiss (test : String → Nat → Bool) (key : String) :
    (registry.dismiss test).sessions.get key =
      (registry.sessions.get key).filter fun id => !test key id :=
  Dictionary.get_keep _

variable {key : String}

theorem Registry.doomed_dismiss {test : String → Nat → Bool}
    (found : registry.sessions.get key = some id) (gone : test key id = true) :
    ((registry.dismiss test).handles id).doomed = true := by
  have mem : id ∈ (registry.sessions.keep test).entries.map Prod.snd := by
    refine mem_map.mpr ⟨(key, id), ?_, rfl⟩
    rw [Dictionary.mem_entries_iff, Dictionary.get_keep, found, Option.filter_some, if_pos gone]
  rw [Registry.dismiss]
  dsimp only
  rw [Registry.handles_doom, if_pos mem]

theorem Registry.safe_dismiss (test : String → Nat → Bool)
    (found : registry.sessions.get (registry.handles id).key = some id) :
    (registry.dismiss test).sessions.get ((registry.dismiss test).handles id).key = some id ∨
      ((registry.dismiss test).handles id).doomed = true := by
  by_cases gone : test (registry.handles id).key id = true
  · exact .inr (Registry.doomed_dismiss found gone)
  · refine .inl ?_
    rw [Registry.key_dismiss, Registry.get_dismiss, Option.filter_eq_some_iff]
    exact ⟨found, by simp [gone]⟩

/-- Sessions that are dismissed are given to a killer, the others stay. -/
theorem Registry.Kept.dismiss (kept : registry.Kept) (test : String → Nat → Bool) :
    (registry.dismiss test).Kept := by
  have doomed := kept.doom ((registry.sessions.keep test).entries.map Prod.snd)
  refine ⟨fun key id found => ?_, fun id alive => ?_, doomed.numbered, doomed.registering⟩
  · rw [Registry.get_dismiss, Option.filter_eq_some_iff] at found
    exact doomed.keyed key id found.1
  · rcases doomed.accounted id alive with registered | dooming | call
    · rw [Registry.key_doom] at registered
      by_cases gone : test (registry.handles id).key id = true
      · exact .inr (.inl (Registry.doomed_dismiss registered gone))
      · refine .inl ?_
        rw [Registry.key_dismiss, Registry.get_dismiss, Option.filter_eq_some_iff]
        exact ⟨registered, by simp [gone]⟩
    · exact .inr (.inl dooming)
    · exact .inr (.inr call)

/-- A call that holds no child it has spawned goes on to one that holds none. -/
theorem Registry.Kept.move (kept : registry.Kept) {call : Call}
    (before : ∀ id operation, registry.calls thread ≠ .registering id operation)
    (after : ∀ id operation, call ≠ .registering id operation) :
    (registry.move thread call).Kept :=
  kept.of_handles rfl rfl (fun _ => rfl) (fun _ alive => alive) (fun _ doomed => doomed)
    fun other id operation => by
      rw [Registry.move]
      dsimp only
      by_cases same : other = thread
      · subst same
        rw [update_self]
        exact iff_of_false (after id operation) (before id operation)
      · rw [update_of_ne same]

theorem Registry.Kept.finish (kept : registry.Kept) (outcome : Outcome)
    (before : ∀ id operation, registry.calls thread ≠ .registering id operation) :
    (registry.finish thread outcome).Kept := by
  have moved : (registry.move thread .idle).Kept := kept.move before (by simp)
  exact moved.of_handles rfl rfl (fun _ => rfl) (fun _ alive => alive) (fun _ doomed => doomed)
    fun _ _ _ => Iff.rfl

/-- A child changes, but neither comes to life nor gets away. -/
theorem Registry.Kept.update (kept : registry.Kept) {change : Handle → Handle}
    (key : (change (registry.handles id)).key = (registry.handles id).key)
    (alive : (change (registry.handles id)).alive = true → (registry.handles id).alive = true)
    (doomed : (registry.handles id).doomed = true → (change (registry.handles id)).doomed = true) :
    (registry.update id change).Kept := by
  have handles : ∀ other, (registry.update id change).handles other =
      if other = id then change (registry.handles id) else registry.handles other :=
    fun other => Function.update_apply _ _ _ _
  refine kept.of_handles rfl rfl (fun other => ?_) (fun other => ?_) (fun other => ?_)
    fun _ _ _ => Iff.rfl
  · rw [handles]
    split
    case isTrue same => rw [key, same]
    case isFalse => rfl
  · rw [handles]
    split
    case isTrue same => exact same ▸ alive
    case isFalse => exact fun alive => alive
  · rw [handles]
    split
    case isTrue same => exact same ▸ doomed
    case isFalse => exact fun doomed => doomed

theorem Handle.react_frame (handle : Handle) (event : ChildEvent) :
    (handle.react event).key = handle.key ∧
      ((handle.react event).alive = true → handle.alive = true) ∧
      (handle.react event).doomed = handle.doomed ∧ (handle.react event).owner = handle.owner := by
  cases event with
  | load => rw [Handle.react, Handle.load]; split <;> simp
  | failLoad => rw [Handle.react, Handle.failLoad]; split <;> simp
  | serve ok =>
    rw [Handle.react, Handle.serve]
    repeat' split
    all_goals simp
  | die => simp [Handle.react, Handle.die]
  | tell => rw [Handle.react, Handle.tell]; split <;> simp
  | terminate => rw [Handle.react, Handle.terminate]; split <;> simp
  | drain => rw [Handle.react, Handle.drain]; split <;> simp

variable {handle request : Nat}

section

variable (kept : registry.Kept)
include kept

theorem Registry.Kept.evictHandle (handle : Nat) : (registry.evictHandle handle).Kept :=
  (kept.dismiss _).doom _

theorem Registry.Kept.lookUp (call : registry.calls thread = .looking key operation) :
    (registry.lookUp thread operation key).Kept := by
  have before : ∀ id operation, registry.calls thread ≠ .registering id operation := by
    simp [call]
  rw [Registry.lookUp]
  split
  · exact kept.move before (by simp)
  · split
    · exact kept.move before (by simp)
    · exact (kept.dismiss _).move before (by simp)

theorem Registry.Kept.spawnChild (call : registry.calls thread = .spawning key operation) :
    (registry.spawnChild thread operation key).Kept := by
  have others : ∀ id, id ≠ registry.spawned →
      (registry.spawnChild thread operation key).handles id = registry.handles id :=
    fun id apart => update_of_ne apart _ _
  have held : (registry.spawnChild thread operation key).calls thread =
      .registering registry.spawned operation := update_self _ _ _
  refine ⟨fun name id found => ?_, fun id alive => ?_, fun id alive => ?_,
    fun other id operation found => ?_⟩
  · obtain ⟨same, below⟩ := kept.keyed name id found
    rw [others id (Nat.ne_of_lt below)]
    exact ⟨same, Nat.lt_succ_of_lt below⟩
  · by_cases new : id = registry.spawned
    · exact .inr (.inr ⟨thread, operation, new ▸ held⟩)
    rw [others id new] at alive
    rw [Registry.Accounted, others id new]
    refine (kept.accounted id alive).imp_right (.imp_right ?_)
    rintro ⟨other, operation, registering⟩
    have apart : other ≠ thread := by
      rintro rfl
      rw [call] at registering
      cases registering
    exact ⟨other, operation, (update_of_ne apart _ _).trans registering⟩
  · by_cases new : id = registry.spawned
    · exact new ▸ Nat.lt_succ_self _
    · rw [others id new] at alive
      exact Nat.lt_succ_of_lt (kept.numbered id alive)
  · by_cases same : other = thread
    · subst same
      rw [held] at found
      obtain ⟨rfl, -⟩ := Call.registering.inj found
      exact Nat.lt_succ_self _
    · have before : registry.calls other = .registering id operation :=
        (update_of_ne same _ _).symm.trans found
      exact Nat.lt_succ_of_lt (kept.registering other id operation before)

/-- A child that is registered, or given to a killer, needs its thread no more. -/
theorem Registry.Kept.leave {call : Call}
    (held : registry.calls thread = .registering handle operation)
    (safe : registry.sessions.get (registry.handles handle).key = some handle ∨
      (registry.handles handle).doomed = true)
    (after : ∀ id operation, call ≠ .registering id operation) :
    (registry.move thread call).Kept := by
  refine ⟨kept.keyed, fun id alive => ?_, kept.numbered, fun other id operation found => ?_⟩
  · rcases kept.accounted id alive with registered | dooming | ⟨other, operation, registering⟩
    · exact .inl registered
    · exact .inr (.inl dooming)
    · by_cases same : other = thread
      · subst same
        obtain ⟨rfl, -⟩ := Call.registering.inj (held.symm.trans registering)
        exact safe.imp_right .inl
      · exact .inr (.inr ⟨other, operation, (update_of_ne same _ _).trans registering⟩)
  · by_cases same : other = thread
    · subst same
      exact absurd ((update_self _ _ _).symm.trans found) (after id operation)
    · exact kept.registering other id operation ((update_of_ne same _ _).symm.trans found)

theorem Registry.Kept.place (below : handle < registry.spawned)
    (dead : ∀ winner, registry.sessions.get (registry.handles handle).key = some winner →
      (registry.handles winner).alive = false) :
    ({ registry with
      sessions := registry.sessions.set (registry.handles handle).key handle } :
        Registry).Kept := by
  refine ⟨fun key id found => ?_, fun id alive => ?_, kept.numbered, kept.registering⟩
  · rw [Dictionary.get_set] at found
    split at found
    case isTrue same =>
      cases found
      exact ⟨same.symm, below⟩
    case isFalse => exact kept.keyed key id found
  · rcases kept.accounted id alive with registered | dooming | call
    · refine .inl ?_
      rw [Dictionary.get_set]
      split
      case isTrue same =>
        rw [same] at registered
        exact absurd alive (by simp [dead id registered])
      case isFalse => exact registered
    · exact .inr (.inl dooming)
    · exact .inr (.inr call)

theorem Registry.Kept.register
    (call : registry.calls thread = .registering handle operation)
    (careful : ∀ winner, registry.sessions.get (registry.handles handle).key = some winner →
        (registry.handles winner).alive = true →
          (registry.handles winner).isHealthy registry.now = true) :
    (registry.register thread handle operation).Kept := by
  have below := kept.registering thread handle operation call
  have placed (dead : ∀ winner, registry.sessions.get (registry.handles handle).key = some winner →
      (registry.handles winner).alive = false) :
      (({ registry with sessions :=
        registry.sessions.set (registry.handles handle).key handle }.enforceLimit).move thread
        (.entering handle operation)).Kept := by
    have entered := kept.place below dead
    -- The new session stands, or is itself among those that go.
    refine Registry.Kept.leave (entered.dismiss _) call (Registry.safe_dismiss _ ?_) (by simp)
    rw [Dictionary.get_set, if_pos rfl]
  rw [Registry.register]
  split
  case h_1 vacant =>
    exact placed fun winner found => by
      rw [vacant] at found
      cases found
  case h_2 winner found =>
    split
    case isTrue =>
      refine (kept.doom [handle]).leave call (.inr ?_) (by simp)
      rw [Registry.handles_doom, if_pos (mem_singleton_self handle)]
    case isFalse unhealthy =>
      refine placed fun other same => ?_
      rw [found] at same
      cases same
      by_contra alive
      exact unhealthy (careful winner found (by simpa using alive))

theorem Registry.Kept.conclude (response : Response)
    (before : ∀ id operation, registry.calls thread ≠ .registering id operation) :
    (registry.conclude thread handle operation request response).Kept := by
  cases response with
  | fatal => exact kept.move before (by simp)
  | answer id ok =>
    rw [Registry.conclude]
    split <;> exact kept.finish _ before
  | bye =>
    rw [Registry.conclude]
    split <;> exact kept.finish _ before

end

section

variable (kept : registry.Kept)
  (before : ∀ id operation, registry.calls thread ≠ .registering id operation)
include kept before

theorem Registry.Kept.put : (registry.put thread handle operation).Kept := by
  rw [Registry.put]
  split
  · have asked : (registry.update handle fun child =>
        { child with
          requests := child.requests ++ [.request registry.requested]
          lastUsedAt := registry.now
          requestsServed := child.requestsServed + 1 }).Kept :=
      kept.update rfl (fun alive => alive) fun doomed => doomed
    have moved := asked.move before
      (fun id later => by simp : ∀ id later,
        Call.awaiting handle operation registry.requested ≠ .registering id later)
    exact moved.of_handles rfl rfl (fun _ => rfl) (fun _ alive => alive) (fun _ doomed => doomed)
      fun _ _ _ => Iff.rfl
  · exact Registry.Kept.finish (kept.update rfl (fun alive => alive) fun doomed => doomed) _ before

theorem Registry.Kept.receive : (registry.receive thread handle operation request).Kept := by
  rw [Registry.receive]
  split
  · exact kept
  · exact Registry.Kept.conclude (kept.update rfl (fun alive => alive) fun doomed => doomed) _
      before

theorem Registry.Kept.expire : (registry.expire thread handle request).Kept := by
  have released : (registry.update handle fun child => { child with owner := none }).Kept :=
    kept.update rfl (fun alive => alive) fun doomed => doomed
  rw [Registry.expire]
  split
  · dsimp only
    split
    · exact released.finish _ before
    · exact (released.evictHandle handle).finish _ before
  · exact kept

end

theorem Registry.Kept.proceed (kept : registry.Kept)
    (careful : registry.Careful (.proceed thread)) : (registry.proceed thread).Kept := by
  rw [Registry.Careful] at careful
  rw [Registry.proceed]
  cases call : registry.calls thread with
  | idle => exact kept
  | looking key operation => exact kept.lookUp call
  | spawning key operation => exact kept.spawnChild call
  | registering handle operation =>
    rw [call] at careful
    exact kept.register call careful
  | entering handle operation =>
    have before : ∀ id operation, registry.calls thread ≠ .registering id operation := by
      simp [call]
    dsimp only
    rw [Registry.enter]
    split
    · exact Registry.Kept.move (kept.update rfl (fun alive => alive) fun doomed => doomed) before
        (by simp)
    · exact kept
  | putting handle operation => exact kept.put (by simp [call])
  | awaiting handle operation request => exact kept.receive (by simp [call])
  | evicting handle =>
    exact (kept.evictHandle handle).finish .loadFailed (by
      show ∀ id operation, registry.calls thread ≠ .registering id operation
      simp [call])

theorem Registry.Kept.step (kept : registry.Kept) (event : Event)
    (careful : registry.Careful event) : (registry.step event).Kept := by
  cases event with
  | start thread key operation =>
    rw [Registry.step]
    split
    case h_1 idle => exact kept.move (by simp [idle]) (by simp)
    case h_2 => exact kept
  | proceed thread => exact kept.proceed careful
  | expire thread =>
    rw [Registry.step]
    split
    case h_1 call => exact kept.expire (by simp [call])
    case h_2 => exact kept
  | child handle event =>
    obtain ⟨key, alive, doomed, -⟩ := (registry.handles handle).react_frame event
    rw [Registry.step]
    exact kept.update key alive fun dooming => doomed.trans dooming
  | evict key => exact kept.dismiss _
  | evictAll => exact kept.dismiss _
  | reap => exact kept.dismiss _
  | tick =>
    exact kept.of_handles rfl rfl (fun _ => rfl) (fun _ alive => alive) (fun _ doomed => doomed)
      fun _ _ _ => Iff.rfl

end

section

variable {registry : Registry} {thread : Nat} {operation : Operation}

theorem length_dismiss_take (registry : Registry) {ordered : List (String × Nat)}
    (same : ordered.Perm registry.sessions.entries) (excess : Nat) :
    (registry.dismiss fun key _ =>
      key ∈ (ordered.take excess).map Prod.fst).sessions.entries.length =
      registry.sessions.entries.length - excess := by
  have distinct : ((ordered.take excess ++ ordered.drop excess).map Prod.fst).Nodup := by
    rw [take_append_drop]
    exact (same.map Prod.fst).nodup_iff.mpr registry.sessions.distinct
  rw [map_append, nodup_append] at distinct
  have gone : (ordered.take excess).filter (fun entry : String × Nat =>
      !decide (entry.1 ∈ (ordered.take excess).map Prod.fst)) = [] := by
    rw [filter_eq_nil_iff]
    intro entry mem
    simpa using mem_map_of_mem (f := Prod.fst) mem
  have kept : (ordered.drop excess).filter (fun entry : String × Nat =>
      !decide (entry.1 ∈ (ordered.take excess).map Prod.fst)) = ordered.drop excess := by
    rw [filter_eq_self]
    intro entry mem
    rw [Bool.not_eq_true', decide_eq_false_iff_not]
    exact fun also => distinct.2.2 _ also _ (mem_map_of_mem mem) rfl
  calc (registry.dismiss fun key _ =>
        key ∈ (ordered.take excess).map Prod.fst).sessions.entries.length
      = (ordered.filter fun entry : String × Nat =>
          !decide (entry.1 ∈ (ordered.take excess).map Prod.fst)).length :=
        ((same.filter _).length_eq).symm
    _ = ((ordered.take excess ++ ordered.drop excess).filter fun entry : String × Nat =>
          !decide (entry.1 ∈ (ordered.take excess).map Prod.fst)).length := by
        rw [take_append_drop]
    _ = (ordered.drop excess).length := by
        rw [filter_append, gone, kept, nil_append]
    _ = registry.sessions.entries.length - excess := by
        rw [length_drop, same.length_eq]

theorem Registry.bounded_enforceLimit (registry : Registry) :
    registry.enforceLimit.sessions.entries.length ≤ maxSessions := by
  rw [Registry.enforceLimit, length_dismiss_take registry (perm_insertionSort _ _)]
  omega

theorem Registry.length_dismiss (registry : Registry) (test : String → Nat → Bool) :
    (registry.dismiss test).sessions.entries.length ≤ registry.sessions.entries.length :=
  length_filter_le _ _

/-- No step leaves too many sessions. -/
theorem Registry.bounded_step (bounded : registry.sessions.entries.length ≤ maxSessions)
    (event : Event) : (registry.step event).sessions.entries.length ≤ maxSessions := by
  have dismissed : ∀ test, (registry.dismiss test).sessions.entries.length ≤ maxSessions :=
    fun test => Nat.le_trans (registry.length_dismiss test) bounded
  cases event with
  | start thread key operation =>
    rw [Registry.step]
    split <;> exact bounded
  | proceed thread =>
    rw [Registry.step, Registry.proceed]
    split
    · exact bounded
    · rw [Registry.lookUp]
      repeat' split
      · exact bounded
      · exact bounded
      · exact dismissed _
    · exact bounded
    · rw [Registry.register]
      repeat' split
      · exact Registry.bounded_enforceLimit _
      · exact bounded
      · exact Registry.bounded_enforceLimit _
    · rw [Registry.enter]
      split <;> exact bounded
    · rw [Registry.put]
      split <;> exact bounded
    · rw [Registry.receive]
      split
      · exact bounded
      · rename_i response rest _
        cases response <;> rw [Registry.conclude] <;> repeat' split
        all_goals exact bounded
    · exact dismissed _
  | expire thread =>
    rw [Registry.step]
    split
    · rw [Registry.expire]
      dsimp only
      repeat' split
      · exact bounded
      · exact dismissed _
      · exact bounded
    · exact bounded
  | child handle event => exact bounded
  | evict key => exact dismissed _
  | evictAll => exact dismissed _
  | reap => exact dismissed _
  | tick => exact bounded

end

def Response.message : Response → Option Message
  | .answer id _ => some (.request id)
  | .fatal => none
  | .bye => some .shutdown

def Handle.answered (handle : Handle) : List Message :=
  handle.responses.filterMap Response.message

structure Handle.Owes (handle : Handle) (request : Nat) : Prop where
  next : ∀ message, handle.answered.head? = some message → message = .request request
  comes : handle.alive = true → (handle.answered ++ handle.requests).head? = some (.request request)

/-- A child has changed without another owner, and still owes what it did. -/
def Handle.Keeps (before after : Handle) : Prop :=
  after.owner = before.owner ∧ ∀ request, before.Owes request → after.Owes request

section

variable (handle : Handle)
include handle

theorem Handle.Keeps.refl : handle.Keeps handle := ⟨rfl, fun _ owes => owes⟩

theorem Handle.answered_append (response : Response) :
    ({ handle with responses := handle.responses ++ [response] } : Handle).answered =
      handle.answered ++ response.message.toList := by
  rw [Handle.answered, filterMap_append]
  cases response <;> rfl

/-- Serving answers the messages in their order. -/
theorem Handle.keeps_serve (ok : Bool) : handle.Keeps (handle.serve ok) := by
  rw [Handle.serve]
  split
  case isFalse => exact .refl handle
  case isTrue running =>
    have alive : handle.alive = true := (Bool.and_eq_true _ _ ▸ running).1
    -- A served message goes from the front of the requests to the end of the responses.
    have served : ∀ (message : Message) (rest : List Message), handle.requests = message :: rest →
        ∀ request, handle.Owes request →
          (∀ first, (handle.answered ++ [message]).head? = some first → first = .request request) ∧
          ((handle.answered ++ [message]) ++ rest).head? = some (.request request) := by
      intro message rest requests request owes
      have comes := owes.comes alive
      rw [requests] at comes
      have whole : ((handle.answered ++ [message]) ++ rest).head? = some (.request request) := by
        rw [append_assoc]
        exact comes
      refine ⟨fun first found => ?_, whole⟩
      have front : ((handle.answered ++ [message]) ++ rest).head? = some first := by
        rw [List.head?_append, found, Option.some_or]
      exact Option.some.inj (front.symm.trans whole)
    split
    case h_1 => exact .refl handle
    case h_2 id rest requests =>
      refine ⟨rfl, fun request owes => ?_⟩
      obtain ⟨next, comes⟩ := served _ _ requests request owes
      have answered := handle.answered_append (.answer id ok)
      exact ⟨fun message found => next message (answered ▸ found), fun _ => answered ▸ comes⟩
    case h_3 rest requests =>
      refine ⟨rfl, fun request owes => ?_⟩
      obtain ⟨next, comes⟩ := served _ _ requests request owes
      have answered := handle.answered_append .bye
      exact ⟨fun message found => next message (answered ▸ found), fun impossible => by
        cases impossible⟩

theorem Handle.keeps_tell : handle.Keeps handle.tell := by
  rw [Handle.tell]
  split
  case isFalse => exact .refl handle
  case isTrue =>
    refine ⟨rfl, fun request owes => ⟨owes.next, fun alive => ?_⟩⟩
    have comes := owes.comes alive
    dsimp only [Handle.answered] at comes ⊢
    rw [← append_assoc, List.head?_append, comes, Option.some_or]

/-- Nothing that happens to a child changes what it owes. -/
theorem Handle.keeps_react (event : ChildEvent) : handle.Keeps (handle.react event) := by
  cases event with
  | load =>
    rw [Handle.react, Handle.load]
    split
    · exact ⟨rfl, fun request owes => ⟨owes.next, owes.comes⟩⟩
    · exact .refl handle
  | failLoad =>
    rw [Handle.react, Handle.failLoad]
    split
    · refine ⟨rfl, fun request owes => ⟨fun message found => ?_, fun impossible => ?_⟩⟩
      · have answered := handle.answered_append .fatal
        rw [Response.message, Option.toList_none, append_nil] at answered
        exact owes.next message (answered ▸ found)
      · cases impossible
    · exact .refl handle
  | serve ok => exact handle.keeps_serve ok
  | die => exact ⟨rfl, fun request owes => ⟨owes.next, nofun⟩⟩
  | tell => exact handle.keeps_tell
  | terminate =>
    rw [Handle.react, Handle.terminate]
    split
    · exact ⟨rfl, fun request owes => ⟨owes.next, nofun⟩⟩
    · exact .refl handle
  | drain =>
    rw [Handle.react, Handle.drain]
    split
    case isTrue dead =>
      have dead : handle.alive = false := by
        rw [Bool.and_eq_true, Bool.not_eq_true'] at dead
        exact dead.2
      refine ⟨rfl, fun request _ => ⟨fun message found => ?_, fun alive => ?_⟩⟩
      · cases found
      · exact absurd alive (by simp [dead])
    case isFalse => exact .refl handle

end

theorem Handle.Settled.owes {handle : Handle} (settled : handle.Settled) (request now : Nat) :
    ({ handle with
      requests := handle.requests ++ [.request request]
      lastUsedAt := now
      requestsServed := handle.requestsServed + 1 } : Handle).Owes request := by
  have nothing : handle.answered = [] := by
    rw [Handle.answered, filterMap_eq_nil_iff]
    intro response mem
    rw [settled.1 response mem]
    rfl
  refine ⟨fun message found => ?_, fun alive => ?_⟩
  · have impossible : handle.answered.head? = some message := found
    rw [nothing] at impossible
    cases impossible
  · have requests := settled.2 alive
    show (handle.answered ++ (handle.requests ++ [Message.request request])).head? = _
    rw [nothing, requests]
    rfl

def Outcome.Fair : Outcome → Prop
  | .returned request answered => answered = some request
  | .mismatched _ _ => False
  | _ => True

section

variable {registry next : Registry} {thread : Nat} {operation : Operation}

def Call.child : Call → Option Nat
  | .registering handle _ => some handle
  | .entering handle _ => some handle
  | .putting handle _ => some handle
  | .awaiting handle _ _ => some handle
  | .evicting handle => some handle
  | _ => none

def Registry.Numbered (registry : Registry) : Prop :=
  ∀ thread id, (registry.calls thread).child = some id → id < registry.spawned

variable {call : Call}

theorem Registry.Numbered.of_call (numbered : registry.Numbered)
    (calls : next.calls = Function.update registry.calls thread call)
    (spawned : registry.spawned ≤ next.spawned)
    (new : ∀ id, call.child = some id → id < next.spawned) : next.Numbered := by
  intro other id found
  rw [calls] at found
  by_cases same : other = thread
  · subst same
    rw [update_self] at found
    exact new id found
  · rw [update_of_ne same] at found
    exact Nat.lt_of_lt_of_le (numbered other id found) spawned

theorem numbered_initial : Registry.initial.Numbered := by
  intro thread id impossible
  cases impossible

theorem Registry.Numbered.stay (numbered : registry.Numbered)
    (calls : next.calls = Function.update registry.calls thread call)
    (spawned : next.spawned = registry.spawned)
    (same : call.child = (registry.calls thread).child) : next.Numbered :=
  numbered.of_call calls (Nat.le_of_eq spawned.symm) fun id found =>
    spawned ▸ numbered thread id (same ▸ found)

theorem Registry.Numbered.proceed (numbered : registry.Numbered) (kept : registry.Kept) :
    (registry.proceed thread).Numbered := by
  rw [Registry.proceed]
  cases call : registry.calls thread with
  | idle => exact numbered
  | looking key operation =>
    dsimp only
    rw [Registry.lookUp]
    split
    case h_1 => exact numbered.of_call rfl (Nat.le_refl _) (by simp [Call.child])
    case h_2 existing found =>
      split
      · refine numbered.of_call rfl (Nat.le_refl _) fun id same => ?_
        cases same
        exact (kept.keyed key existing found).2
      · exact numbered.of_call rfl (Nat.le_refl _) (by simp [Call.child])
  | spawning key operation =>
    refine numbered.of_call rfl (Nat.le_succ _) fun id same => ?_
    cases same
    exact Nat.lt_succ_self _
  | registering handle operation =>
    have placed : ∀ other : Registry, other.calls = registry.calls →
        other.spawned = registry.spawned →
          (other.move thread (.entering handle operation)).Numbered := by
      intro other calls spawned
      refine numbered.stay (by rw [Registry.move, calls]) spawned ?_
      rw [call]
      rfl
    dsimp only
    rw [Registry.register]
    split
    case h_1 => exact placed _ rfl rfl
    case h_2 winner found =>
      split
      · refine numbered.of_call rfl (Nat.le_refl _) fun id same => ?_
        cases same
        exact (kept.keyed _ winner found).2
      · exact placed _ rfl rfl
  | entering handle operation =>
    dsimp only
    rw [Registry.enter]
    split
    · exact numbered.stay rfl rfl (by rw [call]; rfl)
    · exact numbered
  | putting handle operation =>
    dsimp only
    rw [Registry.put]
    split
    · exact numbered.stay rfl rfl (by rw [call]; rfl)
    · exact numbered.of_call rfl (Nat.le_refl _) (by simp [Call.child])
  | awaiting handle operation request =>
    dsimp only
    rw [Registry.receive]
    split
    · exact numbered
    · rename_i response rest _
      cases response with
      | fatal => exact numbered.stay rfl rfl (by rw [call]; rfl)
      | answer id ok =>
        rw [Registry.conclude]
        split <;> exact numbered.of_call rfl (Nat.le_refl _) (by simp [Call.child])
      | bye =>
        rw [Registry.conclude]
        split <;> exact numbered.of_call rfl (Nat.le_refl _) (by simp [Call.child])
  | evicting handle => exact numbered.of_call rfl (Nat.le_refl _) (by simp [Call.child])

theorem Registry.Numbered.step (numbered : registry.Numbered) (kept : registry.Kept)
    (event : Event) : (registry.step event).Numbered := by
  cases event with
  | start thread key operation =>
    rw [Registry.step]
    split
    · exact numbered.of_call rfl (Nat.le_refl _) (by simp [Call.child])
    · exact numbered
  | proceed thread => exact numbered.proceed kept
  | expire thread =>
    rw [Registry.step]
    split
    · rw [Registry.expire]
      dsimp only
      repeat' split
      · exact numbered.of_call rfl (Nat.le_refl _) (by simp [Call.child])
      · exact numbered.of_call rfl (Nat.le_refl _) (by simp [Call.child])
      · exact numbered
    · exact numbered
  | child handle event => exact numbered
  | evict key => exact numbered
  | evictAll => exact numbered
  | reap => exact numbered
  | tick => exact numbered

structure Registry.Paired (registry : Registry) : Prop where
  putting : ∀ thread handle operation, registry.calls thread = .putting handle operation →
    (registry.handles handle).owner = some thread
  awaiting : ∀ thread handle operation request,
    registry.calls thread = .awaiting handle operation request →
      (registry.handles handle).owner = some thread ∧ (registry.handles handle).Owes request
  fair : ∀ outcome ∈ registry.outcomes, outcome.Fair

theorem paired_initial : Registry.initial.Paired where
  putting _ _ _ impossible := by cases impossible
  awaiting _ _ _ _ impossible := by cases impossible
  fair _ impossible := by cases impossible

/-- Children change without another owner. -/
theorem Registry.Paired.of_handles (paired : registry.Paired)
    (calls : next.calls = registry.calls) (outcomes : next.outcomes = registry.outcomes)
    (keeps : ∀ id, (registry.handles id).Keeps (next.handles id)) : next.Paired where
  putting := by
    intro thread handle operation call
    rw [calls] at call
    rw [(keeps handle).1]
    exact paired.putting thread handle operation call
  awaiting := by
    intro thread handle operation request call
    rw [calls] at call
    obtain ⟨owner, owes⟩ := paired.awaiting thread handle operation request call
    exact ⟨(keeps handle).1.trans owner, (keeps handle).2 request owes⟩
  fair := outcomes ▸ paired.fair

theorem Registry.Paired.of_call (paired : registry.Paired)
    (calls : next.calls = Function.update registry.calls thread call)
    (handles : ∀ other id, other ≠ thread → (registry.calls other).child = some id →
      (registry.handles id).owner = some other → (registry.handles id).Keeps (next.handles id))
    (putting : ∀ handle operation, call = .putting handle operation →
      (next.handles handle).owner = some thread)
    (awaiting : ∀ handle operation request, call = .awaiting handle operation request →
      (next.handles handle).owner = some thread ∧ (next.handles handle).Owes request)
    (fair : ∀ outcome ∈ next.outcomes, outcome.Fair) : next.Paired := by
  refine ⟨fun other handle operation found => ?_, fun other handle operation request found => ?_,
    fair⟩
  · rw [calls] at found
    by_cases same : other = thread
    · subst same
      rw [update_self] at found
      exact putting handle operation found
    · rw [update_of_ne same] at found
      have owner := paired.putting other handle operation found
      exact (handles other handle same (by rw [found]; rfl) owner).1.trans owner
  · rw [calls] at found
    by_cases same : other = thread
    · subst same
      rw [update_self] at found
      exact awaiting handle operation request found
    · rw [update_of_ne same] at found
      obtain ⟨owner, owes⟩ := paired.awaiting other handle operation request found
      obtain ⟨sameOwner, keeps⟩ := handles other handle same (by rw [found]; rfl) owner
      exact ⟨sameOwner.trans owner, keeps request owes⟩

theorem Registry.keeps_doom (registry : Registry) (handles : List Nat) (id : Nat) :
    (registry.handles id).Keeps ((registry.doom handles).handles id) := by
  rw [Registry.handles_doom]
  split
  · exact ⟨rfl, fun request owes => ⟨owes.next, owes.comes⟩⟩
  · exact .refl _

theorem Handle.Keeps.trans {first second third : Handle} (before : first.Keeps second)
    (after : second.Keeps third) : first.Keeps third :=
  ⟨after.1.trans before.1, fun request owes => after.2 request (before.2 request owes)⟩

theorem Registry.keeps_dismiss (registry : Registry) (test : String → Nat → Bool) (id : Nat) :
    (registry.handles id).Keeps ((registry.dismiss test).handles id) :=
  registry.keeps_doom _ id

theorem Registry.keeps_evictHandle (registry : Registry) (handle id : Nat) :
    (registry.handles id).Keeps ((registry.evictHandle handle).handles id) :=
  (registry.keeps_dismiss _ id).trans (Registry.keeps_doom _ _ id)

theorem Registry.Paired.fair_append (paired : registry.Paired) {outcome : Outcome}
    (fair : outcome.Fair) : ∀ other ∈ registry.outcomes ++ [outcome], other.Fair := by
  intro other mem
  rcases mem_append.mp mem with earlier | last
  · exact paired.fair other earlier
  · exact mem_singleton.mp last ▸ fair

variable {handle : Nat}

theorem Registry.keeps_of_update {changed : Handle}
    (handles : next.handles = Function.update registry.handles handle changed)
    (owner : (registry.handles handle).owner = none ∨
      (registry.handles handle).owner = some thread) :
    ∀ other id, other ≠ thread → (registry.calls other).child = some id →
      (registry.handles id).owner = some other →
      (registry.handles id).Keeps (next.handles id) := by
  intro other id apart _ held
  by_cases same : id = handle
  · subst same
    rcases owner with free | mine
    · exact absurd (free.symm.trans held) (by simp)
    · exact absurd (Option.some.inj (held.symm.trans mine)) apart
  · rw [handles, update_of_ne same]
    exact .refl _

variable {request : Nat}

section

variable (paired : registry.Paired)
include paired

theorem Registry.Paired.receive
    (call : registry.calls thread = .awaiting handle operation request) :
    (registry.receive thread handle operation request).Paired := by
  obtain ⟨owner, owes⟩ := paired.awaiting thread handle operation request call
  rw [Registry.receive]
  split
  case h_1 => exact paired
  case h_2 response rest responses =>
    cases response with
    | fatal =>
      exact paired.of_call rfl (Registry.keeps_of_update rfl (.inr owner)) (by simp) (by simp)
        paired.fair
    | answer id ok =>
      have own : id = request := by
        have next := owes.next (.request id) (by rw [Handle.answered, responses]; rfl)
        exact Message.request.inj next
      rw [Registry.conclude, if_pos own]
      refine paired.of_call rfl (Registry.keeps_of_update rfl (.inr owner)) (by simp)
        (by simp) (paired.fair_append ?_)
      split
      · exact congrArg some own
      · trivial
    | bye =>
      have next := owes.next .shutdown (by rw [Handle.answered, responses]; rfl)
      cases next

theorem Registry.Paired.expire (call : registry.calls thread = .awaiting handle operation request) :
    (registry.expire thread handle request).Paired := by
  obtain ⟨owner, -⟩ := paired.awaiting thread handle operation request call
  rw [Registry.expire]
  split
  case isFalse => exact paired
  case isTrue =>
    dsimp only
    split
    · exact paired.of_call rfl (Registry.keeps_of_update rfl (.inr owner)) (by simp)
        (by simp) (paired.fair_append trivial)
    · refine paired.of_call rfl (fun other id apart named held => ?_) (by simp)
        (by simp) (paired.fair_append trivial)
      have released : (registry.handles id).Keeps
          ((registry.update handle fun child => { child with owner := none }).handles id) :=
        Registry.keeps_of_update rfl (.inr owner) other id apart named held
      exact released.trans (Registry.keeps_evictHandle _ _ id)

theorem Registry.Paired.put (call : registry.calls thread = .putting handle operation)
    (settled : (registry.handles handle).Settled) :
    (registry.put thread handle operation).Paired := by
  have owner := paired.putting thread handle operation call
  rw [Registry.put]
  split
  · refine paired.of_call rfl (Registry.keeps_of_update rfl (.inr owner)) (by simp) ?_
      paired.fair
    intro other operation request same
    obtain ⟨rfl, rfl, rfl⟩ := Call.awaiting.inj same
    rw [Registry.move, Registry.update]
    dsimp only
    rw [update_self]
    exact ⟨owner, settled.owes _ _⟩
  · exact paired.of_call rfl (Registry.keeps_of_update rfl (.inr owner)) (by simp) (by simp)
      (paired.fair_append trivial)

theorem Registry.Paired.enter (handle : Nat) : (registry.enter thread handle operation).Paired := by
  rw [Registry.enter]
  split
  case isFalse => exact paired
  case isTrue free =>
    rw [Option.isNone_iff_eq_none] at free
    refine paired.of_call rfl (Registry.keeps_of_update rfl (.inl free)) ?_ (by simp)
      paired.fair
    intro other operation same
    obtain ⟨rfl, rfl⟩ := Call.putting.inj same
    rw [Registry.move, Registry.update]
    dsimp only
    rw [update_self]

/-- A call that takes no child goes on. -/
theorem Registry.Paired.move (calls : next.calls = Function.update registry.calls thread call)
    (keeps : ∀ id, (registry.handles id).Keeps (next.handles id))
    (putting : ∀ handle operation, call ≠ .putting handle operation)
    (awaiting : ∀ handle operation request, call ≠ .awaiting handle operation request)
    (fair : ∀ outcome ∈ next.outcomes, outcome.Fair) : next.Paired :=
  paired.of_call calls (fun _ id _ _ _ => keeps id)
    (fun handle operation same => absurd same (putting handle operation))
    (fun handle operation request same => absurd same (awaiting handle operation request)) fair

theorem Registry.Paired.proceed (numbered : registry.Numbered)
    (careful : registry.Careful (.proceed thread)) : (registry.proceed thread).Paired := by
  rw [Registry.Careful] at careful
  rw [Registry.proceed]
  cases call : registry.calls thread with
  | idle => exact paired
  | looking key operation =>
    dsimp only
    rw [Registry.lookUp]
    split
    · exact paired.move rfl (fun _ => .refl _) (by simp) (by simp) paired.fair
    · split
      · exact paired.move rfl (fun _ => .refl _) (by simp) (by simp) paired.fair
      · exact paired.move rfl (registry.keeps_dismiss _) (by simp) (by simp) paired.fair
  | spawning key operation =>
    refine paired.of_call rfl (fun other id apart found _ => ?_) (by simp) (by simp) paired.fair
    have old : id ≠ registry.spawned := Nat.ne_of_lt (numbered other id found)
    show (registry.handles id).Keeps
      (Function.update registry.handles registry.spawned (.started key registry.now) id)
    rw [update_of_ne old]
    exact .refl _
  | registering handle operation =>
    dsimp only
    rw [Registry.register]
    split
    · exact paired.move rfl (Registry.keeps_dismiss _ _) (by simp) (by simp) paired.fair
    · split
      · exact paired.move rfl (registry.keeps_doom _) (by simp) (by simp) paired.fair
      · exact paired.move rfl (Registry.keeps_dismiss _ _) (by simp) (by simp) paired.fair
  | entering handle operation => exact paired.enter handle
  | putting handle operation =>
    rw [call] at careful
    exact paired.put call careful
  | awaiting handle operation request => exact paired.receive call
  | evicting handle =>
    exact paired.move rfl (registry.keeps_evictHandle handle) (by simp) (by simp)
      (paired.fair_append trivial)

theorem Registry.Paired.step (numbered : registry.Numbered)
    (event : Event) (careful : registry.Careful event) : (registry.step event).Paired := by
  cases event with
  | start thread key operation =>
    rw [Registry.step]
    split
    · exact paired.move rfl (fun _ => .refl _) (by simp) (by simp) paired.fair
    · exact paired
  | proceed thread => exact paired.proceed numbered careful
  | expire thread =>
    rw [Registry.step]
    split
    case h_1 call => exact paired.expire call
    case h_2 => exact paired
  | child handle event =>
    refine paired.of_handles rfl rfl fun id => ?_
    show (registry.handles id).Keeps
      (Function.update registry.handles handle ((registry.handles handle).react event) id)
    by_cases same : id = handle
    · subst same
      rw [update_self]
      exact Handle.keeps_react _ event
    · rw [update_of_ne same]
      exact .refl _
  | evict key => exact paired.of_handles rfl rfl (registry.keeps_dismiss _)
  | evictAll => exact paired.of_handles rfl rfl (registry.keeps_dismiss _)
  | reap => exact paired.of_handles rfl rfl (registry.keeps_dismiss _)
  | tick => exact paired.of_handles rfl rfl fun _ => .refl _

end

end

/-- In every careful run, whatever the threads and children and the order of their steps, calls and
sessions are in order. -/
theorem orderly_along (events : List Event)
    (careful : EachStep Registry.step Registry.Careful .initial events) :
    ∀ registry ∈ statesAlong Registry.step .initial events, registry.Orderly := by
  have invariant := careful.invariant_along
    (fun registry => registry.Kept ∧ registry.Numbered ∧ registry.Paired ∧
      registry.sessions.entries.length ≤ maxSessions)
    (fun registry event ⟨kept, numbered, paired, bounded⟩ careful =>
      ⟨kept.step event careful, numbered.step kept event, paired.step numbered event careful,
        registry.bounded_step bounded event⟩)
    ⟨kept_initial, numbered_initial, paired_initial, Nat.zero_le _⟩
  intro registry reached
  obtain ⟨kept, -, paired, bounded⟩ := invariant registry reached
  exact {
    returned := fun request answered mem => paired.fair _ mem
    matched := fun request other mem => paired.fair _ mem
    accounted := kept.accounted
    bounded := bounded }

/-- Two requests to one session, answered one after the other, and an eviction. -/
def servedRun : List Event :=
  [.start 0 "sales" .fields, .proceed 0, .proceed 0, .proceed 0, .proceed 0, .proceed 0,
    .child 0 .load, .child 0 (.serve true), .proceed 0, .start 1 "sales" .execute, .proceed 1,
    .proceed 1, .proceed 1, .child 0 (.serve true), .proceed 1, .evict "sales", .child 0 .tell,
    .child 0 (.serve true)]

theorem servedRun_orderly : ∃ registry ∈ statesAlong Registry.step .initial servedRun,
      registry.outcomes = [.returned 0 (some 0), .returned 1 (some 1)] ∧ registry.Orderly :=
  ⟨_, mem_of_getLast? rfl, rfl, orderly_along servedRun
    ⟨trivial, trivial, trivial, fun _ found => (by cases found), trivial,
      ⟨fun _ mem => (by cases mem), fun _ => rfl⟩, trivial, trivial, trivial, trivial,
      trivial, trivial, ⟨fun _ mem => (by cases mem), fun _ => rfl⟩, trivial, trivial,
      trivial, trivial, trivial, trivial⟩ _ (mem_of_getLast? rfl)⟩

/-- A request whose answer comes after its call has given up: the next call meets that answer. -/
theorem lateAnswer_notOrderly : ¬∀ registry ∈ statesAlong Registry.step .initial
        [.start 0 "sales" .fields, .proceed 0, .proceed 0, .proceed 0, .proceed 0, .proceed 0,
          .expire 0, .child 0 .load, .child 0 (.serve true), .start 1 "sales" .fields, .proceed 1,
          .proceed 1, .proceed 1, .proceed 1],
      registry.Orderly := by
  intro orderly
  exact (orderly _ (mem_of_getLast? rfl)).matched 1 0 (mem_of_getLast? rfl)

/-- No run, careful or not, keeps too many sessions. -/
theorem sessions_bounded (events : List Event) :
    (events.foldl Registry.step .initial).sessions.entries.length ≤ maxSessions :=
  foldlRecOn (motive := fun registry : Registry => registry.sessions.entries.length ≤ maxSessions)
    _ _ (Nat.zero_le _) fun registry bounded event _ => registry.bounded_step bounded event

end Flowfile.VizSessions

import Flowfile.Library.Assignments
import Mathlib.Data.List.Infix

/-!
# Reading a topic

A read polls the consumer until enough messages came, the time is up, two polls in a row brought
nothing, or every assigned partition has reported its end. The last of these is noticed inside a
batch, at the event that completes the ends, and what stands behind it in the batch is dropped. The
offsets committed by the read are the positions of the consumer, which has handed out the whole
batch; those kept for a later commit are the ones that the loop has reached.

So a read loses nothing exactly when every value it was given can be decoded and no message stands
behind a completing end. The offsets kept for later never pass a message that was left.
-/

namespace Flowfile.Kafka

open Library.ColumnFrames Library.TracedFrames Library.Assignments List

abbrev Bytes := List UInt8

/-- What a JSON text says. -/
inductive Parsed (Value : Type) where
  | object (fields : List (String × Value))
  | other (value : Value)

/-- The parser of JSON texts, and the decoder of keys. -/
structure Codec (Value : Type) where
  loads : Bytes → Option (Parsed Value)
  decode : Bytes → String

/-- A message without a value is a tombstone. The time is missing when the broker has none. -/
structure Message where
  partition : Nat
  offset : Nat
  key : Option Bytes
  value : Option Bytes
  timestamp : Option Nat
deriving DecidableEq

/-- What a batch is made of. -/
inductive Event where
  | absent
  | failure
  | partitionEnd (partition : Nat)
  | message (message : Message)
deriving DecidableEq

/-- The cells of a row: those of the record, and those that are added. -/
inductive Cell (Value : Type) where
  | field (value : Value)
  | key (key : Option String)
  | number (number : Nat)
  | time (timestamp : Option Nat)

abbrev Row (Value : Type) := Table String (Cell Value)

variable {Value : Type} (codec : Codec Value)

/-- The record of a value. Values that are not objects are wrapped, those that cannot be read have
no record. -/
def deserialize : Option Bytes → Option (List (String × Value))
  | none => none
  | some value =>
    match codec.loads value with
    | none => none
    | some (.object fields) => some fields
    | some (.other value) => some [("value", value)]

def keyText (key : Option Bytes) : Option String :=
  match key with
  | none => none
  | some key => if key = [] then none else some (codec.decode key)

def rowOf (message : Message) : Option (Row Value) :=
  (deserialize codec message.value).map fun fields =>
    let record := fields.map fun field => (field.1, Cell.field field.2)
    let record := assign record "_kafka_key" (.key (keyText codec message.key))
    let record := assign record "_kafka_partition" (.number message.partition)
    let record := assign record "_kafka_offset" (.number message.offset)
    assign record "_kafka_timestamp" (.time message.timestamp)

structure Settings where
  valueFormat : String
  maxMessages : Nat

def consumeBatchSize : Nat := 500

def flushSize : Nat := 100000

/-- What one poll finds: partitions assigned meanwhile, and the events that can be handed out. -/
structure Poll where
  assigned : List Nat
  available : List Event

/-- What one poll returned, and the partitions that were assigned then. -/
structure Delivery where
  assigned : List Nat
  events : List Event

def eventsOf (deliveries : List Delivery) : List Event :=
  deliveries.flatMap Delivery.events

/-- The state of the loop. Rows that were written out are kept by the writer. -/
structure Consuming (Value : Type) where
  handed : List Delivery
  assigned : List Nat
  rows : List (Row Value)
  written : List (Row Value)
  highWatermarks : Table Nat Nat
  eofPartitions : List Nat
  count : Nat
  emptyPolls : Nat

variable (settings : Settings) (spills : Bool)

/-- Take one event of a batch. The answer says whether the loop is left. -/
def takeEvent (state : Consuming Value) : Event → Consuming Value × Bool
  | .absent => (state, false)
  | .failure => (state, false)
  | .partitionEnd partition =>
    let ended := state.eofPartitions ++ [partition]
    ({ state with eofPartitions := ended },
      !state.assigned.isEmpty && state.assigned.all fun assigned => assigned ∈ ended)
  | .message message =>
    let watermarks := assign state.highWatermarks message.partition (message.offset + 1)
    match rowOf codec message with
    | none => ({ state with highWatermarks := watermarks }, false)
    | some row =>
      let rows := state.rows ++ [row]
      let flushed := spills && flushSize ≤ rows.length
      ({ state with
        rows := if flushed then [] else rows
        written := if flushed then state.written ++ rows else state.written
        highWatermarks := watermarks
        count := state.count + 1 }, settings.maxMessages ≤ state.count + 1)

def takeBatch (state : Consuming Value) : List Event → Consuming Value × Bool
  | [] => (state, false)
  | event :: rest =>
    let taken := takeEvent codec settings spills state event
    if taken.2 then taken else takeBatch taken.1 rest

def Consuming.polled (state : Consuming Value) (assigned : List Nat) (batch : List Event) :
    Consuming Value :=
  { state with
    assigned := state.assigned ++ assigned
    handed := state.handed ++ [Delivery.mk (state.assigned ++ assigned) batch]
    emptyPolls := if batch = [] then state.emptyPolls + 1 else 0 }

/-- The polls that are made before the time is up, as far as the loop goes. A poll returns no more
events than it was asked for. -/
def consumeMessages (state : Consuming Value) : List Poll → Consuming Value
  | [] => state
  | poll :: later =>
    if state.count < settings.maxMessages then
      let batch := poll.available.take (min consumeBatchSize (settings.maxMessages - state.count))
      let polled := state.polled poll.assigned batch
      if batch = [] then
        if 0 < polled.count ∧ 2 ≤ polled.emptyPolls then polled else consumeMessages polled later
      else
        let taken := takeBatch codec settings spills polled batch
        if taken.2 then taken.1 else consumeMessages taken.1 later
    else state

def startConsuming : Consuming Value :=
  ⟨[], [], [], [], [], [], 0, 0⟩

/-- The positions of a consumer that has handed out these events: behind the last message of each
partition. -/
def positions (events : List Event) : Table Nat Nat :=
  events.foldl (fun reached event =>
    match event with
    | .message message => assign reached message.partition (message.offset + 1)
    | _ => reached) []

structure KafkaReadResult where
  newOffsets : Table Nat Nat
  messagesConsumed : Nat
  partitionsRead : Nat

/-- A read that was made: its rows, its result, the offsets it committed, and what the consumer
had handed out. -/
structure Read (Value : Type) where
  rows : List (Row Value)
  result : KafkaReadResult
  committed : Option (Table Nat Nat)
  handed : List Delivery

inductive ReadError where
  | unsupportedFormat (format : String)

def readKafkaSource (commit : Bool) (polls : List Poll) : Except ReadError (Read Value) :=
  if settings.valueFormat = "json" then
    let consumed := consumeMessages codec settings spills startConsuming polls
    .ok
      { rows := consumed.written ++ consumed.rows
        result := ⟨consumed.highWatermarks, consumed.count, consumed.highWatermarks.length⟩
        committed :=
          if commit && 0 < consumed.count then some (positions (eventsOf consumed.handed))
          else none
        handed := consumed.handed }
  else .error (.unsupportedFormat settings.valueFormat)

def onFlowComplete (result : KafkaReadResult) (success : Bool) : Option (Table Nat Nat) :=
  if success then some result.newOffsets else none

def Read.CommittedAfterwards (read : Read Value) (offsets : Table Nat Nat) : Prop :=
  read.committed = some offsets ∨ ∃ success, onFlowComplete read.result success = some offsets

def messagesOf (events : List Event) : List Message :=
  events.filterMap fun event =>
    match event with
    | .message message => if message.value.isSome then some message else none
    | _ => none

/-- Offsets pass a message when the next read starts behind it. -/
def Passes (offsets : Table Nat Nat) (message : Message) : Prop :=
  ∃ offset, dictGet offsets message.partition = some offset ∧ message.offset < offset

def Read.LosesNothing (read : Read Value) : Prop :=
  read.rows.map some = (messagesOf (eventsOf read.handed)).map (rowOf codec) ∧
    ∀ offsets, read.CommittedAfterwards offsets → ∀ message ∈ messagesOf (eventsOf read.handed),
        (∀ row ∈ read.rows, rowOf codec message ≠ some row) → ¬Passes offsets message

def Ended (assigned : List Nat) (events : List Event) : Prop :=
  assigned ≠ [] ∧ ∀ partition ∈ assigned, Event.partitionEnd partition ∈ events

def BehindEnds (assigned : List Nat) (taken batch rest : List Event) : Prop :=
  ∃ before partition, batch = before ++ .partitionEnd partition :: rest ∧
    Ended assigned (taken ++ before ++ [.partitionEnd partition])

def CutOff (handed : List Delivery) (rest : List Event) : Prop :=
  ∃ earlier delivery later, handed = earlier ++ delivery :: later ∧
    BehindEnds delivery.assigned (eventsOf earlier) delivery.events rest

def eventRow : Event → Option (Row Value)
  | .message message => rowOf codec message
  | _ => none

structure Consuming.HasTaken (state : Consuming Value) (taken : List Event) : Prop where
  rows : state.written ++ state.rows = taken.filterMap (eventRow codec)
  count : state.count = (taken.filterMap (eventRow codec)).length
  ends : ∀ partition, partition ∈ state.eofPartitions ↔ .partitionEnd partition ∈ taken
  watermarks : state.highWatermarks = positions taken

section

variable {codec settings spills} {state : Consuming Value} {taken : List Event}

variable (codec) in
theorem hasTaken_start : (startConsuming : Consuming Value).HasTaken codec [] where
  rows := rfl
  count := rfl
  ends := fun partition => by simp [startConsuming]
  watermarks := rfl

theorem positions_concat (events : List Event) (event : Event) : positions (events ++ [event]) =
      match event with
      | .message message => assign (positions events) message.partition (message.offset + 1)
      | _ => positions events := by
  rw [positions, foldl_append]
  rfl

variable (settings spills) in
/-- Taking an event adds its row, its end and its position. -/
theorem Consuming.HasTaken.next (follows : state.HasTaken codec taken) (event : Event) :
    (takeEvent codec settings spills state event).1.HasTaken codec (taken ++ [event]) := by
  obtain ⟨rows, count, ends, watermarks⟩ := follows
  cases event with
  | absent => constructor <;> simp [takeEvent, eventRow, positions_concat, *]
  | failure => constructor <;> simp [takeEvent, eventRow, positions_concat, *]
  | partitionEnd partition => constructor <;> simp [takeEvent, eventRow, positions_concat, *]
  | message message =>
  cases found : rowOf codec message with
  | none => constructor <;> simp [takeEvent, eventRow, positions_concat, *]
  | some row =>
  constructor
  · simp only [takeEvent, found]
    split <;> simp [eventRow, found, ← rows]
  · simp [takeEvent, eventRow, found, count]
  · simp [takeEvent, found, ends]
  · simp [takeEvent, found, positions_concat, watermarks]

theorem takeEvent_assigned (event : Event) :
    (takeEvent codec settings spills state event).1.assigned = state.assigned := by
  cases event with
  | message message => simp only [takeEvent]; split <;> rfl
  | _ => rfl

theorem takeEvent_handed (event : Event) :
    (takeEvent codec settings spills state event).1.handed = state.handed := by
  cases event with
  | message message => simp only [takeEvent]; split <;> rfl
  | _ => rfl

variable (codec settings spills state) in
theorem takeEvent_count (event : Event) :
    (takeEvent codec settings spills state event).1.count ≤ state.count + 1 := by
  cases event with
  | message message => simp only [takeEvent]; split <;> simp
  | _ => simp [takeEvent]

theorem left_iff (follows : state.HasTaken codec taken) (event : Event) :
    (takeEvent codec settings spills state event).2 = true ↔
      (∃ partition, event = .partitionEnd partition ∧ Ended state.assigned (taken ++ [event])) ∨
        (eventRow codec event).isSome ∧ settings.maxMessages ≤ state.count + 1 := by
  cases event with
  | absent => simp [takeEvent, eventRow]
  | failure => simp [takeEvent, eventRow]
  | partitionEnd partition =>
    simp [takeEvent, eventRow, Ended, follows.ends]
  | message message =>
    cases found : rowOf codec message with
    | none => simp [takeEvent, eventRow, found]
    | some row => simp [takeEvent, eventRow, found]

variable (settings spills) in
/-- A batch is taken up to an event at which the loop is left. Only the completion of the ends
leaves events behind it, as a batch is no longer than what is still wanted. -/
theorem takeBatch_spec (batch : List Event) (follows : state.HasTaken codec taken)
    (room : state.count + batch.length ≤ settings.maxMessages) :
    ∃ done rest, batch = done ++ rest ∧
      (takeBatch codec settings spills state batch).1.HasTaken codec (taken ++ done) ∧
      ((takeBatch codec settings spills state batch).2 = false → rest = []) ∧
      (rest = [] ∨ BehindEnds state.assigned taken batch rest) ∧
      ∀ behind, BehindEnds state.assigned taken batch behind →
        (takeBatch codec settings spills state batch).2 = true ∧ behind <:+ rest := by
  induction batch generalizing state taken with
  | nil =>
    refine ⟨[], [], rfl, by simpa [takeBatch] using follows, fun _ => rfl, .inl rfl, ?_⟩
    rintro behind ⟨before, partition, impossible, _⟩
    simp at impossible
  | cons event batch ih =>
    simp only [length_cons] at room
    have next := follows.next settings spills event
    by_cases left : (takeEvent codec settings spills state event).2 = true
    · refine ⟨[event], batch, rfl, by simpa [takeBatch, left] using next, ?_, ?_, ?_⟩
      · simp [takeBatch, left]
      · rcases (left_iff follows event).mp left with ⟨partition, rfl, ended⟩ | ⟨_, enough⟩
        · exact .inr ⟨[], partition, rfl, by simpa using ended⟩
        · exact .inl (eq_nil_of_length_eq_zero (by omega))
      · rintro behind ⟨before, partition, split, _⟩
        refine ⟨by simp [takeBatch, left], ?_⟩
        cases before with
        | nil =>
          obtain ⟨-, rfl⟩ := List.cons.inj split
          exact suffix_rfl
        | cons first before =>
          obtain ⟨-, rfl⟩ := List.cons.inj split
          exact ⟨before ++ [.partitionEnd partition], by simp⟩
    · have count := takeEvent_count codec settings spills state event
      obtain ⟨done, rest, split, follows', unleft, cut, behindRest⟩ :=
        ih next (by omega)
      rw [takeEvent_assigned] at cut behindRest
      have same : takeBatch codec settings spills state (event :: batch) =
          takeBatch codec settings spills (takeEvent codec settings spills state event).1
            batch := by
        simp [takeBatch, left]
      rw [same]
      refine ⟨event :: done, rest, by simp [split], by simpa using follows', unleft, ?_, ?_⟩
      · refine cut.imp_right ?_
        rintro ⟨before, partition, rfl, ended⟩
        exact ⟨event :: before, partition, rfl, by simpa using ended⟩
      · rintro behind ⟨before, partition, cutHere, ended⟩
        cases before with
        | nil =>
          obtain ⟨rfl, -⟩ := List.cons.inj cutHere
          exact absurd ((left_iff follows _).mpr (.inl ⟨partition, rfl, by simpa using ended⟩)) left
        | cons first before =>
          obtain ⟨rfl, rfl⟩ := List.cons.inj cutHere
          exact behindRest behind ⟨before, partition, rfl, by simpa using ended⟩

variable (codec settings spills state) in
theorem takeBatch_handed (batch : List Event) :
    (takeBatch codec settings spills state batch).1.handed = state.handed := by
  induction batch generalizing state with
  | nil => rfl
  | cons event batch ih =>
    simp only [takeBatch]
    split
    · exact takeEvent_handed event
    · exact (ih _).trans (takeEvent_handed event)

end

section

variable {codec settings spills} {state : Consuming Value}

theorem cutOff_concat {handed : List Delivery} {delivery : Delivery} {rest : List Event} :
    CutOff (handed ++ [delivery]) rest ↔ CutOff handed rest ∨
        BehindEnds delivery.assigned (eventsOf handed) delivery.events rest := by
  constructor
  · rintro ⟨earlier, found, later, split, behind⟩
    rcases eq_nil_or_concat' later with rfl | ⟨later, last, rfl⟩
    · obtain ⟨rfl, same⟩ := append_inj' split rfl
      cases same
      exact .inr behind
    · rw [← cons_append, ← append_assoc] at split
      obtain ⟨rfl, -⟩ := append_inj' split rfl
      exact .inl ⟨earlier, found, later, rfl, behind⟩
  · rintro (⟨earlier, found, later, rfl, behind⟩ | behind)
    · exact ⟨earlier, found, later ++ [delivery], by simp, behind⟩
    · exact ⟨handed, delivery, [], rfl, behind⟩

theorem eventsOf_concat (handed : List Delivery) (delivery : Delivery) :
    eventsOf (handed ++ [delivery]) = eventsOf handed ++ delivery.events := by
  simp [eventsOf]

def Consuming.Accounted (codec : Codec Value) (state : Consuming Value) : Prop :=
  ∃ done rest, eventsOf state.handed = done ++ rest ∧ state.HasTaken codec done ∧
    (rest = [] ∨ CutOff state.handed rest) ∧ ∀ behind, CutOff state.handed behind → behind <:+ rest

theorem accounted_of_uncut (follows : state.HasTaken codec (eventsOf state.handed))
    (uncut : ∀ rest, ¬CutOff state.handed rest) : state.Accounted codec :=
  ⟨_, [], (append_nil _).symm, follows, .inl rfl, fun behind cut => absurd cut (uncut behind)⟩

theorem Consuming.HasTaken.polled {taken : List Event} (follows : state.HasTaken codec taken)
    (assigned : List Nat) (batch : List Event) :
    (state.polled assigned batch).HasTaken codec taken :=
  ⟨follows.rows, follows.count, follows.ends, follows.watermarks⟩

theorem uncut_polled (assigned : List Nat) (batch : List Event)
    (uncut : ∀ rest, ¬CutOff state.handed rest)
    (unended : ∀ rest, ¬BehindEnds (state.assigned ++ assigned) (eventsOf state.handed) batch rest)
    (rest : List Event) :
    ¬CutOff (state.polled assigned batch).handed rest := by
  intro cut
  rcases cutOff_concat.mp cut with cut | behind
  · exact uncut rest cut
  · exact unended rest behind

theorem not_behindEnds_nil (assigned : List Nat) (taken rest : List Event) :
    ¬BehindEnds assigned taken [] rest := by
  rintro ⟨before, partition, impossible, _⟩
  simp at impossible

variable (settings spills) in
theorem consumeMessages_accounted (polls : List Poll)
    (follows : state.HasTaken codec (eventsOf state.handed))
    (uncut : ∀ rest, ¬CutOff state.handed rest) :
    (consumeMessages codec settings spills state polls).Accounted codec := by
  induction polls generalizing state with
  | nil => exact accounted_of_uncut follows uncut
  | cons poll later ih =>
    rw [consumeMessages]
    by_cases wanted : state.count < settings.maxMessages
    · rw [if_pos wanted]
      have bound : (poll.available.take
          (min consumeBatchSize (settings.maxMessages - state.count))).length ≤
            settings.maxMessages - state.count :=
        (length_take_le _ _).trans (Nat.min_le_right _ _)
      generalize poll.available.take (min consumeBatchSize
        (settings.maxMessages - state.count)) = batch at bound ⊢
      dsimp only
      have handedOut : eventsOf (state.polled poll.assigned batch).handed =
          eventsOf state.handed ++ batch := eventsOf_concat _ _
      by_cases nothing : batch = []
      · rw [if_pos nothing]
        have polled := follows.polled poll.assigned batch
        have uncut' := uncut_polled poll.assigned batch uncut
          (nothing ▸ not_behindEnds_nil _ _)
        rw [nothing, append_nil, ← nothing] at handedOut
        rw [← handedOut] at polled
        split
        · exact accounted_of_uncut polled uncut'
        · exact ih polled uncut'
      · rw [if_neg nothing]
        obtain ⟨done, rest, parts, taken, unleft, cut, behindRest⟩ :=
          takeBatch_spec settings spills batch
            (follows.polled poll.assigned batch) (by simp only [Consuming.polled]; omega)
        have handed := takeBatch_handed codec settings spills
          (state.polled poll.assigned batch) batch
        rw [← handed] at handedOut
        by_cases left : (takeBatch codec settings spills (state.polled poll.assigned batch)
            batch).2 = true
        · rw [if_pos left]
          refine ⟨_, rest, by rw [handedOut, parts, append_assoc], taken, ?_, ?_⟩
          · rw [handed]
            exact cut.imp_right fun behind => cutOff_concat.mpr (.inr behind)
          · intro behind cutHere
            rw [handed] at cutHere
            rcases cutOff_concat.mp cutHere with earlier | here
            · exact absurd earlier (uncut behind)
            · exact (behindRest behind here).2
        · rw [if_neg left]
          rw [unleft (by simpa using left), append_nil] at parts
          rw [← parts] at taken
          rw [← handedOut] at taken
          refine ih taken ?_
          rw [handed]
          exact uncut_polled _ _ uncut fun behind here => left (behindRest behind here).1
    · rw [if_neg wanted]
      exact accounted_of_uncut follows uncut

end

section

variable {codec settings spills} {commit : Bool} {polls : List Poll} {read : Read Value}

theorem messagesOf_append (first second : List Event) :
    messagesOf (first ++ second) = messagesOf first ++ messagesOf second :=
  filterMap_append

theorem rowOf_isSome (message : Message) :
    (rowOf codec message).isSome = (deserialize codec message.value).isSome :=
  Option.isSome_map

theorem filterMap_eventRow (events : List Event) :
    events.filterMap (eventRow codec) = (messagesOf events).filterMap (rowOf codec) := by
  rw [messagesOf, filterMap_filterMap]
  apply filterMap_congr
  intro event _
  cases event with
  | message message =>
    cases value : message.value with
    | none => simp [eventRow, rowOf, deserialize, value]
    | some _ => simp [eventRow, value]
  | _ => rfl

theorem map_some_filterMap_iff {α β : Type} (row : α → Option β) (messages : List α) :
    (messages.filterMap row).map some = messages.map row ↔
      ∀ message ∈ messages, (row message).isSome := by
  induction messages with
  | nil => simp
  | cons message rest ih =>
    cases found : row message with
    | none =>
      refine iff_of_false ?_ fun all => by simpa [found] using all message mem_cons_self
      intro same
      have missing : none ∈ ((message :: rest).filterMap row).map some := by
        rw [same]
        simp [found]
      simp at missing
    | some value => simp [found, ih]

theorem read_spec (made : readKafkaSource codec settings spills commit polls = .ok read) :
    ∃ done rest, eventsOf read.handed = done ++ rest ∧
      read.rows = (messagesOf done).filterMap (rowOf codec) ∧
      read.result.newOffsets = positions done ∧
      (rest = [] ∨ CutOff read.handed rest) ∧
      ∀ behind, CutOff read.handed behind → behind <:+ rest := by
  rw [readKafkaSource] at made
  split at made
  · cases made
    have uncut : ∀ rest, ¬CutOff (startConsuming : Consuming Value).handed rest := by
      rintro rest ⟨earlier, delivery, later, impossible, _⟩
      simp [startConsuming] at impossible
    obtain ⟨done, rest, parts, taken, cut, behindRest⟩ :=
      consumeMessages_accounted settings spills polls (hasTaken_start codec) uncut
    exact ⟨done, rest, parts, taken.rows.trans (filterMap_eventRow done), taken.watermarks, cut,
      behindRest⟩
  · cases made

/-- A read returns the messages that it was given, and passes none in its commits, exactly when all
their values can be decoded and none was cut off. -/
theorem losesNothing_iff (made : readKafkaSource codec settings spills commit polls = .ok read) :
    read.LosesNothing codec ↔
      (∀ message ∈ messagesOf (eventsOf read.handed), (deserialize codec message.value).isSome) ∧
        ∀ rest, CutOff read.handed rest → messagesOf rest = [] := by
  obtain ⟨done, rest, parts, rows, -, cut, behindRest⟩ := read_spec made
  simp only [Read.LosesNothing, parts, rows, messagesOf_append, ← rowOf_isSome]
  constructor
  · rintro ⟨same, _⟩
    have decoded : ∀ message ∈ messagesOf done ++ messagesOf rest,
        (rowOf codec message).isSome := by
      intro message mem
      have found := mem_map_of_mem (f := rowOf codec) mem
      rw [← same] at found
      obtain ⟨row, -, stored⟩ := mem_map.mp found
      simp [← stored]
    refine ⟨decoded, fun behind cutHere => ?_⟩
    have lengths := congrArg List.length same
    simp only [length_map, length_append] at lengths
    have fewer := length_filterMap_le (rowOf codec) (messagesOf done)
    have noneLeft : messagesOf rest = [] := eq_nil_of_length_eq_zero (by omega)
    obtain ⟨front, split⟩ := behindRest behind cutHere
    rw [← split, messagesOf_append] at noneLeft
    exact (append_eq_nil_iff.mp noneLeft).2
  · rintro ⟨decoded, uncut⟩
    have noneLeft : messagesOf rest = [] := by
      rcases cut with rfl | cutHere
      · rfl
      · exact uncut rest cutHere
    rw [noneLeft, append_nil] at decoded ⊢
    refine ⟨(map_some_filterMap_iff _ _).mpr decoded, ?_⟩
    intro offsets _ message mem absent
    obtain ⟨row, found⟩ := Option.isSome_iff_exists.mp (decoded message mem)
    exact absurd found (absent row (mem_filterMap.mpr ⟨message, mem, found⟩))

def emptyObjects : Codec Nat :=
  ⟨fun text => if text = [123, 125] then some (.object []) else none, fun _ => ""⟩

def emptyMessage (partition offset : Nat) : Message :=
  ⟨partition, offset, none, some [123, 125], none⟩

/-- Nothing is lost where the partition does not report its end. -/
theorem openPartition_losesNothing : ∃ read, readKafkaSource emptyObjects ⟨"json", 10⟩ false true
        [⟨[0], [.message (emptyMessage 0 0), .message (emptyMessage 0 1)]⟩] = .ok read ∧
      read.LosesNothing emptyObjects := by
  obtain ⟨read, made, handed⟩ : ∃ read, readKafkaSource emptyObjects ⟨"json", 10⟩ false true
      [⟨[0], [.message (emptyMessage 0 0), .message (emptyMessage 0 1)]⟩] = .ok read ∧
      read.handed = [⟨[0], [.message (emptyMessage 0 0), .message (emptyMessage 0 1)]⟩] :=
    ⟨_, rfl, rfl⟩
  refine ⟨read, made, (losesNothing_iff made).mpr ⟨by rw [handed]; decide, ?_⟩⟩
  rw [handed]
  rintro rest ⟨earlier, delivery, later, split, before, partition, batch, -⟩
  have ends : Event.partitionEnd partition ∈ eventsOf (earlier ++ delivery :: later) := by
    simp [eventsOf, batch]
  rw [← split] at ends
  simp [eventsOf] at ends

theorem messageBehindEnds_lost : ∃ read, readKafkaSource emptyObjects ⟨"json", 10⟩ false true
        [⟨[0, 1], [.message (emptyMessage 0 0), .partitionEnd 0, .partitionEnd 1,
          .message (emptyMessage 0 1)]⟩] = .ok read ∧
      read.rows.length = 1 ∧ read.committed = some [(0, 2)] ∧
      ¬read.LosesNothing emptyObjects := by
  refine ⟨_, rfl, by decide, by decide, ?_⟩
  rintro ⟨rows, _⟩
  exact absurd (congrArg List.length rows) (by decide)

end

end Flowfile.Kafka

import Flowfile.Library.Base64
import Flowfile.Library.EventRuns
import Flowfile.Library.JsonTexts
import Flowfile.Library.TextLines
import Flowfile.Library.WholeNumbers
import Mathlib.Data.List.TakeWhile

/-!
# Replaying the frames of an agent session

A session streams its events as frames, whose ids are made of the session id and its step count. A
frame is kept after it was sent: in a deque that holds the last ones, and as a line of a file from
which the deque is loaded again. A client that comes back names the last frame it saw, and gets
those with a larger step.

Nothing keeps several frames from sharing a step, a client from leaving while a frame is sent, or an
id from having characters at which the lines of the file break apart. Replay is exact in every state
of a run exactly if none of this happens.
-/

namespace Flowfile.Replay

open Library.PythonText Library.EventRuns Library.JsonTexts Library.TextLines List
open Library.WrittenNumbers
open Library.Base64 (encode decode letter mem_encode decode_encode)

/-- A frame: its id, and the bytes that are sent. -/
abbrev Frame : Type := List Char × List UInt8

/-- A step count. Longer numbers are not written by Python. -/
structure StepCount where
  count : Nat
  writable : (toString count).toList.length ≤ maxIntegerDigits

/-- An agent session, and the size its replay buffer was given. -/
structure Session where
  id : List Char
  cap : Int

/-- The number of frames that are kept. -/
def Session.limit (session : Session) : Nat :=
  (max 1 session.cap).toNat

structure PlannerEvent where
  event : List Char
  data : List Char

variable (sessionId : List Char)

def eventId (step : StepCount) : List Char :=
  sessionId ++ '.' :: (toString step.count).toList

/-- The text of a frame. -/
def formatSsePlannerEvent (event : PlannerEvent) (sessionId : List Char) (step : StepCount) :
    List Char :=
  "id: ".toList ++ eventId sessionId step ++ "\nevent: ".toList ++ event.event ++
    "\ndata: ".toList ++ event.data ++ "\n\n".toList

/-- Split an id at its last dot. Both parts must be there, and the second one must be a number. -/
def parseEventId (eventId : List Char) : Option (List Char × Int) :=
  if '.' ∈ eventId then
    let step := (eventId.reverse.takeWhile (· ≠ '.')).reverse
    let sid := ((eventId.reverse.dropWhile (· ≠ '.')).drop 1).reverse
    if sid = [] ∨ step = [] then none else (parseInt step).map (sid, ·)
  else none

/-- The deque of a session, if it was loaded, and the text of its file, if there is one. -/
structure Buffer where
  mirror : Option (List Frame)
  file : Option (List Char)

def eventIdKey : List Char :=
  ['e', 'v', 'e', 'n', 't', '_', 'i', 'd']

/-- The key of the bytes in a line. -/
def dataKey : List Char :=
  ['d', 'a', 't', 'a']

def dumpsFrame (frame : Frame) : List Char :=
  dumpsTexts eventIdKey frame.1 [(dataKey, encode frame.2)]

/-- The frame of a line. Lines that are blank, or not those of a frame, are passed over. -/
def parseLine (raw : List Char) : Option Frame :=
  if (stripWhere isSpace raw).isEmpty then none
  else do
    let value ← loads raw
    let eventId ← value.textOf eventIdKey
    let payload ← (← value.textOf dataKey) |> decode
    return (eventId, payload)

/-- The frames of a file. -/
def iterDiskLines (text : List Char) : List Frame :=
  (splitLines text).filterMap parseLine

/-- Append to a deque that keeps the last frames. -/
def push (limit : Nat) (frames : List Frame) (frame : Frame) : List Frame :=
  (frames ++ [frame]).drop (frames.length + 1 - limit)

def Buffer.ensureLoaded (limit : Nat) (buffer : Buffer) : List Frame :=
  match buffer.mirror with
  | some frames => frames
  | none => (iterDiskLines (buffer.file.getD [])).foldl (push limit) []

/-- Append a frame to the deque and to the file. A file with twice the lines is written anew. -/
def Buffer.append (limit : Nat) (buffer : Buffer) (frame : Frame) : Buffer :=
  let frames := push limit (buffer.ensureLoaded limit) frame
  let text := buffer.file.getD [] ++ (dumpsFrame frame ++ ['\n'])
  { mirror := some frames
    file := some
      (if lineCount text ≤ limit * 2 then text
      else frames.flatMap fun frame => dumpsFrame frame ++ ['\n']) }

def isAfter (target : Int) (frame : Frame) : Bool :=
  match parseEventId frame.1 with
  | some (_, step) => target < step
  | none => false

/-- The frames for a cursor: all without one, or if it is malformed. -/
def Buffer.readAfter (limit : Nat) (buffer : Buffer) (cursor : Option (List Char)) : List Frame :=
  match cursor.bind parseEventId with
  | some (_, target) => (buffer.ensureLoaded limit).filter (isAfter target)
  | none => buffer.ensureLoaded limit

/-- The buffer in a new process. -/
def Buffer.reloaded (buffer : Buffer) : Buffer :=
  { buffer with mirror := none }

/-- A frame that was sent, with its step. -/
structure Emission where
  step : StepCount
  payload : List UInt8

def Emission.frame (emission : Emission) : Frame :=
  (eventId sessionId emission.step, emission.payload)

open Emission (frame)

/-- All frames a session has sent, and its buffer. -/
structure Stream where
  emitted : List Emission
  buffer : Buffer

/-- Nothing was sent, and there is no file. -/
def Stream.start : Stream :=
  ⟨[], none, none⟩

/-- What happens to a stream: a frame is sent, after which the client may be gone, a client asks for
frames, or the process is restarted. -/
inductive StreamEvent where
  | emit (event : PlannerEvent) (step : StepCount) (connected : Bool)
  | resume (cursor : Option (List Char))
  | restart

def Stream.next (session : Session) (state : Stream) : StreamEvent → Stream
  | .emit event step connected =>
    let line := formatSsePlannerEvent event session.id step
    let emission := ⟨step, (String.ofList line).toUTF8.toList⟩
    { emitted := state.emitted ++ [emission]
      buffer :=
        if connected then state.buffer.append session.limit (emission.frame session.id)
        else state.buffer }
  | .resume _ =>
    { state with
      buffer := { state.buffer with mirror := some (state.buffer.ensureLoaded session.limit) } }
  | .restart => { state with buffer := state.buffer.reloaded }

/-- A buffer answers every cursor with the frames sent after the one it names. -/
structure Answers (session : Session) (emitted : List Emission) (buffer : Buffer) : Prop where
  all : buffer.readAfter session.limit none = emitted.map (frame session.id)
  after : ∀ earlier emission later, emitted = earlier ++ emission :: later →
    buffer.readAfter session.limit (some (eventId session.id emission.step)) =
      later.map (frame session.id)

/-- Replay is exact, also from the file, as long as the frames fit into the buffer. -/
def ReplaysExactly (session : Session) (state : Stream) : Prop :=
  state.emitted.length ≤ session.limit → Answers session state.emitted state.buffer ∧
      Answers session state.emitted state.buffer.reloaded

/-- No character is left in the lines of a file that breaks them. Control characters are escaped. -/
def Unbroken : Prop :=
  ∀ c ∈ sessionId, isLineBreak c = true → c.toNat < 32

/-- A frame can be replayed: the client is still there, the session has an id that does not break
lines, and the step is larger than all before. -/
def KeepsReplay (session : Session) (state : Stream) : StreamEvent → Prop
  | .emit _ step connected => state.emitted.length < session.limit →
    connected = true ∧ session.id ≠ [] ∧ Unbroken session.id ∧
      ∀ emission ∈ state.emitted, emission.step.count < step.count
  | .resume _ => True
  | .restart => True

variable {c : Char} (step : StepCount)

theorem step_digits (mem : c ∈ (toString step.count).toList) : c.isDigit = true :=
  isDigit_of_mem_toString mem

theorem parseEventId_eventId : parseEventId (eventId sessionId step) =
      if sessionId = [] then none else some (sessionId, (step.count : Int)) := by
  have dotless : ∀ c ∈ (toString step.count).toList.reverse, decide (c ≠ '.') = true := by
    intro c mem
    have digit := step_digits step (mem_reverse.mp mem)
    refine decide_eq_true ?_
    rintro rfl
    exact absurd digit (by decide)
  have dotted : '.' ∈ eventId sessionId step := by simp [eventId]
  have reversed : (eventId sessionId step).reverse =
      (toString step.count).toList.reverse ++ '.' :: sessionId.reverse := by
    simp [eventId]
  have full : (toString step.count).toList ≠ [] := by
    rw [Nat.toString_eq_repr, Nat.toList_repr]
    exact Nat.toDigits_ne_nil
  rw [parseEventId, if_pos dotted, reversed]
  dsimp only
  rw [takeWhile_append_of_pos dotless, dropWhile_append_of_pos dotless,
    takeWhile_cons_of_neg (by decide), dropWhile_cons_of_neg (by decide),
    append_nil, reverse_reverse, drop_one, tail_cons, reverse_reverse]
  by_cases nameless : sessionId = []
  · rw [if_pos (.inl nameless), if_pos nameless]
  · rw [if_neg (not_or.mpr ⟨nameless, full⟩), if_neg nameless, parseInt_toString step.writable]
    rfl

theorem step_inj {sessionId : List Char} {first second : StepCount}
    (same : eventId sessionId first = eventId sessionId second) : first.count = second.count := by
  have digits := (List.cons.inj (append_cancel_left same)).2
  exact toString_injective (String.toList_injective digits)

/-- The characters of a line: those of the id that are not escaped, and others that are printed. -/
theorem mem_dumpsFrame {frame : Frame} (mem : c ∈ dumpsFrame frame) :
    c ∈ frame.1 ∧ 32 ≤ c.toNat ∨ 32 ≤ c.toNat ∧ c.toNat ≤ 126 := by
  have ofEscaped (text : List Char) (within : c ∈ escaped text) :
      c ∈ text ∧ 32 ≤ c.toNat ∨ 32 ≤ c.toNat ∧ c.toNat ≤ 126 := by
    obtain ⟨letter, among, written⟩ := mem_flatMap.mp within
    rcases mem_escapeChar written with ⟨rfl, printed⟩ | printed
    · exact .inl ⟨among, printed⟩
    · exact .inr ⟨by omega, printed.2⟩
  have keys : (eventIdKey ++ dataKey).all
      (fun letter => 32 ≤ letter.toNat && letter.toNat ≤ 126) = true := by decide
  simp only [all_eq_true, Bool.and_eq_true, decide_eq_true_eq] at keys
  have letters : ∀ bits < 64, 32 ≤ (letter bits).toNat ∧
      (letter bits).toNat ≤ 126 := by decide +kernel
  simp only [dumpsFrame, dumpsTexts, writeMembers, writeMember, mem_cons, mem_append,
    not_mem_nil, or_false] at mem
  rcases mem with rfl | rfl | (key | rfl | rfl | rfl | rfl | id | rfl | rfl | rfl | rfl | key |
    rfl | rfl | rfl | rfl | data | rfl | rfl)
  case inr.inr.inl =>
    right
    rcases ofEscaped _ key with ⟨within, _⟩ | printed
    · exact keys c (mem_append_left _ within)
    · exact printed
  case inr.inr.inr.inr.inr.inr.inr.inl => exact ofEscaped _ id
  case inr.inr.inr.inr.inr.inr.inr.inr.inr.inr.inr.inr.inl =>
    right
    rcases ofEscaped _ key with ⟨within, _⟩ | printed
    · exact keys c (mem_append_right _ within)
    · exact printed
  case inr.inr.inr.inr.inr.inr.inr.inr.inr.inr.inr.inr.inr.inr.inr.inr.inr.inl =>
    right
    rcases ofEscaped _ data with ⟨within, _⟩ | printed
    · rcases mem_encode within with rfl | ⟨bits, fits, rfl⟩
      · decide
      · exact letters bits fits
    · exact printed
  all_goals exact .inr (by decide)

/-- A line is read back. -/
theorem parseLine_dumpsFrame (frame : Frame) : parseLine (dumpsFrame frame) = some frame := by
  have full : ¬ (stripWhere isSpace (dumpsFrame frame)).isEmpty = true := by
    intro empty
    have none := List.isEmpty_iff.mp empty
    rw [stripWhere, reverse_eq_nil_iff, dumpsFrame, dumpsTexts,
      dropWhile_cons_of_neg (by decide), dropWhile_eq_nil_iff] at none
    exact absurd (none '{' (by simp)) (by decide)
  have loaded := loads_dumpsTexts eventIdKey frame.1 [(dataKey, encode frame.2)]
  rw [parseLine, if_neg full, dumpsFrame, loaded]
  simp only [bind, Option.bind_some]
  change (decode (encode frame.2)).bind _ = _
  rw [decode_encode]
  rfl

theorem isLineBreak_printed (printed : 32 ≤ c.toNat ∧ c.toNat ≤ 126) : isLineBreak c = false := by
  simp only [isLineBreak, Bool.or_eq_false_iff, Bool.and_eq_false_iff, decide_eq_false_iff_not]
  omega

variable {text : List Char}

theorem isLineBreak_escaped (unbroken : Unbroken text) :
    ∀ c ∈ escaped text, isLineBreak c = false := by
  intro c mem
  obtain ⟨letter, among, written⟩ := mem_flatMap.mp mem
  rcases mem_escapeChar written with ⟨rfl, printed⟩ | printed
  · by_contra breaks
    have small := unbroken c among (by simpa using breaks)
    omega
  · exact isLineBreak_printed ⟨by omega, printed.2⟩

theorem escapeChar_break (breaks : isLineBreak c = true) (printed : 32 ≤ c.toNat) :
    escapeChar c = [c] := by
  apply escapeChar_of_large
  by_contra small
  rw [isLineBreak_printed ⟨printed, by omega⟩] at breaks
  cases breaks

variable {line : List Char}

theorem iterDiskLines_break (unbroken : ∀ c ∈ line, isLineBreak c = false)
    (breaks : isLineBreak c = true) (printed : 32 ≤ c.toNat) (rest : List Char) :
    iterDiskLines (line ++ c :: rest) = (parseLine line).toList ++ iterDiskLines rest := by
  have noReturn : c ≠ '\r' := by
    rintro rfl
    exact absurd printed (by decide)
  rw [iterDiskLines, splitLines, linesOf_line rfl unbroken breaks fun same => absurd same noReturn,
    filterMap_cons, iterDiskLines, splitLines]
  cases parseLine line <;> rfl

theorem iterDiskLines_line (ended : Ended text) (unbroken : ∀ c ∈ line, isLineBreak c = false) :
    iterDiskLines (text ++ (line ++ ['\n'])) = iterDiskLines text ++ (parseLine line).toList := by
  have last : splitLines (line ++ ['\n']) = [line] :=
    linesOf_line rfl unbroken rfl fun _ => by simp
  rw [iterDiskLines, splitLines, ended.linesOf_append rfl rfl, filterMap_append]
  change iterDiskLines text ++ (splitLines (line ++ ['\n'])).filterMap parseLine = _
  rw [last, filterMap_cons]
  cases parseLine line <;> rfl

theorem Unbroken.concat {piece : List Char} (unbroken : Unbroken piece)
    (small : isLineBreak c = true → c.toNat < 32) : Unbroken (piece ++ [c]) := by
  intro letter mem isBreak
  rcases mem_append.mp mem with first | last
  · exact unbroken letter first isBreak
  · rw [mem_singleton.mp last] at isBreak ⊢
    exact small isBreak

variable {rest : List Char}

theorem parseLine_part (text : List Char) (follows : Follows rest) :
    parseLine (escaped text ++ rest) = none := by
  rw [parseLine]
  split
  · rfl
  · cases loaded : loads (escaped text ++ rest) with
    | none => rfl
    | some value =>
      have missing := loads_part text follows eventIdKey loaded
      simp only [bind, Option.bind_some, missing, Option.bind_none]

theorem iterDiskLines_part (piece text : List Char) (unbroken : Unbroken piece)
    (follows : Follows rest) (whole : ∀ c ∈ rest, isLineBreak c = false) :
    iterDiskLines (escaped piece ++ (escaped text ++ (rest ++ ['\n']))) = [] := by
  induction text generalizing piece with
  | nil =>
    have line : ∀ c ∈ escaped piece ++ rest, isLineBreak c = false := by
      intro c mem
      rcases mem_append.mp mem with first | second
      · exact isLineBreak_escaped unbroken c first
      · exact whole c second
    have read := iterDiskLines_line (.inl rfl) line
    rw [nil_append, append_assoc, parseLine_part piece follows] at read
    exact read
  | cons c others inner =>
    by_cases breaks : isLineBreak c = true ∧ 32 ≤ c.toNat
    · have none := parseLine_part piece follows_nil
      rw [append_nil] at none
      rw [escaped_cons, escapeChar_break breaks.1 breaks.2, append_assoc, singleton_append,
        iterDiskLines_break (isLineBreak_escaped unbroken) breaks.1 breaks.2, none]
      exact inner [] fun _ absent => absurd absent not_mem_nil
    · have longer := inner (piece ++ [c]) (unbroken.concat fun isBreak =>
        Nat.lt_of_not_le fun printed => breaks ⟨isBreak, printed⟩)
      rw [escaped_append, escaped_cons, append_assoc, append_assoc] at longer
      rw [escaped_cons, append_assoc]
      exact longer

def lineHead : List Char :=
  '{' :: '"' :: (escaped eventIdKey ++ ['"', ':', ' ', '"'])

/-- A line behind the session id. -/
def lineTail (step : StepCount) (payload : List UInt8) : List Char :=
  '.' :: (escaped (toString step.count).toList ++ '"' :: ',' :: ' ' :: '"' ::
    writeMembers dataKey (Library.Base64.encode payload) [])

variable (emission : Emission)

theorem dumpsFrame_split : dumpsFrame (emission.frame sessionId) =
      lineHead ++ (escaped sessionId ++ lineTail emission.step emission.payload) := by
  have dot (text : List Char) : escaped ('.' :: text) = '.' :: escaped text := rfl
  simp only [dumpsFrame, Emission.frame, eventId, dumpsTexts, writeMembers, writeMember, lineHead,
    lineTail, escaped_append, dot, append_assoc, cons_append, nil_append]

/-- The rest of a line neither continues a value nor breaks. -/
theorem lineTail_spec (payload : List UInt8) :
    Follows (lineTail step payload) ∧ ∀ c ∈ lineTail step payload, isLineBreak c = false := by
  constructor
  · intro c same
    cases same
    decide
  · intro c member
    have within : c ∈ dumpsFrame (Emission.frame [] ⟨step, payload⟩) := by
      rw [dumpsFrame_split]
      exact mem_append_right _ (mem_append_right _ member)
    rcases mem_dumpsFrame within with ⟨inId, _⟩ | printed
    · rcases mem_cons.mp inId with rfl | inStep
      · decide
      · have range := digit_range (step_digits step inStep)
        exact isLineBreak_printed (by omega)
    · exact isLineBreak_printed printed

theorem iterDiskLines_broken (broken : ¬ Unbroken sessionId) :
    iterDiskLines (dumpsFrame (emission.frame sessionId) ++ ['\n']) = [] := by
  obtain ⟨follows, whole⟩ := lineTail_spec emission.step emission.payload
  have opened (piece text : List Char) (unbroken : Unbroken piece) (broken : ¬ Unbroken text) :
      iterDiskLines (lineHead ++ (escaped piece ++ (escaped text ++
        (lineTail emission.step emission.payload ++ ['\n'])))) = [] := by
    induction text generalizing piece with
    | nil => exact absurd (fun _ absent => absurd absent not_mem_nil) broken
    | cons c others inner =>
      by_cases breaks : isLineBreak c = true ∧ 32 ≤ c.toNat
      · have unclosed : parseLine (lineHead ++ escaped piece) = none := by
          have none := loads_unclosed eventIdKey piece
          have split : lineHead ++ escaped piece = '{' :: '"' :: (escaped eventIdKey ++
              '"' :: ':' :: ' ' :: '"' :: escaped piece) := by
            simp only [lineHead, cons_append, append_assoc, nil_append]
          rw [parseLine, split, none]
          exact ite_self _
        have line : ∀ c ∈ lineHead ++ escaped piece, isLineBreak c = false := by
          have head : lineHead.all (fun c => !isLineBreak c) = true := by decide +kernel
          simp only [all_eq_true, Bool.not_eq_true'] at head
          intro c mem
          rcases mem_append.mp mem with first | second
          · exact head c first
          · exact isLineBreak_escaped unbroken c second
        have rest := iterDiskLines_part [] others
          (fun _ absent => absurd absent not_mem_nil) follows whole
        rw [escaped_cons, escapeChar_break breaks.1 breaks.2, append_assoc,
          singleton_append, ← append_assoc, iterDiskLines_break line breaks.1 breaks.2,
          unclosed]
        exact rest
      · have small : isLineBreak c = true → c.toNat < 32 :=
          fun isBreak => Nat.lt_of_not_le fun printed => breaks ⟨isBreak, printed⟩
        have longer := inner (piece ++ [c]) (unbroken.concat small)
          fun whole => broken (forall_mem_cons.mpr ⟨small, whole⟩)
        rw [escaped_append, escaped_cons, append_assoc, append_assoc] at longer
        rw [escaped_cons, append_assoc]
        exact longer
  have line := opened [] sessionId (fun _ absent => absurd absent not_mem_nil) broken
  rw [dumpsFrame_split, append_assoc, append_assoc]
  exact line

variable {session : Session} (emitted : List Emission)

theorem increasing_iff :
    emitted.Pairwise (fun first second => first.step.count < second.step.count) ↔
      ∀ earlier emission later, emitted = earlier ++ emission :: later →
        (∀ other ∈ earlier, ¬ emission.step.count < other.step.count) ∧
          ∀ other ∈ later, emission.step.count < other.step.count := by
  constructor
  · rintro pairwise earlier emission later rfl
    obtain ⟨_, behind, across⟩ := pairwise_append.mp pairwise
    refine ⟨fun other mem => ?_, (pairwise_cons.mp behind).1⟩
    have below := across other mem emission mem_cons_self
    omega
  · intro split
    induction emitted with
    | nil => exact List.Pairwise.nil
    | cons head rest inner =>
      refine pairwise_cons.mpr ⟨(split [] head rest rfl).2, inner ?_⟩
      rintro earlier emission later rfl
      obtain ⟨before, behind⟩ := split (head :: earlier) emission later rfl
      exact ⟨fun other mem => before other (mem_cons_of_mem _ mem), behind⟩

theorem isAfter_frame (named : session.id ≠ []) (target : Nat) (emission : Emission) :
    isAfter target (emission.frame session.id) = decide (target < emission.step.count) := by
  have parsed := parseEventId_eventId session.id emission.step
  rw [if_neg named] at parsed
  simp only [isAfter, frame, parsed, Int.ofNat_lt]

theorem answers_iff (buffer : Buffer) : Answers session emitted buffer ↔
      buffer.ensureLoaded session.limit = emitted.map (frame session.id) ∧
        (emitted ≠ [] → session.id ≠ []) ∧
        emitted.Pairwise (fun first second => first.step.count < second.step.count) := by
  have allOf : buffer.readAfter session.limit none = buffer.ensureLoaded session.limit := rfl
  have nameless (empty : session.id = []) (step : StepCount) :
      buffer.readAfter session.limit (some (eventId session.id step)) =
        buffer.ensureLoaded session.limit := by
    rw [Buffer.readAfter, Option.bind_some, parseEventId_eventId, if_pos empty]
  have filtered (named : session.id ≠ [])
      (loaded : buffer.ensureLoaded session.limit = emitted.map (frame session.id))
      (step : StepCount) : buffer.readAfter session.limit (some (eventId session.id step)) =
        (emitted.filter (step.count < ·.step.count)).map (frame session.id) := by
    rw [Buffer.readAfter, Option.bind_some, parseEventId_eventId, if_neg named]
    dsimp only
    rw [loaded, filter_map]
    congr 2
    funext emission
    exact isAfter_frame named step.count emission
  constructor
  · rintro ⟨all, after⟩
    rw [allOf] at all
    have named : emitted ≠ [] → session.id ≠ [] := by
      intro full empty
      obtain ⟨emission, later, rfl⟩ := exists_cons_of_ne_nil full
      have answer := after [] emission later rfl
      rw [nameless empty, all] at answer
      have lengths := congrArg List.length answer
      simp at lengths
    refine ⟨all, named, (increasing_iff emitted).mpr ?_⟩
    intro earlier emission later split
    have answer := after earlier emission later split
    rw [filtered (named (by simp [split])) all] at answer
    have members (other : Emission) (mem : other ∈ later) :
        emission.step.count < other.step.count := by
      have among : other.frame session.id ∈ later.map (frame session.id) :=
        mem_map_of_mem mem
      rw [← answer] at among
      obtain ⟨found, passed, same⟩ := mem_map.mp among
      have larger := (mem_filter.mp passed).2
      rw [← step_inj (congrArg Prod.fst same)]
      simpa using larger
    refine ⟨fun other mem larger => ?_, members⟩
    have lengths := congrArg List.length answer
    have kept : (emission :: later).filter (emission.step.count < ·.step.count) = later :=
      (filter_cons_of_neg (by simp)).trans
        (filter_eq_self.mpr fun other mem => decide_eq_true (members other mem))
    have found : 0 < (earlier.filter (emission.step.count < ·.step.count)).length :=
      length_pos_of_mem (mem_filter.mpr ⟨mem, decide_eq_true larger⟩)
    rw [length_map, length_map, split, filter_append, kept, length_append] at lengths
    omega
  · rintro ⟨loaded, named, increasing⟩
    refine ⟨loaded, fun earlier emission later split => ?_⟩
    obtain ⟨before, behind⟩ := (increasing_iff emitted).mp increasing earlier emission later split
    rw [filtered (named (by simp [split])) loaded, split, filter_append,
      filter_eq_nil_iff.mpr fun other mem => by simpa using before other mem,
      filter_cons_of_neg (by simp), nil_append,
      filter_eq_self.mpr fun other mem => decide_eq_true (behind other mem)]

/-- While frames fit into the buffer, the file has ended lines, at most one for each. -/
def Sound (session : Session) (state : Stream) : Prop :=
  state.emitted.length ≤ session.limit → Ended (state.buffer.file.getD []) ∧
      lineCount (state.buffer.file.getD []) ≤ state.emitted.length

theorem push_within {limit : Nat} {frames : List Frame} (within : frames.length < limit)
    (frame : Frame) : push limit frames frame = frames ++ [frame] := by
  rw [push, Nat.sub_eq_zero_of_le within, drop_zero]

theorem isNewline_dumpsFrame (frame : Frame) : ∀ c ∈ dumpsFrame frame, isNewline c = false := by
  intro c mem
  have printed : 32 ≤ c.toNat := by
    rcases mem_dumpsFrame mem with ⟨_, printed⟩ | ⟨printed, _⟩ <;> exact printed
  rw [isNewline, Bool.or_eq_false_iff, decide_eq_false_iff_not, decide_eq_false_iff_not]
  constructor
  · rintro rfl
    exact absurd printed (by decide)
  · rintro rfl
    exact absurd printed (by decide)

theorem iterDiskLines_frame (ended : Ended text) : (Unbroken sessionId →
      iterDiskLines (text ++ (dumpsFrame (emission.frame sessionId) ++ ['\n'])) =
        iterDiskLines text ++ [emission.frame sessionId]) ∧
    (¬ Unbroken sessionId →
      iterDiskLines (text ++ (dumpsFrame (emission.frame sessionId) ++ ['\n'])) =
        iterDiskLines text) := by
  constructor
  · intro unbroken
    have whole : ∀ c ∈ dumpsFrame (emission.frame sessionId), isLineBreak c = false := by
      intro c mem
      rcases mem_dumpsFrame mem with ⟨inId, printed⟩ | printed
      · rcases mem_append.mp inId with inSession | inStep
        · by_contra breaks
          have small := unbroken c inSession (by simpa using breaks)
          omega
        · rcases mem_cons.mp inStep with rfl | digit
          · decide
          · have range := digit_range (step_digits emission.step digit)
            exact isLineBreak_printed (by omega)
      · exact isLineBreak_printed printed
    rw [iterDiskLines_line ended whole, parseLine_dumpsFrame]
    rfl
  · intro broken
    have none := iterDiskLines_broken sessionId emission broken
    rw [iterDiskLines, splitLines, ended.linesOf_append rfl rfl, filterMap_append]
    change iterDiskLines text ++ iterDiskLines (dumpsFrame (emission.frame sessionId) ++ ['\n']) = _
    rw [none, append_nil]

variable {state : Stream}

theorem append_file (sound : Sound session state)
    (within : state.emitted.length < session.limit) (frame : Frame) :
    (state.buffer.append session.limit frame).file =
      some (state.buffer.file.getD [] ++ (dumpsFrame frame ++ ['\n'])) := by
  obtain ⟨ended, counted⟩ := sound (Nat.le_of_lt within)
  have short : lineCount (state.buffer.file.getD [] ++ (dumpsFrame frame ++ ['\n'])) ≤
      session.limit * 2 := by
    rw [ended.lineCount_line (isNewline_dumpsFrame frame)]
    omega
  rw [Buffer.append]
  dsimp only
  rw [if_pos short]

/-- Files stay sound. -/
theorem sound_next (sound : Sound session state) (event : StreamEvent) :
    Sound session (state.next session event) := by
  cases event with
  | emit event step connected =>
    intro within
    rw [Stream.next, length_append, length_singleton] at within
    have before : state.emitted.length < session.limit := within
    obtain ⟨ended, counted⟩ := sound (Nat.le_of_lt before)
    cases connected with
    | false =>
      refine ⟨ended, ?_⟩
      rw [Stream.next, length_append]
      exact Nat.le_add_right_of_le counted
    | true =>
    simp only [Stream.next, if_true, append_file sound before, Option.getD_some]
    refine ⟨.inr ⟨_, (append_assoc _ _ _).symm⟩, ?_⟩
    rw [ended.lineCount_line (isNewline_dumpsFrame _), length_append]
    exact Nat.succ_le_succ counted
  | resume cursor => exact sound
  | restart => exact sound

theorem Answers.congr {emitted : List Emission} {first second : Buffer}
    (same : second.ensureLoaded session.limit = first.ensureLoaded session.limit)
    (answers : Answers session emitted first) : Answers session emitted second := by
  rw [answers_iff] at answers ⊢
  rwa [same]

theorem append_mirror (within : state.emitted.length < session.limit)
    (mirror : state.buffer.ensureLoaded session.limit =
      state.emitted.map (frame session.id)) :
    (state.buffer.append session.limit (emission.frame session.id)).ensureLoaded session.limit =
      (state.emitted ++ [emission]).map (frame session.id) := by
  change push session.limit (state.buffer.ensureLoaded session.limit) _ = _
  rw [mirror, push_within (by rwa [length_map]), map_append]
  rfl

theorem append_reloaded (sound : Sound session state)
    (within : state.emitted.length < session.limit)
    (file : state.buffer.reloaded.ensureLoaded session.limit =
      state.emitted.map (frame session.id)) :
    (state.buffer.append session.limit (emission.frame session.id)).reloaded.ensureLoaded
        session.limit = (state.emitted ++ [emission]).map (frame session.id) ↔
      Unbroken session.id := by
  obtain ⟨ended, -⟩ := sound (Nat.le_of_lt within)
  obtain ⟨read, broken⟩ := iterDiskLines_frame session.id emission ended
  change (iterDiskLines ((Buffer.append session.limit state.buffer _).file.getD [])).foldl
    (push session.limit) [] = _ ↔ _
  rw [append_file sound within, Option.getD_some]
  change (iterDiskLines (state.buffer.file.getD [])).foldl (push session.limit) [] = _ at file
  by_cases unbroken : Unbroken session.id
  · refine iff_of_true ?_ unbroken
    rw [read unbroken, foldl_append, file, foldl_cons, foldl_nil,
      push_within (by rwa [length_map]), map_append]
    rfl
  · refine iff_of_false (fun same => ?_) unbroken
    rw [broken unbroken, file] at same
    have lengths := congrArg List.length same
    simp at lengths

theorem replaysExactly_next_iff (sound : Sound session state)
    (exact : ReplaysExactly session state) (event : StreamEvent) :
    ReplaysExactly session (state.next session event) ↔ KeepsReplay session state event := by
  cases event with
  | resume cursor =>
    have same : (state.next session (.resume cursor)).buffer.ensureLoaded session.limit =
        state.buffer.ensureLoaded session.limit := rfl
    exact iff_of_true (fun within => ⟨(exact within).1.congr same, (exact within).2⟩) trivial
  | restart => exact iff_of_true (fun within => ⟨(exact within).2, (exact within).2⟩) trivial
  | emit event step connected =>
  rw [ReplaysExactly, KeepsReplay, Stream.next, length_append, length_singleton, Nat.succ_le_iff]
  refine imp_congr_right fun within => ?_
  obtain ⟨fromMirror, fromFile⟩ := exact (Nat.le_of_lt within)
  obtain ⟨mirror, -, increasing⟩ := (answers_iff _ _).mp fromMirror
  obtain ⟨file, -, -⟩ := (answers_iff _ _).mp fromFile
  generalize (String.ofList _).toUTF8.toList = payload
  have grows : (state.emitted ++ [(⟨step, payload⟩ : Emission)]).Pairwise
      (fun first second => first.step.count < second.step.count) ↔
        ∀ emission ∈ state.emitted, emission.step.count < step.count := by
    simp [pairwise_append, increasing]
  cases connected with
  | false =>
    refine iff_of_false (fun answers => ?_) (fun keeps => Bool.false_ne_true keeps.1)
    have same := mirror.symm.trans ((answers_iff _ _).mp answers.1).1
    have lengths := congrArg List.length same
    simp at lengths
  | true =>
    have started : state.emitted ++ [⟨step, payload⟩] ≠ [] := by simp
    have kept := append_reloaded ⟨step, payload⟩ sound within file
    rw [answers_iff, answers_iff, if_pos rfl, grows, kept]
    constructor
    · rintro ⟨⟨_, named, larger⟩, unbroken, _⟩
      exact ⟨rfl, named started, unbroken, larger⟩
    · rintro ⟨_, named, unbroken, larger⟩
      exact ⟨⟨append_mirror _ within mirror, fun _ => named, larger⟩, unbroken, fun _ => named,
        larger⟩

/-- Replay is exact in every state of a run exactly if every frame that fits into the buffer can be
replayed when it is sent. -/
theorem replays_along_iff (session : Session) (events : List StreamEvent) :
    (∀ state ∈ statesAlong (Stream.next session) Stream.start events,
        ReplaysExactly session state) ↔
      EachStep (Stream.next session) (KeepsReplay session) Stream.start events := by
  have initially : Sound session Stream.start := fun _ => ⟨.inl rfl, Nat.le_refl _⟩
  have nothing : ReplaysExactly session Stream.start := by
    intro _
    have empty : Answers session [] Stream.start.buffer :=
      (answers_iff _ _).mpr ⟨rfl, fun full => absurd rfl full, List.Pairwise.nil⟩
    exact ⟨empty, empty⟩
  have along := good_along_iff (Stream.next session)
    (fun state => Sound session state ∧ ReplaysExactly session state) (KeepsReplay session)
    (fun state event good => by
      rw [and_iff_right (sound_next good.1 event)]
      exact replaysExactly_next_iff good.1 good.2 event)
    Stream.start ⟨initially, nothing⟩ events
  rw [← along]
  have sound := invariant_along (Stream.next session) (Sound session)
    (fun _ event sound => sound_next sound event) Stream.start initially events
  exact forall₂_congr fun state mem => (and_iff_right (sound state mem)).symm

def firstStep : StepCount :=
  ⟨0, by decide⟩

def reported : PlannerEvent :=
  ⟨['i', 'n', 'f', 'o'], ['{', '}']⟩

/-- Two frames of one step: after the first, the second is not replayed. -/
theorem sharedStep_lost :
    ¬ ∀ session events, ∀ state ∈ statesAlong (Stream.next session) Stream.start events,
      ReplaysExactly session state := by
  intro exact
  have after := exact ⟨['s'], 64⟩
    [.emit reported firstStep true, .emit reported firstStep true] _
    (mem_cons_of_mem _ (mem_cons_of_mem _ mem_cons_self)) (by decide)
  have increasing := ((answers_iff _ _).mp after.1).2.2
  exact absurd (rel_of_pairwise_cons increasing mem_cons_self) (Nat.lt_irrefl 0)

theorem length_push (limit : Nat) (frames : List Frame) (frame : Frame) :
    (push limit frames frame).length ≤ limit := by
  rw [push, length_drop, length_append, length_singleton]
  omega

def Buffer.Bounded (limit : Nat) (buffer : Buffer) : Prop :=
  ∀ frames, buffer.mirror = some frames → frames.length ≤ limit

theorem Buffer.Bounded.loaded {limit : Nat} {buffer : Buffer} (bounded : buffer.Bounded limit) :
    (buffer.ensureLoaded limit).length ≤ limit := by
  rw [ensureLoaded]
  split
  case h_1 frames held => exact bounded frames held
  case h_2 =>
    exact foldlRecOn (motive := fun frames : List Frame => frames.length ≤ limit) _ _
      limit.zero_le fun frames _ frame _ => length_push limit frames frame

end Flowfile.Replay

import Mathlib.Data.List.Basic

/-!
# Fetching a REST API page by page

One loop serves three pagination schemes. It stops at a short or an empty page, at a missing
cursor, at the record cap or at the page cap, and a request that fails is repeated a few times. A
fetch that returns has the records of the pages it was allowed, in order.
-/

namespace Flowfile.RestApi

open List

/-- A decoded JSON value. A number or a boolean is its text. -/
inductive Value where
  | null
  | scalar (text : String)
  | text (value : String)
  | list (items : List Value)
  | dict (members : List (String × Value))

def extractKeys : List String → Value → Value
  | [], current => current
  | key :: rest, .dict members =>
    match members.lookup key with
    | some value => extractKeys rest value
    | none => .null
  | _ :: _, _ => .null

/-- What is not there is null. -/
def extractByPath (value : Value) (path : String) : Value :=
  if path = "" then value else extractKeys (path.splitOn ".") value

def asRecord : Value → Value
  | .dict members => .dict members
  | value => .dict [("value", value)]

def toRecords : Value → List Value
  | .null => []
  | .list items => items.map asRecord
  | value => [asRecord value]

inductive PaginationType where
  | none | offset | page | cursor

inductive CursorLocation where
  | body | header

structure PaginationConfig where
  paginationType : PaginationType
  offsetParam : String
  limitParam : String
  pageSize : Int
  pageParam : String
  startPage : Int
  cursorParam : String
  cursorLocation : CursorLocation
  cursorResponsePath : String
  initialCursor : String
  maxPages : Int
  maxRecords : Option Int

abbrev Params := String → Option String

/-- The settings, with the query parameters as the authentication leaves them. -/
structure RestApiReadSettings extends PaginationConfig where
  baseParams : Params
  recordPath : String
  maxRetries : Int
  sampleSize : Option Int

structure Response where
  headers : String → Option String
  /-- `none` when it is not valid JSON. -/
  body : Option Value

/-- How the client's request ends. -/
inductive Outcome where
  | httpError
  | status (code : Nat) (response : Response)

inductive FetchError where
  | httpError
  | status (code : Nat)
  | exhausted
  | notJson

/-- A fetch: its settings, Python's `str`, and the end of each request by its number. -/
structure Client extends RestApiReadSettings where
  str : Value → String
  send : Nat → Params → Outcome

/-- The count of requests goes on from `issued`. -/
def requestWithRetries (send : Nat → Outcome) : Nat → Nat → Except FetchError Response × Nat
  | 0, issued => (.error .exhausted, issued)
  | tries + 1, issued =>
    match send issued with
    | .httpError =>
      if tries = 0 then (.error .httpError, issued + 1)
      else requestWithRetries send tries (issued + 1)
    | .status code response =>
      if code = 429 ∨ 500 ≤ code then
        if tries = 0 then (.error (.status code), issued + 1)
        else requestWithRetries send tries (issued + 1)
      else if 200 ≤ code ∧ code < 300 then (.ok response, issued + 1)
      else (.error (.status code), issued + 1)

/-- The position of the next page in each of the schemes. -/
structure Position where
  cursor : String
  offset : Int
  pageNumber : Int

variable (client : Client)

def readNextCursor (body : Value) (response : Response) : Option String :=
  match client.cursorLocation with
  | .header => (response.headers client.cursorResponsePath).filter (· ≠ "")
  | .body =>
    match extractByPath body client.cursorResponsePath with
    | .null => none
    | .text value => if value = "" then none else some value
    | value => some (client.str value)

def pageParams (position : Position) : Params :=
  match client.paginationType with
  | .none => client.baseParams
  | .offset => Function.update
      (Function.update client.baseParams client.offsetParam (some (toString position.offset)))
      client.limitParam (some (toString client.pageSize))
  | .page => Function.update client.baseParams client.pageParam
      (some (toString position.pageNumber))
  | .cursor => if position.cursor = "" then client.baseParams
      else Function.update client.baseParams client.cursorParam (some position.cursor)

/-- The end of the loop's body: the next page's position unless the scheme stops. -/
def advance (position : Position) (page : List Value) (nextCursor : Option String) :
    Option Position :=
  match client.paginationType with
  | .none => none
  | .offset =>
    if page = [] ∨ page.length < client.pageSize then none
    else some { position with offset := position.offset + client.pageSize }
  | .page =>
    if page = [] then none else some { position with pageNumber := position.pageNumber + 1 }
  | .cursor =>
    match nextCursor with
    | none => none
    | some cursor => if cursor = "" then none else some { position with cursor }

def sliceTo (records : List Value) (stop : Int) : List Value :=
  records.take (if 0 ≤ stop then stop else records.length + stop).toNat

def fetchPages (maxRecords : Option Int) :
    Nat → Position → List Value → Nat → Except FetchError (List Value) × Nat
  | 0, _, allRecords, issued => (.ok allRecords, issued)
  | pages + 1, position, allRecords, issued =>
    match requestWithRetries (client.send · (pageParams client position))
      (client.maxRetries + 1).toNat issued with
    | (.error error, issued) => (.error error, issued)
    | (.ok response, issued) =>
      match response.body with
      | none => (.error .notJson, issued)
      | some body =>
        let page := toRecords (extractByPath body client.recordPath)
        match maxRecords.filter fun cap : Int => cap ≤ (allRecords ++ page).length with
        | some cap => (.ok (sliceTo (allRecords ++ page) cap), issued)
        | none =>
          match advance client position page (readNextCursor client body response) with
          | none => (.ok (allRecords ++ page), issued)
          | some next => fetchPages maxRecords pages next (allRecords ++ page) issued

/-- A sample is a single page. -/
def pageCap : Nat :=
  if client.sampleSize.isSome then 1 else (max 1 client.maxPages).toNat

def recordCap : Option Int :=
  if client.sampleSize.isSome then client.sampleSize else client.maxRecords

/-- The fetched records, and the number of requests. -/
def fetchRestApi : Except FetchError (List Value) × Nat :=
  fetchPages client (recordCap client) (pageCap client)
    ⟨client.initialCursor, 0, client.startPage⟩ [] 0

/-- Every successful answer at the position holds this page, and this cursor where they are used. -/
def Answers (position : Position) (page : List Value) (nextCursor : Option String) : Prop :=
  ∀ n code response, client.send n (pageParams client position) = .status code response →
    200 ≤ code ∧ code < 300 → ∃ body, response.body = some body ∧
      toRecords (extractByPath body client.recordPath) = page ∧
      (client.paginationType = .cursor → readNextCursor client body response = nextCursor)

/-- The pages behind a cursor, each with the next cursor but for the last. -/
inductive Chain : String → List (List Value) → Prop where
  | last {cursor page} (answers : Answers client ⟨cursor, 0, client.startPage⟩ page none) :
    Chain cursor [page]
  | more {cursor page next pages}
    (answers : Answers client ⟨cursor, 0, client.startPage⟩ page (some next))
    (nonempty : next ≠ "") (rest : Chain next pages) : Chain cursor (page :: pages)

/-- The server honours the scheme, with the records that each number of pages holds. -/
inductive Honours : (Nat → List Value) → Prop where
  | offset {collection : List Value} (scheme : client.paginationType = .offset)
    (serves : ∀ offset : Nat, Answers client ⟨client.initialCursor, offset, client.startPage⟩
      ((collection.drop offset).take client.pageSize.toNat) none) :
    Honours fun pages => collection.take (pages * client.pageSize.toNat)
  | page {collection : List Value} {size : Nat} (scheme : client.paginationType = .page)
    (serves : ∀ k : Nat, Answers client ⟨client.initialCursor, 0, client.startPage + k⟩
      ((collection.drop (k * size)).take size) none) :
    Honours fun pages => collection.take (pages * size)
  | cursor {pages : List (List Value)} (scheme : client.paginationType = .cursor)
    (chain : Chain client client.initialCursor pages) :
    Honours fun n => (pages.take n).flatten

/-- Every request succeeds at once. -/
def Reliable : Prop :=
  0 ≤ client.maxRetries ∧ ∀ n params, ∃ code response,
    client.send n params = .status code response ∧ 200 ≤ code ∧ code < 300

theorem requestWithRetries_spec (send : Nat → Outcome) (tries issued : Nat) :
    (requestWithRetries send tries issued).2 ≤ issued + tries ∧
    (∀ response, (requestWithRetries send tries issued).1 = .ok response →
      ∃ n code, send n = .status code response ∧ 200 ≤ code ∧ code < 300) ∧
    (∀ code response, 0 < tries → send issued = .status code response → 200 ≤ code ∧ code < 300 →
      requestWithRetries send tries issued = (.ok response, issued + 1)) := by
  induction tries generalizing issued with
  | zero => exact ⟨Nat.le_refl _, nofun, fun _ _ none => absurd none (Nat.lt_irrefl 0)⟩
  | succ tries ih =>
    obtain ⟨bound, served, _⟩ := ih (issued + 1)
    rw [requestWithRetries]
    cases sent : send issued with
    | httpError =>
      refine ⟨?_, ?_, nofun⟩
      · by_cases last : tries = 0 <;> simp only [last, if_true, if_false] <;> omega
      · by_cases last : tries = 0 <;> simp only [last, if_true, if_false]
        · nofun
        · exact served
    | status code response =>
      by_cases again : code = 429 ∨ 500 ≤ code
      · simp only [if_pos again]
        by_cases last : tries = 0 <;> simp only [last, if_true, if_false]
        · exact ⟨by omega, nofun, by rintro _ _ _ ⟨⟩ _; omega⟩
        · exact ⟨by omega, served, by rintro _ _ _ ⟨⟩ _; omega⟩
      · simp only [if_neg again]
        by_cases success : 200 ≤ code ∧ code < 300
        · simp only [if_pos success]
          refine ⟨by omega, ?_, ?_⟩
          · rintro _ ⟨⟩
            exact ⟨issued, code, sent, success⟩
          · rintro _ _ _ ⟨⟩ _
            rfl
        · simp only [if_neg success]
          exact ⟨by omega, nofun, by rintro _ _ _ ⟨⟩ other; exact absurd other success⟩

variable {client}

theorem advance_congr {position : Position} {page : List Value} {first second : Option String}
    (same : client.paginationType = .cursor → first = second) :
    advance client position page first = advance client position page second := by
  unfold advance
  split <;> first | rfl | rw [same ‹_›]

/-- The pages from a position on, up to where the scheme stops. -/
inductive Yields (client : Client) : Position → List (List Value) → Prop where
  | last {position page nextCursor} (answers : Answers client position page nextCursor)
    (stops : advance client position page nextCursor = none) : Yields client position [page]
  | more {position page nextCursor next pages}
    (answers : Answers client position page nextCursor)
    (moves : advance client position page nextCursor = some next)
    (rest : Yields client next pages) : Yields client position (page :: pages)

def capped (maxRecords : Option Int) (records : List Value) : List Value :=
  match maxRecords with
  | none => records
  | some cap => records.take cap.toNat

/-- A fetch that returns has the expected records; a reliable server makes it return, with no more
requests than pages. -/
structure Fetched (client : Client) (expected : List Value) (issued pages : Nat)
    (result : Except FetchError (List Value) × Nat) : Prop where
  bound : result.2 ≤ issued + pages * (client.maxRetries + 1).toNat
  records : ∀ fetched, result.1 = .ok fetched → fetched = expected
  returns : Reliable client → result.1 = .ok expected ∧ result.2 ≤ issued + pages

theorem capped_short {maxRecords : Option Int} {records : List Value}
    (short : ∀ cap ∈ maxRecords, (records.length : Int) < cap) :
    capped maxRecords records = records := by
  cases maxRecords with
  | none => rfl
  | some cap =>
    have := short cap rfl
    exact take_of_length_le (by omega)

theorem fetchPages_spec {maxRecords : Option Int} (counts : ∀ cap ∈ maxRecords, 0 ≤ cap)
    {position : Position} {pages : List (List Value)}
    (yields : Yields client position pages) (n : Nat) (allRecords : List Value)
    (short : n = 0 → ∀ cap ∈ maxRecords, (allRecords.length : Int) < cap) (issued : Nat) :
    Fetched client (capped maxRecords (allRecords ++ (pages.take n).flatten)) issued n
      (fetchPages client maxRecords n position allRecords issued) := by
  induction n generalizing position pages allRecords issued with
  | zero =>
    rw [take_zero, flatten_nil, append_nil, capped_short (short rfl)]
    exact ⟨by simp [fetchPages], by rintro _ ⟨⟩; rfl, fun _ => ⟨rfl, Nat.le_refl _⟩⟩
  | succ n ih =>
    obtain ⟨bound, served, prompt⟩ := requestWithRetries_spec
      (client.send · (pageParams client position)) (client.maxRetries + 1).toNat issued
    obtain ⟨page, rest, nextCursor, rfl, answers, later⟩ : ∃ page rest nextCursor,
        pages = page :: rest ∧ Answers client position page nextCursor ∧
        (advance client position page nextCursor = none ∧ rest = [] ∨
          ∃ next, advance client position page nextCursor = some next ∧
            Yields client next rest) := by
      cases yields with
      | last answers stops => exact ⟨_, _, _, rfl, answers, .inl ⟨stops, rfl⟩⟩
      | more answers moves rest => exact ⟨_, _, _, rfl, answers, .inr ⟨_, moves, rest⟩⟩
    rw [fetchPages]
    generalize requestWithRetries _ _ issued = result at bound served prompt ⊢
    have atOnce (reliable : Reliable client) : ∃ response, result = (.ok response, issued + 1) := by
      obtain ⟨code, response, sent, success⟩ := reliable.2 issued (pageParams client position)
      exact ⟨response, prompt code response (by have := reliable.1; omega) sent success⟩
    obtain ⟨answer, count⟩ := result
    have budget : (n + 1) * (client.maxRetries + 1).toNat = n * (client.maxRetries + 1).toNat +
        (client.maxRetries + 1).toNat := Nat.succ_mul ..
    cases answer with
    | error error =>
      exact ⟨by simp only at *; omega, nofun, fun reliable => nomatch atOnce reliable⟩
    | ok response =>
      obtain ⟨k, code, sent, success⟩ := served response rfl
      obtain ⟨body, hasBody, isPage, isCursor⟩ := answers k code response sent success
      have once (reliable : Reliable client) : count = issued + 1 := by
        obtain ⟨_, same⟩ := atOnce reliable
        cases same
        rfl
      simp only [hasBody, isPage, take_succ_cons, flatten_cons, ← append_assoc] at bound ⊢
      cases full : maxRecords.filter fun cap : Int => cap ≤ (allRecords ++ page).length with
      | some cap =>
        obtain ⟨isCap, reached⟩ := Option.filter_eq_some_iff.mp full
        cases isCap
        have nonneg := counts cap rfl
        have within : capped (some cap) (allRecords ++ page ++ (take n rest).flatten) =
            sliceTo (allRecords ++ page) cap := by
          rw [sliceTo, if_pos nonneg, capped]
          exact take_append_of_le_length (by have := of_decide_eq_true reached; omega)
        rw [within]
        exact ⟨by simp only; omega, by rintro _ ⟨⟩; rfl, fun reliable =>
          ⟨rfl, by simp only [once reliable]; omega⟩⟩
      | none =>
        have short' : ∀ cap ∈ maxRecords, ((allRecords ++ page).length : Int) < cap :=
          fun cap isCap => by simpa using (Option.filter_eq_none_iff.mp full) cap isCap
        simp only [advance_congr isCursor]
        rcases later with ⟨stops, rfl⟩ | ⟨next, moves, rest⟩
        · rw [stops, take_nil, flatten_nil, append_nil, capped_short short']
          exact ⟨by simp only; omega, by rintro _ ⟨⟩; rfl, fun reliable =>
            ⟨rfl, by simp only [once reliable]; omega⟩⟩
        · rw [moves]
          obtain ⟨more, same, returns⟩ := ih rest _ (fun _ => short') count
          exact ⟨by simp only; omega, same, fun reliable => ⟨(returns reliable).1, by
            have := (returns reliable).2
            have := once reliable
            simp only; omega⟩⟩

theorem yields_of_chain {cursor : String} {pages : List (List Value)}
    (scheme : client.paginationType = .cursor) (chain : Chain client cursor pages) :
    Yields client ⟨cursor, 0, client.startPage⟩ pages := by
  induction chain with
  | last answers => exact .last answers (by simp [advance, scheme])
  | more answers nonempty rest ih => exact .more answers (by simp [advance, scheme, nonempty]) ih

theorem yields_slices (collection : List Value) (size : Nat) (place : Nat → Position)
    (answers : ∀ k, Answers client (place k) ((collection.drop (k * size)).take size) none)
    (moves : ∀ k, let slice := (collection.drop (k * size)).take size
      advance client (place k) slice none = none ∧ (slice.length < size ∨ size = 0) ∨
      advance client (place k) slice none = some (place (k + 1)) ∧ slice ≠ []) (k : Nat) :
    ∃ pages, Yields client (place k) pages ∧
      ∀ n, (pages.take n).flatten = (collection.drop (k * size)).take (n * size) := by
  induction left : collection.length - k * size using Nat.strongRecOn generalizing k with
  | ind left' ih =>
    rcases moves k with ⟨stops, short⟩ | ⟨goes, nonempty⟩
    · refine ⟨_, .last (answers k) stops, fun n => ?_⟩
      cases n with
      | zero => simp
      | succ n =>
        rw [take_of_length_le (by simp), flatten_singleton]
        rw [length_take, length_drop] at short
        rcases short with short | rfl
        · rw [take_of_length_le (by rw [length_drop]; omega), take_of_length_le]
          rw [length_drop, Nat.succ_mul]
          omega
        · simp
    · have more : k * size < collection.length ∧ 0 < size := by
        rw [Ne, take_eq_nil_iff, not_or, drop_eq_nil_iff] at nonempty
        omega
      obtain ⟨pages, yields, flat⟩ := ih (collection.length - (k + 1) * size)
        (by rw [Nat.succ_mul]; omega) (k + 1) rfl
      refine ⟨_, .more (answers k) goes yields, fun n => ?_⟩
      cases n with
      | zero => simp
      | succ n =>
        rw [take_succ_cons, flatten_cons, flat, Nat.succ_mul, ← drop_drop, Nat.succ_mul,
          Nat.add_comm (n * size), take_add]

theorem Honours.yields {within : Nat → List Value} (honours : Honours client within) :
    ∃ pages, Yields client
      ⟨client.initialCursor, 0, client.startPage⟩ pages ∧
      ∀ n, (pages.take n).flatten = within n := by
  cases honours with
  | @offset collection scheme serves =>
    have slices := yields_slices collection client.pageSize.toNat
      (fun k => ⟨client.initialCursor, (k * client.pageSize.toNat : Nat), client.startPage⟩)
      (fun k => serves _) (fun k => ?_) 0
    · simpa using slices
    · intro slice
      simp only [advance, scheme]
      by_cases stop : slice = [] ∨ slice.length < client.pageSize
      · rw [if_pos stop]
        refine .inl ⟨rfl, ?_⟩
        rcases stop with empty | short
        · rw [empty]
          exact (Nat.eq_zero_or_pos _).symm
        · omega
      · rw [if_neg stop]
        rw [not_or] at stop
        have : client.pageSize.toNat ≠ 0 := fun none =>
          stop.1 (by simp only [slice, none, take_zero])
        refine .inr ⟨?_, stop.1⟩
        rw [Nat.succ_mul, Int.natCast_add, Int.toNat_of_nonneg (by omega)]
  | @page collection size scheme serves =>
    have slices := yields_slices collection size
      (fun k => ⟨client.initialCursor, 0, client.startPage + k⟩)
      serves (fun k => ?_) 0
    · simpa using slices
    · intro slice
      simp only [advance, scheme]
      by_cases stop : slice = []
      · rw [if_pos stop, stop]
        exact .inl ⟨rfl, (Nat.eq_zero_or_pos size).symm⟩
      · rw [if_neg stop]
        exact .inr ⟨by push_cast; rw [Int.add_assoc], stop⟩
  | cursor scheme chain => exact ⟨_, yields_of_chain scheme chain, fun _ => rfl⟩

/-- The fetch returns the first records of the pages it is allowed, in order. Each page is one
request, and further ones only repeat a failed one. -/
theorem fetchRestApi_spec (client : Client) (within : Nat → List Value)
    (honours : Honours client within) (counts : ∀ cap ∈ recordCap client, 0 ≤ cap) :
    Fetched client (capped (recordCap client) (within (pageCap client))) 0
      (pageCap client) (fetchRestApi client) := by
  obtain ⟨pages, yields, flat⟩ := honours.yields
  rw [← flat]
  refine fetchPages_spec counts yields _ [] (fun none => ?_) 0
  rw [pageCap] at none
  split at none <;> omega

/-- A server of two pages, one record each, that names the second one in a header. -/
def twoPages (maxPages : Int) : Client where
  paginationType := .cursor
  offsetParam := "offset"
  limitParam := "limit"
  pageSize := 100
  pageParam := "page"
  startPage := 1
  cursorParam := "cursor"
  cursorLocation := .header
  cursorResponsePath := "next"
  initialCursor := ""
  maxPages
  maxRecords := none
  baseParams _ := none
  recordPath := ""
  maxRetries := 3
  sampleSize := none
  str _ := ""
  send _ params :=
    .status 200 <| if params "cursor" = some "b" then ⟨fun _ => none, some (.list [.dict []])⟩
      else ⟨fun _ => some "b", some (.list [.scalar "1"])⟩

theorem honours_twoPages : Honours (twoPages 5) fun n =>
    (take n [[.dict [("value", .scalar "1")]], [.dict []]]).flatten :=
  .cursor rfl (.more (fun _ _ _ sent _ => by cases sent; exact ⟨_, rfl, rfl, fun _ => rfl⟩)
    (show "b" ≠ "" by decide)
    (.last fun _ _ _ sent _ => by cases sent; exact ⟨_, rfl, rfl, fun _ => rfl⟩))

theorem fetchRestApi_twoPages : Fetched (twoPages 5) [.dict [("value", .scalar "1")], .dict []] 0 5
    (fetchRestApi (twoPages 5)) :=
  fetchRestApi_spec (twoPages 5) _ honours_twoPages nofun

/-- A page cap of zero still lets one request pass. -/
theorem fetchRestApi_noPages : (twoPages 0).maxPages = 0 ∧
    fetchRestApi (twoPages 0) = (.ok [.dict [("value", .scalar "1")]], 1) :=
  ⟨rfl, rfl⟩

end Flowfile.RestApi

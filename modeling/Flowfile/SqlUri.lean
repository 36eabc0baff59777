import Flowfile.Library.Dictionaries
import Flowfile.Library.PercentTexts
import Flowfile.Library.WrittenNumbers

/-!
# Addresses of databases

The address of a server database is put together from its parts, of which only the password is
encoded, and by the rules of forms: a space becomes a plus sign. Read by the delimiters of
addresses, with percent escapes decoded, it gives the parts back exactly when they hold neither
delimiters nor escapes, the password has no space and does not stand without a user, and the port is
not zero.
-/

namespace Flowfile.SqlUri

open Library.Dictionaries Library.PercentTexts Library.WrittenNumbers List

structure SqlSource where
  databaseType : String
  host : Option String
  port : Option Int
  username : Option String
  password : Option String
  database : Option String
  url : Option String
  sslEnabled : Bool
  connectTimeout : Option Int
  kwargs : List (String × String)

/-- A text that is given and not empty. -/
def present (text : Option String) : Option (List Char) :=
  (text.map String.toList).filter (· ≠ [])

def postgresFamily : List (List Char) :=
  ["postgresql".toList, "postgres".toList, "redshift".toList]

namespace SqlSource

variable (source : SqlSource)

def lowerType : List Char := source.databaseType.toList.map Char.toLower

def isSqlite : Bool := source.lowerType = "sqlite".toList

def sqliteUri : List Char :=
  let path := ((present source.database).or (present source.host)).getD "./database.db".toList
  "sqlite:///".toList ++ (if "sqlite:///".toList.isPrefixOf path then path.drop 10 else path)

def passwordSection : List Char :=
  match present source.password with
  | none => []
  | some password => ':' :: quotePlus password

def credentials : List Char :=
  match present source.username with
  | none => []
  | some username => username ++ source.passwordSection ++ ['@']

def portSection : List Char :=
  match source.port with
  | none => []
  | some port => if port = 0 then [] else ':' :: (toString port).toList

def pathSection : List Char :=
  match present source.database with
  | none => []
  | some database => '/' :: database

def baseUri (host : List Char) : List Char :=
  source.databaseType.toList ++ "://".toList ++ source.credentials ++ host ++ source.portSection ++
    source.pathSection

def queryParams : Dictionary String String :=
  let timeout := source.connectTimeout.map fun seconds => ("connect_timeout", toString seconds)
  let given := if source.lowerType ∈ postgresFamily then
    (if source.sslEnabled then [("sslmode", "require")] else []) ++ timeout.toList else []
  (Dictionary.empty.setAll given).setAll source.kwargs

def querySection (base : List Char) : List Char :=
  match source.queryParams.entries with
  | [] => []
  | entries => (if '?' ∈ base then '&' else '?') :: ['&'].intercalate (entries.map fun entry =>
        entry.1.toList ++ '=' :: quotePlus entry.2.toList)

end SqlSource

def constructSqlUri (source : SqlSource) : Except String (List Char) :=
  match present source.url with
  | some url => .ok url
  | none =>
    if source.isSqlite then .ok source.sqliteUri
    else
      match present source.host with
      | none => .error "Host is required to create a URI"
      | some host => .ok (source.baseUri host ++ source.querySection (source.baseUri host))

/-- The driver is named for MySQL only. -/
def getSqlalchemyUri (uri : List Char) : List Char :=
  if "mysql://".toList.isPrefixOf uri then "mysql+pymysql://".toList ++ uri.drop 8 else uri

structure UriParts where
  username : Option (List Char)
  password : Option (List Char)
  host : List Char
  port : Option (List Char)
  path : Option (List Char)

def inAuthority (letter : Char) : Bool := letter ≠ '/' && letter ≠ '?' && letter ≠ '#'

def inPath (letter : Char) : Bool := letter ≠ '?' && letter ≠ '#'

def splitScheme (uri : List Char) : Option (List Char × List Char) :=
  match uri.dropWhile (· ≠ ':') with
  | ':' :: '/' :: '/' :: rest => some (uri.takeWhile (· ≠ ':'), rest)
  | _ => none

/-- What stands behind the first letter that is given. -/
def behind (letter : Char) (text : List Char) : Option (List Char) :=
  if letter ∈ text then some (text.dropWhile (· ≠ letter)).tail else none

/-- A host, in brackets or up to a colon, and what follows it. -/
def hostEnd (text : List Char) : List Char :=
  match text with
  | '[' :: rest =>
    if ']' ∈ rest then '[' :: rest.takeWhile (· ≠ ']') ++ [']'] else text.takeWhile (· ≠ ':')
  | _ => text.takeWhile (· ≠ ':')

/-- The path behind the authority, up to a question mark or a hash. -/
def pathOf (tail : List Char) : Option (List Char) :=
  match tail with
  | '/' :: path => some (path.takeWhile inPath)
  | _ => none

/-- The parts behind the scheme: the authority ends at a slash, a question mark or a hash, the user
in it at the last at sign, and the name of the user at the first colon. -/
def splitUri (text : List Char) : UriParts :=
  let authority := text.takeWhile inAuthority
  let hostInfo := authority.rtakeWhile (· ≠ '@')
  let userInfo :=
    if '@' ∈ authority then some (authority.take (authority.length - hostInfo.length - 1)) else none
  { username := userInfo.map fun user => user.takeWhile (· ≠ ':')
    password := userInfo.bind (behind ':')
    host := hostEnd hostInfo
    port := behind ':' (hostInfo.drop (hostEnd hostInfo).length)
    path := pathOf (text.dropWhile inAuthority) }

/-- The parts that are read are those of the source. -/
structure ReadsBack (source : SqlSource) (host : List Char) (parts : UriParts) : Prop where
  username : parts.username.map percentDecode = (present source.username).map bytes
  password : parts.password.map percentDecode = (present source.password).map bytes
  host : percentDecode parts.host = bytes host
  port : parts.port = source.port.map fun port => (toString port).toList
  database : parts.path.map percentDecode = (present source.database).map bytes

/-- The parts survive. -/
structure Readable (source : SqlSource) (host : List Char) : Prop where
  username : ∀ username, present source.username = some username →
    (∀ letter ∈ username, inAuthority letter ∧ letter ≠ ':') ∧ hasEscape username = false
  password : ∀ password, present source.password = some password →
    ' ' ∉ password ∧ present source.username ≠ none
  host : (∀ letter ∈ host, inAuthority letter ∧ letter ≠ '@') ∧ hostEnd host = host ∧
    hasEscape host = false
  port : source.port ≠ some 0
  database : ∀ database, present source.database = some database →
    (∀ letter ∈ database, inPath letter) ∧ hasEscape database = false

section

variable {test : Char → Bool} {text rest host port tail : List Char} {letter : Char}

/-- A text that is empty or starts with a letter that fails the test. -/
def Stops (test : Char → Bool) (text : List Char) : Prop :=
  ∀ letter ∈ text.head?, test letter = false

theorem takeWhile_stops (stops : Stops test rest) :
    (text ++ rest).takeWhile test = text.takeWhile test := by
  induction text with
  | nil =>
    cases rest with
    | nil => rfl
    | cons first more => simp [stops first rfl]
  | cons first more ih => simp only [cons_append, takeWhile_cons, ih]

theorem takeWhile_all_stops (all : ∀ letter ∈ text, test letter = true) (stops : Stops test rest) :
    (text ++ rest).takeWhile test = text ∧ (text ++ rest).dropWhile test = rest := by
  have cut := @takeWhile_stops test text rest stops
  rw [takeWhile_eq_self_iff.mpr all] at cut
  have parts := takeWhile_append_dropWhile (p := test) (l := text ++ rest)
  rw [cut] at parts
  exact ⟨cut, append_cancel_left parts⟩

theorem cut_found (fresh : letter ∉ text) : (text ++ letter :: rest).takeWhile (· ≠ letter) = text ∧
      (text ++ letter :: rest).dropWhile (· ≠ letter) = letter :: rest :=
  takeWhile_all_stops (fun _ mem => decide_eq_true fun same => fresh (same ▸ mem))
    (by simp [Stops])

theorem rtakeWhile_at (user rest : List Char) :
    (user ++ '@' :: rest).rtakeWhile (· ≠ '@') = rest.rtakeWhile (· ≠ '@') := by
  rw [List.rtakeWhile, reverse_append, reverse_cons, append_assoc,
    singleton_append, takeWhile_stops (by simp [Stops]), List.rtakeWhile]

theorem rtakeWhile_append (all : ∀ letter ∈ rest, letter ≠ '@') :
    (text ++ rest).rtakeWhile (· ≠ '@') = text.rtakeWhile (· ≠ '@') ++ rest := by
  rw [List.rtakeWhile, reverse_append, takeWhile_append_of_pos (by simpa using all),
    reverse_append, reverse_reverse, List.rtakeWhile]

theorem hostEnd_bracket (fresh : ']' ∉ text) :
    hostEnd ('[' :: (text ++ ']' :: rest)) = '[' :: (text ++ [']']) := by
  have closed : ']' ∈ text ++ ']' :: rest := by simp
  rw [hostEnd, if_pos closed, (cut_found fresh).1, cons_append]

theorem hostEnd_plain (plain : ∀ rest, text = '[' :: rest → ']' ∉ rest) :
    hostEnd text = text.takeWhile (· ≠ ':') := by
  unfold hostEnd
  split
  case h_1 rest => rw [if_neg (plain rest rfl)]
  case h_2 => rfl

/-- A host is in brackets, or ends at a colon. -/
theorem host_cases (text : List Char) :
    (∃ inside rest, ']' ∉ inside ∧ text = '[' :: (inside ++ ']' :: rest)) ∨
      ∀ rest, text = '[' :: rest → ']' ∉ rest := by
  by_cases bracket : ∃ rest, text = '[' :: rest ∧ ']' ∈ rest
  · obtain ⟨rest, rfl, closed⟩ := bracket
    obtain ⟨inside, after, rfl, fresh⟩ := eq_append_cons_of_mem closed
    exact .inl ⟨inside, after, fresh, rfl⟩
  · exact .inr fun rest same closed => bracket ⟨rest, same, closed⟩

theorem hostEnd_front (text : List Char) : hostEnd text <+: text := by
  obtain ⟨inside, rest, fresh, rfl⟩ | plain := host_cases text
  · rw [hostEnd_bracket fresh]
    exact ⟨rest, by simp⟩
  · rw [hostEnd_plain plain]
    exact takeWhile_prefix _

theorem hostEnd_append (stops : Stops (· ≠ ':') port) (unclosed : ']' ∉ port) :
    hostEnd (text ++ port) = hostEnd text := by
  obtain ⟨inside, rest, fresh, rfl⟩ | plain := host_cases text
  · rw [cons_append, append_assoc, cons_append, hostEnd_bracket fresh, hostEnd_bracket fresh]
  rw [hostEnd_plain plain, hostEnd_plain, takeWhile_stops stops]
  intro rest same closed
  cases text with
  | nil =>
    rw [nil_append] at same
    exact unclosed (same ▸ mem_cons_of_mem _ closed)
  | cons first more =>
    rw [cons_append, List.cons.injEq] at same
    obtain ⟨rfl, rfl⟩ := same
    exact (mem_append.mp closed).elim (plain more rfl) unclosed

theorem host_read_iff (stops : Stops (· ≠ ':') port)
    (letters : ∀ letter ∈ port, inAuthority letter ∧ letter ≠ '@' ∧ letter ≠ ']')
    (tailStops : (∀ letter ∈ host, inAuthority letter) → Stops inAuthority tail) :
    percentDecode (hostEnd (((host ++ port ++ tail).takeWhile inAuthority).rtakeWhile (· ≠ '@'))) =
        bytes host ↔
      (∀ letter ∈ host, inAuthority letter ∧ letter ≠ '@') ∧ hostEnd host = host ∧
        hasEscape host = false := by
  have unclosed : ']' ∉ port := fun mem => (letters _ mem).2.2 rfl
  have long : ∀ {read : List Char}, percentDecode read = bytes host →
      (bytes host).length ≤ (bytes read).length := fun same => same ▸ (percentDecode_spec _).1
  by_cases all : ∀ letter ∈ host, inAuthority letter
  · have authority : (host ++ port ++ tail).takeWhile inAuthority = host ++ port := by
      refine (takeWhile_all_stops (fun letter mem => ?_) (tailStops all)).1
      exact (mem_append.mp mem).elim (all letter) fun inPort => (letters letter inPort).1
    rw [authority, rtakeWhile_append fun letter mem => (letters letter mem).2.1,
      hostEnd_append stops unclosed]
    constructor
    · intro same
      have ends := hostEnd_front (host.rtakeWhile (· ≠ '@'))
      have last := rtakeWhile_suffix (· ≠ '@') host
      have whole := eq_of_sublist (ends.sublist.trans last.sublist) (long same)
      have kept := eq_of_sublist last.sublist
        (Nat.le_trans (long same) (bytes_sublist ends.sublist))
      have noAt : ∀ letter ∈ host, letter ≠ '@' := by
        intro letter mem
        rw [← kept] at mem
        simpa using mem_rtakeWhile_imp mem
      rw [kept] at same whole
      rw [whole] at same
      exact ⟨fun letter mem => ⟨all letter mem, noAt letter mem⟩, whole,
        percentDecode_eq_iff.mp same⟩
    · rintro ⟨plain, ends, unescaped⟩
      rw [rtakeWhile_eq_self_iff.mpr (by simpa using fun letter mem => (plain letter mem).2), ends]
      exact percentDecode_eq_iff.mpr unescaped
  · refine iff_of_false (fun same => all ?_) fun plain =>
      all fun letter mem => (plain.1 letter mem).1
    have short := (hostEnd_front (((host ++ port ++ tail).takeWhile inAuthority).rtakeWhile
      (· ≠ '@'))).sublist.trans (rtakeWhile_suffix _ _).sublist
    have reaches : host <+: (host ++ port ++ tail).takeWhile inAuthority := by
      have isHost : host <+: host ++ port ++ tail := ⟨port ++ tail, by simp⟩
      obtain inside | inside := prefix_or_prefix_of_prefix isHost (List.takeWhile_prefix _)
      · exact inside
      · have read := eq_of_sublist inside.sublist (Nat.le_trans (long same) (bytes_sublist short))
        exact ⟨[], by rw [read, append_nil]⟩
    exact fun letter mem => mem_takeWhile_imp (reaches.subset mem)

end

namespace SqlSource

variable {source : SqlSource} {host tail : List Char}

theorem passwordSection_letters : Stops (· ≠ ':') source.passwordSection ∧
      ∀ letter ∈ source.passwordSection, inAuthority letter := by
  unfold passwordSection
  split
  · simp [Stops]
  · refine ⟨by simp [Stops], fun letter mem => ?_⟩
    obtain rfl | mem := mem_cons.mp mem
    · decide
    · obtain ⟨slash, mark, hash, _⟩ := quotePlus_letters mem
      simp [inAuthority, slash, mark, hash]

theorem portSection_letters : Stops (· ≠ ':') source.portSection ∧
      ∀ letter ∈ source.portSection, inAuthority letter ∧ letter ≠ '@' ∧ letter ≠ ']' := by
  have digits : ∀ port : Int, ∀ letter ∈ (toString port).toList,
      letter.isDigit = true ∨ letter = '-' := by
    intro port letter mem
    cases port with
    | ofNat number => exact .inl (isDigit_of_mem_toString mem)
    | negSucc number =>
    have written : (toString (Int.negSucc number)).toList =
        '-' :: (toString (number + 1)).toList := by
      rw [show toString (Int.negSucc number) = "-" ++ toString (number + 1) from rfl]
      simp
    rw [written] at mem
    exact (mem_cons.mp mem).symm.imp_left isDigit_of_mem_toString
  unfold portSection
  split
  · simp [Stops]
  · split
    · simp [Stops]
    · refine ⟨by simp [Stops], fun letter mem => ?_⟩
      obtain rfl | mem := mem_cons.mp mem
      · decide
      obtain digit | rfl := digits _ letter mem
      · refine ⟨?_, ?_, ?_⟩
        · unfold inAuthority
          simp only [Bool.and_eq_true, decide_eq_true_eq]
          refine ⟨⟨?_, ?_⟩, ?_⟩ <;> rintro rfl <;> revert digit <;> decide
        all_goals rintro rfl; revert digit; decide
      · decide

theorem credentials_eq {username : List Char} (named : present source.username = some username) :
    source.credentials = username ++ source.passwordSection ++ ['@'] := by
  rw [credentials, named]

def Plain (source : SqlSource) : Prop :=
  ∀ username, present source.username = some username →
    ∀ letter ∈ username, inAuthority letter ∧ letter ≠ ':'

theorem credentials_letters (plain : source.Plain) :
    ∀ letter ∈ source.credentials, inAuthority letter = true := by
  cases named : present source.username with
  | none => simp [credentials, named]
  | some username =>
  intro letter mem
  rw [credentials_eq named, mem_append, mem_append, mem_singleton] at mem
  obtain (mem | mem) | rfl := mem
  · exact (plain username named letter mem).1
  · exact passwordSection_letters.2 letter mem
  · decide

/-- A user that is read as it was written has no delimiters. -/
theorem username_letters {username rest : List Char}
    (read : (splitUri (username ++ rest)).username.map percentDecode = some (bytes username)) :
    ∀ letter ∈ username, inAuthority letter ∧ letter ≠ ':' := by
  obtain ⟨user, isUser, same⟩ := Option.map_eq_some_iff.mp read
  obtain ⟨info, isInfo, rfl⟩ := Option.map_eq_some_iff.mp isUser
  have inside : info <+: (username ++ rest).takeWhile inAuthority := by
    split at isInfo
    case isTrue => exact Option.some.inj isInfo ▸ take_prefix _ _
    case isFalse => cases isInfo
  have reaches := prefix_of_decoded (prefix_append username rest)
    ((List.takeWhile_prefix _).trans (inside.trans (List.takeWhile_prefix _))) same
  intro letter mem
  have isRead := reaches.subset mem
  exact ⟨mem_takeWhile_imp (inside.subset ((List.takeWhile_prefix _).subset isRead)),
    by simpa using mem_takeWhile_imp isRead⟩

/-- The authority behind a user without delimiters. -/
theorem authority_eq (plain : source.Plain) (rest : List Char) :
    (source.credentials ++ rest).takeWhile inAuthority =
        source.credentials ++ rest.takeWhile inAuthority ∧
      ((source.credentials ++ rest).takeWhile inAuthority).rtakeWhile (· ≠ '@') =
        (rest.takeWhile inAuthority).rtakeWhile (· ≠ '@') := by
  rw [takeWhile_append_of_pos (credentials_letters plain)]
  refine ⟨rfl, ?_⟩
  cases named : present source.username with
  | none => simp [credentials, named]
  | some username =>
    rw [credentials_eq named, append_assoc _ ['@'], singleton_append, rtakeWhile_at]

theorem splitUri_eq (plain : source.Plain)
    (hostPlain : ∀ letter ∈ host, inAuthority letter ∧ letter ≠ '@') (ends : hostEnd host = host)
    (tailStops : Stops inAuthority tail) :
    splitUri (source.credentials ++ (host ++ source.portSection ++ tail)) =
      { username := present source.username
        password := (present source.username).bind fun _ =>
          (present source.password).map quotePlus
        host := host
        port := behind ':' source.portSection
        path := pathOf tail } := by
  have front : ∀ letter ∈ host ++ source.portSection, inAuthority letter ∧ letter ≠ '@' := by
    intro letter mem
    obtain mem | mem := mem_append.mp mem
    · exact hostPlain letter mem
    · exact ⟨(portSection_letters.2 letter mem).1, (portSection_letters.2 letter mem).2.1⟩
  obtain ⟨cut, dropped⟩ := takeWhile_all_stops (fun letter mem => (front letter mem).1) tailStops
  obtain ⟨authority, hostInfo⟩ := authority_eq plain (host ++ source.portSection ++ tail)
  have info : (host ++ source.portSection).rtakeWhile (· ≠ '@') = host ++ source.portSection :=
    rtakeWhile_eq_self_iff.mpr fun letter mem => decide_eq_true (front letter mem).2
  rw [cut] at authority hostInfo
  rw [authority, info] at hostInfo
  have hostRead : hostEnd (host ++ source.portSection) = host :=
    (hostEnd_append portSection_letters.1
      fun mem => (portSection_letters.2 _ mem).2.2 rfl).trans ends
  have rest : (source.credentials ++ (host ++ source.portSection ++ tail)).dropWhile inAuthority =
      tail := by
    have parts := takeWhile_append_dropWhile (p := inAuthority)
      (l := source.credentials ++ (host ++ source.portSection ++ tail))
    rw [authority, append_assoc, append_cancel_left_eq, append_cancel_left_eq] at parts
    exact parts
  unfold splitUri
  simp only [rest, authority, hostInfo, hostRead, drop_left]
  cases named : present source.username with
  | none =>
    have noAt : '@' ∉ source.credentials ++ (host ++ source.portSection) := by
      simpa [credentials, named] using fun mem => (front '@' mem).2 rfl
    simp [noAt]
  | some username =>
  have isAt : '@' ∈ source.credentials ++ (host ++ source.portSection) := by
    simp [credentials_eq named]
  have user : (source.credentials ++ (host ++ source.portSection)).take
      ((source.credentials ++ (host ++ source.portSection)).length -
        (host ++ source.portSection).length - 1) = username ++ source.passwordSection := by
    rw [credentials_eq named, append_assoc _ ['@']]
    exact take_left' (by simp; omega)
  obtain ⟨name, password⟩ := @takeWhile_all_stops (· ≠ ':') username source.passwordSection
    (fun letter mem => decide_eq_true (plain username named letter mem).2)
    passwordSection_letters.1
  have noColon : ':' ∉ username := fun mem => (plain username named ':' mem).2 rfl
  rw [if_pos isAt, user]
  simp only [Option.map_some, Option.bind_some, behind]
  rw [name, password, passwordSection]
  cases present source.password <;> simp [noColon]

theorem querySection_stops {base : List Char} :
    pathOf (source.querySection base) = none ∧ ('?' ∉ base →
      Stops inAuthority (source.querySection base) ∧ Stops inPath (source.querySection base)) := by
  unfold querySection
  split
  · simp [pathOf, Stops]
  · by_cases marked : '?' ∈ base
    · simp [marked, pathOf]
    · simp [marked, pathOf, Stops, inAuthority, inPath]

theorem port_iff : behind ':' source.portSection =
    source.port.map (fun port => (toString port).toList) ↔ source.port ≠ some 0 := by
  rw [portSection]
  cases source.port with
  | none => simp [behind]
  | some port =>
  by_cases zero : port = 0
  · subst zero
    simp [behind]
  · simp [behind, zero]

theorem password_iff : ((present source.username).bind fun _ =>
      (present source.password).map quotePlus).map percentDecode =
        (present source.password).map bytes ↔
    ∀ password, present source.password = some password →
      ' ' ∉ password ∧ present source.username ≠ none := by
  cases present source.username <;> cases present source.password <;>
    simp [quotePlus_decoded_iff]

theorem path_iff {query : List Char} (nothing : pathOf query = none)
    (stops : (∀ database, present source.database = some database →
      ∀ letter ∈ database, inPath letter) → Stops inPath query) :
    (pathOf (source.pathSection ++ query)).map percentDecode = (present source.database).map bytes ↔
      ∀ database, present source.database = some database →
        (∀ letter ∈ database, inPath letter) ∧ hasEscape database = false := by
  rw [pathSection]
  cases named : present source.database with
  | none => simp [nothing]
  | some database =>
  have read : pathOf ('/' :: database ++ query) = some ((database ++ query).takeWhile inPath) := rfl
  simp only [named, Option.some.injEq, forall_eq'] at stops ⊢
  rw [read, Option.map_some, Option.map_some, Option.some.injEq]
  constructor
  · intro same
    have reaches := prefix_of_decoded (prefix_append database query)
      (List.takeWhile_prefix _) same
    have all : ∀ letter ∈ database, inPath letter = true := fun letter mem =>
      mem_takeWhile_imp (reaches.subset mem)
    rw [(takeWhile_all_stops all (stops all)).1] at same
    exact ⟨all, percentDecode_eq_iff.mp same⟩
  · rintro ⟨all, unescaped⟩
    rw [(takeWhile_all_stops all (stops all)).1]
    exact percentDecode_eq_iff.mpr unescaped

/-- What is behind the scheme. -/
def address (source : SqlSource) (host : List Char) : List Char :=
  source.credentials ++ (host ++ source.portSection ++
    (source.pathSection ++ source.querySection (source.baseUri host)))

theorem address_readsBack_iff (unmarked : '?' ∉ source.databaseType.toList) :
    ReadsBack source host (splitUri (source.address host)) ↔ Readable source host := by
  have noMark : source.Plain → (∀ letter ∈ host, inAuthority letter) →
      (∀ database, present source.database = some database →
        ∀ letter ∈ database, inPath letter) → '?' ∉ source.baseUri host := by
    intro plain hostPlain path mem
    simp only [baseUri, mem_append] at mem
    obtain ((((mem | mem) | mem) | mem) | mem) | mem := mem
    · exact unmarked mem
    · exact absurd mem (by decide)
    · exact absurd (credentials_letters plain _ mem) (by decide)
    · exact absurd (hostPlain _ mem) (by decide)
    · exact absurd (portSection_letters.2 _ mem).1 (by decide)
    · rw [pathSection] at mem
      cases named : present source.database with
      | none => simp [named] at mem
      | some database =>
        simp only [named, mem_cons, Char.reduceEq, false_or] at mem
        exact absurd (path database named _ mem) (by decide)
  have tailStops : source.Plain → (∀ letter ∈ host, inAuthority letter) →
      Stops inAuthority (source.pathSection ++ source.querySection (source.baseUri host)) := by
    intro plain hostPlain
    cases named : present source.database with
    | none =>
      rw [pathSection, named]
      exact (querySection_stops.2 (noMark plain hostPlain (by simp [named]))).1
    | some database => simp [pathSection, named, Stops, inAuthority]
  have port := @portSection_letters source
  have split : source.Plain →
      ((∀ letter ∈ host, inAuthority letter ∧ letter ≠ '@') ∧ hostEnd host = host ∧
        hasEscape host = false) → (splitUri (source.address host) =
          ⟨present source.username, (present source.username).bind fun _ =>
            (present source.password).map quotePlus, host, behind ':' source.portSection,
            pathOf (source.pathSection ++ source.querySection (source.baseUri host))⟩) ∧
      ((∀ database, present source.database = some database → ∀ letter ∈ database,
        inPath letter) → Stops inPath (source.querySection (source.baseUri host))) := by
    intro plain hostRead
    have all : ∀ letter ∈ host, inAuthority letter = true := fun letter mem =>
      (hostRead.1 letter mem).1
    exact ⟨splitUri_eq plain hostRead.1 hostRead.2.1 (tailStops plain all),
      fun path => (querySection_stops.2 (noMark plain all path)).2⟩
  constructor
  · intro reads
    have plain : source.Plain := by
      intro username named
      have read := reads.username
      rw [address, credentials_eq named, append_assoc, append_assoc, named] at read
      exact username_letters read
    have isHost := reads.host
    have cut : (splitUri (source.address host)).host = hostEnd
        (((source.address host).takeWhile inAuthority).rtakeWhile (· ≠ '@')) := rfl
    rw [cut, address, (authority_eq plain _).2, host_read_iff port.1 port.2 (tailStops plain)]
      at isHost
    obtain ⟨parts, stops⟩ := split plain isHost
    rw [parts] at reads
    refine ⟨fun username named => ⟨plain username named, ?_⟩, password_iff.mp reads.password,
      isHost, port_iff.mp reads.port, (path_iff querySection_stops.1 stops).mp reads.database⟩
    have read := reads.username
    rw [named] at read
    exact percentDecode_eq_iff.mp (Option.some.inj read)
  · intro readable
    have plain : source.Plain := fun username named => (readable.username username named).1
    obtain ⟨parts, stops⟩ := split plain readable.host
    rw [parts]
    refine ⟨?_, password_iff.mpr readable.password,
      percentDecode_eq_iff.mpr readable.host.2.2, port_iff.mpr readable.port,
      (path_iff querySection_stops.1 stops).mpr readable.database⟩
    cases named : present source.username with
    | none => rfl
    | some username =>
      exact congrArg some (percentDecode_eq_iff.mpr (readable.username username named).2)

end SqlSource

theorem splitScheme_eq {scheme : List Char} (plain : ':' ∉ scheme) (rest : List Char) :
    splitScheme (scheme ++ ':' :: '/' :: '/' :: rest) = some (scheme, rest) := by
  obtain ⟨before, after⟩ := @cut_found scheme ('/' :: '/' :: rest) ':' plain
  rw [splitScheme, before, after]
  rfl

theorem getSqlalchemyUri_scheme {scheme : List Char} (plain : ':' ∉ scheme) (rest : List Char) :
    ∃ driver, splitScheme (getSqlalchemyUri (scheme ++ ':' :: '/' :: '/' :: rest)) =
      some (driver, rest) := by
  unfold getSqlalchemyUri
  split
  case isTrue mysql =>
    obtain ⟨more, parts⟩ := isPrefixOf_iff_prefix.mp mysql
    have whole := splitScheme_eq plain rest
    have read : splitScheme ("mysql://".toList ++ more) = some ("mysql".toList, more) :=
      @splitScheme_eq "mysql".toList (by decide) more
    rw [← parts, read] at whole
    obtain ⟨-, rfl⟩ := Prod.mk.inj (Option.some.inj whole)
    rw [← parts]
    exact ⟨_, @splitScheme_eq "mysql+pymysql".toList (by decide) more⟩
  case isFalse => exact ⟨scheme, splitScheme_eq plain rest⟩

/-- For every server database the address is put together, and read by its delimiters it gives the
parts back exactly when these survive; the driver changes nothing but the scheme. -/
theorem readsBack_iff (source : SqlSource) {host : List Char}
    (isHost : present source.host = some host) (noUrl : present source.url = none)
    (server : source.isSqlite = false)
    (scheme : ':' ∉ source.databaseType.toList ∧ '?' ∉ source.databaseType.toList) :
    ∃ uri address, constructSqlUri source = .ok uri ∧
      splitScheme uri = some (source.databaseType.toList, address) ∧
      (ReadsBack source host (splitUri address) ↔ Readable source host) ∧
      ∃ driver, splitScheme (getSqlalchemyUri uri) = some (driver, address) := by
  have uri : constructSqlUri source = .ok (source.databaseType.toList ++
      ':' :: '/' :: '/' :: source.address host) := by
    rw [constructSqlUri, noUrl, server, isHost]
    simp [SqlSource.baseUri, SqlSource.address]
  exact ⟨_, _, uri, splitScheme_eq scheme.1 _, SqlSource.address_readsBack_iff scheme.2,
    getSqlalchemyUri_scheme scheme.1 _⟩

def shop (username password : String) : SqlSource :=
  { databaseType := "mysql", host := some "db.local", port := some 3306, username := some username,
    password := some password, database := some "shop", url := none, sslEnabled := false,
    connectTimeout := none, kwargs := [] }

theorem shop_readsBack : ∃ uri address, constructSqlUri (shop "reader" "p@ss") = .ok uri ∧
      splitScheme uri = some ("mysql".toList, address) ∧
      (ReadsBack (shop "reader" "p@ss") "db.local".toList (splitUri address) ↔
        Readable (shop "reader" "p@ss") "db.local".toList) ∧
      ∃ driver, splitScheme (getSqlalchemyUri uri) = some (driver, address) :=
  readsBack_iff (shop "reader" "p@ss") rfl rfl (by decide) (by decide)

/-- A space in the password comes back as a plus sign, and a colon in the name of the user moves the
rest of the name into the password. -/
theorem shop_misread : (∃ uri address, constructSqlUri (shop "reader" "my secret") = .ok uri ∧
      splitScheme uri = some ("mysql".toList, address) ∧
      ¬ ReadsBack (shop "reader" "my secret") "db.local".toList (splitUri address)) ∧
    ∃ uri address, constructSqlUri (shop "team:reader" "secret") = .ok uri ∧
      splitScheme uri = some ("mysql".toList, address) ∧
      ¬ ReadsBack (shop "team:reader" "secret") "db.local".toList (splitUri address) := by
  refine ⟨⟨_, _, rfl, rfl, fun reads => ?_⟩, ⟨_, _, rfl, rfl, fun reads => ?_⟩⟩
  · have password := reads.password
    revert password
    decide +kernel
  · have username := reads.username
    revert username
    decide +kernel

end Flowfile.SqlUri

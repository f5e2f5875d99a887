import OpencodeToolbelt.Data.Host
import OpencodeToolbelt.Data.JsString
import OpencodeToolbelt.Data.Utf8

/-!
# URLs

The parser of absolute URLs, and the attributes of a URL. How a host is parsed is a parameter.
-/

/-- The parser of hosts, told whether the scheme of the URL is special. -/
structure HostParser where
  parse : Bool → List Char → Option Host
  /-- A host has no `@`. -/
  parse_at : ∀ special text, '@' ∈ text → parse special text = none
  /-- Only an empty text is the empty host. -/
  parse_nonempty : ∀ special text host, text ≠ [] → parse special text = some host →
    host.serialize ≠ []

/-- The path of a URL: a list of segments, or a text that is kept as it is. -/
inductive UrlPath where
  | segments (segments : List (List Char))
  | text (text : List Char)

structure Url where
  scheme : List Char
  username : List Char
  password : List Char
  host : Option Host
  port : Option ℕ
  path : UrlPath
  query : Option (List Char)
  fragment : Option (List Char)

/-! ### Texts -/

/-- The text without what a test holds of at its end. -/
def dropWhileEnd (p : Char → Bool) (text : List Char) : List Char :=
  (text.reverse.dropWhile p).reverse

/-- Where the test fails, the rest of the text is cut alone. -/
theorem dropWhileEnd_append_cons {p : Char → Bool} {c : Char} (hc : p c = false)
    (before after : List Char) :
  dropWhileEnd p (before ++ c :: after) = before ++ c :: dropWhileEnd p after
  := by
  rw [dropWhileEnd, List.reverse_append, List.reverse_cons, List.append_assoc,
    List.singleton_append, List.dropWhile_append, dropWhileEnd]
  split
  · next hempty =>
      rw [List.dropWhile_cons_of_neg (by simp [hc])]
      rw [List.isEmpty_iff] at hempty
      simp [hempty]
  · simp

theorem dropWhile_cons_of_false {p : Char → Bool} {c : Char} (hc : p c = false)
    (text : List Char) :
  (c :: text).dropWhile p = c :: text
  := List.dropWhile_cons_of_neg (by simp [hc])

theorem takeWhile_append_cons {p : Char → Bool} {before : List Char} {c : Char}
    (hbefore : ∀ b ∈ before, p b = true) (hc : p c = true) (after : List Char) :
  (before ++ c :: after).takeWhile p = before ++ c :: after.takeWhile p
  := by rw [List.takeWhile_append_of_pos hbefore, List.takeWhile_cons_of_pos hc]

theorem dropWhile_append_cons {p : Char → Bool} {before : List Char} {c : Char}
    (hbefore : ∀ b ∈ before, p b = true) (hc : p c = true) (after : List Char) :
  (before ++ c :: after).dropWhile p = after.dropWhile p
  := by rw [List.dropWhile_append_of_pos hbefore, List.dropWhile_cons_of_pos hc]

namespace Url

/-! ### Characters -/

def isSchemeChar (c : Char) : Bool := c.isAlphanum || c = '+' || c = '-' || c = '.'

def isC0OrSpace (c : Char) : Bool := c.toNat ≤ 0x20

def isTabOrNewline (c : Char) : Bool := c = '\t' || c = '\n' || c = '\r'

def isC0Encoded (c : Char) : Bool := c.toNat < 0x20 || 0x7e < c.toNat

def isFragmentEncoded (c : Char) : Bool :=
  isC0Encoded c || c ∈ [' ', '"', '<', '>'] || c.toNat = 0x60

def isQueryEncoded (c : Char) : Bool := isC0Encoded c || c ∈ [' ', '"', '#', '<', '>']

def isSpecialQueryEncoded (c : Char) : Bool := isQueryEncoded c || c.toNat = 0x27

def isPathEncoded (c : Char) : Bool :=
  isQueryEncoded c || c = '?' || c.toNat ∈ [0x60, 0x7b, 0x7d]

def isUserinfoEncoded (c : Char) : Bool :=
  isPathEncoded c || c ∈ ['/', ':', ';', '=', '@', '[', '\\', ']', '^', '|']

/-- The percent-encoding of a byte. -/
def encodeByte (byte : UInt8) : List Char :=
  ['%', (Json.hexDigit (byte.toNat / 16)).toUpper, (Json.hexDigit (byte.toNat % 16)).toUpper]

/-- The text with the characters of a set percent-encoded. -/
def percentEncode (set : Char → Bool) (text : List Char) : List Char :=
  text.flatMap fun c => if set c then (utf8Encode [c]).flatMap encodeByte else [c]

/-! ### Parts -/

def isSpecialScheme (scheme : List Char) : Bool :=
  String.ofList scheme ∈ ["ftp", "file", "http", "https", "ws", "wss"]

def defaultPort (scheme : List Char) : Option ℕ :=
  match String.ofList scheme with
  | "ftp" => some 21
  | "http" => some 80
  | "https" => some 443
  | "ws" => some 80
  | "wss" => some 443
  | _ => none

/-- Where the authority of a URL ends. -/
def isAuthorityEnd (special : Bool) (c : Char) : Bool :=
  c = '/' || c = '?' || c = '#' || (special && c = '\\')

/-- The input without blanks and controls around it, and without tabs and newlines. -/
def strip (input : List Char) : List Char :=
  (dropWhileEnd isC0OrSpace (input.dropWhile isC0OrSpace)).filter fun c => !isTabOrNewline c

/-- The scheme in lower case, and what follows its colon. -/
def scanScheme (input : List Char) : Option (List Char × List Char) :=
  if input.head?.any Char.isAlpha then
    match input.dropWhile isSchemeChar with
    | ':' :: rest => some ((input.takeWhile isSchemeChar).map Char.toLower, rest)
    | _ => none
  else none

/-- What stands before and after the last `@`, if there is one. -/
def splitLastAt : List Char → Option (List Char × List Char)
  | [] => none
  | c :: text =>
      match splitLastAt text with
      | some (before, after) => some (c :: before, after)
      | none => if c = '@' then some ([], text) else none

/-- The user name and the password of a URL. -/
def parseUserinfo (userinfo : List Char) : List Char × List Char :=
  (percentEncode isUserinfoEncoded (userinfo.takeWhile (· ≠ ':')),
    percentEncode isUserinfoEncoded ((userinfo.dropWhile (· ≠ ':')).drop 1))

/-- What stands before the first colon outside of brackets, and what stands after it. -/
def splitPort : Bool → List Char → List Char × Option (List Char)
  | _, [] => ([], none)
  | inside, c :: text =>
      if c = ':' ∧ inside = false then ([], some text)
      else
        let rest := splitPort (if c = '[' then true else if c = ']' then false else inside) text
        (c :: rest.1, rest.2)

/-- The port, absent when it is the default one of the scheme. -/
def parsePort (scheme text : List Char) : Option (Option ℕ) :=
  if text = [] then some none
  else if text.all Char.isDigit then
    let port := text.foldl (fun n c => n * 10 + (c.toNat - 48)) 0
    if 65535 < port then none
    else some (if defaultPort scheme = some port then none else some port)
  else none

/-- The host and the port of an authority. -/
def parseHostPort (hosts : HostParser) (scheme text : List Char) : Option (Host × Option ℕ) := do
  let special := isSpecialScheme scheme
  let (hostText, portText) := splitPort false text
  if hostText = [] ∧ (special ∨ portText.isSome) then none
  else
    let host ← hosts.parse special hostText
    match portText with
    | none => some (host, none)
    | some portText => do
        let port ← parsePort scheme portText
        some (host, port)

/-! ### Paths -/

def isSingleDot (segment : List Char) : Bool :=
  toLowerCase segment ∈ [['.'], ['%', '2', 'e']]

def isDoubleDot (segment : List Char) : Bool :=
  toLowerCase segment ∈ [['.', '.'], ['.', '%', '2', 'e'], ['%', '2', 'e', '.'],
    ['%', '2', 'e', '%', '2', 'e']]

def isDriveLetter : List Char → Bool
  | [letter, mark] => letter.isAlpha && (mark = ':' || mark = '|')
  | _ => false

/-- A drive letter with a colon. -/
def normalizeDriveLetter : List Char → List Char
  | [letter, '|'] => [letter, ':']
  | segment => segment

/-- The path without its last segment. The drive letter of a file stays. -/
def shorten (file : Bool) (path : List (List Char)) : List (List Char) :=
  match path with
  | [segment] => if file && isDriveLetter segment && segment.getLast? = some ':' then path else []
  | _ => path.dropLast

/-- The path after a segment, which is or is not the last one. -/
def addSegment (file : Bool) (path : List (List Char)) (segment : List Char) (last : Bool) :
    List (List Char) :=
  if isDoubleDot segment then
    if last then shorten file path ++ [[]] else shorten file path
  else if isSingleDot segment then if last then path ++ [[]] else path
  else if file && path.isEmpty && isDriveLetter segment then
    path ++ [normalizeDriveLetter segment]
  else path ++ [segment]

/-- The texts between the separators. -/
def splitSegments (special : Bool) : List Char → List (List Char)
  | [] => [[]]
  | c :: text =>
      if c = '/' || (special && c = '\\') then [] :: splitSegments special text
      else
        match splitSegments special text with
        | [] => [[c]]
        | segment :: segments => (c :: segment) :: segments

/-- The segments added to a path, one after the other. -/
def addSegments (file : Bool) (path : List (List Char)) : List (List Char) → List (List Char)
  | [] => path
  | [segment] => addSegment file path segment true
  | segment :: segments => addSegments file (addSegment file path segment false) segments

/-- The path of a text that starts at its first separator. -/
def parsePath (scheme text : List Char) : List (List Char) :=
  let special := isSpecialScheme scheme
  let file := scheme = ['f', 'i', 'l', 'e']
  match text with
  | [] => if special then [[]] else []
  | c :: rest =>
      let body := if c = '/' || (special && c = '\\') then rest else text
      addSegments file [] ((splitSegments special body).map (percentEncode isPathEncoded))

/-! ### URLs -/

/-- The URL with the path, the query and the fragment of a text. -/
def withTail (url : Url) (parseUrlPath : List Char → UrlPath) (tail : List Char) : Url :=
  let beforeFragment := tail.takeWhile (· ≠ '#')
  let fragment := match tail.dropWhile (· ≠ '#') with
    | [] => none
    | _ :: text => some (percentEncode isFragmentEncoded text)
  let query := match beforeFragment.dropWhile (· ≠ '?') with
    | [] => none
    | _ :: text =>
        some (percentEncode
          (if isSpecialScheme url.scheme then isSpecialQueryEncoded else isQueryEncoded) text)
  { url with path := parseUrlPath (beforeFragment.takeWhile (· ≠ '?')), query, fragment }

/-- A URL of which only the scheme is known. -/
def ofScheme (scheme : List Char) : Url := ⟨scheme, [], [], none, none, .text [], none, none⟩

/-- The URL of what follows the two slashes. -/
def parseAuthority (hosts : HostParser) (scheme rest : List Char) : Option Url := do
  let special := isSpecialScheme scheme
  let authority := rest.takeWhile fun c => !isAuthorityEnd special c
  let tail := rest.dropWhile fun c => !isAuthorityEnd special c
  let (userinfo, hostPort) := match splitLastAt authority with
    | some (userinfo, hostPort) => (some userinfo, hostPort)
    | none => (none, authority)
  if userinfo.isSome ∧ hostPort = [] then none
  else
    let (host, port) ← parseHostPort hosts scheme hostPort
    let (username, password) := (userinfo.map parseUserinfo).getD ([], [])
    some (withTail { ofScheme scheme with username, password, host := some host, port }
      (fun text => .segments (parsePath scheme text)) tail)

/-- The URL of a file, from what follows the colon. -/
def parseFile (hosts : HostParser) (scheme rest : List Char) : Option Url :=
  let isSlash := fun c : Char => c = '/' || c = '\\'
  let hostless := { ofScheme scheme with host := some (.raw []) }
  let path := fun text : List Char => UrlPath.segments (parsePath scheme text)
  match rest with
  | a :: b :: text =>
      if isSlash a && isSlash b then
        let hostText := text.takeWhile fun c => !isAuthorityEnd true c
        let tail := text.dropWhile fun c => !isAuthorityEnd true c
        if isDriveLetter hostText then some (withTail hostless path text)
        else if hostText = [] then some (withTail hostless path tail)
        else do
          let host ← hosts.parse true hostText
          let host := if host.serialize = "localhost".toList then .raw [] else host
          some (withTail { hostless with host := some host } path tail)
      else some (withTail hostless path rest)
  | _ => some (withTail hostless path rest)

/-- `new URL(input)` -/
def parse (hosts : HostParser) (input : List Char) : Option Url := do
  let (scheme, rest) ← scanScheme (strip input)
  if scheme = ['f', 'i', 'l', 'e'] then parseFile hosts scheme rest
  else if isSpecialScheme scheme then
    parseAuthority hosts scheme (rest.dropWhile fun c => c = '/' || c = '\\')
  else
    match rest with
    | '/' :: '/' :: text => parseAuthority hosts scheme text
    | '/' :: _ =>
        some (withTail (ofScheme scheme) (fun text => .segments (parsePath scheme text)) rest)
    | _ =>
        some (withTail (ofScheme scheme) (fun text => .text (percentEncode isC0Encoded text)) rest)

/-! ### Attributes -/

variable (url : Url)

def protocol : List Char := url.scheme ++ [':']

def hostname : List Char := (url.host.map Host.serialize).getD []

def pathname : List Char :=
  match url.path with
  | .segments segments => segments.flatMap fun segment => '/' :: segment
  | .text text => text

/-- What stands before the host: the user name and the password, if there are any. -/
def credentials : List Char :=
  if url.username = [] ∧ url.password = [] then []
  else url.username ++ (if url.password = [] then [] else ':' :: url.password) ++ ['@']

/-- `toString()` -/
def href : List Char :=
  let authority := match url.host with
    | none =>
        match url.path with
        | .segments ([] :: _ :: _) => ['/', '.']
        | _ => []
    | some host =>
        '/' :: '/' :: url.credentials ++ host.serialize ++
          (url.port.map fun port => ':' :: decimalDigits port).getD []
  url.scheme ++ ':' :: authority ++ url.pathname ++
    (url.query.map ('?' :: ·)).getD [] ++ (url.fragment.map ('#' :: ·)).getD []

/-- A URL that can have neither a user name nor a password. -/
def cannotHaveCredentials : Bool :=
  url.hostname = [] || url.scheme = ['f', 'i', 'l', 'e']

/-- The assignment of an empty text to `username` and to `password`. -/
def clearCredentials : Url :=
  if url.cannotHaveCredentials then url else { url with username := [], password := [] }

/-- The path without the blanks at its end, where nothing follows it. -/
def stripPath : Url :=
  match url.path with
  | .segments _ => url
  | .text text =>
      if url.query.isNone && url.fragment.isNone then
        { url with path := .text (text.reverse.dropWhile (· = ' ')).reverse }
      else url

/-- The assignment of an empty text to `hash`. -/
def clearHash : Url := { url with fragment := none }.stripPath

/-- The assignment of an empty text to `search`. -/
def clearSearch : Url := { url with query := none }.stripPath

/-- The assignment to `pathname`. -/
def setPathname (text : List Char) : Url :=
  match url.path with
  | .text _ => url
  | .segments _ =>
      let path := parsePath url.scheme (text.filter fun c => !isTabOrNewline c)
      { url with
        path := .segments (if path.isEmpty && url.host.isNone then [[]] else path) }

/-! ### The credentials of an authority -/

/-- The characters of a text that stands before the `@` of an authority. -/
def isCredentialChar (c : Char) : Bool :=
  !isAuthorityEnd true c && !isTabOrNewline c && !isC0OrSpace c

theorem splitLastAt_append {text before after : List Char}
    (h : splitLastAt text = some (before, after)) (credentials : List Char) :
  splitLastAt (credentials ++ text) = some (credentials ++ before, after)
  := by
  induction credentials with
  | nil => apply h
  | cons c credentials ih => rw [List.cons_append, splitLastAt, ih, List.cons_append]

theorem splitLastAt_at (text : List Char) :
  ∃ before after, splitLastAt ('@' :: text) = some (before, after)
  := by
  rw [splitLastAt]
  cases splitLastAt text with
  | some parts => exact ⟨_, _, rfl⟩
  | none => exact ⟨_, _, rfl⟩

/-- What is read of an authority apart from its credentials. -/
theorem parseHostPort_host {hosts : HostParser} {scheme text : List Char} {host : Host}
    {port : Option ℕ} (htext : text ≠ [])
    (h : parseHostPort hosts scheme text = some (host, port)) :
  host.serialize ≠ []
  := by
  rw [parseHostPort] at h
  rcases hsplit : splitPort false text with ⟨hostText, portText⟩
  rw [hsplit] at h
  dsimp only at h
  split at h
  · cases h
  · next hnonempty =>
      have hhost : hostText ≠ [] := by
        rintro rfl
        cases text with
        | nil => apply htext rfl
        | cons c text =>
            rw [splitPort] at hsplit
            split at hsplit
            · injection hsplit with _ hport
              apply hnonempty
              simp [← hport]
            · cases hsplit
      cases hparse : hosts.parse (isSpecialScheme scheme) hostText with
      | none => simp [hparse] at h
      | some parsed =>
          have hparsed : parsed = host := by
            rw [hparse] at h
            cases portText with
            | none =>
                simp at h
                apply h.1
            | some portText =>
                cases hport : parsePort scheme portText with
                | none => simp [hport] at h
                | some port' =>
                    simp [hport] at h
                    apply h.1
          rw [← hparsed]
          apply hosts.parse_nonempty _ _ _ hhost hparse

/-- The URL of an authority with credentials, once they are cleared. -/
def parseAfterAt (hosts : HostParser) (scheme rest : List Char) : Option Url := do
  let special := isSpecialScheme scheme
  let authority := rest.takeWhile fun c => !isAuthorityEnd special c
  let tail := rest.dropWhile fun c => !isAuthorityEnd special c
  let (_, hostPort) ← splitLastAt ('@' :: authority)
  if hostPort = [] then none
  else
    let (host, port) ← parseHostPort hosts scheme hostPort
    some (withTail { ofScheme scheme with host := some host, port }
      (fun text => .segments (parsePath scheme text)) tail)

theorem not_isAuthorityEnd {special : Bool} {credentials : List Char}
    (h : credentials.all isCredentialChar = true) :
  ∀ c ∈ credentials, (!isAuthorityEnd special c) = true
  := by
  intro c hc
  have hchar := List.all_eq_true.mp h c hc
  simp only [isCredentialChar, isAuthorityEnd, Bool.and_eq_true, Bool.not_eq_true',
    Bool.or_eq_false_iff, decide_eq_false_iff_not] at hchar ⊢
  obtain ⟨⟨⟨⟨⟨hslash, hquestion⟩, hhash⟩, hback⟩, -⟩, -⟩ := hchar
  refine ⟨⟨⟨hslash, hquestion⟩, hhash⟩, ?_⟩
  cases special <;> simp_all

/-- Cleared of its credentials, a URL does not depend on what stood before the `@`. -/
theorem parseAuthority_clear (hosts : HostParser) {scheme : List Char}
    (hscheme : scheme ≠ ['f', 'i', 'l', 'e']) {credentials : List Char}
    (h : credentials.all isCredentialChar = true) (rest : List Char) :
  (parseAuthority hosts scheme (credentials ++ '@' :: rest)).map clearCredentials =
    parseAfterAt hosts scheme rest
  := by
  have hat : (!isAuthorityEnd (isSpecialScheme scheme) '@') = true := by
    cases isSpecialScheme scheme <;> rfl
  obtain ⟨before, hostPort, hsplit⟩ := splitLastAt_at
    (rest.takeWhile fun c => !isAuthorityEnd (isSpecialScheme scheme) c)
  rw [parseAuthority, takeWhile_append_cons (not_isAuthorityEnd h) hat,
    dropWhile_append_cons (not_isAuthorityEnd h) hat, splitLastAt_append hsplit, parseAfterAt,
    hsplit]
  dsimp only [Option.bind_eq_bind, Option.bind_some, Option.isSome_some, Option.map_some,
    Option.getD_some]
  by_cases hempty : hostPort = []
  · simp [hempty]
  · rw [if_neg (by simp [hempty]), if_neg hempty]
    cases hparse : parseHostPort hosts scheme hostPort with
    | none => rfl
    | some hostAndPort =>
        obtain ⟨host, port⟩ := hostAndPort
        have hhost := parseHostPort_host hempty hparse
        simp only [Option.bind_some, Option.map_some, Option.some.injEq]
        rw [clearCredentials, if_neg]
        · rfl
        · simp [cannotHaveCredentials, hostname, withTail, ofScheme, hhost, hscheme]

/-- A file has no credentials. -/
theorem parseFile_at (hosts : HostParser) {scheme credentials : List Char}
    (h : credentials.all isCredentialChar = true) (rest : List Char) :
  parseFile hosts scheme ('/' :: '/' :: (credentials ++ '@' :: rest)) = none
  := by
  have hat : (!isAuthorityEnd true '@') = true := rfl
  have htake : (credentials ++ '@' :: rest).takeWhile (fun c => !isAuthorityEnd true c) =
      credentials ++ '@' :: rest.takeWhile fun c => !isAuthorityEnd true c :=
    takeWhile_append_cons (not_isAuthorityEnd h) hat rest
  have hdrive : isDriveLetter
      (credentials ++ '@' :: rest.takeWhile fun c => !isAuthorityEnd true c) = false := by
    rcases credentials with - | ⟨a, - | ⟨b, credentials⟩⟩
    · rcases rest.takeWhile fun c => !isAuthorityEnd true c with - | ⟨b, - | ⟨c, text⟩⟩ <;> rfl
    · rcases rest.takeWhile fun c => !isAuthorityEnd true c with - | ⟨b, text⟩
      · simp [isDriveLetter]
      · rfl
    · cases credentials <;> rfl
  rw [parseFile]
  simp only [htake]
  rw [if_pos (by rfl), hdrive, if_neg (by simp), if_neg (by simp),
    hosts.parse_at _ _ (by simp)]
  rfl

/-! ### The credentials of a URL -/

/-- The scheme of a URL. -/
structure Scheme where
  first : Char
  others : List Char
  first_alpha : first.isAlpha = true
  others_chars : others.all isSchemeChar = true

def Scheme.text (scheme : Scheme) : List Char := scheme.first :: scheme.others

/-- An absolute URL with credentials. -/
def withCredentials (scheme : Scheme) (credentials rest : List Char) : List Char :=
  scheme.text ++ ':' :: '/' :: '/' :: (credentials ++ '@' :: rest)

theorem isSchemeChar_of_isAlpha {c : Char} (h : c.isAlpha = true) :
  isSchemeChar c = true
  := by simp [isSchemeChar, Char.isAlphanum, h]

theorem le_of_isSchemeChar {c : Char} (h : isSchemeChar c = true) :
  0x2b ≤ c.toNat
  := by
  simp only [isSchemeChar, Bool.or_eq_true, decide_eq_true_eq, charAlphanum_iff] at h
  rcases h with ((halphanum | rfl) | rfl) | rfl
  · omega
  · decide
  · decide
  · decide

theorem not_isTabOrNewline_of_le {c : Char} (h : 0x20 < c.toNat) :
  isTabOrNewline c = false
  := by
  simp only [isTabOrNewline, Bool.or_eq_false_iff, decide_eq_false_iff_not]
  refine ⟨⟨?_, ?_⟩, ?_⟩
  all_goals
    rintro rfl
    revert h
    decide

namespace Scheme

variable (scheme : Scheme)

theorem isSchemeChar_of_mem :
  ∀ c ∈ scheme.text, isSchemeChar c = true
  := by
  intro c hc
  rcases List.mem_cons.mp hc with rfl | hother
  · apply isSchemeChar_of_isAlpha scheme.first_alpha
  · apply List.all_eq_true.mp scheme.others_chars c hother

theorem takeWhile_append_colon (rest : List Char) :
  (scheme.text ++ ':' :: rest).takeWhile isSchemeChar = scheme.text
  := by
  rw [List.takeWhile_append_of_pos scheme.isSchemeChar_of_mem,
    List.takeWhile_cons_of_neg (by decide), List.append_nil]

theorem dropWhile_append_colon (rest : List Char) :
  (scheme.text ++ ':' :: rest).dropWhile isSchemeChar = ':' :: rest
  := by
  rw [List.dropWhile_append_of_pos scheme.isSchemeChar_of_mem,
    List.dropWhile_cons_of_neg (by decide)]

end Scheme

theorem scanScheme_colon (scheme : Scheme) (rest : List Char) :
  scanScheme (scheme.text ++ ':' :: rest) = some (scheme.text.map Char.toLower, rest)
  := by
  have hhead : (scheme.text ++ ':' :: rest).head?.any Char.isAlpha = true := scheme.first_alpha
  rw [scanScheme, if_pos hhead, scheme.takeWhile_append_colon, scheme.dropWhile_append_colon]
  rfl

/-- What is left of the end of an input. -/
def stripEnd (rest : List Char) : List Char :=
  (dropWhileEnd isC0OrSpace rest).filter fun c => !isTabOrNewline c

theorem strip_withCredentials (scheme : Scheme) {credentials : List Char}
    (h : credentials.all isCredentialChar = true) (rest : List Char) :
  strip (withCredentials scheme credentials rest) =
    withCredentials scheme credentials (stripEnd rest)
  := by
  have hfirst : isC0OrSpace scheme.first = false := by
    have hle := le_of_isSchemeChar (isSchemeChar_of_isAlpha scheme.first_alpha)
    simp only [isC0OrSpace, decide_eq_false_iff_not]
    omega
  have hkept : ∀ c ∈ scheme.text ++ ':' :: '/' :: '/' :: credentials,
      (!isTabOrNewline c) = true := by
    intro c hc
    rw [Bool.not_eq_true']
    simp only [List.mem_append, List.mem_cons] at hc
    rcases hc with hscheme | rfl | rfl | rfl | hcredential
    · have hle := le_of_isSchemeChar (scheme.isSchemeChar_of_mem c hscheme)
      apply not_isTabOrNewline_of_le
      omega
    · rfl
    · rfl
    · rfl
    · have hchar := List.all_eq_true.mp h c hcredential
      simp only [isCredentialChar, Bool.and_eq_true, Bool.not_eq_true'] at hchar
      apply hchar.1.2
  have hinput : ∀ rest : List Char, withCredentials scheme credentials rest =
      (scheme.text ++ ':' :: '/' :: '/' :: credentials) ++ '@' :: rest := by
    intro rest
    simp [withCredentials]
  have hstart : (withCredentials scheme credentials rest).dropWhile isC0OrSpace =
      withCredentials scheme credentials rest := dropWhile_cons_of_false hfirst _
  rw [strip, hstart, hinput, dropWhileEnd_append_cons (by rfl), List.filter_append,
    List.filter_eq_self.mpr hkept, List.filter_cons_of_pos (by rfl), hinput]
  rfl

/-- The URL of an input with credentials, once they are cleared. -/
def parseCleared (hosts : HostParser) (scheme : Scheme) (rest : List Char) : Option Url :=
  let name := scheme.text.map Char.toLower
  if name = ['f', 'i', 'l', 'e'] then none else parseAfterAt hosts name (stripEnd rest)

/-- Cleared of its credentials, the URL of an input does not depend on them. -/
theorem parse_withCredentials (hosts : HostParser) (scheme : Scheme) {credentials : List Char}
    (h : credentials.all isCredentialChar = true) (rest : List Char) :
  (parse hosts (withCredentials scheme credentials rest)).map clearCredentials =
    parseCleared hosts scheme rest
  := by
  rw [parse, strip_withCredentials scheme h, withCredentials, scanScheme_colon, parseCleared]
  dsimp only [Option.bind_eq_bind, Option.bind_some]
  split
  · rw [parseFile_at hosts h]
    rfl
  · next hfile =>
      have hslashes : ('/' :: '/' :: (credentials ++ '@' :: stripEnd rest)).dropWhile
          (fun c => c = '/' || c = '\\') = credentials ++ '@' :: stripEnd rest := by
        rw [List.dropWhile_cons_of_pos (by rfl), List.dropWhile_cons_of_pos (by rfl)]
        cases credentials with
        | nil => rfl
        | cons c credentials =>
            apply dropWhile_cons_of_false
            have hchar := List.all_eq_true.mp h c List.mem_cons_self
            simp only [isCredentialChar, isAuthorityEnd, Bool.and_eq_true, Bool.not_eq_true',
              Bool.or_eq_false_iff, Bool.true_and] at hchar
            rw [hchar.1.1.1.1.1, hchar.1.1.2]
            rfl
      split
      · rw [hslashes]
        apply parseAuthority_clear hosts hfile h
      · apply parseAuthority_clear hosts hfile h

theorem hostname_clearCredentials (url : Url) :
  url.clearCredentials.hostname = url.hostname
  := by
  rw [clearCredentials]
  split <;> rfl

theorem pathname_clearCredentials (url : Url) :
  url.clearCredentials.pathname = url.pathname
  := by
  rw [clearCredentials]
  split <;> rfl

end Url

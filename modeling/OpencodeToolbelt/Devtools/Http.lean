import OpencodeToolbelt.Data.Url

/-!
# The HTTP tools

The tools that make requests for an agent, and the guard that keeps them out of private networks.
-/

/-- How the target of a redirect is read against the URL that it came from. -/
structure Redirects (hosts : HostParser) where
  /-- `new URL(location, url)` -/
  resolve : List Char → Url → Option Url
  /-- A URL that is written out reads as the same URL. -/
  parse_href : ∀ location url next, resolve location url = some next →
    Url.parse hosts next.href = some next

namespace HttpTools

def maxRedirects : ℕ := 5

/-! ### The guard -/

/-- The numbers of `/^(\d{1,3})\.(\d{1,3})\.(\d{1,3})\.(\d{1,3})$/`. -/
def dottedQuad (host : List Char) : Option (ℕ × ℕ × ℕ × ℕ) :=
  match splitAtChar '.' host with
  | [a, b, c, d] =>
      if isByteText a && isByteText b && isByteText c && isByteText d then
        some (readDigits 10 a, readDigits 10 b, readDigits 10 c, readDigits 10 d)
      else none
  | _ => none

def isPrivateIpv4 (host : List Char) : Bool :=
  match dottedQuad host with
  | none => false
  | some (a, b, _, _) =>
      if a = 10 ∨ a = 127 ∨ a = 0 then true
      else if a = 169 ∧ b = 254 then true
      else if a = 172 ∧ 16 ≤ b ∧ b ≤ 31 then true
      else if a = 192 ∧ b = 168 then true
      else if a = 100 ∧ 64 ≤ b ∧ b ≤ 127 then true
      else false

/-- What follows `::ffff:` at the start of a text. -/
def afterMapped : List Char → Option (List Char)
  | ':' :: ':' :: 'f' :: 'f' :: 'f' :: 'f' :: ':' :: rest => some rest
  | _ => none

/-- The IPv4 address in an IPv4-mapped IPv6 literal. -/
def mappedIpv4 (h : List Char) : Option (List Char) := do
  let rest ← afterMapped h
  if (dottedQuad rest).isSome then some rest
  else
    match splitAtChar ':' rest with
    | [hiText, loText] =>
        if isPieceText hiText && isPieceText loText then
          let hi := readDigits 16 hiText
          let lo := readDigits 16 loText
          some (joinWith '.' [decimalDigits (hi / 256 % 256), decimalDigits (hi % 256),
            decimalDigits (lo / 256 % 256), decimalDigits (lo % 256)])
        else none
    | _ => none

/-- `text.replace(/^\[|\]$/g, "")` -/
def stripBrackets (text : List Char) : List Char :=
  let opened := match text with
    | '[' :: rest => rest
    | _ => text
  if opened.getLast? = some ']' then opened.dropLast else opened

/-- `/^fe[89ab]/` -/
def isLinkLocalText : List Char → Bool
  | 'f' :: 'e' :: c :: _ => c ∈ ['8', '9', 'a', 'b']
  | _ => false

def isBlockedHost (hostname : List Char) : Bool :=
  let h := stripBrackets (toLowerCase hostname)
  let isIpv6 := ':' ∈ h
  let isIpv4 := (dottedQuad h).isSome
  if ¬isIpv6 ∧ ¬isIpv4 then
    h = "localhost".toList || ".localhost".toList.isSuffixOf h
  else if isIpv4 then isPrivateIpv4 h
  else if h = "::1".toList ∨ h = "::".toList then true
  else
    match mappedIpv4 h with
    | some mapped => isPrivateIpv4 mapped
    | none =>
        if ['f', 'c'].isPrefixOf h ∨ ['f', 'd'].isPrefixOf h then true
        else if isLinkLocalText h then true
        else ['f', 'f'].isPrefixOf h

structure HttpOptions where
  allowPrivateNetwork : Bool

def isHttp (url : Url) : Bool :=
  url.protocol = "http:".toList || url.protocol = "https:".toList

variable {hosts : HostParser}

def assertAllowed (hosts : HostParser) (options : HttpOptions) (rawUrl : List Char) :
    Except String Url :=
  match Url.parse hosts rawUrl with
  | none => .error ("invalid URL: " ++ .ofList rawUrl)
  | some url =>
      if !isHttp url then
        .error ("unsupported protocol \"" ++ .ofList url.protocol ++ "\" (only http/https)")
      else if !options.allowPrivateNetwork && isBlockedHost url.hostname then
        .error ("refusing to reach private/loopback host \"" ++ .ofList url.hostname ++
          "\" (set http.allowPrivateNetwork to allow)")
      else .ok url

/-! ### Requests -/

/-- The record of texts that an argument is. -/
def asHeaders {N : Type} (text : Json N → JsUnits) :
    Option (Json N) → Except String (List (JsUnits × Json N))
  | none => .ok []
  | some .null => .ok []
  | some (.object members) =>
      .ok (members.map fun member =>
        (member.1, match member.2 with
          | .string s => .string s
          | value => .string (text value)))
  | some (.array items) =>
      .ok (items.mapIdx fun i value =>
        (unitsOfText (decimalDigits i), match value with
          | .string s => .string s
          | value => .string (text value)))
  | some _ => .error "\"headers\" must be an object of string values"

structure Init (N : Type) where
  method : String
  headers : List (JsUnits × Json N)
  body : Option (List Char)

/-- A request, whose redirects are not followed by `fetch`. -/
structure Request (N : Type) extends Init N where
  url : Url

/-- A response, as far as redirects go. -/
structure Response where
  status : ℕ
  location : Option (List Char)

/-- Where a response redirects to. -/
def Response.redirect (res : Response) : Option (List Char) :=
  if 300 ≤ res.status ∧ res.status < 400 then res.location.filter (· ≠ []) else none

/-- The requests that have been made, and what has come of them. -/
structure Outcome (N : Type) where
  requests : List (Request N)
  result : Except String Response

/-- The requests from a hop on. The responses are given by their hops. -/
def fetchFrom {N : Type} (redirects : Redirects hosts) (options : HttpOptions)
    (responses : ℕ → Except String Response) (hop : ℕ) (url : Url) (init : Init N) :
    Outcome N :=
  let request : Request N := { init with url }
  match responses hop with
  | .error message => ⟨[request], .error message⟩
  | .ok res =>
      match res.redirect with
      | none => ⟨[request], .ok res⟩
      | some location =>
          if maxRedirects ≤ hop then ⟨[request], .error "too many redirects (> 5)"⟩
          else
            match redirects.resolve location url with
            | none => ⟨[request], .error "Invalid URL"⟩
            | some next =>
                match assertAllowed hosts options next.href with
                | .error message => ⟨[request], .error message⟩
                | .ok _ =>
                    let init' := if res.status = 303 ∨ ((res.status = 301 ∨ res.status = 302) ∧
                        init.method ≠ "GET" ∧ init.method ≠ "HEAD") then
                      { init with method := "GET", body := none }
                    else init
                    let later := fetchFrom redirects options responses (hop + 1) next init'
                    ⟨request :: later.requests, later.result⟩
termination_by maxRedirects - hop

def fetchGuarded {N : Type} (redirects : Redirects hosts) (options : HttpOptions)
    (responses : ℕ → Except String Response) (start : Url) (init : Init N) : Outcome N :=
  fetchFrom redirects options responses 0 start init

/-! ### The tools -/

/-- `reqString(args, key)` -/
def reqString (value : Option (List Char)) (key : String) : Except String (List Char) :=
  match value with
  | none => .error ("\"" ++ key ++ "\" must be a string")
  | some text => .ok text

structure HttpRequestArgs (N : Type) where
  url : Option (List Char)
  method : Option String
  headers : Option (Json N)
  body : Option (List Char)

structure HttpGraphqlArgs (N : Type) where
  url : Option (List Char)
  query : Option (List Char)
  vars : Option (Json N)
  headers : Option (Json N)

/-- A call of one of the tools. -/
inductive Call (N : Type) where
  | httpRequest (args : HttpRequestArgs N)
  | httpGraphql (args : HttpGraphqlArgs N)

variable {N : Type} [JsNumber N] (text : Json N → JsUnits) (options : HttpOptions)

/-- The URL and the request of `http_request`. -/
def httpRequest (hosts : HostParser) (args : HttpRequestArgs N) : Except String (Url × Init N) := do
  let url ← assertAllowed hosts options (← reqString args.url "url")
  let method := (args.method.map String.toUpper).getD "GET"
  let headers ← asHeaders text args.headers
  let body := if method = "GET" ∨ method = "HEAD" then none else args.body
  return (url, ⟨method, headers, body⟩)

/-- The URL and the request of `http_graphql`. -/
def httpGraphql (hosts : HostParser) (args : HttpGraphqlArgs N) : Except String (Url × Init N) := do
  let url ← assertAllowed hosts options (← reqString args.url "url")
  let query ← reqString args.query "query"
  let vars := match args.vars with
    | some (.object members) => .object members
    | some (.array items) => .array items
    | _ => .object []
  let headers := (← asHeaders text args.headers).foldl
    (fun out header => Json.set out header.1 header.2)
    [(unitsOfString "content-type", .string (unitsOfString "application/json")),
      (unitsOfString "accept", .string (unitsOfString "application/json"))]
  let body := Json.stringify (.object [(unitsOfString "query", .string (unitsOfText query)),
    (unitsOfString "variables", vars)])
  return (url, ⟨"POST", headers, some body⟩)

/-- The URL and the request of a call. -/
def Call.prepare (hosts : HostParser) : Call N → Except String (Url × Init N)
  | .httpRequest args => HttpTools.httpRequest text options hosts args
  | .httpGraphql args => HttpTools.httpGraphql text options hosts args

/-- A call up to its last response. -/
def Call.run (redirects : Redirects hosts) (responses : ℕ → Except String Response)
    (call : Call N) : Outcome N :=
  match call.prepare text options hosts with
  | .error message => ⟨[], .error message⟩
  | .ok (url, init) => fetchGuarded redirects options responses url init

end HttpTools

import OpencodeToolbelt.Data.Url

/-!
# Git remotes

What the telemetry and the logs are told of the remote of a checkout.
-/

namespace GitRemote

/-! ### Texts -/

/-- The characters that a dot of a regular expression does not match. -/
def isLineEnd (c : Char) : Bool := c.toNat ∈ [0xa, 0xd, 0x2028, 0x2029]

/-- `text.trim()` -/
def trimText (text : List Char) : List Char := (trim (.ofList text)).toList

/-- The text without `.git` at its end. -/
def dropDotGit (text : List Char) : List Char :=
  match text.reverse with
  | 't' :: 'i' :: 'g' :: '.' :: before => before.reverse
  | _ => text

/-- The text without `.git` or `.git/` at its end. -/
def dropDotGitSlash (text : List Char) : List Char :=
  match text.reverse with
  | '/' :: 't' :: 'i' :: 'g' :: '.' :: before => before.reverse
  | 't' :: 'i' :: 'g' :: '.' :: before => before.reverse
  | _ => text

/-- The text without a slash at its end. -/
def dropSlash (text : List Char) : List Char :=
  if text.getLast? = some '/' then text.dropLast else text

def stripDotGit (path : List Char) : List Char :=
  dropWhileEnd (· = '/') (dropDotGit (dropWhileEnd (· = '/') path))

/-! ### The scp-like syntax -/

/-- A host, a colon and a path on one line, whose first character passes a test. -/
def scpTail (first : Char → Bool) (text : List Char) : Option (List Char × List Char) :=
  match text.takeWhile fun c => c ≠ ':' && c ≠ '/',
      text.dropWhile fun c => c ≠ ':' && c ≠ '/' with
  | h :: host, ':' :: c :: path =>
      if first c && path.all (fun c => !isLineEnd c) then some (h :: host, c :: path) else none
  | _, _ => none

/-- The same after a user and an `@`, if there are any. -/
def scpLike (first : Char → Bool) (text : List Char) : Option (List Char × List Char) :=
  match text.takeWhile fun c => c ≠ '@' && c ≠ '/',
      text.dropWhile fun c => c ≠ '@' && c ≠ '/' with
  | _ :: _, '@' :: rest => (scpTail first rest).or (scpTail first text)
  | _, _ => scpTail first text

/-- `/^[a-z][a-z0-9+.-]*:\/\//i` -/
def hasScheme (text : List Char) : Bool :=
  text.head?.any Char.isAlpha &&
    [':', '/', '/'].isPrefixOf (text.dropWhile Url.isSchemeChar)

/-- `/^[\w+.-]+:\/\//` -/
def looksLikeUrl (text : List Char) : Bool :=
  let isNameChar := fun c : Char => Url.isSchemeChar c || c = '_'
  text.head?.any isNameChar && [':', '/', '/'].isPrefixOf (text.dropWhile isNameChar)

/-! ### The recognisers -/

def sanitizeRemoteUrl (hosts : HostParser) (raw : List Char) : Option (List Char) :=
  let trimmed := trimText raw
  if trimmed = [] then none
  else
    let normalized := match scpLike (fun c => c ≠ '/' && !isLineEnd c) trimmed with
      | some (host, path) =>
          if hasScheme trimmed then trimmed else "ssh://".toList ++ host ++ '/' :: path
      | none => trimmed
    (Url.parse hosts normalized).map fun parsed =>
      let bare := parsed.clearCredentials.clearHash.clearSearch
      dropSlash (bare.setPathname (dropDotGitSlash bare.pathname)).href

/-- A host with a path, if there is one. -/
def hostPath (host path : List Char) : List Char :=
  if path = [] then host else host ++ '/' :: path

def normalizeRemote (hosts : HostParser) (url : List Char) : Option (List Char) :=
  let candidate := trimText url
  if candidate = [] then none
  else
    match scpLike (fun c => c ≠ '/') candidate with
    | some (host, path) =>
        some (hostPath host (stripDotGit (path.takeWhile fun c => c ≠ '?' && c ≠ '#')))
    | none =>
        if looksLikeUrl candidate then
          (Url.parse hosts candidate).bind fun parsed =>
            if parsed.hostname = [] then none
            else
              some (hostPath parsed.hostname
                (stripDotGit (parsed.pathname.dropWhile (· = '/'))))
        else none

end GitRemote

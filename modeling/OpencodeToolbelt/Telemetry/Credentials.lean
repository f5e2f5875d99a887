import OpencodeToolbelt.Telemetry.Remotes
import Mathlib.Data.List.Basic
import Mathlib.Tactic.Use

/-!
# The credentials of git remotes

Which remotes are reported in the same way whatever their credentials are.
-/

open Url hiding host

/-! ### Credentials -/

/-- The letters, the digits and `-._~!$&'()*+,;=`. -/
def isUserinfoChar (c : Char) : Bool :=
  c.isAlphanum || c.toNat ∈ [0x2d, 0x2e, 0x5f, 0x7e, 0x21, 0x24, 0x26, 0x27, 0x28, 0x29, 0x2a,
    0x2b, 0x2c, 0x3b, 0x3d]

def isHexDigit (c : Char) : Bool := (Json.hexValue c).isSome

/-- A user or a password: plain characters and percent-encoded bytes. -/
inductive IsUserText : List Char → Prop where
  | nil : IsUserText []
  | plain {c : Char} {text : List Char} (hc : isUserinfoChar c = true) (h : IsUserText text) :
      IsUserText (c :: text)
  | encoded {a b : Char} {text : List Char} (ha : isHexDigit a = true) (hb : isHexDigit b = true)
      (h : IsUserText text) : IsUserText ('%' :: a :: b :: text)

/-- A user, or a user with a password, in which there may be colons. -/
inductive IsUserinfo : List Char → Prop where
  | user {user : List Char} (huser : IsUserText user) (hne : user ≠ []) : IsUserinfo user
  | password {user : List Char} {parts : List (List Char)} (huser : IsUserText user)
      (hne : user ≠ []) (hparts : ∀ part ∈ parts, IsUserText part) :
      IsUserinfo (user ++ parts.flatMap fun part => ':' :: part)

/-- The characters of a userinfo are visible, and none of them ends a part of a URL. -/
def IsPlain (c : Char) : Prop :=
  (0x20 < c.toNat ∧ c.toNat < 0x7f) ∧ c.toNat ≠ 0x23 ∧ c.toNat ≠ 0x2f ∧ c.toNat ≠ 0x3f ∧
    c.toNat ≠ 0x40 ∧ c.toNat ≠ 0x5c

theorem isPlain_of_userinfoChar {c : Char} (h : isUserinfoChar c = true) :
  IsPlain c
  := by
  simp only [isUserinfoChar, Bool.or_eq_true, decide_eq_true_eq, List.mem_cons,
    List.not_mem_nil, or_false, charAlphanum_iff] at h
  rw [IsPlain]
  omega

theorem isPlain_of_isHexDigit {c : Char} (h : isHexDigit c = true) :
  IsPlain c
  := by
  have hrange : (48 ≤ c.toNat ∧ c.toNat ≤ 57) ∨ (65 ≤ c.toNat ∧ c.toNat ≤ 70) ∨
      (97 ≤ c.toNat ∧ c.toNat ≤ 102) := by
    by_contra hnot
    rw [isHexDigit, Json.hexValue] at h
    simp only [not_or] at hnot
    simp [hnot.1, hnot.2.1, hnot.2.2] at h
  rw [IsPlain]
  omega

theorem IsUserText.isPlain {text : List Char} (h : IsUserText text) :
  ∀ c ∈ text, IsPlain c
  := by
  induction h with
  | nil => simp
  | plain hc _ ih =>
      rintro _ (_ | ⟨_, hmem⟩)
      · apply isPlain_of_userinfoChar hc
      · apply ih _ hmem
  | encoded ha hb _ ih =>
      intro c hmem
      simp only [List.mem_cons] at hmem
      rcases hmem with rfl | rfl | rfl | hmem
      · simp [IsPlain]
      · apply isPlain_of_isHexDigit ha
      · apply isPlain_of_isHexDigit hb
      · apply ih c hmem

theorem IsUserinfo.isPlain {userinfo : List Char} (h : IsUserinfo userinfo) :
  ∀ c ∈ userinfo, IsPlain c
  := by
  cases h with
  | user huser hne => apply huser.isPlain
  | password huser hne hparts =>
      intro c hc
      rw [List.mem_append, List.mem_flatMap] at hc
      rcases hc with hmem | ⟨part, hpart, hmem⟩
      · apply huser.isPlain c hmem
      · rcases List.mem_cons.mp hmem with rfl | hmem
        · simp [IsPlain]
        · apply (hparts part hpart).isPlain c hmem

theorem IsUserinfo.ne_nil {userinfo : List Char} (h : IsUserinfo userinfo) :
  userinfo ≠ []
  := by
  cases h with
  | user huser hne => apply hne
  | password huser hne hparts => simp [hne]

theorem ne_of_toNat {c d : Char} (h : c.toNat ≠ d.toNat) :
  c ≠ d
  := by
  rintro rfl
  apply h rfl

theorem IsPlain.credentialChar {c : Char} (h : IsPlain c) :
  isCredentialChar c = true
  := by
  obtain ⟨⟨hlow, -⟩, hhash, hslash, hquestion, -, hback⟩ := h
  have htab := not_isTabOrNewline_of_le hlow
  have hslash' : c ≠ '/' := ne_of_toNat hslash
  have hquestion' : c ≠ '?' := ne_of_toNat hquestion
  have hhash' : c ≠ '#' := ne_of_toNat hhash
  have hback' : c ≠ '\\' := ne_of_toNat hback
  simp [isCredentialChar, isAuthorityEnd, htab, hslash', hquestion', hhash', hback', isC0OrSpace,
    hlow]

theorem IsPlain.not_blank {c : Char} (h : IsPlain c) :
  isBlank c = false
  := by
  obtain ⟨⟨hlow, hhigh⟩, -⟩ := h
  simp only [isBlank, List.mem_cons, List.not_mem_nil, or_false, Bool.or_eq_false_iff,
    decide_eq_false_iff_not, Bool.and_eq_false_iff]
  omega

theorem IsPlain.ne_at {c : Char} (h : IsPlain c) :
  (c ≠ '@' && c ≠ '/') = true
  := by
  have hat : c ≠ '@' := ne_of_toNat h.2.2.2.2.1
  have hslash : c ≠ '/' := ne_of_toNat h.2.2.1
  simp [hat, hslash]

/-- A character of a scheme or of the name of a helper ends no part of a remote. -/
theorem IsPlain.of_schemeChar {c : Char} (h : isSchemeChar c = true) :
  IsPlain c
  := by
  simp only [isSchemeChar, Bool.or_eq_true, decide_eq_true_eq] at h
  rcases h with ((halphanum | rfl) | rfl) | rfl
  · apply isPlain_of_userinfoChar
    simp [isUserinfoChar, halphanum]
  · simp [IsPlain]
  · simp [IsPlain]
  · simp [IsPlain]

theorem IsPlain.not_lineEnd {c : Char} (h : IsPlain c) :
  GitRemote.isLineEnd c = false
  := by
  obtain ⟨⟨hlow, hhigh⟩, -⟩ := h
  simp only [GitRemote.isLineEnd, List.mem_cons, List.not_mem_nil, or_false, decide_eq_false_iff_not]
  omega

theorem IsPlain.ne_query {c : Char} (h : IsPlain c) :
  (c ≠ '?' && c ≠ '#') = true
  := by
  have hquestion : c ≠ '?' := ne_of_toNat h.2.2.2.1
  have hhash : c ≠ '#' := ne_of_toNat h.2.1
  simp [hquestion, hhash]

theorem not_isBlank_of_schemeChar {c : Char} (h : isSchemeChar c = true) :
  isBlank c = false
  := (IsPlain.of_schemeChar h).not_blank

/-! ### Remotes -/

/-- A text on one line. -/
structure Line where
  text : List Char
  unbroken : (text.all fun c => !GitRemote.isLineEnd c) = true

/-- The host of an scp-like remote. A host in brackets may have colons. -/
structure ScpHost where
  first : Char
  others : Line
  first_kept : (first ≠ ':' && first ≠ '/' && !GitRemote.isLineEnd first) = true
  others_kept : (others.text.all (· ≠ '/')) = true

def ScpHost.text (host : ScpHost) : List Char := host.first :: host.others.text

/-- The name of a remote helper. -/
structure HelperName where
  first : Char
  others : List Char
  first_alphanum : first.isAlphanum = true
  others_chars : others.all isSchemeChar = true

def HelperName.text (name : HelperName) : List Char := name.first :: name.others

/-- A remote, but for its credentials. -/
inductive GitRemote where
  /-- `scheme://userinfo@host/path` -/
  | url (scheme : Scheme) (host path : List Char)
  /-- `userinfo@host:path` -/
  | scp (host : ScpHost) (path : Line)
  /-- `helper::scheme://userinfo@host/path` -/
  | helper (name : HelperName) (scheme : Scheme) (host path : Line)

namespace GitRemote

/-- The remote with its credentials. -/
def withUserinfo : GitRemote → List Char → List Char
  | .url scheme host path, userinfo => withCredentials scheme userinfo (host ++ '/' :: path)
  | .scp host path, userinfo => userinfo ++ '@' :: (host.text ++ ':' :: path.text)
  | .helper name scheme host path, userinfo =>
      name.text ++ ':' :: ':' :: withCredentials scheme userinfo (host.text ++ '/' :: path.text)

/-- What is reported of the remote does not depend on its credentials. -/
def HidesCredentials (hosts : HostParser) (remote : GitRemote) : Prop :=
  ∀ userinfo userinfo', IsUserinfo userinfo → IsUserinfo userinfo' →
    sanitizeRemoteUrl hosts (remote.withUserinfo userinfo) =
        sanitizeRemoteUrl hosts (remote.withUserinfo userinfo') ∧
      normalizeRemote hosts (remote.withUserinfo userinfo) =
        normalizeRemote hosts (remote.withUserinfo userinfo')

/-- What follows the first colon of a text. -/
def afterColon (text : List Char) : List Char := (text.dropWhile (· ≠ ':')).drop 1

/-- A URL, or an scp-like remote whose first colon is followed by something other than a
slash. -/
def IsRecognised : GitRemote → Prop
  | .url _ _ _ => True
  | .scp host path =>
      ∃ c rest, afterColon (host.text ++ ':' :: dropWhileEnd isBlank path.text) = c :: rest ∧
        c ≠ '/'
  | .helper _ _ _ _ => False

/-! ### URLs -/

theorem trimText_eq (text : List Char) :
  trimText text = dropWhileEnd isBlank (text.dropWhile isBlank)
  := by simp [trimText, trim, dropWhileEnd]

/-- What stands before the `@` is not trimmed. -/
theorem trimText_at {first : Char} (hfirst : isBlank first = false) (before after : List Char) :
  trimText (first :: before ++ '@' :: after) =
    first :: before ++ '@' :: dropWhileEnd isBlank after
  := by
  rw [trimText_eq, List.cons_append, dropWhile_cons_of_false hfirst, ← List.cons_append,
    dropWhileEnd_append_cons (by decide)]

theorem trimText_withCredentials (scheme : Scheme) (userinfo rest : List Char) :
  trimText (withCredentials scheme userinfo rest) =
    withCredentials scheme userinfo (dropWhileEnd isBlank rest)
  := by
  have hfirst := not_isBlank_of_schemeChar (isSchemeChar_of_isAlpha scheme.first_alpha)
  have hinput : ∀ rest, withCredentials scheme userinfo rest =
      scheme.first :: (scheme.others ++ ':' :: '/' :: '/' :: userinfo) ++ '@' :: rest := by
    intro rest
    simp [withCredentials, Scheme.text]
  rw [hinput, trimText_at hfirst, hinput]

theorem ne_of_isSchemeChar {c : Char} (h : isSchemeChar c = true) :
  c ≠ ':' ∧ c ≠ '/' ∧ c ≠ '@'
  := by
  refine ⟨?_, ?_, ?_⟩
  all_goals
    rintro rfl
    revert h
    decide

/-- The scheme of a URL is no host of an scp-like remote. -/
theorem scpTail_scheme (first : Char → Bool) (hslash : first '/' = false) (scheme : Scheme)
    (rest : List Char) :
  scpTail first (scheme.text ++ ':' :: '/' :: rest) = none
  := by
  have hkept : ∀ c ∈ scheme.text, (c ≠ ':' && c ≠ '/') = true := by
    intro c hc
    obtain ⟨hcolon, hslash, -⟩ := ne_of_isSchemeChar (scheme.isSchemeChar_of_mem c hc)
    simp [hcolon, hslash]
  rw [scpTail, List.takeWhile_append_of_pos hkept, List.dropWhile_append_of_pos hkept,
    List.takeWhile_cons_of_neg (by decide), List.dropWhile_cons_of_neg (by decide),
    List.append_nil, Scheme.text]
  simp [hslash]

/-- There is a slash before the first `@`. -/
theorem scpLike_of_slash (first : Char → Bool) {before : List Char}
    (hbefore : ∀ c ∈ before, (c ≠ '@' && c ≠ '/') = true) (rest : List Char) :
  scpLike first (before ++ '/' :: rest) = scpTail first (before ++ '/' :: rest)
  := by
  rw [scpLike, List.takeWhile_append_of_pos hbefore, List.dropWhile_append_of_pos hbefore,
    List.dropWhile_cons_of_neg (by decide)]
  split
  · next hrest =>
      injection hrest with hchar
      cases hchar
  · rfl

theorem scpLike_withCredentials (first : Char → Bool) (hslash : first '/' = false)
    (scheme : Scheme) (userinfo rest : List Char) :
  scpLike first (withCredentials scheme userinfo rest) = none
  := by
  have hbefore : ∀ c ∈ scheme.text ++ [':'], (c ≠ '@' && c ≠ '/') = true := by
    intro c hc
    rcases List.mem_append.mp hc with hscheme | hcolon
    · obtain ⟨-, hslash, hat⟩ := ne_of_isSchemeChar (scheme.isSchemeChar_of_mem c hscheme)
      simp [hslash, hat]
    · rw [List.mem_singleton.mp hcolon]
      rfl
  have hinput : withCredentials scheme userinfo rest =
      (scheme.text ++ [':']) ++ '/' :: '/' :: (userinfo ++ '@' :: rest) := by
    simp [withCredentials]
  rw [hinput, scpLike_of_slash first hbefore, ← hinput, withCredentials,
    scpTail_scheme first hslash]

theorem parse_eq_of_clear {hosts : HostParser} {input input' : List Char}
    (h : (parse hosts input).map clearCredentials = (parse hosts input').map clearCredentials)
    {β : Type} (f : Url → β) (hf : ∀ url, f url.clearCredentials = f url) :
  (parse hosts input).map f = (parse hosts input').map f
  := by
  have hmap : ∀ text, (parse hosts text).map f =
      ((parse hosts text).map clearCredentials).map f := by
    intro text
    rw [Option.map_map]
    congr 1
    funext url
    apply (hf url).symm
  rw [hmap, h, ← hmap]

theorem clearCredentials_twice (url : Url) :
  url.clearCredentials.clearCredentials = url.clearCredentials
  := by
  rw [clearCredentials, clearCredentials]
  split
  · rfl
  · split <;> rfl

theorem looksLikeUrl_withCredentials (scheme : Scheme) (userinfo rest : List Char) :
  looksLikeUrl (withCredentials scheme userinfo rest) = true
  := by
  have hkept : ∀ c ∈ scheme.text, (isSchemeChar c || decide (c = '_')) = true := by
    intro c hc
    rw [scheme.isSchemeChar_of_mem c hc]
    rfl
  have hhead : (withCredentials scheme userinfo rest).head?.any
      (fun c => isSchemeChar c || decide (c = '_')) = true :=
    hkept scheme.first List.mem_cons_self
  rw [looksLikeUrl, hhead, withCredentials, List.dropWhile_append_of_pos hkept,
    List.dropWhile_cons_of_neg (by decide)]
  rfl

theorem withCredentials_ne_nil (scheme : Scheme) (userinfo rest : List Char) :
  withCredentials scheme userinfo rest ≠ []
  := by simp [withCredentials, Scheme.text]

theorem all_credentialChar {userinfo : List Char} (h : IsUserinfo userinfo) :
  userinfo.all isCredentialChar = true
  := by
  rw [List.all_eq_true]
  intro c hc
  apply (h.isPlain c hc).credentialChar

theorem hidesCredentials_url (hosts : HostParser) (scheme : Scheme) (host path : List Char) :
  HidesCredentials hosts (.url scheme host path)
  := by
  intro userinfo userinfo' huserinfo huserinfo'
  have hclear : ∀ rest,
      (parse hosts (withCredentials scheme userinfo rest)).map clearCredentials =
        (parse hosts (withCredentials scheme userinfo' rest)).map clearCredentials := by
    intro rest
    rw [parse_withCredentials hosts scheme (all_credentialChar huserinfo),
      parse_withCredentials hosts scheme (all_credentialChar huserinfo')]
  constructor
  · have hsanitize : ∀ userinfo rest,
        sanitizeRemoteUrl hosts (withCredentials scheme userinfo rest) =
          (parse hosts (withCredentials scheme userinfo (dropWhileEnd isBlank rest))).map
            fun parsed =>
              let bare := parsed.clearCredentials.clearHash.clearSearch
              dropSlash (bare.setPathname (dropDotGitSlash bare.pathname)).href := by
      intro userinfo rest
      rw [sanitizeRemoteUrl, trimText_withCredentials, if_neg (withCredentials_ne_nil _ _ _),
        scpLike_withCredentials _ (by rfl)]
    rw [withUserinfo, withUserinfo, hsanitize, hsanitize]
    apply parse_eq_of_clear (hclear _)
    intro url
    rw [clearCredentials_twice]
  · have hnormalize : ∀ userinfo rest,
        normalizeRemote hosts (withCredentials scheme userinfo rest) =
          ((parse hosts (withCredentials scheme userinfo (dropWhileEnd isBlank rest))).map
            fun parsed =>
              if parsed.hostname = [] then none
              else
                some (hostPath parsed.hostname
                  (stripDotGit (parsed.pathname.dropWhile (· = '/'))))).join := by
      intro userinfo rest
      rw [normalizeRemote, trimText_withCredentials, if_neg (withCredentials_ne_nil _ _ _),
        scpLike_withCredentials _ (by rfl), looksLikeUrl_withCredentials]
      cases parse hosts (withCredentials scheme userinfo (dropWhileEnd isBlank rest)) <;> rfl
    rw [withUserinfo, withUserinfo, hnormalize, hnormalize]
    congr 1
    apply parse_eq_of_clear (hclear _)
    intro url
    rw [hostname_clearCredentials, pathname_clearCredentials]

/-! ### Remotes with an scp-like syntax -/

theorem scpLike_userinfo (first : Char → Bool) {userinfo : List Char} (h : IsUserinfo userinfo)
    (rest : List Char) :
  scpLike first (userinfo ++ '@' :: rest) =
    (scpTail first rest).or (scpTail first (userinfo ++ '@' :: rest))
  := by
  have hkept : ∀ c ∈ userinfo, (c ≠ '@' && c ≠ '/') = true := by
    intro c hc
    apply (h.isPlain c hc).ne_at
  rw [scpLike, List.takeWhile_append_of_pos hkept, List.dropWhile_append_of_pos hkept,
    List.takeWhile_cons_of_neg (by decide), List.dropWhile_cons_of_neg (by decide),
    List.append_nil]
  cases userinfo with
  | nil => apply absurd rfl h.ne_nil
  | cons c userinfo => rfl

theorem trimText_userinfo {userinfo : List Char} (h : IsUserinfo userinfo) (rest : List Char) :
  trimText (userinfo ++ '@' :: rest) = userinfo ++ '@' :: dropWhileEnd isBlank rest
  := by
  cases userinfo with
  | nil => apply absurd rfl h.ne_nil
  | cons c userinfo => apply trimText_at (h.isPlain c List.mem_cons_self).not_blank

/-- No scheme goes before an `@`. -/
theorem hasScheme_userinfo {userinfo : List Char} (h : IsUserinfo userinfo) (rest : List Char) :
  hasScheme (userinfo ++ '@' :: rest) = false
  := by
  rw [hasScheme, Bool.and_eq_false_iff]
  right
  rw [Bool.eq_false_iff, ne_eq, List.isPrefixOf_iff_prefix]
  rintro ⟨tail, htail⟩
  have hdrop : (userinfo ++ '@' :: rest).dropWhile isSchemeChar =
      userinfo.dropWhile isSchemeChar ++ '@' :: rest := by
    rw [List.dropWhile_append]
    split
    · next hempty =>
        rw [List.isEmpty_iff.mp hempty, List.dropWhile_cons_of_neg (by decide), List.nil_append]
    · rfl
  rw [hdrop] at htail
  have hslash : ∀ c ∈ userinfo.dropWhile isSchemeChar, c ≠ '/' := by
    intro c hc
    have hmem := (List.dropWhile_sublist isSchemeChar).subset hc
    apply ne_of_toNat (h.isPlain c hmem).2.2.1
  generalize userinfo.dropWhile isSchemeChar = left at htail hslash
  rcases left with - | ⟨a, - | ⟨b, left⟩⟩
  · simp at htail
  · simp at htail
  · injection htail with _ htail
    injection htail with hb
    apply hslash b (by simp) hb.symm

variable (hosts : HostParser) (host : ScpHost) (path : Line)

/-- What stands behind the `@`, without the blanks at its end. -/
def scpRest : List Char := host.text ++ ':' :: dropWhileEnd isBlank path.text

theorem trimText_scp {userinfo : List Char} (h : IsUserinfo userinfo) :
  trimText (GitRemote.withUserinfo (.scp host path) userinfo) =
    userinfo ++ '@' :: scpRest host path
  := by
  rw [withUserinfo, trimText_userinfo h, dropWhileEnd_append_cons (by decide), scpRest]

theorem dropWhileEnd_all {p q : Char → Bool} {text : List Char} (h : text.all q = true) :
  (dropWhileEnd p text).all q = true
  := by
  rw [dropWhileEnd, List.all_reverse, List.all_eq_true]
  intro c hc
  apply List.all_eq_true.mp h
  rw [← List.mem_reverse]
  apply (List.dropWhile_sublist p).subset hc

/-- A host, its first colon, and what follows it. -/
theorem scpRest_eq :
  ∃ before after, scpRest host path = host.first :: before ++ ':' :: after ∧
    afterColon (scpRest host path) = after ∧
    (∀ c ∈ host.first :: before, (c ≠ ':' && c ≠ '/') = true) ∧
    (scpRest host path).all (fun c => !isLineEnd c) = true
  := by
  have hfirst := host.first_kept
  simp only [Bool.and_eq_true] at hfirst
  obtain ⟨⟨hcolon, hslash⟩, hline⟩ := hfirst
  have hall : (scpRest host path).all (fun c => !isLineEnd c) = true := by
    rw [scpRest, ScpHost.text, List.all_append, List.all_cons, List.all_cons, hline,
      host.others.unbroken, dropWhileEnd_all path.unbroken]
    rfl
  obtain ⟨before, after, hothers, hbefore⟩ := List.eq_append_cons_of_mem
    (show ':' ∈ host.others.text ++ ':' :: dropWhileEnd isBlank path.text by simp)
  have hsubset : ∀ c ∈ before, c ∈ host.others.text := by
    rcases List.append_eq_append_iff.mp hothers with ⟨left, hleft, hcons⟩ | ⟨left, hleft, -⟩
    · rcases left with - | ⟨d, left⟩
      · rw [hleft, List.append_nil]
        intro c hc
        apply hc
      · injection hcons with hd
        apply absurd _ hbefore
        simp [hleft, ← hd]
    · rw [hleft]
      intro c hc
      apply List.mem_append_left _ hc
  have hkept : ∀ c ∈ host.first :: before, (c ≠ ':' && c ≠ '/') = true := by
    intro c hc
    rcases List.mem_cons.mp hc with rfl | hmem
    · simp only [Bool.and_eq_true]
      exact ⟨hcolon, hslash⟩
    · have hslash' := List.all_eq_true.mp host.others_kept c (hsubset c hmem)
      have hcolon' : c ≠ ':' := by
        rintro rfl
        apply hbefore hmem
      simp only [Bool.and_eq_true, hslash', and_true]
      apply decide_eq_true hcolon'
  have hrest : scpRest host path = host.first :: before ++ ':' :: after := by
    rw [scpRest, ScpHost.text, List.cons_append, List.cons_append, hothers]
  refine ⟨before, after, hrest, ?_, hkept, hall⟩
  have hcolons : ∀ c ∈ host.first :: before, decide (c ≠ ':') = true := by
    intro c hc
    have hboth := hkept c hc
    simp only [Bool.and_eq_true] at hboth
    apply hboth.1
  rw [afterColon, hrest, List.dropWhile_append_of_pos hcolons,
    List.dropWhile_cons_of_neg (by decide), List.drop_one, List.tail_cons]

theorem scpTail_append (first : Char → Bool) {h : Char} {before : List Char}
    (hkept : ∀ c ∈ h :: before, (c ≠ ':' && c ≠ '/') = true) (after : List Char) :
  scpTail first (h :: before ++ ':' :: after) =
    match after with
    | [] => none
    | c :: rest =>
        if first c && rest.all (fun c => !isLineEnd c) then some (h :: before, c :: rest) else none
  := by
  rw [scpTail, List.takeWhile_append_of_pos hkept, List.dropWhile_append_of_pos hkept,
    List.takeWhile_cons_of_neg (by decide), List.dropWhile_cons_of_neg (by decide),
    List.append_nil]
  cases after <;> rfl

/-- A remote whose first colon is followed by something other than a slash is taken apart behind
its `@`. -/
theorem scpTail_scpRest (first : Char → Bool)
    (hfirst : ∀ c, c ≠ '/' → isLineEnd c = false → first c = true)
    (h : IsRecognised (.scp host path)) :
  ∃ parts, scpTail first (scpRest host path) = some parts
  := by
  obtain ⟨before, after, hrest, hafter, hkept, hall⟩ := scpRest_eq host path
  obtain ⟨c, rest, hcons, hslash⟩ := h
  have hcons' : after = c :: rest := by
    rw [← hafter, ← hcons]
    rfl
  rw [hrest, hcons'] at hall
  simp only [List.all_append, List.all_cons, Bool.and_eq_true, Bool.not_eq_true'] at hall
  obtain ⟨-, -, hline, hlines⟩ := hall
  use (host.first :: before, c :: rest)
  rw [hrest, scpTail_append first hkept, hcons']
  dsimp only
  rw [hfirst c hslash hline, if_pos]
  apply hlines

theorem withUserinfo_ne_nil (userinfo rest : List Char) :
  userinfo ++ '@' :: rest ≠ []
  := by simp

theorem hidesCredentials_scp (h : IsRecognised (.scp host path)) :
  HidesCredentials hosts (.scp host path)
  := by
  obtain ⟨parts, hparts⟩ := scpTail_scpRest host path (fun c => c ≠ '/' && !isLineEnd c)
    (by simp +contextual) h
  obtain ⟨parts', hparts'⟩ := scpTail_scpRest host path (fun c => c ≠ '/') (by simp +contextual) h
  have hsanitize : ∀ userinfo, IsUserinfo userinfo →
      sanitizeRemoteUrl hosts (withUserinfo (.scp host path) userinfo) =
        (parse hosts ("ssh://".toList ++ parts.1 ++ '/' :: parts.2)).map fun parsed =>
          let bare := parsed.clearCredentials.clearHash.clearSearch
          dropSlash (bare.setPathname (dropDotGitSlash bare.pathname)).href := by
    intro userinfo huserinfo
    rw [sanitizeRemoteUrl, trimText_scp host path huserinfo,
      if_neg (withUserinfo_ne_nil _ _), scpLike_userinfo _ huserinfo, hparts,
      hasScheme_userinfo huserinfo]
    rfl
  have hnormalize : ∀ userinfo, IsUserinfo userinfo →
      normalizeRemote hosts (withUserinfo (.scp host path) userinfo) =
        some (hostPath parts'.1
          (stripDotGit (parts'.2.takeWhile fun c => c ≠ '?' && c ≠ '#'))) := by
    intro userinfo huserinfo
    rw [normalizeRemote, trimText_scp host path huserinfo,
      if_neg (withUserinfo_ne_nil _ _), scpLike_userinfo _ huserinfo, hparts']
    rfl
  intro userinfo userinfo' huserinfo huserinfo'
  rw [hsanitize userinfo huserinfo, hsanitize userinfo' huserinfo', hnormalize userinfo huserinfo,
    hnormalize userinfo' huserinfo']
  exact ⟨rfl, rfl⟩

/-! ### Credentials that are reported -/

theorem dropDotGit_at (before after : List Char) :
  ∃ rest, dropDotGit (before ++ '@' :: after) = before ++ '@' :: rest
  := by
  rw [dropDotGit]
  split
  · next left heq =>
      rw [List.reverse_append, List.reverse_cons, List.append_assoc, List.singleton_append] at heq
      generalize after.reverse = back at heq
      rcases back with - | ⟨a, - | ⟨b, - | ⟨c, - | ⟨d, back⟩⟩⟩⟩
      · simp at heq
      · simp at heq
      · simp at heq
      · simp at heq
      · simp only [List.cons_append, List.cons.injEq] at heq
        use back.reverse
        rw [← heq.2.2.2.2]
        simp
  · use after

theorem stripDotGit_at (before after : List Char) :
  ∃ rest, stripDotGit (before ++ '@' :: after) = before ++ '@' :: rest
  := by
  rw [stripDotGit, dropWhileEnd_append_cons (by decide)]
  obtain ⟨rest, hrest⟩ := dropDotGit_at before (dropWhileEnd (· = '/') after)
  use dropWhileEnd (· = '/') rest
  rw [hrest, dropWhileEnd_append_cons (by decide)]

/-- The part of a text before its `@`. -/
theorem eq_of_append_at {left left' right right' : List Char} (hleft : '@' ∉ left)
    (hleft' : '@' ∉ left') (h : left ++ '@' :: right = left' ++ '@' :: right') :
  left = left'
  := by
  have htake : ∀ {left : List Char} (right), '@' ∉ left →
      (left ++ '@' :: right).takeWhile (· ≠ '@') = left := by
    intro left right hnot
    have hkept : ∀ c ∈ left, decide (c ≠ '@') = true := by
      intro c hc
      apply decide_eq_true
      rintro rfl
      apply hnot hc
    rw [List.takeWhile_append_of_pos hkept, List.takeWhile_cons_of_neg (by decide),
      List.append_nil]
  rw [← htake right hleft, h, htake right' hleft']

/-- What stands before an `@` is reported, when the remote is taken apart before it. -/
theorem hostPath_at (host before after : List Char)
    (hbefore : ∀ c ∈ before, (c ≠ '?' && c ≠ '#') = true) :
  ∃ rest, hostPath host
      (stripDotGit ((before ++ '@' :: after).takeWhile fun c => c ≠ '?' && c ≠ '#')) =
    (host ++ '/' :: before) ++ '@' :: rest
  := by
  rw [takeWhile_append_cons hbefore (by decide)]
  obtain ⟨rest, hrest⟩ := stripDotGit_at before (after.takeWhile fun c => c ≠ '?' && c ≠ '#')
  use rest
  rw [hrest, hostPath, if_neg (by simp)]
  simp

/-- A user named by one letter. -/
theorem isUserinfo_letter {c : Char} (h : isUserinfoChar c = true) :
  IsUserinfo [c]
  := IsUserinfo.user (.plain h .nil) (by simp)

/-- A user with a password, each of one letter. -/
theorem isUserinfo_letters {c d : Char} (h : isUserinfoChar c = true)
    (h' : isUserinfoChar d = true) :
  IsUserinfo [c, ':', d]
  := by
  have hparts : ∀ part ∈ [[d]], IsUserText part := by
    simp only [List.mem_singleton, forall_eq]
    apply IsUserText.plain h' .nil
  apply IsUserinfo.password (.plain h .nil) (List.cons_ne_nil c []) hparts

/-- Behind a first colon that a slash follows, or nothing, there is no host. -/
theorem scpTail_unrecognised (first : Char → Bool) (hslash : first '/' = false)
    (h : ¬IsRecognised (.scp host path)) :
  scpTail first (scpRest host path) = none
  := by
  obtain ⟨before, after, hrest, hafter, hkept, -⟩ := scpRest_eq host path
  rw [hrest, scpTail_append first hkept]
  cases after with
  | nil => rfl
  | cons c rest =>
      have hc : c = '/' := by
        by_contra hne
        apply h ⟨c, rest, hafter, hne⟩
      simp [hc, hslash]

theorem normalizeRemote_unrecognised (h : ¬IsRecognised (.scp host path)) {password : Char}
    (hpassword : isUserinfoChar password = true) :
  ∃ rest, normalizeRemote hosts (withUserinfo (.scp host path) ['u', ':', password]) =
    some (['u', '/', password] ++ '@' :: rest)
  := by
  have huserinfo : IsUserinfo ['u', ':', password] := isUserinfo_letters (by decide) hpassword
  have hplain := isPlain_of_userinfoChar hpassword
  have hslash : password ≠ '/' := ne_of_toNat hplain.2.2.1
  obtain ⟨-, -, -, -, -, hlines⟩ := scpRest_eq host path
  have htail : scpTail (fun c => c ≠ '/') (['u', ':', password] ++ '@' :: scpRest host path) =
      some (['u'], password :: '@' :: scpRest host path) := by
    have hkept : ∀ c ∈ ['u'], (c ≠ ':' && c ≠ '/') = true := by simp
    have happend := scpTail_append (fun c => c ≠ '/') hkept (password :: '@' :: scpRest host path)
    rw [List.cons_append, List.nil_append] at happend
    rw [List.cons_append, List.cons_append, List.cons_append, List.nil_append, happend]
    dsimp only
    rw [if_pos]
    rw [List.all_cons, hlines]
    simp [hslash, isLineEnd]
  obtain ⟨rest, hrest⟩ := hostPath_at ['u'] [password] (scpRest host path) (by
    simp only [List.mem_singleton, forall_eq]
    have hquestion : password ≠ '?' := ne_of_toNat hplain.2.2.2.1
    have hhash : password ≠ '#' := ne_of_toNat hplain.2.1
    simp [hquestion, hhash])
  use rest
  rw [normalizeRemote, trimText_scp host path huserinfo, if_neg (withUserinfo_ne_nil _ _),
    scpLike_userinfo _ huserinfo, scpTail_unrecognised host path _ (by rfl) h, htail]
  apply congrArg some hrest

theorem not_hidesCredentials_scp (h : ¬IsRecognised (.scp host path)) :
  ¬HidesCredentials hosts (.scp host path)
  := by
  intro hhides
  obtain ⟨rest, hrest⟩ := normalizeRemote_unrecognised hosts host path h
    (show isUserinfoChar 'a' = true by decide)
  obtain ⟨rest', hrest'⟩ := normalizeRemote_unrecognised hosts host path h
    (show isUserinfoChar 'b' = true by decide)
  have ha : IsUserinfo ['u', ':', 'a'] := isUserinfo_letters (by decide) (by decide)
  have hb : IsUserinfo ['u', ':', 'b'] := isUserinfo_letters (by decide) (by decide)
  obtain ⟨-, hsame⟩ := hhides _ _ ha hb
  rw [hrest, hrest', Option.some.injEq] at hsame
  have hleft := eq_of_append_at (by decide) (by decide) hsame
  revert hleft
  decide

/-! ### Helpers -/

theorem schemeChar_of_mem_helper (name : HelperName) :
  ∀ c ∈ name.text, isSchemeChar c = true
  := by
  intro c hc
  rcases List.mem_cons.mp hc with rfl | hother
  · simp [isSchemeChar, name.first_alphanum]
  · apply List.all_eq_true.mp name.others_chars c hother

section Helpers

variable (name : HelperName) (scheme : Scheme) (authority : Line) {userinfo : List Char}

theorem trimText_helper (userinfo : List Char) :
  trimText (withUserinfo (.helper name scheme authority path) userinfo) =
    name.text ++ ':' :: ':' :: withCredentials scheme userinfo
      (dropWhileEnd isBlank (authority.text ++ '/' :: path.text))
  := by
  have hfirst : isBlank name.first = false :=
    not_isBlank_of_schemeChar (schemeChar_of_mem_helper name _ List.mem_cons_self)
  have hinput : ∀ rest, name.text ++ ':' :: ':' :: withCredentials scheme userinfo rest =
      name.first :: (name.others ++ ':' :: ':' :: scheme.text ++ ':' :: '/' :: '/' :: userinfo) ++
        '@' :: rest := by
    intro rest
    simp [withCredentials, HelperName.text]
  rw [withUserinfo, hinput, trimText_at hfirst, hinput]

theorem withCredentials_line (h : IsUserinfo userinfo) {rest : List Char}
    (hrest : rest.all (fun c => !isLineEnd c) = true) :
  (withCredentials scheme userinfo rest).all (fun c => !isLineEnd c) = true
  := by
  have hscheme : scheme.text.all (fun c => !isLineEnd c) = true := by
    rw [List.all_eq_true]
    intro c hc
    rw [(IsPlain.of_schemeChar (scheme.isSchemeChar_of_mem c hc)).not_lineEnd]
    rfl
  have huserinfo : userinfo.all (fun c => !isLineEnd c) = true := by
    rw [List.all_eq_true]
    intro c hc
    rw [(h.isPlain c hc).not_lineEnd]
    rfl
  simp only [withCredentials, List.all_append, List.all_cons, hscheme, huserinfo, hrest]
  rfl

/-- A helper is taken for the host of an scp-like remote. -/
theorem scpLike_helper (h : IsUserinfo userinfo) {rest : List Char}
    (hrest : rest.all (fun c => !isLineEnd c) = true) :
  scpLike (fun c => c ≠ '/') (name.text ++ ':' :: ':' :: withCredentials scheme userinfo rest) =
    some (name.text, ':' :: withCredentials scheme userinfo rest)
  := by
  have hbefore : ∀ c ∈ name.text ++ ':' :: ':' :: scheme.text ++ [':'],
      (c ≠ '@' && c ≠ '/') = true := by
    intro c hc
    simp only [List.mem_append, List.mem_cons, List.not_mem_nil, or_false] at hc
    rcases hc with (hname | rfl | rfl | hscheme) | rfl
    · apply (IsPlain.of_schemeChar (schemeChar_of_mem_helper name c hname)).ne_at
    · rfl
    · rfl
    · apply (IsPlain.of_schemeChar (scheme.isSchemeChar_of_mem c hscheme)).ne_at
    · rfl
  have hkept : ∀ c ∈ name.text, (c ≠ ':' && c ≠ '/') = true := by
    intro c hc
    obtain ⟨hcolon, hslash, -⟩ := ne_of_isSchemeChar (schemeChar_of_mem_helper name c hc)
    simp [hcolon, hslash]
  have hinput : name.text ++ ':' :: ':' :: withCredentials scheme userinfo rest =
      (name.text ++ ':' :: ':' :: scheme.text ++ [':']) ++ '/' :: '/' :: (userinfo ++ '@' :: rest) :=
    by simp [withCredentials]
  have happend := scpTail_append (fun c => c ≠ '/') hkept
    (':' :: withCredentials scheme userinfo rest)
  dsimp only at happend
  rw [withCredentials_line scheme h hrest] at happend
  rw [hinput, scpLike_of_slash _ hbefore, ← hinput]
  apply happend

/-- The credentials behind a helper are reported. -/
theorem normalizeRemote_helper (h : IsUserinfo userinfo) :
  ∃ rest, normalizeRemote hosts (withUserinfo (.helper name scheme authority path) userinfo) =
    some ((name.text ++ '/' :: ':' :: scheme.text ++ ':' :: '/' :: '/' :: userinfo) ++
      '@' :: rest)
  := by
  have hlines : (dropWhileEnd isBlank (authority.text ++ '/' :: path.text)).all
      (fun c => !isLineEnd c) = true := by
    apply dropWhileEnd_all
    rw [List.all_append, List.all_cons, authority.unbroken, path.unbroken]
    rfl
  have hquery : ∀ c ∈ ':' :: scheme.text ++ ':' :: '/' :: '/' :: userinfo,
      (c ≠ '?' && c ≠ '#') = true := by
    intro c hc
    simp only [List.mem_append, List.mem_cons] at hc
    rcases hc with (rfl | hscheme) | rfl | rfl | rfl | huserinfo
    · rfl
    · apply (IsPlain.of_schemeChar (scheme.isSchemeChar_of_mem c hscheme)).ne_query
    · rfl
    · rfl
    · rfl
    · apply (h.isPlain c huserinfo).ne_query
  obtain ⟨rest, hrest⟩ := hostPath_at name.text _
    (dropWhileEnd isBlank (authority.text ++ '/' :: path.text)) hquery
  use rest
  rw [normalizeRemote, trimText_helper, if_neg (by simp), scpLike_helper name scheme h hlines]
  have hpath : ':' :: withCredentials scheme userinfo
        (dropWhileEnd isBlank (authority.text ++ '/' :: path.text)) =
      (':' :: scheme.text ++ ':' :: '/' :: '/' :: userinfo) ++
        '@' :: dropWhileEnd isBlank (authority.text ++ '/' :: path.text) := by
    simp [withCredentials]
  dsimp only
  rw [hpath, hrest]
  simp

theorem not_at_mem_helper {userinfo : List Char} (h : IsUserinfo userinfo) :
  '@' ∉ name.text ++ '/' :: ':' :: scheme.text ++ ':' :: '/' :: '/' :: userinfo
  := by
  have hplain : ¬IsPlain '@' := by simp [IsPlain]
  intro hmem
  simp only [List.mem_append, List.mem_cons] at hmem
  rcases hmem with (hname | hslash | hcolon | hscheme) | hcolon | hslash | hslash | huserinfo
  · apply hplain (IsPlain.of_schemeChar (schemeChar_of_mem_helper name _ hname))
  · cases hslash
  · cases hcolon
  · apply hplain (IsPlain.of_schemeChar (scheme.isSchemeChar_of_mem _ hscheme))
  · cases hcolon
  · cases hslash
  · cases hslash
  · apply hplain (h.isPlain _ huserinfo)

theorem not_hidesCredentials_helper :
  ¬HidesCredentials hosts (.helper name scheme authority path)
  := by
  intro hhides
  have ha : IsUserinfo ['a'] := isUserinfo_letter (by decide)
  have hb : IsUserinfo ['b'] := isUserinfo_letter (by decide)
  obtain ⟨rest, hrest⟩ := normalizeRemote_helper hosts path name scheme authority ha
  obtain ⟨rest', hrest'⟩ := normalizeRemote_helper hosts path name scheme authority hb
  obtain ⟨-, hsame⟩ := hhides _ _ ha hb
  rw [hrest, hrest', Option.some.injEq] at hsame
  have hleft := eq_of_append_at (not_at_mem_helper name scheme ha)
    (not_at_mem_helper name scheme hb) hsame
  simp at hleft

end Helpers

/-- What is reported of a remote does not depend on its credentials if and only if the remote is
recognised as a URL, or as a host and a path. -/
theorem hidesCredentials_iff (hosts : HostParser) (remote : GitRemote) :
  HidesCredentials hosts remote ↔ remote.IsRecognised
  := by
  cases remote with
  | url scheme host path => exact ⟨fun _ => trivial, fun _ => hidesCredentials_url hosts _ _ _⟩
  | scp host path =>
      constructor
      · intro hhides
        by_contra hnot
        apply not_hidesCredentials_scp hosts host path hnot hhides
      · apply hidesCredentials_scp
  | helper name scheme host path =>
      constructor
      · intro hhides
        apply not_hidesCredentials_helper hosts path name scheme host hhides
      · intro hnever
        apply hnever.elim

/-- A parser that takes every text without an `@` for a host. -/
def sampleHosts : HostParser where
  parse _ text := if '@' ∈ text then none else some (.raw text)
  parse_at := by
    intro _ _ hat
    rw [if_pos hat]
  parse_nonempty := by
    intro _ text host hne hparse
    by_cases hat : '@' ∈ text
    · simp [hat] at hparse
    · rw [if_neg hat, Option.some.injEq] at hparse
      rw [← hparse]
      apply hne

/-- `gcrypt::https://userinfo@host/repo` -/
def sampleHelper : GitRemote :=
  .helper ⟨'g', "crypt".toList, by decide, by decide +kernel⟩
    ⟨'h', "ttps".toList, by decide, by decide +kernel⟩ ⟨"host".toList, by decide +kernel⟩
    ⟨"repo".toList, by decide +kernel⟩

/-- The password of a remote with a helper is reported. -/
theorem reports_password :
  ¬∀ (hosts : HostParser) (remote : GitRemote), HidesCredentials hosts remote
  := by
  intro h
  have huser : IsUserinfo "u:a".toList := isUserinfo_letters (by decide) (by decide)
  have huser' : IsUserinfo "u:b".toList := isUserinfo_letters (by decide) (by decide)
  obtain ⟨-, hsame⟩ := h sampleHosts sampleHelper _ _ huser huser'
  revert hsame
  decide +kernel

end GitRemote

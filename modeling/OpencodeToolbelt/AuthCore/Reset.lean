import OpencodeToolbelt.Async.Sequential
import OpencodeToolbelt.TokenStores

/-!
# Resetting an identity

`reset` finds the exchanged tokens of an identity by the prefix of their file names. The
names of another identity may start in the same way.
-/

/-! ### The names of entries -/

/-- A text that ends in `-` is only then a prefix of a name with a hash, which has no `-`,
when it is one of the part before the hash. -/
theorem prefix_hashed {a b h : List Char} (hne : a ≠ b) (hh : '-' ∉ h) :
  a ++ ['-'] <+: b ++ '-' :: h ↔ a ++ ['-'] <+: b
  := by
  have hsplit : b ++ '-' :: h = b ++ ['-'] ++ h := by
    rw [List.append_assoc, List.singleton_append]
  constructor
  · intro hpre
    obtain hshort | hlong := List.prefix_or_prefix_of_prefix hpre
      (hsplit ▸ List.prefix_append (b ++ ['-']) h)
    · obtain heq | hpre' := List.prefix_concat_iff.mp hshort
      · exact (hne (List.append_cancel_right heq)).elim
      · apply hpre'
    · obtain heq | ⟨t, rfl⟩ := List.prefix_concat_iff.mp hlong
      · exact (hne (List.append_cancel_right heq).symm).elim
      · rw [hsplit, List.append_assoc, List.prefix_append_right_inj] at hpre
        exact (hh (hpre.subset (by simp))).elim
  · intro hpre
    apply hpre.trans (List.prefix_append b _)

namespace TokenRuntime

variable (r : TokenRuntime)

/-- The files of an identity: that of its root token, and those of the tokens it has been
exchanged for. -/
def TokenLoc (loc : Loc) : Prop := loc = r.cacheLoc ∨ ∃ key, loc = r.exchangeLoc key

/-- The hash is written in hexadecimal digits. -/
def HexHash : Prop := ∀ value, ∀ c ∈ (r.hashCacheKey value).toList, c ∈ "0123456789abcdef".toList

/-- The name starts with the identity and a `-`. -/
def Prefixes (name : String) : Prop :=
  (r.identity ++ "-").toList <+: name.toList

instance (name : String) :
  Decidable (r.Prefixes name)
  := inferInstanceAs (Decidable (_ <+: _))

theorem toList_exchangeCacheKey (key : String) :
  (r.exchangeCacheKey key).toList =
    r.identity.toList ++ '-' :: (r.hashCacheKey (r.identity ++ ":" ++ key)).toList
  := by
  simp [exchangeCacheKey, String.toList_append]

variable {r}

theorem HexHash.notMem (h : r.HexHash) (value : String) {c : Char}
    (hc : c ∉ "0123456789abcdef".toList) :
  c ∉ (r.hashCacheKey value).toList
  := fun hmem => hc (h value c hmem)

/-- An exchanged token of another identity is named like those of `r` only if the other
identity is. -/
theorem prefixes_exchangeCacheKey {r' : TokenRuntime} (hne : r'.identity ≠ r.identity)
    (hhex : r'.HexHash) (key : String) :
  r.Prefixes (r'.exchangeCacheKey key) ↔ r.Prefixes r'.identity
  := by
  have hpre : (r.identity ++ "-").toList = r.identity.toList ++ ['-'] := by
    rw [String.toList_append]
    rfl
  unfold Prefixes
  rw [toList_exchangeCacheKey, hpre]
  apply prefix_hashed
  · intro heq
    exact hne (String.toList_inj.mp heq).symm
  · apply hhex.notMem
    decide

end TokenRuntime

/-! ### What a reset removes -/

/-- The disk does what it is asked to: files are removed, and directories listed. -/
def DiskWorks (_ : ℕ) (w : World) : (o : Op) → Ans o → Prop
  | .remove _, removed => removed = true
  | .listKeys dir pre, keys => keys.Perm (w.keysWithPrefix dir pre)
  | _, _ => True

/-- The machine with a disk that works. -/
def workingHost : Machine Op Ans World ℕ := host.restrict DiskWorks fun _ _ => True

theorem World.mem_keysWithPrefix {w : World} {dir pre key : String} :
  key ∈ w.keysWithPrefix dir pre ↔
    (∃ entry, w.entries.get ⟨dir, key⟩ = some entry) ∧ '/' ∉ key.toList ∧
      pre.toList <+: key.toList
  := by
  simp only [keysWithPrefix, List.mem_map, List.mem_filter, Bool.and_eq_true, decide_eq_true_eq,
    List.isPrefixOf_iff_prefix, JsMap.mem_keys]
  constructor
  · rintro ⟨⟨dir', key'⟩, ⟨hentry, ⟨rfl, hslash⟩, hpre⟩, rfl⟩
    exact ⟨hentry, hslash, hpre⟩
  · rintro ⟨hentry, hslash, hpre⟩
    use ⟨dir, key⟩, ⟨hentry, ⟨rfl, hslash⟩, hpre⟩

namespace TokenRuntime

variable {r : TokenRuntime} {i : ℕ} {w w' : World}

theorem leads_remove {loc : Loc} {result : Except AuthError Unit}
    (h : workingHost.Leads i (Auth.remove loc) w result w') :
  w' = w.deleteEntry loc
  := by
  obtain ⟨removed, ⟨-, rfl⟩, -, rfl⟩ := h
  rfl

theorem leads_removeKeys {keys : List String} {result : Except AuthError Unit}
    (h : workingHost.Leads i (r.removeKeys keys) w result w') (loc : Loc) :
  w'.entries.get loc =
    if loc.dir = r.directory ∧ loc.key ∈ keys then none else w.entries.get loc
  := by
  induction keys generalizing w with
  | nil =>
      obtain ⟨-, rfl⟩ := h
      simp
  | cons key keys ih =>
      obtain ⟨_, w₁, hremove, hrest⟩ | ⟨e, ⟨_, _, he, -⟩, -⟩ := h.of_bind
      · obtain rfl := leads_remove hremove
        rw [ih hrest, World.deleteEntry, JsMap.get_delete]
        obtain ⟨dir, key'⟩ := loc
        by_cases hkey : key' = key
        · by_cases hdir : dir = r.directory
          · simp [hkey, hdir]
          · simp [hdir]
        · simp [hkey]
      · cases he

/-- The files that a reset removes. -/
def Removes (r : TokenRuntime) (loc : Loc) : Prop :=
  loc = r.cacheLoc ∨ loc.dir = r.directory ∧ '/' ∉ loc.key.toList ∧ r.Prefixes loc.key

instance (loc : Loc) :
  Decidable (r.Removes loc)
  := inferInstanceAs (Decidable (_ ∨ _ ∧ _ ∧ _))

/-- A reset, run to its end. -/
def Resets (r : TokenRuntime) (w w' : World) : Prop := workingHost.Leads 0 r.reset w (.ok ()) w'

theorem get_reset (h : r.Resets w w') (loc : Loc) :
  w'.entries.get loc = if r.Removes loc then none else w.entries.get loc
  := by
  obtain ⟨_, w₁, hremove, hrest⟩ | ⟨e, ⟨_, _, he, -⟩, -⟩ := h.of_bind
  · obtain rfl := leads_remove hremove
    obtain ⟨keys, ⟨-, hkeys⟩, hkeysRemoved⟩ := hrest
    rw [leads_removeKeys hkeysRemoved]
    have hlisted : loc.key ∈ keys ↔
        (∃ entry, (w.entries.delete r.cacheLoc).get ⟨r.directory, loc.key⟩ = some entry) ∧
          '/' ∉ loc.key.toList ∧ r.Prefixes loc.key := by
      rw [hkeys.mem_iff, World.mem_keysWithPrefix]
      rfl
    change (if loc.dir = r.directory ∧ loc.key ∈ keys then none
      else (w.entries.delete r.cacheLoc).get loc) = _
    by_cases hroot : loc = r.cacheLoc
    · have hremoved : r.Removes loc := .inl hroot
      rw [if_pos hremoved, hroot, JsMap.get_delete_self, ite_self]
    · rw [JsMap.get_delete_of_ne _ hroot]
      split
      · next h =>
          rw [if_pos (.inr ⟨h.1, (hlisted.mp h.2).2⟩)]
      · next hkept =>
          split
          · next hremoved =>
              obtain ⟨hdir, hslash, hpre⟩ := hremoved.resolve_left hroot
              apply Option.eq_none_iff_forall_ne_some.mpr
              intro entry hentry
              apply hkept ⟨hdir, hlisted.mpr ⟨⟨entry, _⟩, hslash, hpre⟩⟩
              rw [← hdir, JsMap.get_delete_of_ne _ hroot]
              apply hentry
          · rfl
  · cases he

/-- A reset comes to its end. -/
theorem exists_resets (r : TokenRuntime) (w : World) :
  ∃ w', r.Resets w w'
  := by
  have hremoved : ∀ (keys : List String) (w : World),
      ∃ w', workingHost.Leads 0 (r.removeKeys keys) w (.ok ()) w' := by
    intro keys
    induction keys with
    | nil => exact fun w => ⟨w, rfl, rfl⟩
    | cons key keys ih =>
        intro w
        obtain ⟨w', hw'⟩ := ih (w.deleteEntry ⟨r.directory, key⟩)
        use w'
        exact ⟨true, ⟨trivial, rfl⟩, hw'⟩
  obtain ⟨w', hw'⟩ := hremoved ((w.deleteEntry r.cacheLoc).keysWithPrefix r.directory
    (r.identity ++ "-")) (w.deleteEntry r.cacheLoc)
  use w'
  exact ⟨true, ⟨trivial, rfl⟩, _, ⟨.inl (.refl _), .refl _⟩, hw'⟩

/-! ### Two identities -/

/-- The files of `r` are gone, and those of another identity as they were. -/
def ResetsOnly (r r' : TokenRuntime) (w w' : World) : Prop :=
  (∀ loc, r.TokenLoc loc → w'.entries.get loc = none) ∧
    ∀ loc, r'.TokenLoc loc → w'.entries.get loc = w.entries.get loc

/-- No file of a list of locations is present. -/
def Absent (w : World) (p : Loc → Prop) : Prop := ∀ loc, p loc → w.entries.get loc = none

/-- The exchanged tokens of `r` can be listed, those of another identity are not listed with
them, and none of them has the name of the root token. -/
structure NamesApart (r r' : TokenRuntime) (w : World) : Prop where
  listed : '/' ∈ r.identity.toList → Absent w fun loc => ∃ key, loc = r.exchangeLoc key
  apart : r.Prefixes r'.identity → '/' ∉ r'.identity.toList → Absent w r'.TokenLoc
  root : Absent w fun loc => (∃ key, loc = r'.exchangeLoc key) ∧ loc = r.cacheLoc

variable {r' : TokenRuntime}

theorem exchangeLoc_ne_cacheLoc (r : TokenRuntime) (key : String) :
  r.exchangeLoc key ≠ r.cacheLoc
  := by
  intro heq
  have hlength := congrArg (fun loc => loc.key.toList.length) heq
  change (r.exchangeCacheKey key).toList.length = r.identity.toList.length at hlength
  rw [toList_exchangeCacheKey, List.length_append, List.length_cons] at hlength
  omega

theorem slash_exchangeCacheKey (hhex : r.HexHash) (key : String) :
  '/' ∈ (r.exchangeCacheKey key).toList ↔ '/' ∈ r.identity.toList
  := by
  rw [toList_exchangeCacheKey, List.mem_append, List.mem_cons]
  constructor
  · rintro (h | h | h)
    · apply h
    · cases h
    · exact (hhex.notMem _ (by decide) h).elim
  · exact .inl

/-- The exchanged tokens of `r` start with its identity. -/
theorem prefixes_self (r : TokenRuntime) (key : String) :
  r.Prefixes (r.exchangeCacheKey key)
  := by
  unfold Prefixes
  rw [toList_exchangeCacheKey, String.toList_append]
  use (r.hashCacheKey (r.identity ++ ":" ++ key)).toList
  simp

/-- A reset removes the exchanged tokens that it can list. -/
theorem removes_exchangeLoc (hhex : r.HexHash) (key : String) :
  r.Removes (r.exchangeLoc key) ↔ '/' ∉ r.identity.toList
  := by
  have hslash := slash_exchangeCacheKey hhex key
  constructor
  · rintro (h | ⟨-, h, -⟩) hmem
    · exact exchangeLoc_ne_cacheLoc r key h
    · exact h (hslash.mpr hmem)
  · intro h
    right
    use rfl, mt hslash.mp h
    apply prefixes_self

/-- What a reset removes of another identity. -/
theorem removes_other (hdir : r'.directory = r.directory) (hne : r'.identity ≠ r.identity)
    (hhex : r'.HexHash) {loc : Loc} (hloc : r'.TokenLoc loc) :
  r.Removes loc ↔
    r.Prefixes r'.identity ∧ '/' ∉ r'.identity.toList ∨
      (∃ key, loc = r'.exchangeLoc key) ∧ loc = r.cacheLoc
  := by
  have hroot : r'.cacheLoc ≠ r.cacheLoc := fun heq => hne (congrArg Loc.key heq)
  obtain rfl | ⟨key, rfl⟩ := hloc
  · constructor
    · rintro (h | ⟨-, hslash, hpre⟩)
      · exact (hroot h).elim
      · exact .inl ⟨hpre, hslash⟩
    · rintro (⟨hpre, hslash⟩ | ⟨-, h⟩)
      · exact .inr ⟨hdir, hslash, hpre⟩
      · exact (hroot h).elim
  · have hslash := slash_exchangeCacheKey hhex key
    have hpre := prefixes_exchangeCacheKey hne hhex key
    constructor
    · rintro (h | ⟨-, hslash', hpre'⟩)
      · exact .inr ⟨⟨key, rfl⟩, h⟩
      · exact .inl ⟨hpre.mp hpre', mt hslash.mpr hslash'⟩
    · rintro (⟨hpre', hslash'⟩ | ⟨-, h⟩)
      · exact .inr ⟨hdir, mt hslash.mp hslash', hpre.mpr hpre'⟩
      · exact .inl h

/-- A reset removes the files of its identity and no others exactly when the names of the two
identities are apart. -/
theorem resetsOnly_iff_namesApart (r r' : TokenRuntime) (w w' : World)
    (hdir : r'.directory = r.directory) (hne : r'.identity ≠ r.identity) (hhex : r.HexHash)
    (hhex' : r'.HexHash) (h : r.Resets w w') :
  r.ResetsOnly r' w w' ↔ r.NamesApart r' w
  := by
  have hget := get_reset h
  constructor
  · rintro ⟨hown, hother⟩
    have hremoved : ∀ loc, r'.TokenLoc loc → r.Removes loc → w.entries.get loc = none := by
      intro loc hloc hrem
      rw [← hother loc hloc, hget, if_pos hrem]
    constructor
    · rintro hslash loc ⟨key, rfl⟩
      have hkept := mt (removes_exchangeLoc hhex key).mp (not_not.mpr hslash)
      have hgone := hown _ (.inr ⟨key, rfl⟩)
      rwa [hget, if_neg hkept] at hgone
    · intro hpre hslash loc hloc
      apply hremoved loc hloc
      apply (removes_other hdir hne hhex' hloc).mpr
      exact .inl ⟨hpre, hslash⟩
    · rintro loc ⟨⟨key, rfl⟩, hroot⟩
      apply hremoved _ (.inr ⟨key, rfl⟩)
      exact .inl hroot
  · intro hapart
    constructor
    · rintro loc (rfl | ⟨key, rfl⟩)
      · rw [hget, if_pos (.inl rfl)]
      · rw [hget]
        by_cases hslash : '/' ∈ r.identity.toList
        · rw [hapart.listed hslash _ ⟨key, rfl⟩, ite_self]
        · rw [if_pos ((removes_exchangeLoc hhex key).mpr hslash)]
    · intro loc hloc
      rw [hget]
      split
      · next hrem =>
          symm
          obtain ⟨hpre, hslash⟩ | hroot := (removes_other hdir hne hhex' hloc).mp hrem
          · apply hapart.apart hpre hslash loc hloc
          · apply hapart.root loc hroot
      · rfl

end TokenRuntime

/-! ### Identities to run -/

/-- The hashes of the texts that occur below. -/
def sampleHash (value : String) : String :=
  if value = "idp:models" then "a4f4d8baac69ee7f"
  else if value = "github:models" then "68774f7ef15d7536"
  else "fa6962de14493992"

/-- A token runtime of an identity in a directory that others use too. -/
def sampleIdentity (identity : String) : TokenRuntime :=
  { sampleRuntime 0 with
    identity
    hashCacheKey := sampleHash }

theorem hexHash_sampleIdentity (identity : String) :
  (sampleIdentity identity).HexHash
  := by
  have hall : ∀ value ∈ ["a4f4d8baac69ee7f", "68774f7ef15d7536", "fa6962de14493992"],
      (value.toList.all fun c => "0123456789abcdef".toList.contains c) = true := by
    decide
  intro value c hc
  apply List.contains_iff_mem.mp
  apply List.all_eq_true.mp _ c hc
  apply hall
  change sampleHash value ∈ _
  unfold sampleHash
  split
  · apply List.mem_cons_self
  · split <;> simp

/-- A directory with the root tokens and an exchanged token of two identities. -/
def sampleTokens (r r' : TokenRuntime) : World :=
  { World.blank 1000000 with
    entries :=
      (((JsMap.empty.set r.cacheLoc (.ofToken (sampleToken "access-1" "refresh-1" 1))).set
        (r.exchangeLoc "models") (.ofToken (sampleToken "models-1" "refresh-2" 1))).set
        r'.cacheLoc (.ofToken (sampleToken "access-2" "refresh-3" 1))).set
        (r'.exchangeLoc "models") (.ofToken (sampleToken "models-2" "refresh-4" 1)) }

theorem resetsOnly_idp_github :
  ∃ w', (sampleIdentity "idp").Resets
      (sampleTokens (sampleIdentity "idp") (sampleIdentity "github")) w' ∧
    (sampleIdentity "idp").ResetsOnly (sampleIdentity "github")
      (sampleTokens (sampleIdentity "idp") (sampleIdentity "github")) w'
  := by
  obtain ⟨w', hw'⟩ := (sampleIdentity "idp").exists_resets
    (sampleTokens (sampleIdentity "idp") (sampleIdentity "github"))
  use w', hw'
  apply (TokenRuntime.resetsOnly_iff_namesApart (sampleIdentity "idp") (sampleIdentity "github")
    _ w' rfl (by decide) (hexHash_sampleIdentity _) (hexHash_sampleIdentity _) hw').mpr
  constructor
  · intro hslash
    exact absurd hslash (by decide)
  · intro hpre
    exact absurd hpre (by decide)
  · rintro loc ⟨⟨key, rfl⟩, heq⟩
    have hlength := congrArg (fun loc => loc.key.toList.length) heq
    change ((sampleIdentity "github").exchangeCacheKey key).toList.length = 3 at hlength
    rw [TokenRuntime.toList_exchangeCacheKey, List.length_append] at hlength
    change 6 + _ = 3 at hlength
    omega

/-- The root token of `idp-staging` goes with those of `idp`. -/
theorem reset_idp_removes_idp_staging :
  ¬ ∀ (r r' : TokenRuntime) (w w' : World), r'.directory = r.directory →
    r'.identity ≠ r.identity → r.HexHash → r'.HexHash → r.Resets w w' → r.ResetsOnly r' w w'
  := by
  intro hall
  obtain ⟨w', hw'⟩ := (sampleIdentity "idp").exists_resets
    (sampleTokens (sampleIdentity "idp") (sampleIdentity "idp-staging"))
  obtain ⟨-, hother⟩ := hall (sampleIdentity "idp") (sampleIdentity "idp-staging") _ w' rfl
    (by decide) (hexHash_sampleIdentity _) (hexHash_sampleIdentity _) hw'
  have hkept := hother (sampleIdentity "idp-staging").cacheLoc (.inl rfl)
  rw [TokenRuntime.get_reset hw', if_pos (by decide)] at hkept
  exact absurd hkept (by decide)

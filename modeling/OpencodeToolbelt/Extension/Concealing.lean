import OpencodeToolbelt.Extension.PageActions

/-!
# What a page conceals

The answers to `snapshot`, `query` and `getAttribute` do not tell what has been entered into the
password fields of a page, only whether something has, as long as the selectors do not ask.
-/

namespace Extension

namespace Page

namespace Element

/-- The element with its password replaced by a mask, if it is a password field. -/
def masked (el : Element) : Element :=
  if el.isSecret then
    { el with
      value := (el.value).map fun value => if value = [] then [] else SECRET_MASK
      attributes := el.attributes.map fun a => (a.1, if a.1 = "value" then SECRET_MASK else a.2) }
  else el

theorem masked_of_secret {el : Element} (h : el.isSecret = true) :
  el.masked =
    { el with
      value := (el.value).map fun value => if value = [] then [] else SECRET_MASK
      attributes := el.attributes.map fun a => (a.1, if a.1 = "value" then SECRET_MASK else a.2) }
  := if_pos h

theorem masked_of_not_secret {el : Element} (h : el.isSecret = false) :
  el.masked = el
  := if_neg (by simp [h])

/-- What an attribute list is looked up for, other than a password, is not masked. -/
theorem lookup_masked {attributes : List (String × JsUnits)} {name : String} (h : name ≠ "value") :
  (attributes.map fun a => (a.1, if a.1 = "value" then SECRET_MASK else a.2)).lookup name =
    attributes.lookup name
  := by
  induction attributes with
  | nil => rfl
  | cons a attributes ih =>
      rw [List.map_cons, List.lookup_cons, List.lookup_cons, ih]
      split
      · next heq =>
          rw [beq_iff_eq] at heq
          rw [if_neg (heq ▸ h)]
      · rfl

section Masked

variable (el : Element)

@[simp]
theorem node_masked :
  el.masked.node = el.node
  := by rw [masked]; split <;> rfl

@[simp]
theorem tag_masked :
  el.masked.tag = el.tag
  := by rw [masked]; split <;> rfl

@[simp]
theorem isSecret_masked :
  el.masked.isSecret = el.isSecret
  := by rw [masked]; split <;> rfl

@[simp]
theorem isVisible_masked :
  el.masked.isVisible = el.isVisible
  := by rw [masked]; split <;> rfl

@[simp]
theorem textContent_masked :
  el.masked.textContent = el.textContent
  := by rw [masked]; split <;> rfl

@[simp]
theorem type_masked :
  el.masked.type = el.type
  := by rw [masked]; split <;> rfl

@[simp]
theorem href_masked :
  el.masked.href = el.href
  := by rw [masked]; split <;> rfl

@[simp]
theorem checked_masked :
  el.masked.checked = el.checked
  := by rw [masked]; split <;> rfl

@[simp]
theorem rect_masked :
  el.masked.rect = el.rect
  := by rw [masked]; split <;> rfl

theorem lookup_attributes_masked {name : String} (h : name ≠ "value") :
  el.masked.attributes.lookup name = el.attributes.lookup name
  := by
  rw [masked]
  split
  · apply lookup_masked h
  · rfl

theorem getAttribute_masked {name : String}
    (h : String.ofList (name.toList.map Char.toLower) ≠ "value") :
  el.masked.getAttribute name = el.getAttribute name
  := el.lookup_attributes_masked h

@[simp]
theorem ref_masked :
  el.masked.ref = el.ref
  := el.lookup_attributes_masked (by decide)

/-- Whether an element has an attribute is not masked. -/
theorem isSome_getAttribute_masked (name : String) :
  (el.masked.attributes.lookup name).isSome = (el.attributes.lookup name).isSome
  := by
  rw [masked]
  split
  · induction el.attributes with
    | nil => rfl
    | cons a attributes ih =>
        rw [List.map_cons, List.lookup_cons, List.lookup_cons]
        split
        · rfl
        · apply ih
  · rfl

theorem masked_setAttribute (ref : JsUnits) :
  (el.setAttribute REF ref).masked = el.masked.setAttribute REF ref
  := by
  have hsecret : (el.setAttribute REF ref).isSecret = el.isSecret := rfl
  cases h : el.isSecret with
  | false => rw [masked_of_not_secret (hsecret.trans h), masked_of_not_secret h]
  | true =>
      have hsome := el.isSome_getAttribute_masked REF
      have hne : REF ≠ "value" := by decide
      rw [masked_of_secret h] at hsome ⊢
      rw [masked_of_secret (hsecret.trans h)]
      simp only [setAttribute, hsome]
      congr 1
      split
      · rw [List.map_map, List.map_map]
        apply List.map_congr_left
        intro a _
        dsimp only [Function.comp]
        split <;> rfl
      · rw [List.map_append, List.map_singleton, if_neg hne]

theorem masked_removeAttribute :
  (el.removeAttribute REF).masked = el.masked.removeAttribute REF
  := by
  have hsecret : (el.removeAttribute REF).isSecret = el.isSecret := rfl
  cases h : el.isSecret with
  | false => rw [masked_of_not_secret (hsecret.trans h), masked_of_not_secret h]
  | true =>
      rw [masked_of_secret h, masked_of_secret (hsecret.trans h)]
      simp only [removeAttribute]
      congr 1
      rw [List.filter_map]
      rfl

end Masked

end Element

/-! ### What is read of an element -/

theorem accessibleName_masked (el : Element) :
  accessibleName el.masked = accessibleName el
  := by
  have haria : el.masked.getAttribute "aria-label" = el.getAttribute "aria-label" :=
    el.getAttribute_masked (by decide)
  have hplaceholder : el.masked.getAttribute "placeholder" = el.getAttribute "placeholder" :=
    el.getAttribute_masked (by decide)
  have hvalue : (if el.masked.isSecret then some [] else el.masked.value) =
      if el.isSecret then some [] else el.value := by
    rw [el.isSecret_masked]
    cases h : el.isSecret with
    | true => rfl
    | false => rw [Element.masked_of_not_secret h]
  rw [accessibleName, accessibleName, haria, hplaceholder, hvalue, el.textContent_masked]

theorem isInteractive_masked (el : Element) :
  isInteractive el.masked = isInteractive el
  := by
  have hrole : el.masked.getAttribute "role" = el.getAttribute "role" :=
    el.getAttribute_masked (by decide)
  have honclick : el.masked.getAttribute "onclick" = el.getAttribute "onclick" :=
    el.getAttribute_masked (by decide)
  have htabindex : el.masked.getAttribute "tabindex" = el.getAttribute "tabindex" :=
    el.getAttribute_masked (by decide)
  rw [isInteractive, isInteractive, hrole, honclick, htabindex, el.tag_masked]

theorem snapshotLine_masked (ref : JsUnits) (el : Element) :
  snapshotLine (ref, el.masked) = snapshotLine (ref, el)
  := by
  have hrole : el.masked.getAttribute "role" = el.getAttribute "role" :=
    el.getAttribute_masked (by decide)
  rw [snapshotLine, snapshotLine]
  dsimp only
  rw [hrole, el.tag_masked, el.type_masked, el.href_masked, accessibleName_masked]

theorem queryElement_masked (ref : JsUnits) (el : Element) :
  queryElement (ref, el.masked) = queryElement (ref, el)
  := by
  rw [queryElement, queryElement]
  dsimp only
  rw [el.tag_masked, el.href_masked, accessibleName_masked]

/-- A name that is not `value` in any spelling does not become it. -/
theorem toLower_ne_value {name : String} (h : toLowerCase name.toList ≠ "value".toList) :
  String.ofList (name.toList.map Char.toLower) ≠ "value"
  := by
  intro heq
  apply h
  have hlist : name.toList.map Char.toLower = "value".toList := by
    rw [← heq, String.toList_ofList]
  rw [← hlist, toLowerCase]
  apply List.map_congr_left
  intro c hc
  split
  · next hkelvin =>
      -- The Kelvin sign is none of the letters of the word, even in lower case.
      have hmem : c.toLower ∈ "value".toList := by
        rw [← hlist]
        apply List.mem_map_of_mem hc
      have hsame : c.toLower.toNat = 0x212a := by
        rw [toNat_toLower, if_neg (by omega), hkelvin]
      have hall : ("value".toList.all fun c => decide (c.toNat < 0x80)) = true := by decide
      have hlt := of_decide_eq_true (List.all_eq_true.mp hall _ hmem)
      omega
  · rfl

theorem attributeInfo_masked (el : Element) (name : Option String) :
  attributeInfo el.masked name = attributeInfo el name
  := by
  cases h : el.isSecret with
  | false => rw [Element.masked_of_not_secret h]
  | true =>
      have hvalue : (truthy el.masked.value).map (fun _ => SECRET_MASK) =
          (truthy el.value).map fun _ => SECRET_MASK := by
        rw [Element.masked_of_secret h]
        cases el.value with
        | none => rfl
        | some value => cases value <;> rfl
      have hasked : ∀ name,
          (if toLowerCase name.toList = "value".toList then some SECRET_MASK
            else el.masked.getAttribute name) =
          if toLowerCase name.toList = "value".toList then some SECRET_MASK
            else el.getAttribute name := by
        intro name
        split
        · rfl
        · next hne => rw [el.getAttribute_masked (toLower_ne_value hne)]
      have hattributes : (el.masked.attributes.map fun a =>
          (a.1, if a.1 = "value" then SECRET_MASK else a.2)) =
          el.attributes.map fun a => (a.1, if a.1 = "value" then SECRET_MASK else a.2) := by
        rw [Element.masked_of_secret h, List.map_map]
        apply List.map_congr_left
        intro a _
        dsimp only [Function.comp]
        split <;> rfl
      rw [attributeInfo, attributeInfo]
      simp only [el.isSecret_masked, h, el.tag_masked, el.checked_masked, el.rect_masked,
        accessibleName_masked, hvalue, hasked, hattributes, Bool.true_and, decide_eq_true_eq,
        if_true]

/-! ### Actions -/

/-- The page with its passwords replaced by masks. -/
def maskSecrets (doc : Document) : Document := doc.map Element.masked

/-- The listing with the passwords of its elements replaced by masks. -/
def maskListing (listing : Listing) : Listing := listing.map fun entry => (entry.1, entry.2.masked)

/-- A selector that does not select by passwords. -/
def Blind (css : Css) (selector : String) : Prop :=
  ∀ matched, css selector = some matched →
    ∀ doc el, matched (maskSecrets doc) el.masked = matched doc el

/-- The selector of an action, if it uses one, does not select by passwords. -/
def Action.Blind (css : Css) : Action → Prop
  | .snapshot _ => True
  | .query selector _ => Page.Blind css (selector.getD "*")
  | .getAttribute _ selector _ => ∀ s, nonEmpty selector = some s → Page.Blind css s

theorem writeRefs_cons (entry : JsUnits × Element) (listing : Listing) (doc : Document) :
  writeRefs (entry :: listing) doc =
    writeRefs listing (doc.map fun el =>
      if el.node = entry.2.node then el.setAttribute Element.REF entry.1 else el)
  := rfl

theorem writeRefs_masked (listing : Listing) (doc : Document) :
  writeRefs (maskListing listing) (maskSecrets doc) = maskSecrets (writeRefs listing doc)
  := by
  induction listing generalizing doc with
  | nil => rfl
  | cons entry listing ih =>
      rw [maskListing, List.map_cons, ← maskListing, writeRefs_cons, writeRefs_cons, ← ih]
      congr 1
      rw [maskSecrets, maskSecrets, List.map_map, List.map_map]
      apply List.map_congr_left
      intro el _
      dsimp only [Function.comp]
      rw [el.node_masked, entry.2.node_masked]
      split
      · rw [el.masked_setAttribute]
      · rfl

theorem clearRefs_masked (action : Action) (doc : Document) :
  clearRefs action (maskSecrets doc) = maskSecrets (clearRefs action doc)
  := by
  cases action with
  | snapshot maxNodes =>
      rw [clearRefs, clearRefs, maskSecrets, maskSecrets, List.map_map, List.map_map]
      apply List.map_congr_left
      intro el _
      exact el.masked_removeAttribute.symm
  | query selector limit =>
      rw [clearRefs, clearRefs, maskSecrets, maskSecrets, List.map_map, List.map_map]
      apply List.map_congr_left
      intro el _
      dsimp only [Function.comp]
      rw [el.ref_masked]
      split
      · rw [el.masked_removeAttribute]
      · rfl
  | getAttribute ref selector name => rfl

theorem filter_masked {p p' : Element → Bool} (h : ∀ el, p' el.masked = p el) (doc : Document) :
  (maskSecrets doc).filter p' = maskSecrets (doc.filter p)
  := by
  rw [maskSecrets, maskSecrets, List.filter_map]
  congr 1
  apply List.filter_congr
  intro el _
  apply h

theorem snapshotLoop_masked (max : ℚ) (n : ℕ) (doc : Document) :
  snapshotLoop max n (maskSecrets doc) = maskListing (snapshotLoop max n doc)
  := by
  induction doc generalizing n with
  | nil => rfl
  | cons el doc ih =>
      rw [maskSecrets, List.map_cons, ← maskSecrets, snapshotLoop, snapshotLoop,
        el.isVisible_masked, ih, ih]
      split <;> rfl

theorem sliceTo_map {α β : Type} (f : α → β) (limit : ℚ) (values : List α) :
  sliceTo limit (values.map f) = (sliceTo limit values).map f
  := by
  rw [sliceTo, sliceTo, List.length_map]
  split <;> rw [List.map_take]

theorem queryListing_masked (limit : ℚ) (doc : Document) :
  queryListing limit (maskSecrets doc) = maskListing (queryListing limit doc)
  := by
  rw [queryListing, queryListing, filter_masked Element.isVisible_masked, maskSecrets,
    sliceTo_map, List.zipIdx_map, maskListing, List.map_map, List.map_map]
  rfl

theorem listingOf_masked {css : Css} {action : Action} (h : action.Blind css) (doc : Document) :
  listingOf css action (maskSecrets doc) = (listingOf css action doc).map maskListing
  := by
  cases action with
  | snapshot maxNodes =>
      rw [listingOf, listingOf, filter_masked isInteractive_masked, snapshotLoop_masked]
      rfl
  | query selector limit =>
      rw [listingOf, listingOf]
      cases hcss : css (selector.getD "*") with
      | none => rfl
      | some matched =>
          rw [Option.map_some, Option.map_some, filter_masked (h matched hcss doc),
            queryListing_masked]
          rfl
  | getAttribute ref selector name => rfl

theorem find?_masked {p p' : Element → Bool} (h : ∀ el, p' el.masked = p el) (doc : Document) :
  (maskSecrets doc).find? p' = (doc.find? p).map Element.masked
  := by
  rw [maskSecrets, List.find?_map]
  congr 2
  funext el
  apply h

theorem resolveEl_masked {css : Css} {ref : Option JsUnits} {selector : Option String}
    (h : ∀ s, nonEmpty selector = some s → Blind css s) (doc : Document) :
  resolveEl css (maskSecrets doc) ref selector =
    (resolveEl css doc ref selector).map (Option.map Element.masked)
  := by
  rw [resolveEl, resolveEl]
  cases truthy ref with
  | some ref =>
      have hfind : byRef (maskSecrets doc) ref = (byRef doc ref).map Element.masked :=
        find?_masked (fun el => by rw [el.ref_masked]) doc
      exact congrArg some hfind
  | none =>
      cases hselector : nonEmpty selector with
      | none => rfl
      | some selector =>
          dsimp only
          cases hcss : css selector with
          | none => rfl
          | some matched =>
              rw [Option.map_some, Option.map_some,
                find?_masked (h selector hselector matched hcss doc)]
              rfl

/-- An action answers as it does where the passwords are masked, and masks them no less. -/
theorem pageDispatch_masked {css : Css} {action : Action} (h : action.Blind css)
    (doc : Document) :
  pageDispatch css action (maskSecrets doc) =
    ((pageDispatch css action doc).1, maskSecrets (pageDispatch css action doc).2)
  := by
  have hlisting := listingOf_masked h (clearRefs action doc)
  have hafter : documentAfter css action (maskSecrets doc) =
      maskSecrets (documentAfter css action doc) := by
    rw [documentAfter, documentAfter, clearRefs_masked, hlisting, ← writeRefs_masked]
    cases listingOf css action (clearRefs action doc) <;> rfl
  rw [pageDispatch, pageDispatch, hafter, clearRefs_masked, hlisting]
  dsimp only
  congr 1
  cases action with
  | snapshot maxNodes =>
      have hlines : ∀ listing : Listing,
          (maskListing listing).map snapshotLine = listing.map snapshotLine := by
        intro listing
        rw [maskListing, List.map_map]
        apply List.map_congr_left
        intro entry _
        apply snapshotLine_masked
      rw [listingOf, Option.map_some, replyOf, replyOf, Option.getD_some, Option.getD_some, hlines,
        maskListing, List.length_map]
  | query selector limit =>
      cases listingOf css (.query selector limit) (clearRefs (.query selector limit) doc) with
      | none => rfl
      | some listing =>
          rw [Option.map_some, replyOf, replyOf, maskListing, List.map_map]
          congr 1
          apply List.map_congr_left
          intro entry _
          apply queryElement_masked
  | getAttribute ref selector name =>
      rw [replyOf, replyOf, resolveEl_masked h]
      cases resolveEl css (clearRefs (.getAttribute ref selector name) doc) ref selector with
      | none => rfl
      | some found =>
          cases found with
          | none => rfl
          | some el => exact congrArg Reply.found (attributeInfo_masked el name)

/-- The answers to actions, one after the other. -/
def replies (css : Css) : List Action → Document → List Reply
  | [], _ => []
  | action :: actions, doc =>
      (pageDispatch css action doc).1 :: replies css actions (pageDispatch css action doc).2

theorem replies_masked {css : Css} {actions : List Action}
    (h : ∀ action ∈ actions, action.Blind css) (doc : Document) :
  replies css actions (maskSecrets doc) = replies css actions doc
  := by
  induction actions generalizing doc with
  | nil => rfl
  | cons action actions ih =>
      rw [replies, replies, pageDispatch_masked (h action List.mem_cons_self),
        ih fun action' h' => h action' (List.mem_cons_of_mem _ h')]

/-- Two pages that differ only in their passwords answer the same, whatever is asked of them
one after the other. -/
theorem secrets_concealed (css : Css) (actions : List Action)
    (hblind : ∀ action ∈ actions, action.Blind css) (doc doc' : Document)
    (hmasked : maskSecrets doc = maskSecrets doc') :
  replies css actions doc = replies css actions doc'
  := by rw [← replies_masked hblind doc, hmasked, replies_masked hblind doc']

/-- What is told of a page with a button and a password field. -/
theorem secrets_concealed_password :
  replies selectAll [.snapshot none, .query none none,
      .getAttribute (some (refOf 'q' 2)) none (some "VALUE")]
    [sampleElement 0 "button" none, sampleElement 1 "input" (some (unitsOfString "hunter2"))] =
  replies selectAll [.snapshot none, .query none none,
      .getAttribute (some (refOf 'q' 2)) none (some "VALUE")]
    [sampleElement 0 "button" none, sampleElement 1 "input" (some (unitsOfString "swordfish"))]
  := by
  apply secrets_concealed
  · intro action haction
    obtain rfl | rfl | rfl : action = .snapshot none ∨ action = .query none none ∨
        action = .getAttribute (some (refOf 'q' 2)) none (some "VALUE") := by simpa using haction
    · trivial
    · rintro matched ⟨⟩ doc el
      rfl
    · rintro s ⟨⟩
  · decide +kernel

end Page

end Extension

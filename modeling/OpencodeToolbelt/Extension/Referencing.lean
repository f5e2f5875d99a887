import OpencodeToolbelt.Extension.PageActions
import Mathlib.Data.List.Nodup
import Mathlib.Logic.Relation

/-!
# What a ref refers to

An agent acts on elements by the refs it was told. Whatever it lists, and however the page
changes in between, a ref resolves to no other element than the one it was last told for, as
long as no node comes into the page with a ref on it.
-/

namespace Extension

namespace Page

/-! ### Attributes -/

theorem lookup_filter_self {V : Type} (attributes : List (String × V)) (name : String) :
  (attributes.filter fun a => a.1 ≠ name).lookup name = none
  := by
  rw [List.lookup_eq_none_iff]
  intro a ha
  obtain ⟨-, hne⟩ := List.mem_filter.mp ha
  rw [bne_iff_ne]
  apply Ne.symm (of_decide_eq_true hne)

theorem lookup_append_single {V : Type} {attributes : List (String × V)} {name : String}
    (h : attributes.lookup name = none) (value : V) :
  (attributes ++ [(name, value)]).lookup name = some value
  := by
  rw [List.lookup_append, h, Option.none_or]
  simp

theorem lookup_map_replace {V : Type} {attributes : List (String × V)} {name : String}
    (h : (attributes.lookup name).isSome) (value : V) :
  (attributes.map fun a => if a.1 = name then (name, value) else a).lookup name = some value
  := by
  induction attributes with
  | nil => cases h
  | cons a attributes ih =>
      obtain ⟨key, found⟩ := a
      by_cases heq : key = name
      · simp [heq]
      · rw [List.lookup_cons, beq_eq_false_iff_ne.mpr (Ne.symm heq)] at h
        simp only [List.map_cons, if_neg heq, List.lookup_cons,
          beq_eq_false_iff_ne.mpr (Ne.symm heq)]
        apply ih h

namespace Element

@[simp]
theorem ref_removeAttribute (el : Element) :
  (el.removeAttribute REF).ref = none
  := lookup_filter_self el.attributes REF

@[simp]
theorem ref_setAttribute (el : Element) (ref : JsUnits) :
  (el.setAttribute REF ref).ref = some ref
  := by
  rw [Element.ref, setAttribute]
  dsimp only
  split
  · next h => apply lookup_map_replace h
  · next h =>
      apply lookup_append_single
      rw [← Option.not_isSome_iff_eq_none]
      apply h

@[simp]
theorem node_setAttribute (el : Element) (name : String) (value : JsUnits) :
  (el.setAttribute name value).node = el.node
  := rfl

@[simp]
theorem node_removeAttribute (el : Element) (name : String) :
  (el.removeAttribute name).node = el.node
  := rfl

end Element

/-! ### Listings -/

theorem refOf_inj {pre : Char} {n m : ℕ} (h : refOf pre n = refOf pre m) :
  n = m
  := by
  have htext := congrArg wellFormedText h
  rw [refOf, refOf, wellFormedText_unitsOfText, wellFormedText_unitsOfText] at htext
  obtain ⟨-, hdigits⟩ := List.cons.inj htext
  have hread := congrArg (readNumeral 10) hdigits
  rw [readNumeral_writeNumeral (by omega) (by omega),
    readNumeral_writeNumeral (by omega) (by omega)] at hread
  apply Option.some.inj hread

theorem isQueryRef_refOf (n : ℕ) :
  isQueryRef (some (refOf 'q' n)) = true
  := rfl

/-- Elements, numbered after the first `n` ones. -/
def numbered (pre : Char) (n : ℕ) (els : Document) : Listing :=
  (els.zipIdx n).map fun p => (refOf pre (p.2 + 1), p.1)

@[simp]
theorem map_snd_numbered (pre : Char) (n : ℕ) (els : Document) :
  (numbered pre n els).map Prod.snd = els
  := by
  rw [numbered, List.map_map]
  apply List.zipIdx_map_fst

theorem mem_numbered {pre : Char} {n : ℕ} {els : Document} {entry : JsUnits × Element}
    (h : entry ∈ numbered pre n els) :
  ∃ m, n < m ∧ entry.1 = refOf pre m
  := by
  obtain ⟨⟨el, m⟩, hmem, rfl⟩ := List.mem_map.mp h
  have hle := List.le_snd_of_mem_zipIdx hmem
  refine ⟨m + 1, ?_, rfl⟩
  change n ≤ m at hle
  omega

theorem nodup_numbered (pre : Char) (n : ℕ) (els : Document) :
  ((numbered pre n els).map Prod.fst).Nodup
  := by
  induction els generalizing n with
  | nil => exact List.nodup_nil
  | cons el els ih =>
      change (refOf pre (n + 1) :: (numbered pre (n + 1) els).map Prod.fst).Nodup
      rw [List.nodup_cons]
      constructor
      · intro hmem
        obtain ⟨entry, hentry, heq⟩ := List.mem_map.mp hmem
        obtain ⟨m, hlt, hm⟩ := mem_numbered hentry
        rw [hm] at heq
        have heq := refOf_inj heq
        omega
      · apply ih

/-- `snapshot` numbers some of the elements it looks at. -/
theorem snapshotLoop_eq (max : ℚ) (n : ℕ) (doc : Document) :
  ∃ els, els.Sublist doc ∧ snapshotLoop max n doc = numbered 'e' n els
  := by
  induction doc generalizing n with
  | nil => exact ⟨[], .slnil, rfl⟩
  | cons el doc ih =>
      rw [snapshotLoop]
      split
      · obtain ⟨els, hsub, heq⟩ := ih n
        exact ⟨els, hsub.cons el, heq⟩
      · obtain ⟨els, hsub, heq⟩ := ih (n + 1)
        refine ⟨el :: els, hsub.cons_cons el, ?_⟩
        rw [heq]
        rfl

theorem sliceTo_sublist {α : Type} (limit : ℚ) (values : List α) :
  (sliceTo limit values).Sublist values
  := by
  rw [sliceTo]
  split <;> apply List.take_sublist

/-- An action numbers some of the elements of the page. -/
theorem listing_numbered (css : Css) (action : Action) (doc : Document) :
  ∃ pre els, els.Sublist doc ∧ (listingOf css action doc).getD [] = numbered pre 0 els ∧
    ∀ selector limit, action = .query selector limit → pre = 'q'
  := by
  cases action with
  | snapshot maxNodes =>
      obtain ⟨els, hsub, heq⟩ := snapshotLoop_eq (maxNodes.getD 200) 0 (doc.filter isInteractive)
      refine ⟨'e', els, hsub.trans List.filter_sublist, heq, ?_⟩
      rintro _ _ ⟨⟩
  | query selector limit =>
      rw [listingOf]
      cases css (selector.getD "*") with
      | none => exact ⟨'q', [], List.nil_sublist doc, rfl, fun _ _ _ => rfl⟩
      | some matched =>
          refine ⟨'q', _, ?_, rfl, fun _ _ _ => rfl⟩
          apply (sliceTo_sublist _ _).trans
          apply List.filter_sublist.trans List.filter_sublist
  | getAttribute ref selector name =>
      refine ⟨'q', [], List.nil_sublist doc, rfl, fun _ _ _ => rfl⟩

/-! ### The page with the refs written -/

theorem map_node_writeRefs (listing : Listing) (doc : Document) :
  (writeRefs listing doc).map Element.node = doc.map Element.node
  := by
  induction listing generalizing doc with
  | nil => rfl
  | cons entry listing ih =>
      rw [writeRefs, List.foldl_cons, ← writeRefs, ih, List.map_map]
      apply List.map_congr_left
      intro el _
      dsimp only [Function.comp]
      split <;> rfl

theorem map_node_clearRefs (action : Action) (doc : Document) :
  (clearRefs action doc).map Element.node = doc.map Element.node
  := by
  cases action with
  | snapshot maxNodes =>
      rw [clearRefs, List.map_map]
      rfl
  | query selector limit =>
      rw [clearRefs, List.map_map]
      apply List.map_congr_left
      intro el _
      dsimp only [Function.comp]
      split <;> rfl
  | getAttribute ref selector name => rfl

/-- An element of the page either has been listed, under the ref it now carries, or is left as
it was. -/
theorem mem_writeRefs {listing : Listing} {doc : Document} {el' : Element}
    (h : el' ∈ writeRefs listing doc) :
  (∃ entry ∈ listing, entry.2.node = el'.node ∧ el'.ref = some entry.1) ∨
    (∀ entry ∈ listing, entry.2.node ≠ el'.node) ∧ el' ∈ doc
  := by
  induction listing generalizing doc with
  | nil => exact .inr ⟨fun _ hmem => absurd hmem List.not_mem_nil, h⟩
  | cons entry listing ih =>
      obtain ⟨later, hlater, hnode, href⟩ | ⟨hnone, hmem⟩ := ih h
      · exact .inl ⟨later, List.mem_cons_of_mem _ hlater, hnode, href⟩
      · obtain ⟨el, hel, heq⟩ := List.mem_map.mp hmem
        split at heq
        · next hsame =>
            left
            use entry, List.mem_cons_self
            rw [← heq]
            exact ⟨hsame.symm, el.ref_setAttribute entry.1⟩
        · next hother =>
            subst heq
            right
            refine ⟨?_, hel⟩
            intro found hfound
            obtain rfl | hfound := List.mem_cons.mp hfound
            · apply Ne.symm hother
            · apply hnone found hfound

/-! ### Sessions -/

/-- A page, and the nodes that its refs stand for according to what the agent was told. -/
structure Session where
  document : Document
  told : JsUnits → Option ℕ

/-- What the agent is told by a listing, which replaces the earlier ones of its kind. -/
def tell (action : Action) (listing : Listing) (told : JsUnits → Option ℕ) (ref : JsUnits) :
    Option ℕ :=
  match listing.lookup ref with
  | some el => some el.node
  | none =>
      match action with
      | .snapshot _ => none
      | .query _ _ => if isQueryRef (some ref) then none else told ref
      | .getAttribute _ _ _ => told ref

/-- A change of the page by itself: a node with a ref is one that has carried it. -/
structure Carries (doc doc' : Document) : Prop where
  nodup : (doc'.map Element.node).Nodup
  carried : ∀ el' ∈ doc', ∀ ref, el'.ref = some ref →
    ∃ el ∈ doc, el.node = el'.node ∧ el.ref = some ref

/-- An action of the agent, or a change of the page. -/
inductive Session.Step (css : Css) : Session → Session → Prop where
  | dispatch (s : Session) (action : Action) :
      Step css s
        { document := (pageDispatch css action s.document).2
          told :=
            tell action ((listingOf css action (clearRefs action s.document)).getD []) s.told }
  | change (s : Session) (doc' : Document) (h : Carries s.document doc') :
      Step css s { s with document := doc' }

/-- A ref in the page is on the node that the agent was told it stands for. -/
structure Session.Told (s : Session) : Prop where
  nodup : (s.document.map Element.node).Nodup
  refs : ∀ el ∈ s.document, ∀ ref, el.ref = some ref → s.told ref = some el.node

theorem lookup_of_mem {V : Type} {entries : List (JsUnits × V)} {entry : JsUnits × V}
    (hnodup : (entries.map Prod.fst).Nodup) (h : entry ∈ entries) :
  entries.lookup entry.1 = some entry.2
  := by
  induction entries with
  | nil => cases h
  | cons first entries ih =>
      rw [List.map_cons, List.nodup_cons] at hnodup
      rw [List.lookup_cons]
      obtain rfl | h := List.mem_cons.mp h
      · simp
      · have hne : entry.1 ≠ first.1 := by
          intro heq
          apply hnodup.1
          rw [← heq]
          apply List.mem_map_of_mem h
        rw [beq_eq_false_iff_ne.mpr hne]
        apply ih hnodup.2 h

/-- A ref that an action leaves alone still stands for the same node. -/
theorem told_of_cleared {css : Css} {action : Action} {s : Session} (hs : s.Told) {el : Element}
    (hmem : el ∈ clearRefs action s.document) {ref : JsUnits} (href : el.ref = some ref) :
  tell action ((listingOf css action (clearRefs action s.document)).getD []) s.told ref =
    some el.node
  := by
  obtain ⟨pre, els, -, heq, hpre⟩ := listing_numbered css action (clearRefs action s.document)
  cases action with
  | snapshot maxNodes =>
      obtain ⟨el, -, rfl⟩ := List.mem_map.mp hmem
      rw [Element.ref_removeAttribute] at href
      cases href
  | query selector limit =>
      obtain ⟨old, hold, rfl⟩ := List.mem_map.mp hmem
      split at href
      · rw [Element.ref_removeAttribute] at href
        cases href
      · next hkept =>
          rw [if_neg hkept]
          rw [href] at hkept
          have hnone : (numbered pre 0 els).lookup ref = none := by
            rw [List.lookup_eq_none_iff]
            intro entry hentry
            obtain ⟨m, -, hm⟩ := mem_numbered hentry
            rw [bne_iff_ne]
            intro hsame
            apply hkept
            rw [hsame, hm, hpre selector limit rfl, isQueryRef_refOf]
          rw [heq, tell, hnone]
          dsimp only
          rw [if_neg hkept]
          apply hs.refs old hold ref href
  | getAttribute ref' selector name => apply hs.refs el hmem ref href

theorem Session.Told.step {css : Css} {s s' : Session} (hs : s.Told) (h : Session.Step css s s') :
  s'.Told
  := by
  cases h with
  | dispatch action =>
      obtain ⟨pre, els, hsub, heq, -⟩ :=
        listing_numbered css action (clearRefs action s.document)
      constructor
      · change ((documentAfter css action s.document).map Element.node).Nodup
        rw [documentAfter, map_node_writeRefs, map_node_clearRefs]
        apply hs.nodup
      · intro el hel ref href
        obtain ⟨entry, hentry, hnode, hlisted⟩ | ⟨-, hmem⟩ := mem_writeRefs hel
        · rw [href] at hlisted
          obtain rfl := Option.some.inj hlisted
          dsimp only
          rw [heq] at hentry ⊢
          unfold tell
          rw [lookup_of_mem (nodup_numbered pre 0 els) hentry]
          exact congrArg some hnode
        · apply told_of_cleared hs hmem href
  | change doc' h =>
      refine ⟨h.nodup, ?_⟩
      intro el' hel' ref href
      obtain ⟨el, hel, hnode, hold⟩ := h.carried el' hel' ref href
      change s.told ref = some el'.node
      rw [hs.refs el hel ref hold, hnode]

/-- The element that a ref resolves to is the one the agent was told. -/
theorem Session.Told.resolves {s : Session} (hs : s.Told) {ref : JsUnits} {el : Element}
    (h : byRef s.document ref = some el) :
  s.told ref = some el.node
  := by
  have href := List.find?_some h
  apply hs.refs el (List.mem_of_find?_eq_some h) ref
  simpa using href

/-- Right after a listing, each of its refs resolves to the element it was listed for. -/
theorem byRef_documentAfter {css : Css} {action : Action} {s : Session} (hs : s.Told)
    {entry : JsUnits × Element}
    (hentry : entry ∈ (listingOf css action (clearRefs action s.document)).getD []) :
  ∃ el, byRef (documentAfter css action s.document) entry.1 = some el ∧ el.node = entry.2.node
  := by
  obtain ⟨pre, els, hsub, heq, -⟩ := listing_numbered css action (clearRefs action s.document)
  have hstep := hs.step (@Session.Step.dispatch css s action)
  have hnodes : ((numbered pre 0 els).map fun e => e.2.node).Nodup := by
    have hmap : (numbered pre 0 els).map (fun e => e.2.node) = els.map Element.node := by
      conv_rhs => rw [← map_snd_numbered pre 0 els, List.map_map]
      rfl
    rw [hmap]
    apply (hsub.map Element.node).nodup
    rw [map_node_clearRefs]
    apply hs.nodup
  -- The node of the entry is still in the page, and no other entry has written its ref.
  have hlisted : entry.2.node ∈ (documentAfter css action s.document).map Element.node := by
    rw [documentAfter, map_node_writeRefs]
    apply List.mem_map_of_mem
    apply hsub.subset
    rw [heq] at hentry
    rw [← map_snd_numbered pre 0 els]
    apply List.mem_map_of_mem hentry
  obtain ⟨el, hel, hnode⟩ := List.mem_map.mp hlisted
  have href : el.ref = some entry.1 := by
    obtain ⟨found, hfound, hsame, href⟩ | ⟨hnone, -⟩ := mem_writeRefs hel
    · rw [heq] at hentry hfound
      rw [hnode] at hsame
      obtain rfl := List.inj_on_of_nodup_map hnodes hfound hentry hsame
      apply href
    · cases hnone entry hentry hnode.symm
  cases hfind : byRef (documentAfter css action s.document) entry.1 with
  | none =>
      have hnone := List.find?_eq_none.mp hfind el hel
      simp [href] at hnone
  | some found =>
      refine ⟨found, rfl, ?_⟩
      have htold : tell action ((listingOf css action (clearRefs action s.document)).getD [])
          s.told entry.1 = some found.node := hstep.resolves hfind
      have htold' : tell action ((listingOf css action (clearRefs action s.document)).getD [])
          s.told entry.1 = some el.node := hstep.refs el hel entry.1 href
      rw [htold'] at htold
      rw [← Option.some.inj htold, hnode]

/-- A page with a button and a password field. -/
def sampleSession : Session where
  document := [sampleElement 0 "button" none, sampleElement 1 "input" (some (unitsOfString "hunter2"))]
  told _ := none

end Page

end Extension

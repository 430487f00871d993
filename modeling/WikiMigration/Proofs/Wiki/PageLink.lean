/-
Where links to pages lead.

In the view mode the address of a page has the name encoded in a query and the section behind it; in the editor
mode it is the target as it is.  An encoded name has none of the characters that end one and no slash, so the
address of the view mode is found at the front of itself and nowhere else, and what is read from it is the target.

The cleaning reads the addresses of the editor mode, too, though they are names already.  One that looks like an
address of the engine is taken for it, and then the two modes lead to different pages.
-/
import WikiMigration.Proofs.Html.Address
import WikiMigration.Proofs.Html.Linked
import WikiMigration.Wiki.Link

namespace WikiMigration.Wiki

open Text Html

variable {context view editor : Context} {target name part label : List Char}

/-! ### Targets -/

/-- What stands behind the name in a target: nothing, or a section on one line and without slashes. -/
inductive IsSectionPart : List Char → Prop
  | empty : IsSectionPart []
  | named (section_ : List Char) (filled : section_ ≠ []) (flat : '/' ∉ section_) (oneLine : '\n' ∉ section_) :
      IsSectionPart ('#' :: section_)

/-- A target that is the name of a page, alone or with a section of it. -/
structure IsPageTarget (name part : List Char) : Prop where
  filled : name ≠ []
  plain : '#' ∉ name
  behind : IsSectionPart part

namespace IsSectionPart

theorem head (h : IsSectionPart part) : ∀ c ∈ part.head?, c = '#' := by
  cases h with
  | empty => simp
  | named => simp

theorem flat (h : IsSectionPart part) : '/' ∉ part := by
  cases h with
  | empty => simp
  | named section_ filled flat oneLine => simp [flat]

theorem oneLine (h : IsSectionPart part) : '\n' ∉ part := by
  cases h with
  | empty => simp
  | named section_ filled flat oneLine => simp [oneLine]

theorem takeWhile_append (h : IsSectionPart part) {p : Char → Bool} (hsign : p '#' = false)
    (hname : ∀ c ∈ name, p c = true) : (name ++ part).takeWhile p = name :=
  takeWhile_front hname fun c hc => h.head c hc ▸ hsign

theorem dropWhile_append (h : IsSectionPart part) {p : Char → Bool} (hsign : p '#' = false)
    (hname : ∀ c ∈ name, p c = true) : (name ++ part).dropWhile p = part :=
  dropWhile_front hname fun c hc => h.head c hc ▸ hsign

end IsSectionPart

namespace IsPageTarget

theorem ne_sign (h : IsPageTarget name part) : ∀ c ∈ name, (c != '#') = true := fun c hc => by
  simpa using fun heq : c = '#' => h.plain (heq ▸ hc)

theorem sectionOf_eq (h : IsPageTarget name part) : sectionOf (name ++ part) = part :=
  h.behind.dropWhile_append (by decide) h.ne_sign

/-! ### Addresses of the view mode -/

theorem pageAddress_eq (h : IsPageTarget name part) (hview : context.editorMode = false) :
    pageAddress context (name ++ part) = "Wiki.jsp?page=".toList ++ (Url.encodeQuery name ++ part) := by
  have hname := h.behind.takeWhile_append (p := (· != '#')) (by decide) h.ne_sign
  have hpart := h.behind.dropWhile_append (p := (· != '#')) (by decide) h.ne_sign
  rw [pageAddress, hview, if_neg Bool.false_ne_true, hname, hpart, List.append_assoc]
  cases h.behind with
  | empty => rfl
  | named section_ filled => simp [filled]

/-- The name and the section are read from what stands behind the mark of an address. -/
theorem pageRest?_encodeQuery (h : IsPageTarget name part) :
    pageRest? (Url.encodeQuery name ++ part) = some (Url.encodeQuery name, part) := by
  have hends : ∀ c ∈ Url.encodeQuery name, (c != '&' && c != '#') = true := by
    intro c hc
    have hand : c ≠ '&' := fun heq => Url.not_mem_encodeQuery (by decide) name (heq ▸ hc)
    have hsign : c ≠ '#' := fun heq => Url.not_mem_encodeQuery (by decide) name (heq ▸ hc)
    simp [hand, hsign]
  have hpart : part.dropWhile (· != '#') = part :=
    @IsSectionPart.dropWhile_append [] part h.behind (· != '#') (by decide) (by simp)
  have hfilled : Url.encodeQuery name ≠ [] := fun hnil =>
    h.filled (by rw [← Url.decodeQuery_encodeQuery name, hnil]; rfl)
  have hfeed : '\n' ∉ part.dropLast := fun hmem => h.behind.oneLine (List.dropLast_subset _ hmem)
  have hlast : part.getLast? ≠ some '\n' := fun hlast => h.behind.oneLine (List.mem_of_getLast? hlast)
  simp [pageRest?, h.behind.takeWhile_append (by decide) hends, hpart, hfilled, hfeed, hlast]

/-- **An address of the view mode is read back as the target it was built for.** -/
theorem plainName_pageAddress (h : IsPageTarget name part) (hview : context.editorMode = false) :
    plainName (pageAddress context (name ++ part)) = name ++ part := by
  have hslash : '/' ∉ "Wiki.jsp?page=".toList ++ (Url.encodeQuery name ++ part) := by
    have hname := Url.not_mem_encodeQuery (c := '/') (by decide) name
    simp [hname, h.behind.flat]
  have hbehind : behindLastSlash? pageAtFront? ("Wiki.jsp?page=".toList ++ (Url.encodeQuery name ++ part)) = none := by
    rw [← Option.not_isSome_iff_eq_none, isSome_behindLastSlash? fun _ _ => rfl]
    rintro ⟨front, rest, heq, -⟩
    exact hslash (heq ▸ by simp)
  have hfront : pageAtFront? ("Wiki.jsp?page=".toList ++ (Url.encodeQuery name ++ part))
      = some (Url.encodeQuery name, part) := by
    have hafter := after?_eq_some.mpr (Eq.refl ("Wiki.jsp?page=".toList ++ (Url.encodeQuery name ++ part)))
    rw [pageAtFront?, pageMarks, List.findSome?_cons, hafter]
    simp only [Option.bind_some, h.pageRest?_encodeQuery]
  rw [h.pageAddress_eq hview, plainName, readAddress?, hbehind, hfront]
  exact congrArg (· ++ part) (Url.decodeQuery_encodeQuery name)

/-! ### Links -/

/-- No character comes into an address of the view mode but those of the target and of the query. -/
theorem not_mem_pageAddress (h : IsPageTarget name part) (hview : context.editorMode = false) {c : Char}
    (hmark : c ∉ "Wiki.jsp?page=".toList) (hencoded : (Url.isUnreserved c || c == '+' || c == '%') = false)
    (htarget : c ∉ name ++ part) : c ∉ pageAddress context (name ++ part) := by
  rw [List.mem_append, not_or] at htarget
  rw [h.pageAddress_eq hview, List.mem_append, List.mem_append]
  rintro (hmem | hmem | hmem)
  · exact hmark hmem
  · exact Url.not_mem_encodeQuery hencoded name hmem
  · exact htarget.2 hmem

end IsPageTarget

/-- The addresses of the links in a paragraph that holds a link to a page, once it is read and cleaned. -/
def pageLinkAddresses (context : Context) (target label : List Char) : List (Option (List Char)) :=
  linkAddresses (clean (parse (paragraphText
    (anchor "wikipage" (pageAddress context target) (Html.escape label)))))

theorem pageLinkAddresses_eq (haddress : '\r' ∉ pageAddress context target ∧ '\x00' ∉ pageAddress context target)
    (hfilled : pageAddress context target ≠ []) (hne : label ≠ []) (hlabel : '\r' ∉ label) :
    pageLinkAddresses context target label = [some (plainName (pageAddress context target))] := by
  have hkind : "wikipage" ∈ anchorKinds := by decide
  have hwritten : anchor "wikipage" (pageAddress context target) (Html.escape label)
      = anchorText "wikipage" (pageAddress context target) label := (anchorText_eq hkind _ _).symm
  rw [pageLinkAddresses, hwritten]
  exact linkAddresses_anchor hkind haddress hfilled hlabel hne

/-- **The address of the view mode leads to its target, and that of the editor mode is its target**; so the two
modes lead to one page exactly if nothing in the target looks like an address of the engine. -/
theorem page_links_agree_iff (h : IsPageTarget name part) (hview : view.editorMode = false)
    (heditor : editor.editorMode = true) :
    plainName (pageAddress view (name ++ part)) = name ++ part ∧ pageAddress editor (name ++ part) = name ++ part ∧
      (plainName (pageAddress editor (name ++ part)) = plainName (pageAddress view (name ++ part))
        ↔ ¬HasAddress (name ++ part)) ∧
      ∀ label, label ≠ [] → '\r' ∉ label → '\r' ∉ name ++ part → '\x00' ∉ name ++ part →
        pageLinkAddresses view (name ++ part) label = [some (name ++ part)] ∧
          (pageLinkAddresses editor (name ++ part) label = pageLinkAddresses view (name ++ part) label
            ↔ ¬HasAddress (name ++ part)) := by
  have hread := h.plainName_pageAddress hview
  have hkept : pageAddress editor (name ++ part) = name ++ part := by rw [pageAddress, heditor, if_pos rfl]
  have hagree : plainName (name ++ part) = name ++ part ↔ ¬HasAddress (name ++ part) :=
    plainName_eq_self_iff_not_hasAddress (by rw [h.sectionOf_eq]; exact h.behind.oneLine)
  refine ⟨hread, hkept, by rw [hkept, hread, hagree], fun label hne hlabel hreturn hnul => ?_⟩
  have hviewed : pageLinkAddresses view (name ++ part) label = [some (name ++ part)] := by
    rw [pageLinkAddresses_eq ⟨h.not_mem_pageAddress hview (by decide) (by decide) hreturn,
      h.not_mem_pageAddress hview (by decide) (by decide) hnul⟩ (by rw [h.pageAddress_eq hview]; simp) hne hlabel, hread]
  have hedited : pageLinkAddresses editor (name ++ part) label = [some (plainName (name ++ part))] := by
    rw [pageLinkAddresses_eq (by rw [hkept]; exact ⟨hreturn, hnul⟩) (by rw [hkept]; simp [h.filled]) hne hlabel, hkept]
  rw [hviewed, hedited, ← hagree]
  simp

/-- Characters that mean something in a query come through, and so do slashes. -/
theorem query_page_linked :
    IsPageTarget "A/B & C+D 100%".toList "#top".toList ∧
      pageAddress ⟨"Main".toList, false, false⟩ "A/B & C+D 100%#top".toList
        = "Wiki.jsp?page=A%2FB+%26+C%2BD+100%25#top".toList ∧
      pageLinkAddresses ⟨"Main".toList, true, false⟩ "A/B & C+D 100%#top".toList "there".toList
        = pageLinkAddresses ⟨"Main".toList, false, false⟩ "A/B & C+D 100%#top".toList "there".toList := by
  have target : IsPageTarget "A/B & C+D 100%".toList "#top".toList :=
    ⟨by decide, by decide, .named "top".toList (by decide) (by decide) (by decide)⟩
  have hnone : ¬HasAddress ("A/B & C+D 100%".toList ++ "#top".toList) := by
    rw [hasAddress_iff (by decide)]
    decide +kernel
  have hlinks := (@page_links_agree_iff ⟨"Main".toList, false, false⟩ ⟨"Main".toList, true, false⟩ _ _ target
    rfl rfl).2.2.2
  exact ⟨target, by decide +kernel,
    (hlinks "there".toList (by decide) (by decide) (by decide) (by decide)).2.mpr hnone⟩

/-- A page with the name of an attachment's address is linked in the view mode only. -/
theorem attach_page_mislinked :
    IsPageTarget "attach/Foo".toList [] ∧
      pageLinkAddresses ⟨"Main".toList, false, false⟩ "attach/Foo".toList "attach/Foo".toList
        = [some "attach/Foo".toList] ∧
      pageLinkAddresses ⟨"Main".toList, true, false⟩ "attach/Foo".toList "attach/Foo".toList
        = [some "Foo".toList] := by
  refine ⟨⟨by decide, by decide, .empty⟩, ?_, ?_⟩
  · rw [pageLinkAddresses_eq (by decide +kernel) (by decide) (by decide) (by decide)]
    decide +kernel
  · rw [pageLinkAddresses_eq (by decide +kernel) (by decide) (by decide) (by decide)]
    decide +kernel

end WikiMigration.Wiki

/-
No text of a page is read as HTML.

Every line has an echo, so every fragment has one, and so has the page.  An echo knows no raw way to write
an angle bracket or an ampersand of the text: every one that the page holds is the writer's own, at the
front of a tag or of an entity.  That a heading has a tag at all rests on the marks that open it: there are
one to three.
-/
import WikiMigration.Proofs.Wiki.Element
import WikiMigration.Proofs.Wiki.LineEcho

namespace WikiMigration.Wiki

open Text

variable {σ : Renaming}

/-! ### Fragments -/

theorem echo_unlines {α : Type} {write : α → List Char} {rename : α → α} {xs : List α}
    (h : ∀ a ∈ xs, Echo σ (write a) (write (rename a))) :
    Echo σ (unlines (xs.map write)) (unlines ((xs.map rename).map write)) := by
  induction xs with
  | nil => exact .nil
  | cons a xs ih =>
    cases xs with
    | nil => exact h a (by simp)
    | cons b xs =>
      have hjoin : ∀ a b xs, unlines ((a :: b :: xs).map write) =
          write a ++ ['\n'] ++ unlines ((b :: xs).map write) := fun _ _ _ => rfl
      have hrename : (a :: b :: xs).map rename = rename a :: rename b :: xs.map rename := rfl
      rw [hrename, hjoin, hjoin]
      exact ((h a (by simp)).append (echo_own (by decide))).append (ih fun c hc => h c (by simp [hc]))

/-- Items written one after the other. -/
theorem echo_items {α : Type} {write : α → List Char} {rename : α → α} {xs : List α}
    (h : ∀ a ∈ xs, Echo σ (write a) (write (rename a))) :
    Echo σ (xs.flatMap write) ((xs.map rename).flatMap write) := by
  rw [List.flatMap_map]
  exact echo_flatMap h

theorem echo_cell (context : Context) (cell : Cell) :
    Echo σ (cell.render context) ((cell.renamed σ).render context) := by
  have hheader : (cell.renamed σ).isHeader = cell.isHeader := rfl
  have hcontent : (cell.renamed σ).content = σ.text cell.content := rfl
  unfold Cell.render
  rw [hheader, hcontent, Renaming.trim_text]
  cases cell.isHeader <;>
    exact ((echo_own (by decide)).append (echo_renderInline context _)).append
      (echo_own (by decide))

theorem echo_row (context : Context) (row : List Char) :
    Echo σ (renderRow context row) (renderRow context (σ.text row)) := by
  unfold renderRow
  rw [splitRow_text]
  exact ((echo_ownText (by simp [ownTexts])).append (echo_items fun cell _ => echo_cell context cell)).append
    (echo_ownText (by simp [ownTexts]))

/-- Only word characters of the title are in the anchor, and none of them is renamed. -/
theorem sectionId_text (σ : Renaming) (context : Context) (title : List Char) :
    sectionId context (σ.text title) = sectionId context title := by
  have hwords : σ.text (title.filter isWordChar) = title.filter isWordChar :=
    σ.text_eq_self_of_class seesInert_isWordChar fun c hc => (List.mem_filter.mp hc).2
  rw [sectionId, sectionId, σ.filter_text seesInert_isWordChar, hwords]

theorem echo_sectionId (context : Context) (title : List Char) :
    Echo σ (sectionId context title) (sectionId context (σ.text title)) := by
  rw [sectionId_text]
  exact echo_quotedOwn _

/-- The levels of headings that there are tags for. -/
def Fragment.HasTag : Fragment → Prop
  | .heading level _ => level = 2 ∨ level = 3 ∨ level = 4
  | _ => True

theorem echo_heading (context : Context) {level : Nat} (hlevel : level = 2 ∨ level = 3 ∨ level = 4)
    (title : List Char) :
    Echo σ ((Fragment.heading level title).render context)
      ((Fragment.heading level (σ.text title)).render context) := by
  have hfront : Echo σ ("<h".toList ++ (Nat.repr level).toList ++ " id=\"".toList)
      ("<h".toList ++ (Nat.repr level).toList ++ " id=\"".toList) := by
    rcases hlevel with rfl | rfl | rfl <;> exact echo_own (by decide)
  have hend : Echo σ ("\">#</a></h".toList ++ (Nat.repr level).toList ++ ['>'])
      ("\">#</a></h".toList ++ (Nat.repr level).toList ++ ['>']) := by
    rcases hlevel with rfl | rfl | rfl <;> exact echo_own (by decide)
  have hlink : Echo σ "<a class=\"hashlink\" href=\"#".toList "<a class=\"hashlink\" href=\"#".toList :=
    echo_ownText (by simp [ownTexts])
  have hquote : Echo σ "\">".toList "\">".toList := echo_ownText (by simp [ownTexts])
  have hsection := echo_sectionId (σ := σ) context title
  have hall := ((((hfront.append hsection).append hquote).append
    (echo_renderInline context title)).append hlink).append (hsection.append hend)
  unfold Fragment.render
  simpa only [List.append_assoc] using hall

theorem styleAttribute_sheet (inner : List Char) :
    styleAttribute ('(' :: inner) = " style=\"".toList ++ Html.escapeAttribute inner.dropLast ++ ['"'] :=
  rfl

theorem styleAttribute_word {style : List Char} (h : style.head? ≠ some '(') :
    styleAttribute style = " class=\"".toList ++ Html.escapeAttribute style ++ ['"'] := by
  unfold styleAttribute
  split
  next inner => exact absurd rfl h
  next => rfl

theorem echo_styleOpening (context : Context) (style : List Char) :
    Echo σ ((Fragment.styleOpening style).render context)
      ((Fragment.styleOpening (σ.text style)).render context) := by
  have hparen : isInert '(' = false := by decide
  have hrender : ∀ style : List Char, (Fragment.styleOpening style).render context =
      "<div".toList ++ styleAttribute style ++ ['>'] := text_openStyle
  rw [hrender, hrender]
  by_cases hstyle : style.head? = some '('
  · cases style with
    | nil => cases hstyle
    | cons c inner =>
      obtain rfl : c = '(' := Option.some.inj hstyle
      have hfront : Echo σ ("<div".toList ++ " style=\"".toList) ("<div".toList ++ " style=\"".toList) :=
        echo_own (by decide)
      have hend : Echo σ ['"', '>'] ['"', '>'] := echo_own (by decide)
      have hdrop : (σ.text inner).dropLast = σ.text inner.dropLast := List.map_dropLast.symm
      have hall := (hfront.append (echo_quoted inner.dropLast)).append hend
      rw [Renaming.text_cons, σ.fixes _ hparen, styleAttribute_sheet, styleAttribute_sheet, hdrop]
      simpa only [List.append_assoc, List.singleton_append] using hall
  · have hfront : Echo σ ("<div".toList ++ " class=\"".toList) ("<div".toList ++ " class=\"".toList) :=
      echo_own (by decide)
    have hend : Echo σ ['"', '>'] ['"', '>'] := echo_own (by decide)
    have hall := (hfront.append (echo_quoted style)).append hend
    rw [styleAttribute_word hstyle,
      styleAttribute_word fun h => hstyle ((head?_eq_iff σ hparen style).mp h)]
    simpa only [List.append_assoc, List.singleton_append] using hall

theorem echo_paragraph (context : Context) (lines : List (List Char)) :
    Echo σ ((Fragment.paragraph lines).render context)
      ((Fragment.paragraph (lines.map σ.text)).render context) := by
  have hrender : ∀ lines, (Fragment.paragraph lines).render context =
      "<p>".toList ++ unlines (lines.map (renderInline context)) ++ "</p>".toList := fun _ => rfl
  rw [hrender, hrender]
  exact ((echo_ownText (by simp [ownTexts])).append
    (echo_unlines fun line _ => echo_renderInline context line)).append (echo_ownText (by simp [ownTexts]))

theorem echo_table (context : Context) (rows : List (List Char)) :
    Echo σ ((Fragment.table rows).render context) ((Fragment.table (rows.map σ.text)).render context) := by
  have hrender : ∀ rows, (Fragment.table rows).render context =
      "<table class=\"wikitable\" border=\"1\">".toList ++ rows.flatMap (renderRow context)
        ++ "</table>".toList := fun _ => rfl
  rw [hrender, hrender]
  exact ((echo_ownText (by simp [ownTexts])).append
    (echo_items fun row _ => echo_row context row)).append (echo_ownText (by simp [ownTexts]))

theorem echo_preformatted (context : Context) (lines : List (List Char)) (closed : Bool) :
    Echo σ ((Fragment.preformatted lines closed).render context)
      ((Fragment.preformatted (lines.map σ.text) closed).render context) := by
  have hrender : ∀ lines, (Fragment.preformatted lines closed).render context =
      "<pre>".toList ++ Html.escape (unlines lines) ++ "</pre>".toList := fun _ => rfl
  rw [hrender, hrender, σ.unlines_text]
  exact ((echo_ownText (by simp [ownTexts])).append (echo_escape _)).append (echo_ownText (by simp [ownTexts]))

theorem render_definition (context : Context) (term meaning : List Char) :
    (Fragment.definition term meaning).render context =
      "<dl>".toList
        ++ (if term.isEmpty then []
            else "<dt>".toList ++ renderInline context term ++ "</dt>".toList)
        ++ "<dd>".toList ++ renderInline context meaning ++ "</dd></dl>".toList :=
  rfl

theorem echo_definition (context : Context) (term meaning : List Char) :
    Echo σ ((Fragment.definition term meaning).render context)
      ((Fragment.definition (σ.text term) (σ.text meaning)).render context) := by
  have hterm : Echo σ
      (if term.isEmpty then [] else "<dt>".toList ++ renderInline context term ++ "</dt>".toList)
      (if term.isEmpty then []
        else "<dt>".toList ++ renderInline context (σ.text term) ++ "</dt>".toList) := by
    split
    · exact .nil
    · exact ((echo_ownText (by simp [ownTexts])).append (echo_renderInline context term)).append
        (echo_ownText (by simp [ownTexts]))
  rw [render_definition, render_definition, Renaming.isEmpty_text]
  exact (((echo_ownText (by simp [ownTexts])).append hterm).append (echo_ownText (by simp [ownTexts]))).append
    (echo_renderInline context meaning) |>.append (echo_ownText (by simp [ownTexts]))

theorem echo_item (context : Context) (content : List Char) :
    Echo σ ((Fragment.item content).render context)
      ((Fragment.item (σ.text content)).render context) := by
  have hrender : ∀ content, (Fragment.item content).render context =
      "<li>".toList ++ renderInline context content := fun _ => rfl
  rw [hrender, hrender]
  exact (echo_ownText (by simp [ownTexts])).append (echo_renderInline context content)

theorem echo_listTag (context : Context) (kind : ListKind) :
    Echo σ ((Fragment.listOpening kind).render context) ((Fragment.listOpening kind).render context) ∧
      Echo σ ((Fragment.listClosing kind).render context)
        ((Fragment.listClosing kind).render context) := by
  have hopen : (Fragment.listOpening kind).render context = ("<" ++ kind.tag ++ ">").toList := rfl
  have hclose : (Fragment.listClosing kind).render context = ("</li></" ++ kind.tag ++ ">").toList := rfl
  rw [hopen, hclose]
  cases kind <;> exact ⟨echo_own (by decide), echo_own (by decide)⟩

theorem echo_fixedTag (context : Context) :
    ∀ fragment ∈ [Fragment.itemClosing, .itemOpening, .rule, .styleClosing],
      Echo σ (fragment.render context) (fragment.render context) := by
  have hown : ∀ fragment ∈ [Fragment.itemClosing, .itemOpening, .rule, .styleClosing],
      isOwnText (fragment.render context) = true := by
    have hclosing : Fragment.itemClosing.render context = "</li>".toList := rfl
    have hopening : Fragment.itemOpening.render context = "<li>".toList := rfl
    have hrule : Fragment.rule.render context = "<hr />".toList := rfl
    have hstyle : Fragment.styleClosing.render context = "</div>".toList := rfl
    rw [List.forall_mem_cons, List.forall_mem_cons, List.forall_mem_cons, List.forall_mem_singleton,
      hclosing, hopening, hrule, hstyle]
    decide
  exact fun fragment h => echo_own (hown fragment h)

/-- A fragment has an echo. -/
theorem echo_fragment (context : Context) {fragment : Fragment} (htag : fragment.HasTag) :
    Echo σ (fragment.render context) ((fragment.renamed σ).render context) := by
  cases fragment with
  | paragraph lines => exact echo_paragraph context lines
  | table rows => exact echo_table context rows
  | listOpening kind => exact (echo_listTag context kind).1
  | listClosing kind => exact (echo_listTag context kind).2
  | itemClosing | itemOpening | rule | styleClosing => exact echo_fixedTag context _ (by simp)
  | item content => exact echo_item context content
  | preformatted lines closed => exact echo_preformatted context lines closed
  | heading level title => exact echo_heading context htag title
  | definition term meaning => exact echo_definition context term meaning
  | styleOpening style => exact echo_styleOpening context style

/-! ### Pages -/

/-- A heading line has one to three marks. -/
theorem level_of_heading {inStyle : Bool} {line title : List Char} {level : Nat}
    (h : LineKind.of inStyle line = .heading level title) : level = 2 ∨ level = 3 ∨ level = 4 := by
  have hheading : heading? line = some (level, title) := by
    unfold LineKind.of at h
    grind
  rw [heading?] at hheading
  split at hheading
  · cases hheading
  next hne =>
    obtain ⟨rfl, -⟩ := Prod.mk.inj (Option.some.inj hheading)
    have hmarks : ((line.takeWhile (· == '!')).take 3).length ≠ 0 := by
      simpa [List.isEmpty_iff_length_eq_zero] using hne
    have hmost := List.length_take_le 3 (line.takeWhile (· == '!'))
    unfold headingLevel
    omega

theorem hasTag_openLists {kinds : List ListKind} {fragment : Fragment} (h : fragment ∈ openLists kinds) :
    fragment.HasTag := by
  induction kinds with
  | nil => cases h
  | cons kind kinds ih =>
    cases kinds with
    | nil =>
      rw [List.mem_singleton.mp h]
      trivial
    | cons next kinds =>
      have h : fragment ∈ .listOpening kind :: .itemOpening :: openLists (next :: kinds) := h
      rcases List.mem_cons.mp h with rfl | h
      · trivial
      rcases List.mem_cons.mp h with rfl | h
      · trivial
      · exact ih h

variable {pending : Pending} {fragment : Fragment}

theorem hasTag_closeLists {lists : List ListKind} (h : fragment ∈ closeLists lists) : fragment.HasTag := by
  obtain ⟨kind, -, rfl⟩ := List.mem_map.mp h
  trivial

theorem hasTag_paragraphEnd (h : fragment ∈ pending.paragraphEnd) : fragment.HasTag := by
  unfold Pending.paragraphEnd at h
  split at h
  · cases h
  · rw [List.mem_singleton.mp h]
    trivial

theorem hasTag_tableEnd (h : fragment ∈ pending.tableEnd) : fragment.HasTag := by
  unfold Pending.tableEnd at h
  split at h
  · cases h
  · rw [List.mem_singleton.mp h]
    trivial

theorem hasTag_blocksEnd (h : fragment ∈ pending.blocksEnd) : fragment.HasTag := by
  rcases List.mem_append.mp h with h | h
  · rcases List.mem_append.mp h with h | h
    · exact hasTag_paragraphEnd h
    · exact hasTag_tableEnd h
  · exact hasTag_closeLists h

theorem hasTag_itemFragments {lists kinds : List ListKind} {content : List Char}
    (h : fragment ∈ itemFragments lists kinds content) : fragment.HasTag := by
  unfold itemFragments at h
  rcases List.mem_append.mp h with h | h
  · rcases List.mem_append.mp h with h | h
    · exact hasTag_closeLists h
    · split at h
      · rw [List.mem_singleton.mp h]
        trivial
      · exact hasTag_openLists h
  · rw [List.mem_singleton.mp h]
    trivial

theorem hasTag_stepLine {line : List Char} (h : fragment ∈ (pending.stepLine line).2) :
    fragment.HasTag := by
  have hblock : ∀ last : Fragment, last.HasTag → fragment ∈ pending.blocksEnd ++ [last] →
      fragment.HasTag := by
    intro last hlast h
    rcases List.mem_append.mp h with h | h
    · exact hasTag_blocksEnd h
    · rwa [List.mem_singleton.mp h]
  unfold Pending.stepLine at h
  -- The cases are the kinds of lines, in the order of the definition.
  split at h
  case h_1 | h_2 => exact hasTag_blocksEnd h
  case h_3 =>
    rcases List.mem_append.mp h with h | h
    · exact hasTag_paragraphEnd h
    · exact hasTag_closeLists h
  case h_4 | h_5 | h_6 | h_8 =>
    refine hblock _ ?_ h
    trivial
  case h_7 level title hkind => exact hblock (.heading level title) (level_of_heading hkind) h
  case h_9 =>
    rcases List.mem_append.mp h with h | h
    · rcases List.mem_append.mp h with h | h
      · exact hasTag_tableEnd h
      · exact hasTag_paragraphEnd h
    · exact hasTag_itemFragments h
  case h_10 =>
    rcases List.mem_append.mp h with h | h
    · exact hasTag_tableEnd h
    · exact hasTag_closeLists h

theorem hasTag_step {line : List Char} (h : fragment ∈ (pending.step line).2) : fragment.HasTag := by
  unfold Pending.step at h
  split at h
  · unfold Pending.stepPreformatted at h
    split at h
    · cases h
    · rw [List.mem_singleton.mp h]
      trivial
  · exact hasTag_stepLine h

theorem hasTag_finish (h : fragment ∈ pending.finish) : fragment.HasTag := by
  rcases List.mem_append.mp h with h | h
  · rcases List.mem_append.mp h with h | h
    · split at h
      · rw [List.mem_singleton.mp h]
        trivial
      · cases h
    · exact hasTag_blocksEnd h
  · rw [List.eq_of_mem_replicate h]
    trivial

/-- Every heading of a page is of a level that there is a tag for. -/
theorem hasTag_fragmentsFrom {lines : List (List Char)} (h : fragment ∈ fragmentsFrom pending lines) :
    fragment.HasTag := by
  induction lines generalizing pending with
  | nil => exact hasTag_finish h
  | cons line rest ih =>
    rcases List.mem_append.mp h with h | h
    · exact hasTag_step h
    · exact ih h

/-- A page of a renamed text is an echo of the page. -/
theorem echo_page (σ : Renaming) (context : Context) (text : List Char) :
    Echo σ (renderPage context text) (renderPage context (σ.text text)) := by
  unfold renderPage
  rw [fragmentsOf_text]
  exact echo_unlines fun fragment h => echo_fragment context (hasTag_fragmentsFrom h)

/-- The renaming that leaves every character as it is. -/
def Renaming.identity : Renaming := ⟨id, fun _ _ h => h, fun _ _ => rfl⟩

/-- However a character is written, no angle bracket is. -/
theorem noBracket_form {form : Char → List Char} (h : IsForm form) (c : Char) : '<' ∉ form c := by
  have hentity : ∀ entity ∈ entities, '<' ∉ entity := by decide
  have hquoted : ∀ c, '<' ∉ Html.escapeAttributeChar c := by
    intro c
    rcases escapeAttributeChar_cases c with h | ⟨h, hopen, -⟩
    · exact hentity _ h
    · rw [h]
      simpa using Ne.symm hopen
  cases h with
  | running =>
    rcases escapeChar_cases c with h | ⟨h, hopen, -⟩
    · exact hentity _ h
    · rw [h]
      simpa using Ne.symm hopen
  | quoted => exact hquoted c
  | encoded => exact fun h => (plain_of_mem_encodeChar h).1 rfl
  | again _ =>
    intro h
    obtain ⟨d, -, hd⟩ := List.mem_flatMap.mp h
    exact hquoted d hd

/-- An echo has as many angle brackets. -/
theorem Echo.count_bracket {x y : List Char} (h : Echo σ x y) : y.count '<' = x.count '<' := by
  induction h with
  | nil => rfl
  | plain _ _ _ ih => rw [List.count_cons, List.count_cons, ih]
  | block hblock _ ih =>
    rw [List.count_append, List.count_append, ih]
    cases hblock with
    | front | entity => rfl
    | written hform _ =>
      rw [List.count_eq_zero_of_not_mem (noBracket_form hform _),
        List.count_eq_zero_of_not_mem (noBracket_form hform _)]

/-- In a page every angle bracket starts a tag and every ampersand an entity, and none of them is a
character of the text: however the text is renamed, the page stays the same but for the renamed
characters, each written escaped, quoted or percent-encoded, and has as many brackets as before. -/
theorem page_text_escaped (context : Context) (text : List Char) :
    (∀ front behind, renderPage context text = front ++ '<' :: behind →
      ∃ tag ∈ tagFronts, tag <+: '<' :: behind) ∧
    (∀ front behind, renderPage context text = front ++ '&' :: behind →
      ∃ entity ∈ entities, entity <+: '&' :: behind) ∧
    ∀ σ : Renaming, Echo σ (renderPage context text) (renderPage context (σ.text text)) ∧
      (renderPage context (σ.text text)).count '<' = (renderPage context text).count '<' := by
  have hecho : ∀ σ : Renaming, Echo σ (renderPage context text) (renderPage context (σ.text text)) :=
    fun σ => echo_page σ context text
  obtain ⟨htags, hentities⟩ := (hecho .identity).tame
  exact ⟨htags, hentities, fun σ => ⟨hecho σ, (hecho σ).count_bracket⟩⟩

/-- Brackets and equality signs exchanged. -/
def bracketsExchanged : Renaming where
  toFun c := if c = '<' then '=' else if c = '=' then '<' else c
  injective := by grind
  fixes := by
    intro c hc
    have hopen : c ≠ '<' := (ne_of_isInert (by decide) hc).symm
    have hequals : c ≠ '=' := (ne_of_isInert (by decide) hc).symm
    simp [hopen, hequals]

example :
    renderPage ⟨[], false, false⟩ "1 < 2".toList = "<p>1 &lt; 2</p>".toList ∧
      renderPage ⟨[], false, false⟩ (bracketsExchanged.text "1 < 2".toList) = "<p>1 = 2</p>".toList := by
  decide

end WikiMigration.Wiki

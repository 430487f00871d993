/-
Links and inline markup, written for a renamed line.

The passes that hold fragments apart find the same matches in a renamed line, and what they hold are
echoes: a link of a renamed text is of the same kind, and leads to the renamed target.  With the passes
over emphasis and styles, which work on twins, every line has an echo.
-/
import Mathlib.Data.List.Forall2
import Mathlib.Data.List.TakeWhile
import WikiMigration.Proofs.Wiki.Twin

namespace WikiMigration.Wiki

open Text

variable {σ : Renaming} {pieces : List Piece}

/-! ### Holding fragments apart -/

/-- A pattern finds the same in a renamed line, renamed. -/
def FindsRenamed {α : Type} (σ : Renaming) (pattern : Pattern Piece α) (rename : α → α) : Prop :=
  ∀ pieces, pattern (pieces.map (Piece.renamed σ)) =
    (pattern pieces).map fun (a, covered) => (rename a, covered)

/-- A line in work and the same line of the renamed text. -/
structure LinesAlike (σ : Renaming) (line line' : Line) : Prop where
  pieces : line'.pieces = line.pieces.map (Piece.renamed σ)
  fragments : List.Forall₂ (Echo σ) line.fragments line'.fragments

theorem holdParts_renamed {α : Type} {pattern : Pattern Piece α} {rename : α → α}
    {fragment : α → List Char} (hfinds : FindsRenamed σ pattern rename)
    (hecho : ∀ pieces a covered, pattern pieces = some (a, covered) →
      Echo σ (fragment a) (fragment (rename a))) (skip next : Nat) (pieces : List Piece) :
    (holdParts fragment next (partsFrom pattern skip (pieces.map (Piece.renamed σ)))).1 =
        (holdParts fragment next (partsFrom pattern skip pieces)).1.map (Piece.renamed σ) ∧
      List.Forall₂ (Echo σ) (holdParts fragment next (partsFrom pattern skip pieces)).2
        (holdParts fragment next (partsFrom pattern skip (pieces.map (Piece.renamed σ)))).2 := by
  induction pieces generalizing skip next with
  | nil => cases skip <;> exact ⟨rfl, .nil⟩
  | cons piece rest ih =>
    cases skip with
    | succ skip => exact ih skip next
    | zero =>
      have hfound := hfinds (piece :: rest)
      rw [List.map_cons] at hfound ⊢
      rw [partsFrom, partsFrom, hfound]
      cases hmatch : pattern (piece :: rest) with
      | none =>
        obtain ⟨hpieces, hfragments⟩ := ih 0 next
        exact ⟨congrArg (piece.renamed σ :: ·) hpieces, hfragments⟩
      | some found =>
        obtain ⟨hpieces, hfragments⟩ := ih (found.2 - 1) (next + 1)
        exact ⟨congrArg (Piece.held next :: ·) hpieces, .cons (hecho _ _ _ hmatch) hfragments⟩

theorem LinesAlike.hold {α : Type} {line line' : Line} {pattern : Pattern Piece α} {rename : α → α}
    {fragment : α → List Char} (h : LinesAlike σ line line') (hfinds : FindsRenamed σ pattern rename)
    (hecho : ∀ pieces a covered, pattern pieces = some (a, covered) →
      Echo σ (fragment a) (fragment (rename a))) :
    LinesAlike σ (line.hold pattern fragment) (line'.hold pattern fragment) := by
  obtain ⟨hpieces, hfragments⟩ :=
    holdParts_renamed hfinds hecho 0 line.fragments.length line.pieces
  have hlength := h.fragments.length_eq
  unfold Line.hold
  constructor
  · show (holdParts fragment line'.fragments.length (parts pattern line'.pieces)).1 = _
    rw [← hlength, h.pieces]
    exact hpieces
  · show List.Forall₂ (Echo σ) (line.fragments ++ _)
      (line'.fragments ++ (holdParts fragment line'.fragments.length (parts pattern line'.pieces)).2)
    rw [← hlength, h.pieces]
    exact List.rel_append h.fragments hfragments

theorem substitute_renamed {α : Type} {pattern : Pattern Piece α} {rename : α → α}
    {replacement : α → List Piece} (hfinds : FindsRenamed σ pattern rename)
    (hreplace : ∀ a, replacement (rename a) = (replacement a).map (Piece.renamed σ))
    (pieces : List Piece) :
    substitute pattern replacement (pieces.map (Piece.renamed σ)) =
      (substitute pattern replacement pieces).map (Piece.renamed σ) := by
  unfold substitute parts
  generalize 0 = skip
  induction pieces generalizing skip with
  | nil => cases skip <;> rfl
  | cons piece rest ih =>
    cases skip with
    | succ skip => exact ih skip
    | zero =>
      have hfound := hfinds (piece :: rest)
      rw [List.map_cons] at hfound ⊢
      rw [partsFrom, partsFrom, hfound]
      cases pattern (piece :: rest) with
      | none =>
        simp only [Option.map_none, List.flatMap_cons, ih, List.map_append]
        rfl
      | some found => simp only [Option.map_some, List.flatMap_cons, ih, List.map_append, hreplace]

/-- The characters of a text that follow in a renamed line follow in the line. -/
theorem afterChars?_renamed {mark : List Char} (hmark : ∀ c ∈ mark, isInert c = false)
    (pieces : List Piece) :
    afterChars? mark (pieces.map (Piece.renamed σ)) =
      (afterChars? mark pieces).map fun rest => rest.map (Piece.renamed σ) := by
  induction mark generalizing pieces with
  | nil => rfl
  | cons m mark ih =>
    cases pieces with
    | nil => rfl
    | cons piece rest =>
      cases piece with
      | held index => rfl
      | char c =>
        have hrest := ih (fun d hd => hmark d (by simp [hd])) rest
        rw [List.map_cons, Piece.renamed, afterChars?, afterChars?, σ.eq_beq (hmark m (by simp)), hrest]
        split <;> rfl

theorem beforeChars?_renamed {mark : List Char} (hmark : ∀ c ∈ mark, isInert c = false)
    (pieces : List Piece) :
    beforeChars? mark (pieces.map (Piece.renamed σ)) =
      (beforeChars? mark pieces).map fun front => front.map (Piece.renamed σ) := by
  induction pieces with
  | nil => rfl
  | cons piece rest ih =>
    have hafter := afterChars?_renamed (σ := σ) hmark (piece :: rest)
    rw [List.map_cons] at hafter ⊢
    rw [beforeChars?, beforeChars?, hafter, Option.isSome_map, ih]
    split
    · rfl
    · cases beforeChars? mark rest <;> rfl

theorem seesInert_isEscapable : SeesInert isEscapable false := by
  have hescapable : ∀ c ∈ "[]{}_'!*#|\\~%^,-".toList, isInert c = false :=
    isInert_of_mem (by decide)
  intro c hc
  by_contra hne
  have hmem : c ∈ "[]{}_'!*#|\\~%^,-".toList :=
    List.contains_iff_mem.mp (Bool.not_eq_false _ ▸ hne : isEscapable c = true)
  exact ne_of_isInert hc (hescapable c hmem) rfl

theorem renamed_eq_char {piece : Piece} {c : Char} (hc : isInert c = false) :
    piece.renamed σ = .char c ↔ piece = .char c := by
  cases piece with
  | held index => simp [Piece.renamed]
  | char d => simpa [Piece.renamed] using σ.eq_iff hc

/-- A tilde makes the same characters literal, and none of them is renamed. -/
theorem literal_finds : FindsRenamed σ literalPattern id := by
  have htilde : isInert '~' = false := by decide
  intro pieces
  cases pieces with
  | nil => rfl
  | cons piece rest =>
    cases piece with
    | held index => rfl
    | char d =>
      have hd' : σ d = '~' ↔ d = '~' := σ.eq_iff htilde
      by_cases hd : d = '~'
      · subst hd
        cases rest with
        | nil => simp [Piece.renamed, literalPattern, σ.fixes _ htilde]
        | cons piece rest =>
          cases piece with
          | held index => simp [Piece.renamed, literalPattern, σ.fixes _ htilde]
          | char c =>
            rw [List.map_cons, List.map_cons, Piece.renamed, Piece.renamed, σ.fixes _ htilde,
              literalPattern, literalPattern, σ.class_eq seesInert_isEscapable]
            split
            next hc =>
              rw [σ.fixes c (seesInert_isEscapable.not_inert hc)]
              rfl
            next => rfl
      · have hne : σ d ≠ '~' := fun h => hd (hd'.mp h)
        simp [Piece.renamed, literalPattern, hd, hne]

theorem enclosed_finds {opening closing : List Char} (hopening : ∀ c ∈ opening, isInert c = false)
    (hclosing : ∀ c ∈ closing, isInert c = false) (least : Nat) :
    FindsRenamed σ (enclosedPattern opening closing least) (List.map (Piece.renamed σ)) := by
  intro pieces
  rw [enclosedPattern, enclosedPattern, afterChars?_renamed hopening]
  cases afterChars? opening pieces with
  | none => rfl
  | some rest =>
    simp only [Option.map_some, List.length_map]
    split
    · rfl
    · rw [← List.map_drop, beforeChars?_renamed hclosing]
      cases beforeChars? closing (rest.drop least) with
      | none => rfl
      | some more => simp [List.map_take]

theorem linkPattern_of_ne {piece : Piece} (hne : piece ≠ .char '[') (rest : List Piece) :
    linkPattern (piece :: rest) = none := by
  cases piece with
  | held index => rfl
  | char c =>
    have hc : c ≠ '[' := fun h => hne (by rw [h])
    simp [linkPattern, hc]

/-- What stands between brackets is renamed as it stands. -/
theorem takeWhile_brackets_renamed (rest : List Piece) :
    (rest.map (Piece.renamed σ)).takeWhile (fun piece => !piece.isChar fun c => c == '[' || c == ']') =
      (rest.takeWhile fun piece => !piece.isChar fun c => c == '[' || c == ']').map
        (Piece.renamed σ) := by
  have hopen : isInert '[' = false := by decide
  have hclose : isInert ']' = false := by decide
  rw [List.takeWhile_map]
  congr 2
  funext piece
  cases piece with
  | held index => rfl
  | char c => simp only [Function.comp_apply, Piece.renamed, Piece.isChar, σ.beq_eq hopen, σ.beq_eq hclose]

theorem link_finds : FindsRenamed σ linkPattern (List.map (Piece.renamed σ)) := by
  have hopen : isInert '[' = false := by decide
  have hclose : isInert ']' = false := by decide
  intro pieces
  cases pieces with
  | nil => rfl
  | cons piece rest =>
    by_cases hpiece : piece = .char '['
    · subst hpiece
      rw [List.map_cons, Piece.renamed, σ.fixes _ hopen, linkPattern, linkPattern,
        takeWhile_brackets_renamed]
      simp only [List.length_map, ← List.map_drop]
      cases rest.drop (rest.takeWhile fun piece => !piece.isChar fun c => c == '[' || c == ']').length with
      | nil => rfl
      | cons next behind =>
        cases next with
        | held index => rfl
        | char d =>
          have hd' : σ d = ']' ↔ d = ']' := σ.eq_iff hclose
          by_cases hd : d = ']'
          · subst hd
            rw [List.map_cons, Piece.renamed, σ.fixes _ hclose]
            simp only [List.isEmpty_map]
            split <;> rfl
          · have hne : σ d ≠ ']' := fun h => hd (hd'.mp h)
            simp [Piece.renamed, hd, hne]
    · rw [List.map_cons, linkPattern_of_ne hpiece,
        linkPattern_of_ne fun h => hpiece ((renamed_eq_char hopen).mp h)]
      rfl

theorem LinesAlike.holdLiteral {line line' : Line} {literal fragment : List Char}
    (h : LinesAlike σ line line') (hliteral : ∀ c ∈ literal, isInert c = false)
    (hecho : Echo σ fragment fragment) :
    LinesAlike σ (line.holdLiteral literal fragment) (line'.holdLiteral literal fragment) := by
  have hlength := h.fragments.length_eq
  have hfinds : FindsRenamed σ (fun pieces => (afterChars? literal pieces).map fun _ =>
      ((), literal.length)) id := by
    intro pieces
    dsimp only
    rw [afterChars?_renamed hliteral]
    cases afterChars? literal pieces <;> rfl
  unfold Line.holdLiteral
  constructor
  · rw [← hlength, h.pieces]
    exact substitute_renamed hfinds (fun _ => rfl) line.pieces
  · exact List.rel_append h.fragments (.cons hecho .nil)

/-! ### Held fragments -/

theorem isInert_of_mem_digits {n : Nat} {c : Char} (h : c ∈ (Nat.repr n).toList) : isInert c = false := by
  rw [Nat.toList_repr] at h
  have hdigit := Nat.isDigit_of_mem_toDigits (by decide) (by decide) h
  exact seesInert_isDigit.not_inert (by simpa [isDigit, Char.isDigit, Char.le_def] using hdigit)

/-- A mark is written with characters that markup is made of. -/
theorem textOf_renamed (pieces : List Piece) :
    Piece.textOf (pieces.map (Piece.renamed σ)) = σ.text (Piece.textOf pieces) := by
  induction pieces with
  | nil => rfl
  | cons piece rest ih =>
    have hcons : ∀ piece pieces, Piece.textOf (piece :: pieces) = piece.text ++ Piece.textOf pieces :=
      fun _ _ => List.flatMap_cons
    rw [List.map_cons, hcons, hcons, ih, Renaming.append_text]
    congr 1
    cases piece with
    | char c => rfl
    | held index =>
      refine (σ.text_eq_self fun c hc => ?_).symm
      have hc : c ∈ '\x00' :: ((Nat.repr index).toList ++ ['\x00']) := hc
      rcases List.mem_cons.mp hc with rfl | hc
      · decide
      rcases List.mem_append.mp hc with hc | hc
      · exact isInert_of_mem_digits hc
      · rw [List.mem_singleton.mp hc]
        decide

theorem echo_renderCode (body : List Piece) :
    Echo σ (renderCode body) (renderCode (body.map (Piece.renamed σ))) := by
  unfold renderCode
  rw [textOf_renamed]
  exact ((echo_ownText (by simp [ownTexts])).append (echo_escape _)).append (echo_ownText (by simp [ownTexts]))

theorem echo_renderPlugin (body : List Piece) :
    Echo σ (renderPlugin body) (renderPlugin (body.map (Piece.renamed σ))) := by
  unfold renderPlugin
  rw [textOf_renamed]
  exact ((echo_ownText (by simp [ownTexts])).append (echo_escape _)).append (echo_ownText (by simp [ownTexts]))

/-! ### Links -/

theorem linkParts_text (σ : Renaming) (body : List Char) :
    linkParts (σ.text body) = (σ.text (linkParts body).1, σ.text (linkParts body).2) := by
  unfold linkParts
  rw [σ.splitAt_text (by decide)]
  cases splitAt '|' body with
  | nil => simp [Renaming.trim_text]
  | cons label rest =>
    cases rest with
    | nil => simp [Renaming.trim_text]
    | cons target rest =>
      simp only [List.map_cons, Renaming.trim_text, Renaming.isEmpty_text]
      split <;> rfl

theorem text_of_decimals (σ : Renaming) {number : List Char} (h : number.all isDecimal = true) :
    σ.text number = number := σ.text_eq_self_of_class seesInert_isDecimal (List.all_eq_true.mp h)

theorem plain_of_decimals {number : List Char} (h : number.all isDecimal = true) :
    ∀ d ∈ number, d ≠ '<' ∧ d ≠ '&' := by
  intro d hd
  have hdecimal := List.all_eq_true.mp h d hd
  constructor <;> rintro rfl <;> exact absurd hdecimal (by decide)

theorem decimals_of_footnoteMark? {target number : List Char} (h : footnoteMark? target = some number) :
    number.all isDecimal = true := by
  unfold footnoteMark? at h
  split at h
  · split at h
    next hnumber =>
      obtain rfl := Option.some.inj h
      exact (Bool.and_eq_true_iff.mp hnumber).2
    next => cases h
  · cases h

/-- The number of a footnote is not renamed. -/
theorem footnoteMark?_text (σ : Renaming) (target : List Char) :
    footnoteMark? (σ.text target) = footnoteMark? target := by
  have hhash : isInert '#' = false := by decide
  cases target with
  | nil => rfl
  | cons c number =>
    have hc' : σ c = '#' ↔ c = '#' := σ.eq_iff hhash
    by_cases hc : c = '#'
    · subst hc
      rw [Renaming.text_cons, σ.fixes _ hhash, footnoteMark?, footnoteMark?, σ.isEmpty_text,
        σ.all_text seesInert_isDecimal]
      split
      next hnumber =>
        rw [text_of_decimals σ (Bool.and_eq_true_iff.mp hnumber).2]
      next => rfl
    · have hne : σ c ≠ '#' := fun h => hc (hc'.mp h)
      simp [footnoteMark?, hc, hne]

theorem isFootnoteNumber_text (σ : Renaming) (target : List Char) :
    isFootnoteNumber (σ.text target) = isFootnoteNumber target := by
  rw [isFootnoteNumber, isFootnoteNumber, σ.isEmpty_text, σ.all_text seesInert_isDecimal]

/-- A file extension is not renamed. -/
theorem extension?_text (σ : Renaming) (target : List Char) :
    extension? (σ.text target) = extension? target := by
  have hpath : SeesInert (fun c => c != '#' && c != '?') true := by
    intro c hc
    simp only [seesInert_ne (d := '#') (by decide) c hc, seesInert_ne (d := '?') (by decide) c hc,
      Bool.and_self]
  have hclass : SeesInert (fun c => isLatin c || isDigit c) false :=
    seesInert_isLatin.or seesInert_isDigit
  have hdot : isInert '.' = false := by decide
  unfold extension?
  rw [σ.takeWhile_text hpath]
  generalize target.takeWhile (fun c => c != '#' && c != '?') = path
  have hending : σ.text (path.reverse.takeWhile fun c => isLatin c || isDigit c) =
      path.reverse.takeWhile fun c => isLatin c || isDigit c :=
    σ.text_eq_self_of_class hclass fun c hc =>
      List.mem_takeWhile_imp (p := fun c => isLatin c || isDigit c) hc
  simp only [σ.reverse_text, σ.takeWhile_text hclass, hending, σ.drop_text]
  generalize path.reverse.drop _ = rest
  cases rest with
  | nil => rfl
  | cons c rest =>
    have hc' : σ c = '.' ↔ c = '.' := σ.eq_iff hdot
    by_cases hc : c = '.'
    · subst hc
      rw [Renaming.text_cons, σ.fixes _ hdot]
      rfl
    · have hne : σ c ≠ '.' := fun h => hc (hc'.mp h)
      simp [hc, hne]

theorem isExternal_text (σ : Renaming) (target : List Char) :
    isExternal (σ.text target) = isExternal target := by
  have hscheme : SeesInert (fun d => isLatin d || isDigit d || d == '+' || d == '.' || d == '-') false :=
    ((((seesInert_isLatin.or seesInert_isDigit).or (seesInert_beq (by decide))).or
      (seesInert_beq (by decide))).or (seesInert_beq (by decide)))
  have hhas : hasScheme (σ.text target) = hasScheme target := by
    cases target with
    | nil => rfl
    | cons c rest =>
      rw [Renaming.text_cons, hasScheme, hasScheme, σ.class_eq seesInert_isLatin,
        σ.dropWhile_text hscheme, σ.startsWith_text (isInert_of_mem (by decide))]
  rw [isExternal, isExternal, hhas, σ.startsWith_text (isInert_of_mem (by decide)),
    σ.startsWith_text (isInert_of_mem (by decide))]

/-! ### Addresses -/

theorem escapeAttribute_append (x y : List Char) :
    Html.escapeAttribute (x ++ y) = Html.escapeAttribute x ++ Html.escapeAttribute y :=
  List.flatMap_append

theorem echo_pageAddress (context : Context) (target : List Char) :
    Echo σ (Html.escapeAttribute (pageAddress context target))
      (Html.escapeAttribute (pageAddress context (σ.text target))) := by
  have hhash : SeesInert (· != '#') true := seesInert_ne (by decide)
  unfold pageAddress
  split
  · exact echo_quoted target
  · simp only [σ.takeWhile_text hhash, σ.dropWhile_text hhash, σ.drop_text, σ.isEmpty_text,
      escapeAttribute_append]
    refine ((echo_quotedOwn _).append (echo_encodeQuery _).quoted).append ?_
    split
    · exact .nil
    · exact (echo_quotedOwn ['#']).append (echo_quoted _)

theorem echo_attachmentAddress (context : Context) (target : List Char) :
    Echo σ (Html.escapeAttribute (attachmentAddress context target))
      (Html.escapeAttribute (attachmentAddress context (σ.text target))) := by
  unfold attachmentAddress
  split
  · exact echo_quoted target
  · simp only [contains_text σ (d := '/') (by decide), escapeAttribute_append]
    refine (echo_quotedOwn _).append (Echo.quoted ?_)
    split
    · exact echo_encodePath target
    · have hslash : '/' :: σ.text target = σ.text ('/' :: target) := by
        rw [Renaming.text_cons, σ.fixes '/' (by decide)]
      rw [hslash, Url.encodePath, Url.encodePath, List.flatMap_append, List.flatMap_append]
      refine Echo.append (echo_plain fun d hd => ?_) (echo_encodePath _)
      have hd : d ∈ Url.encodePath context.page := hd
      exact plain_of_mem_encodePath hd

theorem echo_anchor {kind : String} (hkind : isOwnText kind.toList = true)
    {address address' : List Char}
    (haddress : Echo σ (Html.escapeAttribute address) (Html.escapeAttribute address'))
    (label : List Char) :
    Echo σ (anchor kind address (Html.escape label))
      (anchor kind address' (Html.escape (σ.text label))) := by
  have hclass : Echo σ ("<a class=\"".toList ++ kind.toList ++ "\" href=\"".toList)
      ("<a class=\"".toList ++ kind.toList ++ "\" href=\"".toList) :=
    ((echo_ownText (by simp [ownTexts])).append (echo_own hkind)).append (echo_ownText (by simp [ownTexts]))
  unfold anchor
  exact (((hclass.append haddress).append (echo_ownText (by simp [ownTexts]))).append
    (echo_escape label)).append (echo_ownText (by simp [ownTexts]))

theorem echo_inlineImage {address address' : List Char}
    (haddress : Echo σ (Html.escapeAttribute address) (Html.escapeAttribute address'))
    (description : List Char) :
    Echo σ (inlineImage address description) (inlineImage address' (σ.text description)) := by
  unfold inlineImage
  exact ((((echo_ownText (by simp [ownTexts])).append haddress).append
    (echo_ownText (by simp [ownTexts]))).append (echo_quoted description)).append
    (echo_ownText (by simp [ownTexts]))

theorem echo_footnoteName (context : Context) {number : List Char}
    (hnumber : number.all isDecimal = true) :
    Echo σ (footnoteName context number) (footnoteName context number) := by
  unfold footnoteName
  refine ((echo_ownText (by simp [ownTexts])).append (echo_quotedOwn _)).append ?_
  exact .plain (by decide) (by decide) (echo_plain (plain_of_decimals hnumber))

theorem echo_footnote (context : Context) {number : List Char} (hnumber : number.all isDecimal = true) :
    Echo σ
      ("<a class=\"footnote\" name=\"".toList ++ footnoteName context number ++ "\">[#".toList
        ++ number ++ "]</a>".toList)
      ("<a class=\"footnote\" name=\"".toList ++ footnoteName context number ++ "\">[#".toList
        ++ number ++ "]</a>".toList) :=
  ((((echo_ownText (by simp [ownTexts])).append (echo_footnoteName context hnumber)).append
    (echo_ownText (by simp [ownTexts]))).append (echo_plain (plain_of_decimals hnumber))).append
    (echo_ownText (by simp [ownTexts]))

theorem echo_footnoteReference (context : Context) {target : List Char}
    (htarget : target.all isDecimal = true) (label : List Char) :
    Echo σ
      ("<a class=\"footnoteref\" href=\"#".toList ++ footnoteName context target ++ "\">[".toList
        ++ Html.escape label ++ "]</a>".toList)
      ("<a class=\"footnoteref\" href=\"#".toList ++ footnoteName context (σ.text target)
        ++ "\">[".toList ++ Html.escape (σ.text label) ++ "]</a>".toList) := by
  rw [text_of_decimals σ htarget]
  exact ((((echo_ownText (by simp [ownTexts])).append (echo_footnoteName context htarget)).append
    (echo_ownText (by simp [ownTexts]))).append (echo_escape label)).append (echo_ownText (by simp [ownTexts]))

/-- A link of a renamed text is of the same kind. -/
theorem echo_renderLink (context : Context) (body : List Char) :
    Echo σ (renderLink context body) (renderLink context (σ.text body)) := by
  unfold renderLink
  rw [linkParts_text]
  obtain ⟨label, target⟩ := linkParts body
  simp only [footnoteMark?_text, isFootnoteNumber_text, extension?_text, isExternal_text, beq_text,
    head?_text σ (d := '#') (by decide)]
  split
  next number hnumber => exact echo_footnote context (decimals_of_footnoteMark? hnumber)
  split
  next hfootnote =>
    exact echo_footnoteReference context (Bool.and_eq_true_iff.mp hfootnote).2 label
  split
  · split
    · exact echo_inlineImage (echo_quoted target) target
    · exact echo_anchor (by decide) (echo_quoted target) label
  split
  · exact echo_anchor (by decide) (echo_quoted target) label
  split
  · split
    · exact echo_inlineImage (echo_attachmentAddress context target) target
    · exact echo_anchor (by decide) (echo_attachmentAddress context target) label
  · exact echo_anchor (by decide) (echo_pageAddress context target) label

/-! ### Lines -/

theorem isEscapable_of_literal {a : Char} {covered : Nat} (h : literalPattern pieces = some (a, covered)) :
    isEscapable a = true := by
  unfold literalPattern at h
  split at h
  · split at h
    next hescapable =>
      obtain ⟨rfl, -⟩ := Prod.mk.inj (Option.some.inj h)
      exact hescapable
    next => cases h
  · cases h

theorem linesAlike_literals (σ : Renaming) (text : List Char) :
    LinesAlike σ (Line.withLiteralsHeld text) (Line.withLiteralsHeld (σ.text text)) := by
  have hstart : LinesAlike σ ⟨Piece.ofText text, []⟩ ⟨Piece.ofText (σ.text text), []⟩ := by
    refine ⟨?_, .nil⟩
    simp only [Piece.ofText, Renaming.text, List.map_map]
    rfl
  have hliteral : ∀ pieces a covered, literalPattern pieces = some (a, covered) →
      Echo σ [a] [id a] := by
    intro pieces a covered h
    have hescapable := isEscapable_of_literal h
    refine .plain ?_ ?_ .nil <;> rintro rfl <;> exact absurd hescapable (by decide)
  have hbraces : FindsRenamed σ (enclosedPattern "\x7b\x7b\x7b".toList "\x7d\x7d\x7d".toList 0)
      (List.map (Piece.renamed σ)) :=
    enclosed_finds (isInert_of_mem (by decide)) (isInert_of_mem (by decide)) 0
  unfold Line.withLiteralsHeld
  refine LinesAlike.hold ?_ hbraces fun _ body _ _ => echo_renderCode body
  refine LinesAlike.holdLiteral ?_ (isInert_of_mem (by decide)) (echo_own (by decide))
  exact hstart.hold literal_finds hliteral

theorem LinesAlike.links {line line' : Line} (h : LinesAlike σ line line') (context : Context) :
    LinesAlike σ (line.withLinksHeld context) (line'.withLinksHeld context) := by
  have hplugin : FindsRenamed σ pluginPattern (List.map (Piece.renamed σ)) :=
    enclosed_finds (isInert_of_mem (by decide)) (isInert_of_mem (by decide)) 0
  unfold Line.withLinksHeld
  refine (h.hold hplugin fun _ body _ _ => echo_renderPlugin body).hold link_finds
    fun _ body _ _ => ?_
  rw [textOf_renamed]
  exact echo_renderLink context _

theorem LinesAlike.restore {line line' : Line} (h : LinesAlike σ line line') :
    Echo σ line.withStyles.restore line'.withStyles.restore := by
  obtain ⟨pieces, fragments⟩ := line
  obtain ⟨pieces', fragments'⟩ := line'
  obtain ⟨hpieces, hfragments⟩ := h
  obtain rfl : pieces' = pieces.map (Piece.renamed σ) := hpieces
  exact echo_withStyles σ pieces hfragments

/-- Inline markup has an echo. -/
theorem echo_renderInline (context : Context) (text : List Char) :
    Echo σ (renderInline context text) (renderInline context (σ.text text)) :=
  ((linesAlike_literals σ text).links context).restore

end WikiMigration.Wiki

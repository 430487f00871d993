/-
Letters and digits on a page with braces.

Three braces open preformatted text, on a line of its own or within one, two of them monospaced text, and what
neither claims is text like any other.  However the braces stand, no letter and no digit of the page gets lost,
with one exception: the line that ends preformatted text is read up to its end mark, and what stands behind the
mark is dropped.  The page shows all its letters and digits exactly if there are none in these tails.
-/
import WikiMigration.Proofs.Wiki.Literal

namespace WikiMigration.Wiki

open Text

variable {c : Char} {html text line : List Char}

/-! ### What a reader sees of HTML -/

/-- The letters and digits of a text. -/
def lettersOf (text : List Char) : List Char := text.filter isAlphanumeric

/-- The text outside of tags; the flag says whether a tag is open. -/
def withoutTags : Bool → List Char → List Char
  | _, [] => []
  | true, c :: rest => withoutTags (c != '>') rest
  | false, c :: rest => if c == '<' then withoutTags true rest else c :: withoutTags false rest

/-- What a reader sees of HTML: its tags are taken out and its references are read. -/
def seenOf (html : List Char) : List Char := Html.readReferences false (withoutTags false html)

/-- In front of any other HTML, the HTML adds these letters and digits to what is seen. -/
def Reveals (html letters : List Char) : Prop :=
  ∀ rest, lettersOf (seenOf (html ++ rest)) = letters ++ lettersOf (seenOf rest)

@[simp] theorem lettersOf_append (text rest : List Char) : lettersOf (text ++ rest) = lettersOf text ++ lettersOf rest :=
  List.filter_append ..

theorem lettersOf_eq_nil (h : ∀ c ∈ text, isAlphanumeric c = false) : lettersOf text = [] :=
  List.filter_eq_nil_iff.mpr fun c hc => by simp [h c hc]

theorem Reveals.lettersOf_eq {letters : List Char} (h : Reveals html letters) : lettersOf (seenOf html) = letters := by
  have hall := h []
  rwa [List.append_nil, show lettersOf (seenOf []) = [] from rfl, List.append_nil] at hall

theorem reveals_nil : Reveals [] [] := fun _ => rfl

theorem Reveals.append {html' letters letters' : List Char} (h : Reveals html letters) (h' : Reveals html' letters') :
    Reveals (html ++ html') (letters ++ letters') := by
  intro rest
  rw [List.append_assoc, h, h', List.append_assoc]

theorem reveals_flatMap {α : Type} {write letters : α → List Char} {xs : List α}
    (h : ∀ x ∈ xs, Reveals (write x) (letters x)) : Reveals (xs.flatMap write) (xs.flatMap letters) := by
  induction xs with
  | nil => exact reveals_nil
  | cons x rest ih =>
    exact (h x List.mem_cons_self).append (ih fun y hy => h y (List.mem_cons_of_mem x hy))

/-- A tag shows nothing. -/
theorem reveals_tag (name : List Char) (h : '>' ∉ name) : Reveals ('<' :: (name ++ ['>'])) [] := by
  have hinside : ∀ rest, withoutTags true (name ++ '>' :: rest) = withoutTags false rest := by
    intro rest
    induction name with
    | nil => rfl
    | cons c more ih =>
      rw [List.mem_cons, not_or] at h
      have hc : (c != '>') = true := by simpa using Ne.symm h.1
      rw [List.cons_append, withoutTags, hc, ih h.2]
  intro rest
  have htag : '<' :: (name ++ ['>']) ++ rest = '<' :: (name ++ '>' :: rest) := by simp
  rw [htag, seenOf, withoutTags, if_pos (by decide), hinside]
  rfl

theorem withoutTags_append (h : '<' ∉ text) (rest : List Char) :
    withoutTags false (text ++ rest) = text ++ withoutTags false rest := by
  induction text with
  | nil => rfl
  | cons c more ih =>
    rw [List.mem_cons, not_or] at h
    have hc : ¬(c == '<') = true := by simpa using Ne.symm h.1
    rw [List.cons_append, withoutTags, if_neg hc, ih h.2, List.cons_append]

theorem angle_not_mem_escape (text : List Char) : '<' ∉ Html.escape text := by
  intro h
  obtain ⟨c, -, hc⟩ := List.mem_flatMap.mp h
  unfold Html.escapeChar at hc
  split at hc
  · exact absurd hc (by decide)
  split at hc
  · exact absurd hc (by decide)
  split at hc
  · exact absurd hc (by decide)
  next hangle _ =>
    obtain rfl := List.mem_singleton.mp hc
    exact hangle (by decide)

/-- **Text that is written into HTML is seen.** -/
theorem reveals_escape (text : List Char) : Reveals (Html.escape text) (lettersOf text) := by
  intro rest
  have hread : ∀ html, Html.readReferences false (Html.escape text ++ html) =
      text ++ Html.readReferences false html := by
    intro html
    induction text with
    | nil => rfl
    | cons c more ih =>
      rw [Html.escape, List.flatMap_cons, ← Html.escape, List.append_assoc, Html.readReferences_escapeChar, ih,
        List.cons_append]
  rw [seenOf, withoutTags_append (angle_not_mem_escape text), hread, lettersOf_append]
  rfl

/-- A character that is written as it is. -/
theorem reveals_char (h : Html.escapeChar c = [c]) : Reveals [c] (lettersOf [c]) := by
  have hescape := reveals_escape [c]
  rwa [Html.escape, List.flatMap_singleton, h] at hescape

theorem reveals_unlines {α : Type} {write letters : α → List Char} {xs : List α}
    (h : ∀ x ∈ xs, Reveals (write x) (letters x)) : Reveals (unlines (xs.map write)) (xs.flatMap letters) := by
  induction xs with
  | nil => exact reveals_nil
  | cons x rest ih =>
    have hfirst := h x List.mem_cons_self
    have hrest := ih fun y hy => h y (List.mem_cons_of_mem x hy)
    by_cases hnil : rest = []
    · subst hnil
      simpa [unlines, joinWith] using hfirst
    · have hfeed : Reveals ['\n'] [] := reveals_char (c := '\n') (by decide)
      rw [List.map_cons, unlines_cons _ (by simpa using hnil), List.flatMap_cons]
      exact hfirst.append (hfeed.append hrest)

/-! ### Lines of letters, digits, spaces and braces -/

/-- Whether the character may stand in a line with braces. -/
def isBracedChar (c : Char) : Bool := isAlphanumeric c || c == ' ' || c == '\x7b' || c == '\x7d'

/-- A line of letters, digits, spaces and braces. -/
def IsBracedLine (line : List Char) : Prop := ∀ c ∈ line, isBracedChar c = true

instance (line : List Char) : Decidable (IsBracedLine line) :=
  inferInstanceAs (Decidable (∀ c ∈ line, isBracedChar c = true))

theorem IsBracedLine.not_mem (h : IsBracedLine line) {d : Char} (hd : isBracedChar d = false) : d ∉ line :=
  fun hmem => Bool.false_ne_true (hd.symm.trans (h d hmem))

theorem escapeChar_braced (h : isBracedChar c = true) : Html.escapeChar c = [c] := by
  have hne : ∀ d : Char, isBracedChar d = false → (c == d) = false := by
    intro d hd
    rw [beq_eq_false_iff_ne]
    rintro rfl
    exact Bool.false_ne_true (hd.symm.trans h)
  rw [Html.escapeChar, hne '&' (by decide), hne '<' (by decide), hne '>' (by decide)]
  simp

/-! ### Inline markup of a line with braces -/

/-- The letters and digits that a piece shows. -/
def Piece.lettersIn (fragments : List (List Char)) (piece : Piece) : List Char :=
  lettersOf (seenOf (piece.restored fragments))

/-- The line with its preformatted text held apart. -/
def codesHeld (line : List Char) : Line := (Line.mk (Piece.ofText line) [['[']]).hold codePattern renderCode

theorem lettersOf_char (c : Char) (h : isBracedChar c = true) (fragments : List (List Char)) :
    (Piece.char c).lettersIn fragments = lettersOf [c] :=
  (reveals_char (escapeChar_braced h)).lettersOf_eq

theorem flatMap_lettersIn_ofText {text : List Char} (h : IsBracedLine text) (fragments : List (List Char)) :
    (Piece.ofText text).flatMap (Piece.lettersIn fragments) = lettersOf text := by
  induction text with
  | nil => rfl
  | cons c rest ih =>
    rw [ofText_cons, List.flatMap_cons, lettersOf_char c (h c List.mem_cons_self) fragments,
      ih fun d hd => h d (List.mem_cons_of_mem c hd), ← lettersOf_append, List.singleton_append]

theorem reveals_renderCode (body : List Piece) : Reveals (renderCode body) (lettersOf (Piece.textOf body)) := by
  have hopening : Reveals "<code>".toList [] := reveals_tag "code".toList (by decide)
  have hclosing : Reveals "</code>".toList [] := reveals_tag "/code".toList (by decide)
  have hall := (hopening.append (reveals_escape (Piece.textOf body))).append hclosing
  rwa [List.nil_append, List.append_nil] at hall

theorem braced_of_mem_codesHeld (h : IsBracedLine line) (hc : .char c ∈ (codesHeld line).pieces) :
    isBracedChar c = true := by
  obtain ⟨d, hd, heq⟩ := List.mem_map.mp (char_mem_hold hc)
  obtain rfl := Piece.char.inj heq
  exact h d hd

/-- Every piece of the line shows what it shows, whatever stands behind it. -/
theorem reveals_piece (h : IsBracedLine line) {piece : Piece} (hpiece : piece ∈ (codesHeld line).pieces) :
    Reveals (piece.restored (codesHeld line).fragments) (piece.lettersIn (codesHeld line).fragments) := by
  have hself : ∀ {html letters}, Reveals html letters → Reveals html (lettersOf (seenOf html)) := fun h => by
    rw [h.lettersOf_eq]
    exact h
  cases piece with
  | char c => exact hself (reveals_char (escapeChar_braced (braced_of_mem_codesHeld h hpiece)))
  | held index =>
    have hfragments : (codesHeld line).fragments =
        [['[']] ++ (foundIn codePattern (Piece.ofText line)).map renderCode := fragments_hold _
    rw [Piece.lettersIn, Piece.restored]
    cases hfragment : (codesHeld line).fragments[index]? with
    | none => exact hself reveals_nil
    | some fragment =>
      have hmem := List.mem_of_getElem? hfragment
      rw [hfragments, List.mem_append, List.mem_singleton, List.mem_map] at hmem
      rcases hmem with rfl | ⟨body, -, rfl⟩
      · exact hself (reveals_char (c := '[') (by decide))
      · exact hself (reveals_renderCode body)

/-- Holding preformatted text apart loses no letter and no digit. -/
theorem lettersIn_codesHeld (h : IsBracedLine line) :
    (codesHeld line).pieces.flatMap (Piece.lettersIn (codesHeld line).fragments) = lettersOf line := by
  have hheld : (codesHeld line).pieces.flatMap (Piece.lettersIn (codesHeld line).fragments) =
      (parts codePattern (Piece.ofText line)).flatMap (Part.weigh (Piece.lettersIn (codesHeld line).fragments)
        fun body => lettersOf (seenOf (renderCode body))) :=
    @flatMap_holdParts _ _ (fun html => lettersOf (seenOf html)) renderCode _ [['[']] _ rfl
  have hparts : (parts codePattern (Piece.ofText line)).flatMap (Part.weigh (Piece.lettersIn (codesHeld line).fragments)
      fun body => lettersOf (seenOf (renderCode body))) =
      (parts codePattern (Piece.ofText line)).flatMap
        (Part.weigh (fun piece => lettersOf piece.text) fun body => lettersOf (Piece.textOf body)) := by
    refine List.flatMap_congr fun part hpart => ?_
    cases part with
    | item piece =>
      obtain ⟨c, hc, rfl⟩ := List.mem_map.mp (mem_of_item_mem hpart)
      exact lettersOf_char c (h c hc) _
    | found body => exact (reveals_renderCode body).lettersOf_eq
  have htext : ∀ pieces : List Piece, pieces.flatMap (fun piece => lettersOf piece.text) = lettersOf (Piece.textOf pieces) := by
    intro pieces
    rw [Piece.textOf, lettersOf, List.filter_flatMap]
    rfl
  have hcovers : ∀ xs body n, codePattern xs = some (body, n) →
      0 < n ∧ (xs.take n).flatMap (fun piece => lettersOf piece.text) = lettersOf (Piece.textOf body) := by
    intro xs body n hfound
    refine ⟨pos_of_enclosed (by decide) hfound, ?_⟩
    rw [take_enclosed hfound, List.flatMap_append, List.flatMap_append, htext, htext, htext, textOf_ofText,
      textOf_ofText]
    exact List.append_nil _
  rw [hheld, hparts, flatMap_parts hcovers, htext, textOf_ofText]

/-- Monospaced text is the same text in a tag. -/
def monospacedPattern : Pattern Piece (List Piece) := enclosedPattern "\x7b\x7b".toList "\x7d\x7d".toList 1

/-- Nothing but the braces means anything in the line. -/
theorem allHeld_braced (h : IsBracedLine line) (context : Context) : allHeld context line = codesHeld line := by
  have hbracket : '[' ∉ line := h.not_mem (by decide)
  have hliterals : literalsHeld line = ⟨Piece.ofText line, []⟩ :=
    hold_of_startsAt literal_startsAt _ (h.not_mem (by decide)) []
  have hbrackets : bracketsHeld line = ⟨Piece.ofText line, [['[']]⟩ := by
    rw [bracketsHeld, hliterals, Line.holdLiteral, substitute_of_startsAt bracket_startsAt _ hbracket]
    rfl
  have hcodes : Line.withLiteralsHeld line = codesHeld line := by
    rw [withLiteralsHeld_eq, hbrackets, codesHeld]
  have hnone : Piece.char '[' ∉ (codesHeld line).pieces := fun hmem =>
    absurd (braced_of_mem_codesHeld h hmem) (by decide)
  have hplugins : pluginsHeld line = codesHeld line := by
    rw [pluginsHeld, hcodes]
    exact hold_of_items _ (parts_of_not_mem plugin_startsAt hnone) _
  rw [allHeld_eq, hplugins]
  exact hold_of_items _ (parts_of_not_mem link_startsAt hnone) _

theorem escapePieces_braced {pieces : List Piece} (h : ∀ c, .char c ∈ pieces → isBracedChar c = true) :
    escapePieces pieces = pieces := by
  induction pieces with
  | nil => rfl
  | cons piece rest ih =>
    have hrest := ih fun c hc => h c (List.mem_cons_of_mem piece hc)
    rw [escapePieces, List.flatMap_cons, ← escapePieces, hrest]
    cases piece with
    | held index => rfl
    | char c =>
      show Piece.ofText (Html.escapeChar c) ++ rest = _
      rw [escapeChar_braced (h c List.mem_cons_self)]
      rfl

theorem char_mem_tagged {content : List Piece} (hc : .char c ∈ tagged "code" content) :
    .char c ∈ content ∨ c ∈ "<code>/".toList := by
  rw [tagged, List.mem_append, List.mem_append] at hc
  have htag : ∀ {text : List Char}, text ⊆ "<code>/".toList → Piece.char c ∈ Piece.ofText text → c ∈ "<code>/".toList := by
    intro text hsub hmem
    obtain ⟨d, hd, heq⟩ := List.mem_map.mp hmem
    obtain rfl := Piece.char.inj heq
    exact hsub hd
  rcases hc with (hc | hc) | hc
  · exact Or.inr (htag (by decide) hc)
  · exact Or.inl hc
  · exact Or.inr (htag (by decide) hc)

/-- What monospaced text is made of stands in the line. -/
theorem mem_of_mem_monospaced {pieces body : List Piece} (h : body ∈ foundIn monospacedPattern pieces) :
    body ⊆ pieces := by
  obtain ⟨part, hpart, heq⟩ := List.mem_filterMap.mp h
  cases part with
  | item other => cases heq
  | found found =>
    obtain rfl := Option.some.inj heq
    obtain ⟨behind, n, hsuffix, hfound⟩ := exists_suffix_of_found hpart
    obtain ⟨others, hbehind, -⟩ := enclosedPattern_eq_some hfound
    intro piece hpiece
    exact hsuffix.subset (by rw [hbehind]; simp [hpiece])

theorem withStyles_braced {pieces : List Piece} (h : ∀ c, .char c ∈ pieces → isBracedChar c = true)
    (fragments : List (List Char)) : (Line.mk pieces fragments).withStyles =
      ⟨substitute monospacedPattern (tagged "code") pieces, fragments⟩ := by
  have hnone : ∀ m : Char, isBracedChar m = false → Piece.char m ∉ pieces := fun m hm hmem =>
    Bool.false_ne_true (hm.symm.trans (h m hmem))
  have hstyled : ∀ m : Char, isBracedChar m = false → m ∉ "<code>/".toList →
      Piece.char m ∉ substitute monospacedPattern (tagged "code") pieces := by
    intro m hm htag hmem
    rcases mem_substitute.mp hmem with hitem | ⟨body, hbody, hpiece⟩
    · exact hnone m hm (mem_of_item_mem hitem)
    · rcases char_mem_tagged hpiece with hpiece | hpiece
      · exact hnone m hm (mem_of_mem_monospaced hbody hpiece)
      · exact htag hpiece
  rw [withStyles_eq, escapePieces_braced h,
    substitute_of_items _ (parts_of_not_mem bold_startsAt (hnone '_' (by decide))),
    substitute_of_items _ (parts_of_not_mem italic_startsAt (hnone '\'' (by decide)))]
  show Line.mk (substitute lineBreakPattern _ (substitute stylePattern _
    (substitute monospacedPattern (tagged "code") pieces))) fragments = _
  rw [substitute_of_items _ (parts_of_not_mem style_startsAt (hstyled '%' (by decide) (by decide))),
    substitute_of_items _ (parts_of_not_mem lineBreak_startsAt (hstyled '\\' (by decide) (by decide)))]

/-- **A line with braces shows all its letters and digits.** -/
theorem reveals_renderInline (h : IsBracedLine line) (context : Context) :
    Reveals (renderInline context line) (lettersOf line) := by
  have hrender : renderInline context line = (allHeld context line).withStyles.restore := rfl
  have hletters := lettersIn_codesHeld h
  have hpiece := fun piece => @reveals_piece line h piece
  have hchars := fun c => braced_of_mem_codesHeld h (c := c)
  rw [hrender, allHeld_braced h]
  generalize codesHeld line = held at hletters hpiece hchars ⊢
  obtain ⟨pieces, fragments⟩ := held
  dsimp only at hletters hpiece hchars
  have hcovers : ∀ xs body n, monospacedPattern xs = some (body, n) →
      0 < n ∧ (xs.take n).flatMap (Piece.lettersIn fragments) = body.flatMap (Piece.lettersIn fragments) := by
    intro xs body n hfound
    refine ⟨pos_of_enclosed (by decide) hfound, ?_⟩
    have hopening : (Piece.ofText "\x7b\x7b".toList).flatMap (Piece.lettersIn fragments) = [] :=
      (flatMap_lettersIn_ofText (by decide) fragments).trans (by decide +kernel)
    have hclosing : (Piece.ofText "\x7d\x7d".toList).flatMap (Piece.lettersIn fragments) = [] :=
      (flatMap_lettersIn_ofText (by decide) fragments).trans (by decide +kernel)
    rw [take_enclosed hfound, List.flatMap_append, List.flatMap_append, hopening, hclosing, List.nil_append,
      List.append_nil]
  rw [withStyles_braced hchars, restore_eq, ← hletters, ← flatMap_parts hcovers, substitute, List.flatMap_assoc]
  refine reveals_flatMap fun part hpart => ?_
  cases part with
  | item piece =>
    rw [List.flatMap_singleton]
    exact hpiece piece (mem_of_item_mem hpart)
  | found body =>
    have hbody : body ⊆ pieces := mem_of_mem_monospaced (List.mem_filterMap.mpr ⟨_, hpart, rfl⟩)
    have hopening : Reveals "<code>".toList [] := reveals_tag "code".toList (by decide)
    have hclosing : Reveals "</code>".toList [] := reveals_tag "/code".toList (by decide)
    have hinside : Reveals (body.flatMap (Piece.restored fragments)) (body.flatMap (Piece.lettersIn fragments)) :=
      reveals_flatMap fun piece hmem => hpiece piece (hbody hmem)
    have hall := (hopening.append hinside).append hclosing
    rw [List.nil_append, List.append_nil] at hall
    show Reveals ((tagged "code" body).flatMap (Piece.restored fragments)) _
    rw [tagged, List.flatMap_append, List.flatMap_append, restored_ofText, restored_ofText]
    exact hall

/-! ### Lines that are kept and tails that are lost -/

/-- What is read of the lines; the flag says whether preformatted text is open.  The line that ends it is read up to
its end mark. -/
def keptLines : Bool → List (List Char) → List (List Char)
  | _, [] => []
  | true, line :: rest =>
    match cut? preformattedEnd line with
    | some (before, _) => before :: keptLines false rest
    | none => line :: keptLines true rest
  | false, line :: rest => line :: keptLines (preformattedStart? line).isSome rest

/-- What stands behind the end marks of preformatted text, each up to the end of its line. -/
def lostTails : Bool → List (List Char) → List (List Char)
  | _, [] => []
  | true, line :: rest =>
    match cut? preformattedEnd line with
    | some (_, tail) => tail :: lostTails false rest
    | none => lostTails true rest
  | false, line :: rest => lostTails (preformattedStart? line).isSome rest

theorem lettersOf_line {before tail : List Char} (h : cut? preformattedEnd line = some (before, tail)) :
    lettersOf line = lettersOf before ++ lettersOf tail := by
  have hmark : lettersOf preformattedEnd = [] := by decide
  rw [cut?_eq_some h, lettersOf_append, lettersOf_append, hmark, List.append_nil]

theorem keptLines_sublist (inside : Bool) (lines : List (List Char)) :
    ((keptLines inside lines).flatMap lettersOf).Sublist (lines.flatMap lettersOf) := by
  fun_induction keptLines inside lines with
  | case1 => exact List.Sublist.refl _
  | case2 line rest before tail hcut ih =>
    rw [List.flatMap_cons, List.flatMap_cons, lettersOf_line hcut, List.append_assoc]
    exact (List.Sublist.refl _).append (ih.trans (List.sublist_append_right _ _))
  | case3 line rest hcut ih => exact (List.Sublist.refl _).append ih
  | case4 line rest ih => exact (List.Sublist.refl _).append ih

/-- All letters and digits are kept exactly if there are none in the tails. -/
theorem keptLines_iff (inside : Bool) (lines : List (List Char)) :
    (keptLines inside lines).flatMap lettersOf = lines.flatMap lettersOf ↔
      ∀ tail ∈ lostTails inside lines, lettersOf tail = [] := by
  fun_induction keptLines inside lines with
  | case1 inside => simp [lostTails]
  | case2 line rest before tail hcut ih =>
    rw [lostTails, hcut, List.flatMap_cons, List.flatMap_cons, lettersOf_line hcut, List.append_assoc,
      List.append_cancel_left_eq]
    dsimp only
    rw [List.forall_mem_cons, ← ih]
    constructor
    · intro h
      have hlength := (keptLines_sublist false rest).length_le
      have heq := congrArg List.length h
      rw [List.length_append] at heq
      have hnil : lettersOf tail = [] := List.length_eq_zero_iff.mp (by omega)
      exact ⟨hnil, by rwa [hnil, List.nil_append] at h⟩
    · rintro ⟨hnil, h⟩
      rw [hnil, List.nil_append, h]
  | case3 line rest hcut ih =>
    rw [lostTails, hcut, List.flatMap_cons, List.flatMap_cons, List.append_cancel_left_eq]
    exact ih
  | case4 line rest ih =>
    rw [lostTails, List.flatMap_cons, List.flatMap_cons, List.append_cancel_left_eq]
    exact ih

/-! ### Blanks -/

/-- No code point of the blanks is one of a letter or a digit. -/
theorem blanks_not_alphanumeric : (blankRanges.all fun range =>
    (List.range (range.2 - range.1 + 1)).all fun k => !alphanumericRanges.holds (range.1 + k)) = true := by
  decide +kernel

theorem isAlphanumeric_of_blank (h : isBlank c = true) : isAlphanumeric c = false := by
  by_cases hlow : c.toNat < 0x80
  · rw [isAlphanumeric, if_pos hlow]
    by_contra hletter
    have hprose : isProseChar c = true := by
      rcases Bool.or_eq_true_iff.mp (Bool.not_eq_false _ ▸ hletter) with hc | hc <;> simp [isProseChar, hc]
    have hspace : c ≠ ' ' := by
      rintro rfl
      exact hletter (by decide)
    exact Bool.false_ne_true ((isBlank_of_isProseChar hprose hspace).symm.trans h)
  · rw [isBlank, if_neg hlow] at h
    rw [isAlphanumeric, if_neg hlow]
    obtain ⟨range, hrange, hin⟩ := List.any_eq_true.mp h
    simp only [Bool.and_eq_true, decide_eq_true_eq] at hin
    have hnone := List.all_eq_true.mp blanks_not_alphanumeric range hrange
    have hlast := List.all_eq_true.mp hnone (c.toNat - range.1) (List.mem_range.mpr (by omega))
    rw [Nat.add_sub_cancel' hin.1] at hlast
    simpa using hlast

theorem lettersOf_blank (h : isBlankText text = true) : lettersOf text = [] :=
  lettersOf_eq_nil fun c hc => isAlphanumeric_of_blank (List.all_eq_true.mp h c hc)

theorem lettersOf_dropWhile (text : List Char) : lettersOf (text.dropWhile isBlank) = lettersOf text := by
  have hblank : lettersOf (text.takeWhile isBlank) = [] :=
    lettersOf_eq_nil fun c hc => isAlphanumeric_of_blank (List.mem_takeWhile_imp hc)
  conv_rhs => rw [← List.takeWhile_append_dropWhile (p := isBlank) (l := text)]
  rw [lettersOf_append, hblank, List.nil_append]

theorem lettersOf_trim (text : List Char) : lettersOf (trim text) = lettersOf text := by
  have hreverse : ∀ text : List Char, lettersOf text.reverse = (lettersOf text).reverse := fun text =>
    List.filter_reverse
  rw [trim, trimWith, trimRightWith, hreverse, lettersOf_dropWhile, hreverse, List.reverse_reverse, trimLeftWith,
    lettersOf_dropWhile]

theorem lettersOf_start {first : List Char} (h : preformattedStart? line = some first) :
    lettersOf first = lettersOf line := by
  obtain ⟨hafter, -⟩ := Option.filter_eq_some_iff.mp h
  have hmark : lettersOf preformattedMark = [] := by decide
  rw [← lettersOf_trim line, after?_eq_some.mp hafter, lettersOf_append, hmark, List.nil_append]

/-! ### Pages -/

/-- Nothing but preformatted text is open. -/
def Pending.inPreformatted (read : List (List Char)) : Pending := ⟨[], [], [], 0, some read⟩

theorem step_inPreformatted (read : List (List Char)) (line : List Char) :
    (Pending.inPreformatted read).step line =
      match cut? preformattedEnd line with
      | none => (.inPreformatted (read ++ [line]), [])
      | some (before, _) =>
        (.inParagraph [], [.preformatted (if isBlankText before then read else read ++ [before]) true]) := by
  show (Pending.inPreformatted read).stepPreformatted read line = _
  rw [Pending.stepPreformatted]
  cases cut? preformattedEnd line <;> rfl

theorem step_braced (h : IsBracedLine line) (read : List (List Char)) :
    (Pending.inParagraph read).step line =
      match preformattedStart? line with
      | some first => (.inPreformatted (if isBlankText first then [] else [first]), paragraphs [read])
      | none =>
        if isBlankText line then (.inParagraph [], paragraphs [read]) else (.inParagraph (read ++ [line]), []) := by
  have hmarks : (openingMarks.all fun m => !isBracedChar m) = true := by decide
  have hunmarked : ∀ m ∈ openingMarks, m ∉ line := fun m hm =>
    h.not_mem (by simpa using List.all_eq_true.mp hmarks m hm)
  have hkind := kind_of_unmarked hunmarked ((Pending.inParagraph read).styles != 0)
  show (Pending.inParagraph read).stepLine line = _
  rw [Pending.stepLine, hkind, ← blocksEnd_inParagraph]
  cases preformattedStart? line with
  | some first => rfl
  | none =>
    by_cases hblank : isBlankText line = true
    · simp only [hblank, if_true]
      rfl
    · rw [if_neg hblank]
      simp only [hblank]
      rfl

/-- The fragments show these letters and digits, each those of its texts. -/
structure ShowLetters (context : Context) (fragments : List Fragment) (letters : List Char) : Prop where
  reveals : ∀ fragment ∈ fragments, Reveals (fragment.render context) (fragment.texts.flatMap lettersOf)
  letters : (fragments.flatMap fun fragment => fragment.texts.flatMap lettersOf) = letters

variable {context : Context} {fragments fragments' : List Fragment} {letters letters' : List Char}
variable {lines read : List (List Char)}

theorem ShowLetters.append (h : ShowLetters context fragments letters) (h' : ShowLetters context fragments' letters') :
    ShowLetters context (fragments ++ fragments') (letters ++ letters') where
  reveals := fun fragment hfragment =>
    (List.mem_append.mp hfragment).elim (h.reveals fragment) (h'.reveals fragment)
  letters := by rw [List.flatMap_append, h.letters, h'.letters]

theorem ShowLetters.page (h : ShowLetters context fragments letters) :
    Reveals (unlines (fragments.map (Fragment.render context))) letters :=
  h.letters ▸ reveals_unlines h.reveals

theorem showLetters_paragraphs (h : ∀ line ∈ read, IsBracedLine line) :
    ShowLetters context (paragraphs [read]) (read.flatMap lettersOf) := by
  by_cases hnil : read = []
  · subst hnil
    exact ⟨List.forall_mem_nil _, rfl⟩
  · have hparagraph : paragraphs [read] = [.paragraph read] := by simp [paragraphs, hnil]
    have hopening : Reveals "<p>".toList [] := reveals_tag "p".toList (by decide)
    have hclosing : Reveals "</p>".toList [] := reveals_tag "/p".toList (by decide)
    have hlines : Reveals (unlines (read.map (renderInline context))) (read.flatMap lettersOf) :=
      reveals_unlines fun line hline => reveals_renderInline (h line hline) context
    have hall := (hopening.append hlines).append hclosing
    rw [List.nil_append, List.append_nil] at hall
    rw [hparagraph]
    exact ⟨List.forall_mem_singleton.mpr hall, List.append_nil _⟩

theorem lettersOf_unlines (lines : List (List Char)) : lettersOf (unlines lines) = lines.flatMap lettersOf := by
  induction lines with
  | nil => rfl
  | cons line rest ih =>
    by_cases hnil : rest = []
    · subst hnil
      exact (List.append_nil _).symm
    · have hfeed : lettersOf ('\n' :: unlines rest) = lettersOf (unlines rest) := List.filter_cons_of_neg (by decide)
      rw [unlines_cons line hnil, lettersOf_append, hfeed, ih, List.flatMap_cons]

/-- Preformatted text shows all its letters and digits, whatever it is. -/
theorem showLetters_preformatted (read : List (List Char)) (closed : Bool) :
    ShowLetters context [.preformatted read closed] (read.flatMap lettersOf) := by
  have hopening : Reveals "<pre>".toList [] := reveals_tag "pre".toList (by decide)
  have hclosing : Reveals "</pre>".toList [] := reveals_tag "/pre".toList (by decide)
  have hall := (hopening.append (reveals_escape (unlines read))).append hclosing
  rw [List.nil_append, List.append_nil, lettersOf_unlines] at hall
  exact ⟨List.forall_mem_singleton.mpr hall, List.append_nil _⟩

/-- The letters and digits of what is open: the lines of a paragraph, or preformatted text if the flag says so. -/
inductive HasRead : Bool → Pending → List Char → Prop
  | paragraph (read : List (List Char)) (h : ∀ line ∈ read, IsBracedLine line) :
    HasRead false (.inParagraph read) (read.flatMap lettersOf)
  | preformatted (read : List (List Char)) : HasRead true (.inPreformatted read) (read.flatMap lettersOf)

variable {inside : Bool} {pending : Pending}

/-- What a line shows and leaves open is what was open before and what is kept of the line. -/
def Keeps (context : Context) (inside : Bool) (pending : Pending) (letters line : List Char) : Prop :=
  ∃ inside' shown letters', HasRead inside' (pending.step line).1 letters' ∧
    ShowLetters context (pending.step line).2 shown ∧
      ∀ rest, letters ++ (keptLines inside (line :: rest)).flatMap lettersOf =
        shown ++ (letters' ++ (keptLines inside' rest).flatMap lettersOf)

theorem keeps_paragraph (hread : ∀ line ∈ read, IsBracedLine line) (hline : IsBracedLine line) :
    Keeps context false (.inParagraph read) (read.flatMap lettersOf) line := by
  have hparagraph : ShowLetters context (paragraphs [read]) (read.flatMap lettersOf) := showLetters_paragraphs hread
  rw [Keeps, step_braced hline]
  cases hstart : preformattedStart? line with
  | some first =>
    have hfirst : (if isBlankText first then [] else [first]).flatMap lettersOf = lettersOf line := by
      rw [← lettersOf_start hstart]
      split
      next hblank => rw [lettersOf_blank hblank]; rfl
      next => exact List.flatMap_singleton ..
    refine ⟨true, _, _, .preformatted _, hparagraph, fun rest => ?_⟩
    rw [keptLines, hstart, List.flatMap_cons, hfirst]
    rfl
  | none =>
    dsimp only
    by_cases hblank : isBlankText line = true
    · rw [if_pos hblank]
      refine ⟨false, _, _, .paragraph [] (List.forall_mem_nil _), hparagraph, fun rest => ?_⟩
      rw [keptLines, hstart, List.flatMap_cons, lettersOf_blank hblank]
      rfl
    · rw [if_neg hblank]
      have hread' : ∀ l ∈ read ++ [line], IsBracedLine l := fun l hl =>
        (List.mem_append.mp hl).elim (hread l) fun hl => List.mem_singleton.mp hl ▸ hline
      refine ⟨false, [], _, .paragraph _ hread', ⟨List.forall_mem_nil _, rfl⟩, fun rest => ?_⟩
      rw [keptLines, hstart, List.flatMap_cons, List.flatMap_append, List.flatMap_singleton, List.append_assoc]
      rfl

theorem keeps_preformatted (read : List (List Char)) (line : List Char) :
    Keeps context true (.inPreformatted read) (read.flatMap lettersOf) line := by
  rw [Keeps, step_inPreformatted]
  cases hcut : cut? preformattedEnd line with
  | none =>
    refine ⟨true, [], _, .preformatted _, ⟨List.forall_mem_nil _, rfl⟩, fun rest => ?_⟩
    rw [keptLines, hcut, List.flatMap_cons, List.flatMap_append, List.flatMap_singleton, List.append_assoc]
    rfl
  | some parts =>
    obtain ⟨before, tail⟩ := parts
    have hread : (if isBlankText before then read else read ++ [before]).flatMap lettersOf =
        read.flatMap lettersOf ++ lettersOf before := by
      split
      next hblank => rw [lettersOf_blank hblank, List.append_nil]
      next => rw [List.flatMap_append, List.flatMap_singleton]
    refine ⟨false, _, _, .paragraph [] (List.forall_mem_nil _), showLetters_preformatted _ true, fun rest => ?_⟩
    rw [keptLines, hcut, List.flatMap_cons, hread, List.append_assoc]
    rfl

theorem HasRead.keeps (h : HasRead inside pending letters) (hline : IsBracedLine line) :
    Keeps context inside pending letters line := by
  cases h with
  | paragraph read hread => exact keeps_paragraph hread hline
  | preformatted read => exact keeps_preformatted read line

theorem HasRead.finish (h : HasRead inside pending letters) : ShowLetters context pending.finish letters := by
  cases h with
  | paragraph read hread =>
    have hfinish : (Pending.inParagraph read).finish = paragraphs [read] := by
      rw [← blocksEnd_inParagraph]
      exact List.append_nil _
    rw [hfinish]
    exact showLetters_paragraphs hread
  | preformatted read => exact showLetters_preformatted read false

/-- Lines read as a paragraph or as preformatted text show what was read before and what is kept of them. -/
theorem HasRead.showLetters (h : HasRead inside pending letters) (hlines : ∀ line ∈ lines, IsBracedLine line) :
    ShowLetters context (fragmentsFrom pending lines) (letters ++ (keptLines inside lines).flatMap lettersOf) := by
  induction lines generalizing inside pending letters with
  | nil =>
    rw [keptLines, List.flatMap_nil, List.append_nil]
    exact h.finish
  | cons line rest ih =>
    rw [List.forall_mem_cons] at hlines
    have hkeeps : Keeps context inside pending letters line := h.keeps hlines.1
    obtain ⟨inside', shown, letters', hopen, hshown, hletters⟩ := hkeeps
    rw [fragmentsFrom, hletters rest]
    exact hshown.append (ih hopen hlines.2)

/-- A page of letters, digits, spaces and braces, and of the line feeds between its lines. -/
def IsBracedPage (page : List Char) : Prop := ∀ c ∈ page, c = '\n' ∨ isBracedChar c = true

instance (page : List Char) : Decidable (IsBracedPage page) :=
  inferInstanceAs (Decidable (∀ c ∈ page, c = '\n' ∨ isBracedChar c = true))

/-- **A page with braces shows the letters and digits that are kept of its lines**, in their order. -/
theorem lettersOf_renderPage {page : List Char} (h : IsBracedPage page) (context : Context) :
    lettersOf (seenOf (renderPage context page)) = (keptLines false (Text.lines page)).flatMap lettersOf := by
  have hlines : ∀ line ∈ Text.lines page, IsBracedLine line := fun line hline c hc =>
    (h c (mem_of_mem_splitAt hline hc)).resolve_left fun heq => not_mem_of_mem_splitAt hline (heq ▸ hc)
  have hpage : pageLines page = Text.lines page :=
    pageLines_eq (fun hmem => absurd (h _ hmem) (by decide)) fun hmem => absurd (h _ hmem) (by decide)
  have hshown : ShowLetters context (fragmentsFrom .empty (Text.lines page))
      ((keptLines false (Text.lines page)).flatMap lettersOf) :=
    HasRead.showLetters (.paragraph [] (List.forall_mem_nil _)) hlines
  rw [renderPage, fragmentsOf, hpage]
  exact hshown.page.lettersOf_eq

/-- **A page with braces shows all its letters and digits exactly if none stand behind the end mark of preformatted
text**, on the line that ends it. -/
theorem letters_shown_iff {page : List Char} (h : IsBracedPage page) (context : Context) :
    lettersOf (seenOf (renderPage context page)) = lettersOf page ↔
      ∀ tail ∈ lostTails false (Text.lines page), lettersOf tail = [] := by
  have hall : lettersOf page = (Text.lines page).flatMap lettersOf := by
    rw [← lettersOf_unlines]
    exact congrArg lettersOf (unlines_lines page).symm
  rw [lettersOf_renderPage h, hall]
  exact keptLines_iff false (Text.lines page)

/-- Braces of all kinds, the last of them behind preformatted text that they end. -/
def variedBraces : List Char :=
  "a\x7b\x7b\x7bb\x7d\x7d\x7d \x7b\x7bc\x7d\x7d \x7d\x7d\x7d\n \x7b\x7b\x7bd\ne\x7d\x7d\x7d\x7d".toList

theorem variedBraces_letters_shown : IsBracedPage variedBraces ∧
    lettersOf (seenOf (renderPage plainContext variedBraces)) = lettersOf variedBraces :=
  have hpage : IsBracedPage variedBraces := by decide
  ⟨hpage, (letters_shown_iff hpage plainContext).mpr (by decide +kernel)⟩

/-- A letter behind the end mark is not shown. -/
theorem letter_behind_end_lost : IsBracedPage "\x7b\x7b\x7b\na\n\x7d\x7d\x7db".toList ∧
    lettersOf (seenOf (renderPage plainContext "\x7b\x7b\x7b\na\n\x7d\x7d\x7db".toList)) = ['a'] ∧
      lettersOf "\x7b\x7b\x7b\na\n\x7d\x7d\x7db".toList = ['a', 'b'] :=
  have hpage : IsBracedPage "\x7b\x7b\x7b\na\n\x7d\x7d\x7db".toList := by decide
  ⟨hpage, (lettersOf_renderPage hpage plainContext).trans (by decide +kernel), by decide +kernel⟩

end WikiMigration.Wiki

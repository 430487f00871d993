/-
The marks that stand for held fragments.

Four times in a row a line has fragments taken out of it, and a mark is left for each.  The passes over
emphasis and styles move the marks about but lose none and make none, so in the end every mark of the line
gives way to its fragment.  What a fragment was made of is not looked at again: a mark that was in it is
written as it is.  A line is flat if no fragment has a mark inside; then everything that is held shows in
the page, and the page has no NUL.
-/
import WikiMigration.Proofs.Wiki.Twin

namespace WikiMigration.Wiki

open Text

/-! ### Marks -/

/-- Whether the piece is written with a NUL: the marks are, and the NUL character itself, which no page
has. -/
def Piece.isMark : Piece → Bool
  | .char c => c == '\x00'
  | .held _ => true

/-- The marks among the pieces, in their order. -/
def marks (pieces : List Piece) : List Piece := pieces.filter Piece.isMark

@[simp] theorem marks_nil : marks [] = [] := rfl

@[simp] theorem marks_append (xs ys : List Piece) : marks (xs ++ ys) = marks xs ++ marks ys :=
  List.filter_append ..

theorem marks_cons (piece : Piece) (rest : List Piece) :
    marks (piece :: rest) = marks [piece] ++ marks rest := marks_append [piece] rest

theorem mem_marks {piece : Piece} {pieces : List Piece} :
    piece ∈ marks pieces ↔ piece ∈ pieces ∧ piece.isMark = true := List.mem_filter

theorem marks_ofText {text : List Char} (h : '\x00' ∉ text) : marks (Piece.ofText text) = [] := by
  refine List.filter_eq_nil_iff.mpr fun piece hpiece => ?_
  obtain ⟨c, hc, rfl⟩ := List.mem_map.mp hpiece
  have hne : c ≠ '\x00' := fun heq => h (heq ▸ hc)
  simpa [Piece.isMark] using hne

theorem marks_char {c : Char} (h : c ≠ '\x00') : marks [.char c] = [] :=
  @marks_ofText [c] (by simpa using Ne.symm h)

theorem marks_flatMap {α : Type} (f : α → List Piece) (xs : List α) :
    marks (xs.flatMap f) = xs.flatMap fun a => marks (f a) := List.filter_flatMap ..

theorem nul_mem_text (piece : Piece) : '\x00' ∈ piece.text ↔ piece.isMark = true := by
  cases piece with
  | char c =>
    rw [Piece.text, Piece.isMark, List.mem_singleton, beq_iff_eq]
    exact eq_comm
  | held index => simp [Piece.text, Piece.isMark]

/-- A mark is written as NUL characters and digits. -/
theorem mem_textOf {c : Char} {pieces : List Piece} (h : c ∈ Piece.textOf pieces) :
    .char c ∈ pieces ∨ c = '\x00' ∨ c.isDigit = true := by
  obtain ⟨piece, hpiece, hmem⟩ := List.mem_flatMap.mp h
  cases piece with
  | char d =>
    obtain rfl := List.mem_singleton.mp hmem
    exact Or.inl hpiece
  | held index =>
    simp only [Piece.text, List.mem_cons, List.mem_append, List.not_mem_nil, or_false, List.cons_append] at hmem
    rcases hmem with heq | hdigit | heq
    · exact Or.inr (Or.inl heq)
    · rw [Nat.toList_repr] at hdigit
      exact Or.inr (Or.inr (Nat.isDigit_of_mem_toDigits (by decide) (by decide) hdigit))
    · exact Or.inr (Or.inl heq)

/-- Pieces are written with a NUL if there is a mark among them. -/
theorem nul_mem_textOf (pieces : List Piece) : '\x00' ∈ Piece.textOf pieces ↔ marks pieces ≠ [] := by
  simp only [Piece.textOf, List.mem_flatMap, nul_mem_text, marks, ne_eq, List.filter_eq_nil_iff,
    not_forall, not_not, exists_prop]

/-- What a piece gives way to. -/
def Piece.restored (fragments : List (List Char)) : Piece → List Char
  | .char c => [c]
  | .held index => (fragments[index]?).getD []

theorem restore_eq (line : Line) : line.restore = line.pieces.flatMap (Piece.restored line.fragments) := by
  rw [Line.restore]
  congr 1

theorem restored_ofText (text : List Char) (fragments : List (List Char)) :
    (Piece.ofText text).flatMap (Piece.restored fragments) = text := by
  simp [Piece.ofText, List.flatMap_map, Piece.restored]

theorem textOf_ofText (text : List Char) : Piece.textOf (Piece.ofText text) = text := by
  simp [Piece.textOf, Piece.ofText, List.flatMap_map, Piece.text]

/-! ### Patterns -/

section Patterns

variable {α : Type} {pattern : Pattern Piece α} {inside : α → List Piece} {xs : List Piece}

/-- What a pattern finds, from left to right. -/
def foundOf (ps : List (Part Piece α)) : List α :=
  ps.filterMap fun part =>
    match part with
    | .item _ => none
    | .found a => some a

/-- What a pattern finds in the pieces. -/
def foundIn (pattern : Pattern Piece α) (pieces : List Piece) : List α := foundOf (parts pattern pieces)

/-- The marks under a match are those inside what it finds. -/
def Covers (pattern : Pattern Piece α) (inside : α → List Piece) : Prop :=
  ∀ xs a n, pattern xs = some (a, n) → 0 < n ∧ marks (xs.take n) = inside a

/-- The marks of a part. -/
def partMarks (inside : α → List Piece) : Part Piece α → List Piece
  | .item piece => marks [piece]
  | .found a => inside a

/-- No mark is lost between the matches and the items that they leave. -/
theorem marks_parts (covers : Covers pattern inside) (xs : List Piece) :
    (parts pattern xs).flatMap (partMarks inside) = marks xs := by
  have hmarks : ∀ pieces : List Piece, pieces.flatMap (fun piece => marks [piece]) = marks pieces := fun pieces => by
    rw [← marks_flatMap, List.flatMap_singleton']
  have hweigh : partMarks inside = Part.weigh (fun piece => marks [piece]) inside := by
    funext part
    cases part <;> rfl
  rw [hweigh, flatMap_parts (fun xs a n h => ?_), hmarks]
  rw [hmarks]
  exact covers xs a n h

/-- A mark stays in the line if nothing that is found has one inside. -/
theorem item_mem_parts (covers : Covers pattern inside) (flat : ∀ a ∈ foundIn pattern xs, inside a = [])
    {piece : Piece} (h : piece ∈ marks xs) : Part.item piece ∈ parts pattern xs := by
  rw [← marks_parts covers, List.mem_flatMap] at h
  obtain ⟨part, hpart, hmark⟩ := h
  cases part with
  | item other =>
    obtain rfl := List.mem_singleton.mp (mem_marks.mp hmark).1
    exact hpart
  | found a =>
    have hnone := flat a (List.mem_filterMap.mpr ⟨_, hpart, rfl⟩)
    rw [partMarks, hnone] at hmark
    cases hmark

/-- The items between the matches are pieces of the line. -/
theorem mem_of_item_mem {piece : Piece} {skip : Nat}
    (h : Part.item piece ∈ partsFrom pattern skip xs) : piece ∈ xs := by
  induction xs generalizing skip with
  | nil => cases h
  | cons x rest ih =>
    cases skip with
    | succ skip => exact List.mem_cons_of_mem x (ih h)
    | zero =>
      rw [partsFrom] at h
      split at h
      · exact List.mem_cons_of_mem x (ih (by simpa using h))
      · rcases List.mem_cons.mp h with heq | h
        · obtain rfl := Part.item.inj heq
          exact List.mem_cons_self
        · exact List.mem_cons_of_mem x (ih h)

/-- What a pattern finds it has read from some place on. -/
theorem exists_suffix_of_found {a : α} {skip : Nat} (h : Part.found a ∈ partsFrom pattern skip xs) :
    ∃ behind n, behind <:+ xs ∧ pattern behind = some (a, n) := by
  induction xs generalizing skip with
  | nil => cases h
  | cons piece more ih =>
    have later : ∀ {skip}, Part.found a ∈ partsFrom pattern skip more →
        ∃ behind n, behind <:+ piece :: more ∧ pattern behind = some (a, n) := fun h => by
      obtain ⟨behind, n, hsuffix, hfound⟩ := ih h
      exact ⟨behind, n, hsuffix.trans (List.suffix_cons piece more), hfound⟩
    cases skip with
    | succ skip => exact later h
    | zero =>
      rw [partsFrom] at h
      split at h
      next b n hfound =>
        rcases List.mem_cons.mp h with heq | h
        · obtain rfl := Part.found.inj heq
          exact ⟨_, n, List.suffix_rfl, hfound⟩
        · exact later h
      next => exact later (by simpa using h)

theorem exists_match_of_mem {a : α} (h : a ∈ foundIn pattern xs) : ∃ ys n, pattern ys = some (a, n) := by
  obtain ⟨part, hpart, heq⟩ := List.mem_filterMap.mp h
  cases part with
  | item other => cases heq
  | found b =>
    obtain rfl := Option.some.inj heq
    obtain ⟨behind, n, -, hfound⟩ := exists_suffix_of_found hpart
    exact ⟨behind, n, hfound⟩

/-- A pass that keeps the marks of each match keeps all marks, in their order. -/
theorem marks_substitute {replacement : α → List Piece}
    (covers : Covers pattern fun a => marks (replacement a)) (xs : List Piece) :
    marks (substitute pattern replacement xs) = marks xs := by
  rw [substitute, marks_flatMap, ← marks_parts covers]
  refine List.flatMap_congr fun part _ => ?_
  cases part <;> rfl

/-! ### Holding fragments apart -/

variable {fragment : α → List Char}

theorem fragments_holdParts (next : Nat) (ps : List (Part Piece α)) :
    (holdParts fragment next ps).2 = (foundOf ps).map fragment := by
  induction ps generalizing next with
  | nil => rfl
  | cons part rest ih =>
    cases part with
    | item piece => exact ih next
    | found a => exact congrArg (fragment a :: ·) (ih (next + 1))

/-- Pieces that are left are items, and marks of what is found, with numbers that follow one another. -/
theorem mem_holdParts {piece : Piece} {next : Nat} {ps : List (Part Piece α)} :
    piece ∈ (holdParts fragment next ps).1 ↔
      Part.item piece ∈ ps ∨ ∃ k < (foundOf ps).length, piece = .held (next + k) := by
  induction ps generalizing next with
  | nil => simp [holdParts, foundOf]
  | cons part rest ih =>
    cases part with
    | item other =>
      have hfound : foundOf (Part.item other :: rest) = foundOf rest := rfl
      rw [hfound, holdParts, List.mem_cons, List.mem_cons, ih, Part.item.injEq, or_assoc]
    | found a =>
      have hfound : foundOf (Part.found a :: rest) = a :: foundOf rest := rfl
      rw [hfound, holdParts, List.mem_cons, List.mem_cons, ih, List.length_cons]
      constructor
      · rintro (rfl | h | ⟨k, hk, rfl⟩)
        · exact Or.inr ⟨0, by omega, rfl⟩
        · exact Or.inl (Or.inr h)
        · exact Or.inr ⟨k + 1, by omega, by rw [Nat.add_assoc, Nat.add_comm 1 k]⟩
      · rintro ((h | h) | ⟨k, hk, rfl⟩)
        · cases h
        · exact Or.inr (Or.inl h)
        · cases k with
          | zero => exact Or.inl rfl
          | succ k => exact Or.inr (Or.inr ⟨k, by omega, by rw [Nat.add_assoc, Nat.add_comm 1 k]⟩)

/-- What a scanned line gives way to, once its matches are held. -/
theorem flatMap_holdParts {β : Type} (f : List Char → List β) (write : α → List Char) {ps : List (Part Piece α)}
    {front fragments : List (List Char)} (h : fragments = front ++ (holdParts write front.length ps).2) :
    (holdParts write front.length ps).1.flatMap (fun piece => f (piece.restored fragments)) =
      ps.flatMap (Part.weigh (fun piece => f (piece.restored fragments)) fun a => f (write a)) := by
  induction ps generalizing front with
  | nil => rfl
  | cons part rest ih =>
    cases part with
    | item piece =>
      simp only [holdParts] at h ⊢
      rw [List.flatMap_cons, List.flatMap_cons, ih h]
      rfl
    | found a =>
      simp only [holdParts] at h ⊢
      have hnext : (front ++ [write a]).length = front.length + 1 := by simp
      have hheld : (Piece.held front.length).restored fragments = write a := by
        rw [Piece.restored, h, List.getElem?_append_right (Nat.le_refl _)]
        simp
      have hrest := @ih (front ++ [write a]) (by rw [hnext, h]; simp)
      rw [hnext] at hrest
      rw [List.flatMap_cons, List.flatMap_cons, hrest, hheld]
      rfl

/-- Pieces that are left are items, and what stands in the place of what is found. -/
theorem mem_substitute {piece : Piece} {replacement : α → List Piece} :
    piece ∈ substitute pattern replacement xs ↔
      Part.item piece ∈ parts pattern xs ∨ ∃ a ∈ foundIn pattern xs, piece ∈ replacement a := by
  rw [substitute, List.mem_flatMap]
  constructor
  · rintro ⟨part, hpart, hpiece⟩
    cases part with
    | item other => exact Or.inl (List.mem_singleton.mp hpiece ▸ hpart)
    | found a => exact Or.inr ⟨a, List.mem_filterMap.mpr ⟨_, hpart, rfl⟩, hpiece⟩
  · rintro (h | ⟨a, ha, hpiece⟩)
    · exact ⟨_, h, List.mem_singleton_self piece⟩
    · obtain ⟨part, hpart, heq⟩ := List.mem_filterMap.mp ha
      cases part with
      | item other => cases heq
      | found b =>
        obtain rfl := Option.some.inj heq
        exact ⟨_, hpart, hpiece⟩

end Patterns

/-! ### The patterns of a line -/

theorem beforeChars?_eq_some {mark : List Char} {xs front : List Piece}
    (h : beforeChars? mark xs = some front) : ∃ behind, xs = front ++ Piece.ofText mark ++ behind := by
  induction xs generalizing front with
  | nil => cases h
  | cons piece rest ih =>
    rw [beforeChars?] at h
    split at h
    next hsome =>
      obtain ⟨behind, hbehind⟩ := Option.isSome_iff_exists.mp hsome
      obtain rfl := Option.some.inj h
      exact ⟨behind, afterChars?_eq_some hbehind⟩
    next =>
      obtain ⟨more, hmore, rfl⟩ := Option.map_eq_some_iff.mp h
      obtain ⟨behind, rfl⟩ := ih hmore
      exact ⟨behind, rfl⟩

theorem literalPattern_eq_some {xs : List Piece} {c : Char} {n : Nat}
    (h : literalPattern xs = some (c, n)) :
    c ≠ '\x00' ∧ ∃ behind, xs = .char '~' :: .char c :: behind ∧ n = 2 := by
  unfold literalPattern at h
  split at h
  next d rest =>
    split at h
    next hd =>
      obtain ⟨rfl, rfl⟩ := Prod.mk.inj (Option.some.inj h)
      refine ⟨?_, rest, rfl, rfl⟩
      rintro rfl
      revert hd
      decide
    next => cases h
  next => cases h

/-- The occurrences of a text. -/
abbrev occurrence (literal : List Char) : Pattern Piece Unit := fun pieces =>
  (afterChars? literal pieces).map fun _ => ((), literal.length)

theorem covers_occurrence {literal : List Char} (hne : literal ≠ []) (h : '\x00' ∉ literal) :
    Covers (occurrence literal) fun _ => [] := by
  intro xs a n hfound
  obtain ⟨rest, hrest, heq⟩ := Option.map_eq_some_iff.mp hfound
  obtain rfl := (Prod.mk.inj heq).2
  refine ⟨List.length_pos_of_ne_nil hne, ?_⟩
  rw [afterChars?_eq_some hrest, List.take_left' (length_ofText literal), marks_ofText h]

/-- What is enclosed stands between the two texts that enclose it. -/
theorem enclosedPattern_eq_some {opening closing : List Char} {least n : Nat} {xs body : List Piece}
    (h : enclosedPattern opening closing least xs = some (body, n)) :
    ∃ behind, xs = Piece.ofText opening ++ body ++ Piece.ofText closing ++ behind ∧
      n = opening.length + body.length + closing.length := by
  rw [enclosedPattern] at h
  split at h
  · cases h
  next rest hrest =>
    split at h
    · cases h
    next hlong =>
      obtain ⟨more, hmore, heq⟩ := Option.map_eq_some_iff.mp h
      obtain ⟨rfl, rfl⟩ := Prod.mk.inj heq
      obtain ⟨behind, hbehind⟩ := beforeChars?_eq_some hmore
      have hbody : rest = rest.take least ++ more ++ Piece.ofText closing ++ behind := by
        conv_lhs => rw [← List.take_append_drop least rest, hbehind]
        simp
      refine ⟨behind, ?_, ?_⟩
      · rw [afterChars?_eq_some hrest]
        conv_lhs => rw [hbody]
        simp
      · rw [List.length_append, List.length_take]
        omega

/-- The pieces under what is enclosed. -/
theorem take_enclosed {opening closing : List Char} {least n : Nat} {xs body : List Piece}
    (h : enclosedPattern opening closing least xs = some (body, n)) :
    xs.take n = Piece.ofText opening ++ body ++ Piece.ofText closing := by
  obtain ⟨behind, hxs, hn⟩ := enclosedPattern_eq_some h
  rw [hxs, List.take_left']
  simp only [List.length_append, length_ofText]
  omega

theorem pos_of_enclosed {opening closing : List Char} {least n : Nat} {xs body : List Piece} (hne : opening ≠ [])
    (h : enclosedPattern opening closing least xs = some (body, n)) : 0 < n := by
  obtain ⟨-, -, hn⟩ := enclosedPattern_eq_some h
  have hpos := List.length_pos_of_ne_nil hne
  omega

theorem covers_enclosed {opening closing : List Char} {least : Nat} (hne : opening ≠ [])
    (hopening : '\x00' ∉ opening) (hclosing : '\x00' ∉ closing) :
    Covers (enclosedPattern opening closing least) marks := by
  intro xs a n h
  refine ⟨pos_of_enclosed hne h, ?_⟩
  rw [take_enclosed h, marks_append, marks_append, marks_ofText hopening, marks_ofText hclosing, List.nil_append,
    List.append_nil]

/-- What is between the brackets of a link has no bracket in it. -/
theorem linkPattern_eq_some {xs body : List Piece} {n : Nat} (h : linkPattern xs = some (body, n)) :
    (∃ behind, xs = .char '[' :: (body ++ .char ']' :: behind)) ∧ n = body.length + 2 ∧
      ∀ piece ∈ body, piece.isChar (fun c => c == '[' || c == ']') = false := by
  unfold linkPattern at h
  split at h
  next rest =>
    dsimp only at h
    split at h
    next behind hbehind =>
      split at h
      · cases h
      · obtain ⟨rfl, rfl⟩ := Prod.mk.inj (Option.some.inj h)
        refine ⟨⟨behind, ?_⟩, rfl, fun piece hpiece => by simpa using List.mem_takeWhile_imp hpiece⟩
        rw [← hbehind, drop_takeWhile, List.takeWhile_append_dropWhile]
    next => cases h
  next => cases h

theorem covers_link : Covers linkPattern marks := by
  intro xs a n h
  obtain ⟨⟨behind, rfl⟩, rfl, -⟩ := linkPattern_eq_some h
  refine ⟨by omega, ?_⟩
  rw [List.append_cons, List.take_succ_cons, List.take_left' (by simp), marks_cons, marks_char (by decide), marks_append,
    marks_char (by decide), List.nil_append, List.append_nil]

theorem covers_lineBreak : Covers lineBreakPattern fun _ => marks (Piece.ofText "<br />".toList) := by
  intro xs a n h
  unfold lineBreakPattern at h
  split at h
  · obtain ⟨-, rfl⟩ := Prod.mk.inj (Option.some.inj h)
    exact ⟨by omega, rfl⟩
  · obtain ⟨-, rfl⟩ := Prod.mk.inj (Option.some.inj h)
    exact ⟨by omega, rfl⟩
  · cases h

/-! ### The passes over emphasis and styles -/

theorem marks_tagged {tag : String} (content : List Piece) (hfront : '\x00' ∉ ("<" ++ tag ++ ">").toList)
    (hend : '\x00' ∉ ("</" ++ tag ++ ">").toList) : marks (tagged tag content) = marks content := by
  rw [tagged, marks_append, marks_append, marks_ofText hfront, marks_ofText hend, List.nil_append,
    List.append_nil]

/-- Escaping writes a NUL for a NUL only. -/
theorem marks_escapeChar (c : Char) :
    marks (Piece.ofText (Html.escapeChar c)) = marks [.char c] ∧
      marks (Piece.ofText (Html.escapeAttributeChar c)) = marks [.char c] := by
  have hrunning : marks (Piece.ofText (Html.escapeChar c)) = marks [.char c] := by
    unfold Html.escapeChar
    repeat' split
    all_goals simp_all [Piece.ofText, marks, Piece.isMark]
  refine ⟨hrunning, ?_⟩
  unfold Html.escapeAttributeChar
  split
  next hquote => rw [beq_iff_eq.mp hquote]; rfl
  split
  next hquote => rw [beq_iff_eq.mp hquote]; rfl
  next => exact hrunning

theorem marks_escapePieces (pieces : List Piece) : marks (escapePieces pieces) = marks pieces := by
  induction pieces with
  | nil => rfl
  | cons piece rest ih =>
    rw [marks_cons, ← ih, escapePieces, List.flatMap_cons, marks_append, escapePieces]
    cases piece with
    | char c => rw [(marks_escapeChar c).1]
    | held index => rfl

theorem marks_escapeAttributePieces (pieces : List Piece) :
    marks (escapeAttributePieces pieces) = marks pieces := by
  induction pieces with
  | nil => rfl
  | cons piece rest ih =>
    rw [marks_cons, ← ih, escapeAttributePieces, List.flatMap_cons, marks_append, escapeAttributePieces]
    cases piece with
    | char c => rw [(marks_escapeChar c).2]
    | held index => rfl

/-- What can be the name of a style: a text in parentheses, or a word. -/
inductive IsStyleName : List Piece → Prop
  | sheet (inner : List Piece) : IsStyleName (.char '(' :: inner ++ [.char ')'])
  | word {c : Char} (hc : c ≠ '(') (more : List Piece) : IsStyleName (.char c :: more)

theorem styleName?_eq_some {xs name rest : List Piece} (h : styleName? xs = some (name, rest)) :
    IsStyleName name ∧ xs = name ++ rest := by
  cases xs with
  | nil => cases h
  | cons piece xs =>
    cases piece with
    | held index => cases h
    | char c =>
      by_cases hc : c = '('
      · subst hc
        rw [styleName?_sheet] at h
        split at h
        next behind hbehind =>
          obtain ⟨rfl, rfl⟩ := Prod.mk.inj (Option.some.inj h)
          refine ⟨.sheet _, ?_⟩
          conv_lhs => rw [← List.takeWhile_append_dropWhile (p := fun piece => !piece.isChar (· == ')'))
            (l := xs), hbehind]
          simp
        next => cases h
      · rw [styleName?_word hc] at h
        split at h
        next =>
          obtain ⟨rfl, rfl⟩ := Prod.mk.inj (Option.some.inj h)
          exact ⟨.word hc _, by rw [List.cons_append, List.takeWhile_append_dropWhile]⟩
        next => cases h

theorem marks_openStyle {name : List Piece} (h : IsStyleName name) :
    marks (openStyle "span" name) = marks name := by
  cases h with
  | sheet inner =>
    rw [openStyle_sheet, List.cons_append, marks_append, marks_append, marks_escapeAttributePieces, marks_cons,
      marks_append, marks_ofText (by decide), marks_ofText (by decide), marks_char (by decide),
      marks_char (by decide), List.nil_append]
    rfl
  | word hc more =>
    rw [openStyle_of_ne _ hc, marks_append, marks_append, marks_escapeAttributePieces, marks_ofText (by decide),
      marks_ofText (by decide), List.nil_append, List.append_nil]

theorem marks_renderStyle {name : List Piece} (h : IsStyleName name) (content : List Piece) :
    marks (renderStyle name content) = marks name ++ marks content := by
  have htag : ∀ tag, styleTag? name = some tag →
      marks name = [] ∧ '\x00' ∉ ("<" ++ tag ++ ">").toList ∧ '\x00' ∉ ("</" ++ tag ++ ">").toList := by
    intro tag htag
    unfold styleTag? at htag
    have hplain : ∀ (word tag' : String), (name == Piece.ofText word.toList) = true → some tag' = some tag →
        '\x00' ∉ word.toList → '\x00' ∉ ("<" ++ tag' ++ ">").toList → '\x00' ∉ ("</" ++ tag' ++ ">").toList →
        marks name = [] ∧ '\x00' ∉ ("<" ++ tag ++ ">").toList ∧ '\x00' ∉ ("</" ++ tag ++ ">").toList := by
      intro word tag' hname heq hword hfront hend
      obtain rfl := Option.some.inj heq
      exact ⟨beq_iff_eq.mp hname ▸ marks_ofText hword, hfront, hend⟩
    split at htag
    next hname => exact hplain _ _ hname htag (by decide) (by decide) (by decide)
    split at htag
    next hname => exact hplain _ _ hname htag (by decide) (by decide) (by decide)
    split at htag
    next hname => exact hplain _ _ hname htag (by decide) (by decide) (by decide)
    cases htag
  unfold renderStyle
  split
  next tag hsome =>
    obtain ⟨hname, hfront, hend⟩ := htag tag hsome
    rw [marks_tagged content hfront hend, hname, List.nil_append]
  next =>
    rw [marks_append, marks_append, marks_openStyle h, marks_ofText (by decide), List.append_nil]

/-- A style has its name, a blank and its content between two percent signs and its end. -/
theorem stylePattern_eq_some {xs name content : List Piece} {n : Nat} (h : stylePattern xs = some ((name, content), n)) :
    IsStyleName name ∧ 0 < n ∧ ∃ blank, isBlank blank = true ∧
      xs.take n = Piece.ofText "%%".toList ++ name ++ [.char blank] ++ content ++ Piece.ofText "/%".toList := by
  rw [stylePattern] at h
  split at h
  · cases h
  next rest hrest =>
    split at h
    next word blank others hname =>
      split at h
      next hblank =>
        obtain ⟨front, hfront, heq⟩ := Option.map_eq_some_iff.mp h
        obtain ⟨⟨rfl, rfl⟩, rfl⟩ := (Prod.mk.inj heq).imp_left Prod.mk.inj
        obtain ⟨behind, rfl⟩ := beforeChars?_eq_some hfront
        obtain ⟨hstyle, rfl⟩ := styleName?_eq_some hname
        obtain rfl := afterChars?_eq_some hrest
        refine ⟨hstyle, by omega, blank, hblank, ?_⟩
        have hlength : (Piece.ofText "%%".toList ++ word ++ [Piece.char blank] ++ front ++
            Piece.ofText "/%".toList).length = 2 + word.length + 1 + front.length + 2 := by
          simp only [List.length_append, length_ofText]
          rfl
        have hsplit : Piece.ofText "%%".toList ++ (word ++ .char blank ::
              (front ++ Piece.ofText "/%".toList ++ behind)) =
            (Piece.ofText "%%".toList ++ word ++ [.char blank] ++ front ++ Piece.ofText "/%".toList) ++
              behind := by
          simp
        rw [hsplit, List.take_left' hlength]
      next => cases h
    next => cases h

theorem covers_style : Covers stylePattern fun a => marks (renderStyle a.1 a.2) := by
  rintro xs ⟨name, content⟩ n h
  obtain ⟨hstyle, hpos, blank, hblank, htake⟩ := stylePattern_eq_some h
  have hne : blank ≠ '\x00' := by
    rintro rfl
    revert hblank
    decide
  refine ⟨hpos, ?_⟩
  dsimp only
  rw [htake, marks_renderStyle hstyle]
  simp only [marks_append, marks_char hne, marks_ofText (by decide : '\x00' ∉ "%%".toList),
    marks_ofText (by decide : '\x00' ∉ "/%".toList), List.nil_append, List.append_nil]

theorem marks_emphasis {opening closing tag : String} (hne : opening.toList ≠ [])
    (hopening : '\x00' ∉ opening.toList) (hclosing : '\x00' ∉ closing.toList)
    (hfront : '\x00' ∉ ("<" ++ tag ++ ">").toList) (hend : '\x00' ∉ ("</" ++ tag ++ ">").toList)
    (pieces : List Piece) :
    marks (substitute (enclosedPattern opening.toList closing.toList 1) (tagged tag) pieces) =
      marks pieces := by
  refine marks_substitute (fun xs a n h => ?_) pieces
  obtain ⟨hpos, hinside⟩ := covers_enclosed hne hopening hclosing xs a n h
  exact ⟨hpos, hinside.trans (marks_tagged a hfront hend).symm⟩

/-- **The passes over emphasis and styles keep all marks, in their order.** -/
theorem marks_withStyles (line : Line) : marks line.withStyles.pieces = marks line.pieces := by
  obtain ⟨pieces, fragments⟩ := line
  rw [withStyles_eq, marks_substitute covers_lineBreak, marks_substitute covers_style,
    marks_emphasis (by decide) (by decide) (by decide) (by decide) (by decide),
    marks_emphasis (by decide) (by decide) (by decide) (by decide) (by decide),
    marks_emphasis (by decide) (by decide) (by decide) (by decide) (by decide), marks_escapePieces]

theorem fragments_withStyles (line : Line) : line.withStyles.fragments = line.fragments := by
  obtain ⟨pieces, fragments⟩ := line
  rw [withStyles_eq]

end WikiMigration.Wiki

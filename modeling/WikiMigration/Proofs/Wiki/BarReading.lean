/-
Bars as the splitting of a row and as inline markup read them.

Splitting counts brackets and looks at the one character before a bar.  Inline markup first pairs the tildes, then
takes out literal brackets, and then looks for links.  A bar outside of literal characters and links should separate
two cells, and all others should not; here is told at which bars the two readings agree.  They do in every row whose
only brackets are those of its links, wherever a bar has at most one tilde before it.
-/
import WikiMigration.Proofs.Wiki.Braces
import WikiMigration.Proofs.Wiki.LinkLine
import WikiMigration.Proofs.Wiki.RowSource

namespace WikiMigration.Wiki

open Text

variable {c : Char} {depth : Nat} {isHeader : Bool} {row front behind read rest text : List Char} {cells : List Cell}

/-! ### Bars within cells -/

/-- The bar behind `front` is part of the content of one of the cells, whose marks and contents follow one another
behind `before`. -/
def IsWithin (cells : List Cell) (front : List Char) : Prop :=
  ∃ earlier cell later inner more, cells = earlier ++ cell :: later ∧ cell.content = inner ++ '|' :: more ∧
    earlier.flatMap Cell.source ++ (cellMark cell.isHeader ++ inner) = front

/-- The bar behind `front` separates cells of the row: it is part of no cell's content. -/
def Separates (row front : List Char) : Prop := ¬ IsWithin (splitRow row) front

theorem IsWithin.later (h : IsWithin cells front) (cell : Cell) : IsWithin (cell :: cells) (cell.source ++ front) := by
  obtain ⟨earlier, within, later, inner, more, rfl, hcontent, rfl⟩ := h
  exact ⟨cell :: earlier, within, later, inner, more, rfl, hcontent, by simp⟩

/-- What was read of a cell is the front of its content, if it is more than blanks. -/
theorem ReadsCells.exists_first (h : ReadsCells depth isHeader read rest cells) (hc : c ∈ read)
    (hblank : isBlank c = false) : ∃ more others, cells = ⟨isHeader, read.reverse ++ more⟩ :: others := by
  induction h with
  | ends depth isHeader read =>
    have hread : isBlankText read = false := by
      rw [isBlankText, List.all_eq_false]
      exact ⟨c, hc, by simp [hblank]⟩
    exact ⟨[], [], by simp [lastCell, hread]⟩
  | @keeps depth isHeader read rest cells d hbar _ ih =>
    obtain ⟨more, others, rfl⟩ := ih (List.mem_cons_of_mem d hc)
    exact ⟨d :: more, others, by simp⟩
  | @starts next isHeader read rest cells => exact ⟨[], cells, by simp⟩

theorem openBehind_of_not_mem (hopen : '[' ∉ text) (hclose : ']' ∉ text) (depth : Nat) :
    openBehind depth text = depth := by
  induction text generalizing depth with
  | nil => rfl
  | cons c rest ih =>
    simp only [List.mem_cons, not_or] at hopen hclose
    have hstep : openBehind depth (c :: rest) = openBehind (openBehind depth [c]) rest := openBehind_append depth [c] rest
    rw [hstep, ih hopen.2 hclose.2]
    simp [openBehind, Ne.symm hopen.1, Ne.symm hclose.1]

/-- A bar has a tilde right before it, or stands within brackets. -/
def IsGuarded (front : List Char) : Prop := front.getLast? = some '~' ∨ openBehind 0 front ≠ 0

/-- No bar of a mark has a tilde before it or stands within brackets. -/
theorem IsGuarded.behind_mark (h : IsGuarded front) (hrow : cellMark isHeader ++ rest = front ++ '|' :: behind) :
    ∃ inner, front = cellMark isHeader ++ inner ∧ rest = inner ++ '|' :: behind ∧ IsGuarded inner := by
  have hmark : ∀ c ∈ cellMark isHeader, c = '|' := by cases isHeader <;> simp [cellMark]
  have hbars : ∀ {bars : List Char}, (∀ c ∈ bars, c = '|') → ¬ IsGuarded bars := by
    rintro bars hall (hlast | hopen)
    · exact absurd (hall _ (List.mem_of_getLast? hlast)) (by decide)
    · refine hopen (openBehind_of_not_mem (fun h => ?_) (fun h => ?_) 0)
      · exact absurd (hall _ h) (by decide)
      · exact absurd (hall _ h) (by decide)
  rcases List.append_eq_append_iff.mp hrow with ⟨inner, rfl, hrest⟩ | ⟨inner, hfront, -⟩
  · refine ⟨inner, rfl, hrest, ?_⟩
    rcases h with hlast | hopen
    · cases inner with
      | nil =>
        rw [List.append_nil] at hlast
        exact absurd (Or.inl hlast) (hbars hmark)
      | cons d others => exact Or.inl (by rwa [List.getLast?_append_of_ne_nil _ (List.cons_ne_nil d others)] at hlast)
    · refine Or.inr ?_
      have hopening : '[' ∉ cellMark isHeader := fun h => absurd (hmark _ h) (by decide)
      have hclosing : ']' ∉ cellMark isHeader := fun h => absurd (hmark _ h) (by decide)
      rwa [openBehind_append, openBehind_of_not_mem hopening hclosing] at hopen
  · exact absurd h (hbars fun c hc => hmark c (hfront ▸ List.mem_append_left _ hc))

/-- A guarded bar is within a cell. -/
theorem ReadsCells.isWithin (h : ReadsCells depth isHeader read rest cells) (hrest : rest = front ++ '|' :: behind)
    (hguard : (read.reverse ++ front).getLast? = some '~' ∨ openBehind depth front ≠ 0) :
    IsWithin cells (cellMark isHeader ++ (read.reverse ++ front)) := by
  induction h generalizing front with
  | ends => simp at hrest
  | @keeps depth isHeader read rest cells c hbar hreads ih =>
    cases front with
    | nil =>
      obtain ⟨rfl, rfl⟩ := List.cons.inj hrest
      obtain ⟨more, others, rfl⟩ := hreads.exists_first List.mem_cons_self (by decide)
      exact ⟨[], _, others, read.reverse, more, rfl, by simp, by simp⟩
    | cons d others =>
      obtain ⟨rfl, rfl⟩ := List.cons.inj hrest
      have hwithin := ih rfl (hguard.imp (fun h => by simpa using h) fun h => by rwa [← openBehind_append])
      simpa using hwithin
  | @starts next isHeader read rest cells htilde hreads ih =>
    have hfront : IsGuarded front := by
      refine hguard.imp_left fun hlast => ?_
      cases front with
      | nil => exact absurd (by simpa using hlast) htilde
      | cons d others => rwa [List.getLast?_append_of_ne_nil _ (List.cons_ne_nil d others)] at hlast
    obtain ⟨inner, rfl, hinner, hguard⟩ := hfront.behind_mark hrest
    have hwithin := (ih hinner hguard).later ⟨isHeader, read.reverse⟩
    simpa [Cell.source] using hwithin

theorem openBehind_mono {fewer : Nat} (h : fewer ≤ depth) (text : List Char) :
    openBehind fewer text ≤ openBehind depth text := by
  induction text generalizing fewer depth with
  | nil => exact h
  | cons c rest ih =>
    have hstep : openBehind fewer [c] ≤ openBehind depth [c] := by
      simp only [openBehind, List.foldl_cons, List.foldl_nil]
      split
      · omega
      · split <;> omega
    exact ih hstep

/-- **Which bars separate cells:** those with no tilde right before them and no bracket open. -/
theorem separates_iff (hrow : row = front ++ '|' :: behind) (hstart : row.head? = some '|') :
    Separates row front ↔ ¬ IsGuarded front := by
  obtain ⟨rest, rfl⟩ := List.head?_eq_some_iff.mp hstart
  refine not_congr ⟨?_, fun hguard => ?_⟩
  · rintro ⟨earlier, cell, later, inner, more, hcells, hcontent, rfl⟩
    have hholds := (cells_make_up_row rest).2 cell (hcells ▸ List.mem_append_right _ List.mem_cons_self)
    rcases hholds inner more hcontent with hlast | hopen
    · refine Or.inl ?_
      rw [← List.append_assoc, List.getLast?_append_of_ne_nil _ (List.ne_nil_of_mem (List.mem_of_getLast? hlast)), hlast]
    · refine Or.inr (Nat.ne_of_gt ?_)
      rw [← List.append_assoc, openBehind_append]
      exact (Nat.pos_of_ne_zero ((openBehind_ne_zero_iff inner).mpr hopen)).trans_le (openBehind_mono (Nat.zero_le _) inner)
  · obtain ⟨isHeader, others, hmark, hreads⟩ := readsCells_splitRow rest
    obtain ⟨inner, rfl, hinner, hguard⟩ := hguard.behind_mark (hmark.symm.trans hrow)
    simpa using hreads.isWithin hinner hguard

/-! ### Escaped bars -/

/-- A part of a row with its literal characters found, as it stands in the row. -/
def literalSource : Part Piece Char → List Char
  | .item piece => piece.text
  | .found c => ['~', c]

/-- The bar behind `front` is the character that a tilde makes literal, the tildes being paired from the left. -/
def IsEscaped (row front : List Char) : Prop :=
  ∃ earlier later, parts literalPattern (Piece.ofText row) = earlier ++ .found '|' :: later ∧
    earlier.flatMap literalSource ++ ['~'] = front

/-- A tilde takes the meaning from the next one, and any other character ends the row of tildes. -/
theorem endsInTilde_concat (front : List Char) (c : Char) :
    endsInTilde (front ++ [c]) = (c == '~' && !endsInTilde front) := by
  have hother : ∀ {d : Char} (others : List Char), d ≠ '~' → endsInTilde (d :: others) = endsInTilde others := by
    intro d others hd
    rw [endsInTilde]
    · exact fun h => absurd h hd
    · exact fun _ _ h => absurd h hd
  fun_induction endsInTilde front with
  | case1 =>
    by_cases hc : c = '~'
    · subst hc
      rfl
    · rw [List.nil_append, hother [] hc]
      simp [endsInTilde, hc]
  | case2 =>
    show (if isEscapable c then endsInTilde [] else endsInTilde [c]) = _
    by_cases hc : isEscapable c = true
    · simp [hc, endsInTilde]
    · have hne : c ≠ '~' := fun h => hc (h ▸ by decide)
      simp [hc, hother [] hne, endsInTilde]
  | case3 d rest hd ih =>
    show (if isEscapable d then endsInTilde (rest ++ [c]) else endsInTilde (d :: (rest ++ [c]))) = _
    rw [if_pos hd, ih]
  | case4 d rest hd ih =>
    show (if isEscapable d then endsInTilde (rest ++ [c]) else endsInTilde (d :: (rest ++ [c]))) = _
    rw [if_neg hd]
    exact ih
  | case5 d rest hlast hpair ih =>
    have hd : d ≠ '~' := by
      rintro rfl
      cases rest with
      | nil => exact hlast rfl rfl
      | cons e others => exact hpair e others rfl rfl
    rw [List.cons_append, hother _ hd, ih]

theorem exists_of_endsInTilde (h : endsInTilde front = true) :
    ∃ others, front = others ++ ['~'] ∧ endsInTilde others = false := by
  rcases List.eq_nil_or_concat front with rfl | ⟨others, c, rfl⟩
  · cases h
  · rw [List.concat_eq_append, endsInTilde_concat, Bool.and_eq_true, beq_iff_eq, Bool.not_eq_true'] at h
    obtain ⟨rfl, hothers⟩ := h
    exact ⟨others, by simp, hothers⟩

theorem literalSource_parts (text : List Char) :
    (parts literalPattern (Piece.ofText text)).flatMap literalSource = text := by
  have hweigh : literalSource = Part.weigh Piece.text fun c => ['~', c] := by
    funext part
    cases part <;> rfl
  rw [hweigh, flatMap_parts fun xs c n h => ?_]
  · exact textOf_ofText text
  · obtain ⟨-, behind, rfl, rfl⟩ := literalPattern_eq_some h
    exact ⟨by decide, rfl⟩

/-- **Escaped is the bar behind an unpaired tilde.** -/
theorem isEscaped_iff (hrow : row = front ++ '|' :: behind) : IsEscaped row front ↔ endsInTilde front = true := by
  subst hrow
  constructor
  · rintro ⟨earlier, later, hparts, hfront⟩
    -- were the tilde paired, the bar would be an item of its own, behind the parts of `front`
    by_contra hpaired
    have hitem : parts literalPattern (Piece.ofText ('|' :: behind)) =
        .item (.char '|') :: parts literalPattern (Piece.ofText behind) := parts_of_none rfl
    rw [ofText_append, parts_literal_append (by simpa using hpaired), hitem] at hparts
    have hsource := literalSource_parts front
    rcases List.append_eq_append_iff.mp hparts with ⟨between, hearlier, -⟩ | ⟨between, hbetween, hlater⟩
    · rw [hearlier, List.flatMap_append, hsource] at hfront
      have hlength := congrArg List.length hfront
      simp only [List.length_append, List.length_singleton] at hlength
      omega
    · cases between with
      | nil => cases hlater
      | cons part others =>
        obtain ⟨rfl, -⟩ := List.cons.inj hlater
        rw [hbetween, List.flatMap_append, List.flatMap_cons] at hsource
        have hlength := congrArg List.length (hfront.trans hsource.symm)
        simp only [List.length_append, literalSource, List.length_cons, List.length_nil] at hlength
        omega
  · intro htilde
    obtain ⟨others, rfl, hothers⟩ := exists_of_endsInTilde htilde
    have hliteral : literalPattern (.char '~' :: .char '|' :: Piece.ofText behind) = some ('|', 2) := rfl
    have hfound : parts literalPattern (Piece.ofText ('~' :: '|' :: behind)) =
        .found '|' :: parts literalPattern (Piece.ofText behind) := parts_of_some hliteral
    refine ⟨parts literalPattern (Piece.ofText others), parts literalPattern (Piece.ofText behind), ?_, ?_⟩
    · rw [List.append_assoc, List.singleton_append, ofText_append, parts_literal_append hothers, hfound]
    · rw [literalSource_parts]

/-! ### Bars in links -/

theorem holdParts_pieces {α : Type} (write write' : α → List Char) (next : Nat) (ps : List (Part Piece α)) :
    (holdParts write next ps).1 = (holdParts write' next ps).1 := by
  induction ps generalizing next with
  | nil => rfl
  | cons part rest ih =>
    cases part with
    | item piece => exact congrArg (piece :: ·) (ih next)
    | found a => exact congrArg (Piece.held next :: ·) (ih (next + 1))

/-- A piece of a numbered line stands for the same, whatever fragments come behind. -/
theorem restored_append {fragments others : List (List Char)} {piece : Piece}
    (h : ∀ index, piece = .held index → index < fragments.length) :
    piece.restored (fragments ++ others) = piece.restored fragments := by
  cases piece with
  | char c => rfl
  | held index => rw [Piece.restored, Piece.restored, List.getElem?_append_left (h index rfl)]

section Sources

variable {α : Type} {pattern : Pattern Piece α} {write : α → List Char} {line : Line}

/-- What is found stands for what is under it. -/
def StandsUnder (fragments : List (List Char)) (pattern : Pattern Piece α) (write : α → List Char) : Prop :=
  ∀ xs a n, pattern xs = some (a, n) → 0 < n ∧ (xs.take n).flatMap (Piece.restored fragments) = write a

/-- The parts of a numbered line stand for what the line does. -/
theorem flatMap_weigh_parts (h : line.Numbered) (covers : StandsUnder line.fragments pattern write)
    (others : List (List Char)) :
    (parts pattern line.pieces).flatMap (Part.weigh (Piece.restored (line.fragments ++ others)) write) =
      line.restore := by
  rw [restore_eq, ← flatMap_parts covers]
  refine List.flatMap_congr fun part hpart => ?_
  cases part with
  | item piece => exact restored_append fun index heq => h index (heq ▸ mem_of_item_mem hpart)
  | found a => rfl

/-- What is held under its own text is restored as it was. -/
theorem restore_hold (h : line.Numbered) (covers : StandsUnder line.fragments pattern write) :
    (line.hold pattern write).restore = line.restore := by
  rw [restore_eq, ← flatMap_weigh_parts h covers]
  exact @flatMap_holdParts _ _ id write _ line.fragments _ rfl

theorem restore_holdLiteral {literal : List Char} (hne : literal ≠ []) (h : line.Numbered) :
    (line.holdLiteral literal literal).restore = line.restore := by
  have covers : StandsUnder line.fragments (occurrence literal) fun _ => literal := by
    intro xs a n hfound
    obtain ⟨rest, hrest, heq⟩ := Option.map_eq_some_iff.mp hfound
    obtain rfl := (Prod.mk.inj heq).2
    refine ⟨List.length_pos_of_ne_nil hne, ?_⟩
    rw [afterChars?_eq_some hrest, List.take_left' (length_ofText literal), restored_ofText]
  rw [restore_eq, ← flatMap_weigh_parts h covers [literal], Line.holdLiteral, substitute, List.flatMap_assoc]
  refine List.flatMap_congr fun part _ => ?_
  cases part with
  | item piece => exact List.append_nil _
  | found _ => simp [Piece.restored, Part.weigh]

end Sources

/-- A body as it stands in the line, between what encloses it. -/
def Line.enclosed (line : Line) (opening closing : List Char) (body : List Piece) : List Char :=
  opening ++ body.flatMap (Piece.restored line.fragments) ++ closing

theorem standsUnder_enclosed {opening closing : List Char} {least : Nat} (hne : opening ≠ []) (line : Line) :
    StandsUnder line.fragments (enclosedPattern opening closing least) (line.enclosed opening closing) := by
  intro xs body n h
  refine ⟨pos_of_enclosed hne h, ?_⟩
  rw [take_enclosed h, List.flatMap_append, List.flatMap_append, restored_ofText, restored_ofText]
  rfl

/-- The row with its literal characters, literal brackets and preformatted texts held apart, each under what it is
in the row. -/
def codeSources (row : List Char) : Line :=
  let brackets := ((Line.mk (Piece.ofText row) []).hold literalPattern fun c => ['~', c]).holdLiteral "[[".toList
    "[[".toList
  brackets.hold codePattern (brackets.enclosed "\x7b\x7b\x7b".toList "\x7d\x7d\x7d".toList)

/-- The row with its plugins held apart too. -/
def pluginSources (row : List Char) : Line :=
  (codeSources row).hold pluginPattern ((codeSources row).enclosed "[\x7b".toList "\x7d]".toList)

theorem numbered_codeSources (row : List Char) : (codeSources row).Numbered := by
  have hstart : (Line.mk (Piece.ofText row) []).Numbered := by
    intro index hmark
    obtain ⟨c, -, heq⟩ := List.mem_map.mp hmark
    cases heq
  exact hstart.hold.holdLiteral.hold

/-- Two lines with the same pieces and as many fragments. -/
def Line.Alike (line other : Line) : Prop :=
  line.pieces = other.pieces ∧ line.fragments.length = other.fragments.length

theorem Line.Alike.hold {line other : Line} (h : line.Alike other) {α : Type} (pattern : Pattern Piece α)
    (write write' : α → List Char) : (line.hold pattern write).Alike (other.hold pattern write') := by
  obtain ⟨hpieces, hlength⟩ := h
  constructor
  · show (holdParts write line.fragments.length (parts pattern line.pieces)).1 = _
    rw [holdParts_pieces write write', hpieces, hlength]
    rfl
  · rw [fragments_hold, fragments_hold, List.length_append, List.length_append, List.length_map, List.length_map,
      hpieces, hlength]

theorem Line.Alike.holdLiteral {line other : Line} (h : line.Alike other) (literal fragment fragment' : List Char) :
    (line.holdLiteral literal fragment).Alike (other.holdLiteral literal fragment') := by
  obtain ⟨hpieces, hlength⟩ := h
  exact ⟨by simp only [Line.holdLiteral, hpieces, hlength], by simp [Line.holdLiteral, hlength]⟩

/-- Under their sources the same is held apart as in inline markup. -/
theorem alike_pluginSources (row : List Char) : (pluginSources row).Alike (pluginsHeld row) := by
  have hstart : (Line.mk (Piece.ofText row) []).Alike (Line.mk (Piece.ofText row) []) := ⟨rfl, rfl⟩
  exact (((hstart.hold literalPattern _ _).holdLiteral _ _ _).hold codePattern _ _).hold pluginPattern _ _

/-- The row is what its line in work is read from. -/
theorem restore_pluginSources (row : List Char) : (pluginSources row).restore = row := by
  have hstart : (Line.mk (Piece.ofText row) []).Numbered := by
    intro index hmark
    obtain ⟨c, -, heq⟩ := List.mem_map.mp hmark
    cases heq
  have hliterals : StandsUnder [] literalPattern fun c => ['~', c] := by
    intro xs c n h
    obtain ⟨-, behind, rfl, rfl⟩ := literalPattern_eq_some h
    exact ⟨by decide, rfl⟩
  have hplugins : (pluginSources row).restore = (codeSources row).restore :=
    restore_hold (numbered_codeSources row) (standsUnder_enclosed (by decide) _)
  have hcodes : (codeSources row).restore =
      (((Line.mk (Piece.ofText row) []).hold literalPattern fun c => ['~', c]).holdLiteral "[[".toList "[[".toList).restore :=
    restore_hold hstart.hold.holdLiteral (standsUnder_enclosed (by decide) _)
  rw [hplugins, hcodes, restore_holdLiteral (by decide) hstart.hold, restore_hold hstart hliterals, restore_eq]
  exact restored_ofText row []

/-- Pieces of the row in work as they stand in the row. -/
def sourceOf (row : List Char) (pieces : List Piece) : List Char :=
  pieces.flatMap (Piece.restored (pluginSources row).fragments)

/-- The links that inline markup reads in the row, and the pieces between them. -/
def linkedParts (row : List Char) : List (Part Piece (List Piece)) := parts linkPattern (pluginsHeld row).pieces

/-- A part as it stands in the row. -/
def partSource (row : List Char) : Part Piece (List Piece) → List Char
  | .item piece => sourceOf row [piece]
  | .found body => '[' :: (sourceOf row body ++ [']'])

/-- The bar behind `front` stands within a link, as inline markup reads the row. -/
def IsLinked (row front : List Char) : Prop :=
  ∃ earlier body later inner more, linkedParts row = earlier ++ .found body :: later ∧
    sourceOf row body = inner ++ '|' :: more ∧ earlier.flatMap (partSource row) ++ '[' :: inner = front

theorem flatMap_partSource (row : List Char) : (linkedParts row).flatMap (partSource row) = row := by
  have hweigh : partSource row = Part.weigh (Piece.restored (pluginSources row).fragments)
      fun body => '[' :: (sourceOf row body ++ [']']) := by
    funext part
    cases part with
    | item piece => exact List.append_nil _
    | found body => rfl
  have covers : ∀ xs body n, linkPattern xs = some (body, n) → 0 < n ∧
      (xs.take n).flatMap (Piece.restored (pluginSources row).fragments) = '[' :: (sourceOf row body ++ [']']) := by
    intro xs body n h
    obtain ⟨⟨behind, rfl⟩, rfl, -⟩ := linkPattern_eq_some h
    refine ⟨by omega, ?_⟩
    rw [List.append_cons, List.take_succ_cons, List.take_left' (by simp), List.flatMap_cons, List.flatMap_append]
    rfl
  rw [hweigh, linkedParts, flatMap_parts covers, ← (alike_pluginSources row).1, ← restore_eq, restore_pluginSources]

/-! ### Where the two readings agree -/

/-- The text of a part outside of the two brackets of a link. -/
def plainSource (row : List Char) : Part Piece (List Piece) → List Char
  | .item piece => sourceOf row [piece]
  | .found body => sourceOf row body

/-- The only brackets of the row are those of its links. -/
def BracketsAreLinks (row : List Char) : Prop :=
  ∀ part ∈ linkedParts row, '[' ∉ plainSource row part ∧ ']' ∉ plainSource row part

instance (row : List Char) : Decidable (BracketsAreLinks row) :=
  inferInstanceAs (Decidable (∀ part ∈ linkedParts row, '[' ∉ plainSource row part ∧ ']' ∉ plainSource row part))

/-- Whole parts leave no bracket open. -/
theorem BracketsAreLinks.openBehind_parts (h : BracketsAreLinks row) {ps : List (Part Piece (List Piece))}
    (hps : ps ⊆ linkedParts row) : openBehind 0 (ps.flatMap (partSource row)) = 0 := by
  induction ps with
  | nil => rfl
  | cons part rest ih =>
    obtain ⟨hpart, hrest⟩ := List.cons_subset.mp hps
    obtain ⟨hopening, hclosing⟩ := h part hpart
    have hwhole : openBehind 0 (partSource row part) = 0 := by
      cases part with
      | item piece => exact openBehind_of_not_mem hopening hclosing 0
      | found body =>
        have hbody : openBehind 1 (sourceOf row body) = 1 := openBehind_of_not_mem hopening hclosing 1
        show openBehind 1 (sourceOf row body ++ [']']) = 0
        rw [openBehind_append, hbody]
        rfl
    rw [List.flatMap_cons, openBehind_append, hwhole, ih hrest]

/-- If the only brackets are those of links, they are open within the links. -/
theorem BracketsAreLinks.isLinked_iff (h : BracketsAreLinks row) (hrow : row = front ++ '|' :: behind) :
    IsLinked row front ↔ openBehind 0 front ≠ 0 := by
  have hopen : ∀ {earlier body later inner more}, linkedParts row = earlier ++ .found body :: later →
      sourceOf row body = inner ++ '|' :: more →
      openBehind 0 (earlier.flatMap (partSource row) ++ '[' :: inner) = 1 := by
    intro earlier body later inner more hparts hbody
    have hearlier : openBehind 0 (earlier.flatMap (partSource row)) = 0 :=
      h.openBehind_parts (hparts ▸ List.subset_append_left _ _)
    obtain ⟨hopening, hclosing⟩ := h (.found body) (hparts ▸ List.mem_append_right _ List.mem_cons_self)
    have hsubset : inner ⊆ sourceOf row body := hbody ▸ List.subset_append_left _ _
    rw [openBehind_append, hearlier]
    exact openBehind_of_not_mem (fun hmem => hopening (hsubset hmem)) (fun hmem => hclosing (hsubset hmem)) 1
  constructor
  · rintro ⟨earlier, body, later, inner, more, hparts, hbody, rfl⟩
    rw [hopen hparts hbody]
    decide
  · intro hfront
    obtain ⟨earlier, part, later, inner, more, hparts, hpart, rfl⟩ :=
      exists_part_of_flatMap ((flatMap_partSource row).trans hrow)
    cases part with
    | item piece =>
      obtain ⟨hopening, hclosing⟩ := h (.item piece) (hparts ▸ List.mem_append_right _ List.mem_cons_self)
      have hsource : sourceOf row [piece] = inner ++ '|' :: more := hpart
      have hsubset : inner ⊆ sourceOf row [piece] := hsource ▸ List.subset_append_left _ _
      rw [openBehind_append, h.openBehind_parts (hparts ▸ List.subset_append_left _ _)] at hfront
      refine absurd (openBehind_of_not_mem ?_ ?_ 0) hfront
      · exact fun hmem => hopening (hsubset hmem)
      · exact fun hmem => hclosing (hsubset hmem)
    | found body =>
      cases inner with
      | nil => cases (List.cons.inj hpart).1
      | cons d others =>
        obtain ⟨rfl, htail⟩ := List.cons.inj hpart
        have hbody : sourceOf row body ++ [']'] = others ++ '|' :: more := htail
        -- the bar is not the closing bracket
        rcases List.eq_nil_or_concat more with rfl | ⟨rest, last, rfl⟩
        · have hlast := List.append_inj_right' hbody rfl
          exact absurd (List.cons.inj hlast).1 (by decide)
        · rw [List.concat_eq_append, ← List.cons_append, ← List.append_assoc] at hbody
          exact ⟨earlier, body, later, others, rest, hparts, (List.append_inj' hbody rfl).1, rfl⟩

/-- **Where the splitting of a row and inline markup agree on a bar.**  A bar should separate cells exactly if it is
neither escaped nor within a link.  Behind a tilde it never does, so it has to be escaped or within a link; otherwise
it does exactly if no bracket of the row is open, the literal ones counted like the others, so none may be open
exactly outside of links.  This is so for every bar of a row whose only brackets are those of its links, if not two
tildes stand right before it. -/
theorem bar_read_alike_iff (hrow : row = front ++ '|' :: behind) (hstart : row.head? = some '|') :
    ((Separates row front ↔ ¬ IsEscaped row front ∧ ¬ IsLinked row front) ↔
        if front.getLast? = some '~' then IsEscaped row front ∨ IsLinked row front
        else openBehind 0 front = 0 ↔ ¬ IsLinked row front) ∧
      (BracketsAreLinks row → ¬ ['~', '~'] <:+ front →
        (Separates row front ↔ ¬ IsEscaped row front ∧ ¬ IsLinked row front)) := by
  have hseparates := separates_iff hrow hstart
  have hescaped := isEscaped_iff hrow
  have hagree : (Separates row front ↔ ¬ IsEscaped row front ∧ ¬ IsLinked row front) ↔
      if front.getLast? = some '~' then IsEscaped row front ∨ IsLinked row front
      else openBehind 0 front = 0 ↔ ¬ IsLinked row front := by
    rw [hseparates, IsGuarded]
    split
    next hlast => simp only [hlast, true_or, not_true_eq_false, false_iff, not_and_or, not_not]
    next hlast =>
      have hplain : ¬ IsEscaped row front := fun h => by
        obtain ⟨others, rfl, -⟩ := exists_of_endsInTilde (hescaped.mp h)
        exact hlast List.getLast?_concat
      simp only [hlast, hplain, false_or, not_not, not_false_eq_true, true_and]
  refine ⟨hagree, fun hbrackets htildes => hagree.mpr ?_⟩
  split
  next hlast =>
    obtain ⟨others, rfl⟩ := List.getLast?_eq_some_iff.mp hlast
    have hothers : endsInTilde others = false := by
      rw [Bool.eq_false_iff]
      rintro htilde
      obtain ⟨more, rfl, -⟩ := exists_of_endsInTilde htilde
      exact htildes ⟨more, by simp⟩
    exact Or.inl (hescaped.mpr (by rw [endsInTilde_concat, hothers]; rfl))
  next => rw [hbrackets.isLinked_iff hrow, not_not]

/-- A row with an escaped bar, a link and a bar between them. -/
def linkedRow : List Char := "|a~|b [c|d] |e".toList

/-- The bar within the link. -/
theorem linkedRow_read_alike :
    linkedRow = "|a~|b [c".toList ++ '|' :: "d] |e".toList ∧ linkedRow.head? = some '|' ∧ BracketsAreLinks linkedRow ∧
      ¬ ['~', '~'] <:+ "|a~|b [c".toList ∧
      (Separates linkedRow "|a~|b [c".toList ↔
        ¬ IsEscaped linkedRow "|a~|b [c".toList ∧ ¬ IsLinked linkedRow "|a~|b [c".toList) :=
  have hrow : linkedRow = "|a~|b [c".toList ++ '|' :: "d] |e".toList := by decide
  have hbrackets : BracketsAreLinks linkedRow := by decide +kernel
  have htildes : ¬ ['~', '~'] <:+ "|a~|b [c".toList := by decide
  ⟨hrow, by decide, hbrackets, htildes, (bar_read_alike_iff hrow (by decide)).2 hbrackets htildes⟩

theorem not_isLinked (h : linksIn row = []) : ¬ IsLinked row front := by
  rintro ⟨earlier, body, later, inner, more, hparts, -, -⟩
  have hpart : .found body ∈ linkedParts row := hparts ▸ List.mem_append_right earlier List.mem_cons_self
  have hmem : body ∈ linksIn row := List.mem_filterMap.mpr ⟨.found body, hpart, rfl⟩
  rw [h] at hmem
  cases hmem

/-- A doubled bracket opens no link, and a paired tilde takes no meaning away; both keep the bar behind them from
separating cells. -/
theorem literals_join_cells :
    ¬ (Separates "|[[a|b".toList "|[[a".toList ↔
        ¬ IsEscaped "|[[a|b".toList "|[[a".toList ∧ ¬ IsLinked "|[[a|b".toList "|[[a".toList) ∧
      ¬ (Separates "|a~~|b".toList "|a~~".toList ↔
        ¬ IsEscaped "|a~~|b".toList "|a~~".toList ∧ ¬ IsLinked "|a~~|b".toList "|a~~".toList) := by
  have hjoins : ∀ {row front behind : List Char}, row = front ++ '|' :: behind → row.head? = some '|' →
      IsGuarded front → endsInTilde front = false → linksIn row = [] →
      ¬ (Separates row front ↔ ¬ IsEscaped row front ∧ ¬ IsLinked row front) := by
    intro row front behind hrow hstart hguard htilde hlinks hagree
    refine (separates_iff hrow hstart).mp (hagree.mpr ⟨fun hescaped => ?_, not_isLinked hlinks⟩) hguard
    rw [isEscaped_iff hrow, htilde] at hescaped
    cases hescaped
  constructor
  · exact @hjoins _ _ ['b'] (by decide) (by decide) (Or.inr (by decide)) (by decide) (by decide +kernel)
  · exact @hjoins _ _ ['b'] (by decide) (by decide) (Or.inl (by decide)) (by decide) (by decide +kernel)

end WikiMigration.Wiki

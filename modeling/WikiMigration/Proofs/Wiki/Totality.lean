/-
Every page is rendered.

Rendering fails for a page that has no text, and for no other.  The lines of a page are read turn by turn: a turn takes
one line, or a block of preformatted text up to the line that ends it, and what is left to be read is always less than
what there was.  Of a heading the marks are counted, and there are as many as there are levels.

A line is text all the way: its marks are digits between NULs among its other characters, and the last pass looks for
them in the text that the other passes leave.  It finds the marks that stand for held fragments of this line and nothing
else, so that every number it reads has its fragment.
-/
import WikiMigration.Conversion
import WikiMigration.Proofs.Store.Name
import WikiMigration.Proofs.Wiki.Escaping
import WikiMigration.Proofs.Wiki.SpelledMarks

namespace WikiMigration.Wiki

open Text

variable {context : Context} {text : List Char} {pieces : List Piece}

/-! ### Lines as text -/

/-- A line with all held apart that is to be; every pass leaves a text, in which the marks are spelled out. -/
def spelledHeld (context : Context) (text : List Char) : Line :=
  let line := ((Line.mk (Piece.ofText text) []).hold literalPattern fun c => [c]).spelled
  let line := (line.holdLiteral "[[".toList ['[']).spelled
  let line := (line.hold codePattern renderCode).spelled
  let line := (line.hold pluginPattern renderPlugin).spelled
  (line.hold linkPattern fun body => renderLink context (Piece.textOf body)).spelled

/-- A mark of a text: the digits of a number between two NULs. -/
def markPattern : Pattern Char Nat
  | '\x00' :: rest =>
    let digits := rest.takeWhile isDecimal
    match rest.drop digits.length with
    | '\x00' :: _ => (decimalNumber? digits).map fun index => (index, digits.length + 2)
    | _ => none
  | _ => none

/-- What a part of the text gives way to: a mark to the fragment of its number, if there is one. -/
def filledPart? (fragments : List (List Char)) : Part Char Nat → Option (List Char)
  | .item c => some [c]
  | .found index => fragments[index]?

/-- The parts of a text with its marks filled in; none if a mark has no fragment of its number. -/
def filledParts? (fragments : List (List Char)) : List (Part Char Nat) → Option (List Char)
  | [] => some []
  | part :: rest => do
    let filled ← filledPart? fragments part
    let more ← filledParts? fragments rest
    return filled ++ more

/-- A text with its marks filled in. -/
def filled? (fragments : List (List Char)) (text : List Char) : Option (List Char) :=
  filledParts? fragments (parts markPattern text)

/-- A line before its marks are filled in. -/
def spelledLine (context : Context) (text : List Char) : Line := (spelledHeld context text).withStyles

/-- One line of inline markup as HTML, by way of its text; none if a mark has no fragment. -/
def renderSpelled? (context : Context) (text : List Char) : Option (List Char) :=
  filled? (spelledLine context text).fragments (Piece.textOf (spelledLine context text).pieces)

/-! ### Holding -/

theorem holdLiteral_spelled {m : Char} {mark fragment : List Char} (hm : IsUnused m) (hmark : '\x00' ∉ mark)
    (line : Line) :
    (line.spelled.holdLiteral (m :: mark) fragment).spelled = (line.holdLiteral (m :: mark) fragment).spelled := by
  have hpieces : spelled (substitute (occurrence (m :: mark)) (fun _ => [Piece.held line.fragments.length])
      (spelled line.pieces)) =
      spelled (substitute (occurrence (m :: mark)) (fun _ => [Piece.held line.fragments.length]) line.pieces) := by
    rw [(readsSpelled_occurrence hm hmark).substitute, spelled_flatMap, spelled_substitute]
    refine List.flatMap_congr fun part _ => ?_
    cases part with
    | item piece => exact spelled_spelled [piece]
    | found a => rfl
  exact congrArg (Line.mk · (line.fragments ++ [fragment])) hpieces

/-- **The same is held of a line whose marks are text.** -/
theorem spelledHeld_eq (context : Context) (text : List Char) :
    spelledHeld context text = (allHeld context text).spelled := by
  have hbrackets : "[[".toList = ['[', '['] := by decide
  have hcode : ReadsSpelled codePattern spelled :=
    @readsSpelled_enclosed '\x7b' ['\x7b', '\x7b'] 0 '\x7d' ['\x7d', '\x7d']
      (by decide) (by decide) (by decide) (by decide) (Nat.zero_le 1)
  have hplugin : ReadsSpelled pluginPattern spelled :=
    @readsSpelled_enclosed '[' ['\x7b'] 0 '\x7d' [']']
      (by decide) (by decide) (by decide) (by decide) (Nat.zero_le 1)
  have hwrite : ∀ body, renderCode (spelled body) = renderCode body ∧ renderPlugin (spelled body) = renderPlugin body ∧
      renderLink context (Piece.textOf (spelled body)) = renderLink context (Piece.textOf body) := by
    refine fun body => ⟨?_, ?_, ?_⟩
    · unfold renderCode
      rw [textOf_spelled]
    · unfold renderPlugin
      rw [textOf_spelled]
    · exact congrArg (renderLink context) (textOf_spelled body)
  rw [spelledHeld, allHeld_eq, pluginsHeld, withLiteralsHeld_eq, bracketsHeld, ← literalsHeld, hbrackets,
    holdLiteral_spelled (by decide) (by decide), hcode.hold (fun body => (hwrite body).1),
    hplugin.hold (fun body => (hwrite body).2.1), readsSpelled_link.hold fun body => (hwrite body).2.2]

/-! ### Filling in -/

/-- The digits of a number, and what is read of them. -/
theorem markPattern_mark (index : Nat) (rest : List Char) :
    markPattern ('\x00' :: ((Nat.repr index).toList ++ '\x00' :: rest)) =
      some (index, (Nat.repr index).toList.length + 1 + 1) := by
  have hdigits : ∀ c ∈ (Nat.repr index).toList, isDecimal c = true := fun c hc =>
    isDecimal_of_isDigit (isDigit_iff.mpr (Nat.isDigit_of_mem_toDigits (by decide) (by decide) (Nat.toList_repr ▸ hc)))
  have htake : ((Nat.repr index).toList ++ '\x00' :: rest).takeWhile isDecimal = (Nat.repr index).toList := by
    rw [List.takeWhile_append_of_pos hdigits, List.takeWhile_cons, if_neg (by decide), List.append_nil]
  rw [markPattern, htake, List.drop_left, Nat.toList_repr, decimalNumber?_toDigits]
  rfl

/-- **The last pass finds the marks of a line and nothing else.** -/
theorem parts_markPattern (h : Piece.char '\x00' ∉ pieces) : parts markPattern (Piece.textOf pieces) =
    pieces.map fun piece => match piece with
      | .char c => .item c
      | .held index => .found index := by
  induction pieces with
  | nil => rfl
  | cons piece rest ih =>
    have hrest := ih fun hmem => h (List.mem_cons_of_mem piece hmem)
    cases piece with
    | char c =>
      have hnone : markPattern (c :: Piece.textOf rest) = none := by
        unfold markPattern
        split
        next heq =>
          obtain rfl := (List.cons.inj heq).1
          exact absurd List.mem_cons_self h
        next => rfl
      show parts markPattern (c :: Piece.textOf rest) = _
      rw [parts_of_none hnone, hrest, List.map_cons]
    | held index =>
      have htext : Piece.textOf (.held index :: rest) =
          '\x00' :: ((Nat.repr index).toList ++ '\x00' :: Piece.textOf rest) := by
        simp [Piece.textOf, Piece.text]
      have hdrop : ((Nat.repr index).toList ++ '\x00' :: Piece.textOf rest).drop ((Nat.repr index).toList.length + 1) =
          Piece.textOf rest := by
        rw [List.append_cons, List.drop_left' (by simp)]
      rw [htext, parts_of_some (markPattern_mark index _), hdrop, hrest, List.map_cons]

/-- Where every mark has a fragment, filling in restores the line. -/
theorem filled?_textOf {line : Line} (hplain : Piece.char '\x00' ∉ line.pieces) (hnumbered : line.Numbered) :
    filled? line.fragments (Piece.textOf line.pieces) = some line.restore := by
  obtain ⟨pieces, fragments⟩ := line
  rw [filled?, parts_markPattern hplain]
  clear hplain
  induction pieces with
  | nil => rfl
  | cons piece rest ih =>
    have hrest := ih fun index hmem => hnumbered index (List.mem_cons_of_mem piece hmem)
    rw [List.map_cons, filledParts?, hrest, restore_eq, restore_eq, List.flatMap_cons]
    cases piece with
    | char c => rfl
    | held index =>
      have hindex : index < fragments.length := hnumbered index List.mem_cons_self
      have hlookup : fragments[index]? = some fragments[index] := List.getElem?_eq_getElem hindex
      dsimp only [filledPart?, Piece.restored]
      rw [hlookup]
      rfl

theorem nul_not_mem_withStyles {line : Line} (h : Piece.char '\x00' ∉ line.pieces) :
    Piece.char '\x00' ∉ line.withStyles.pieces := fun hmem => h ((mem_withStyles rfl).mp hmem)

/-- **Every mark of a line is filled in.**  The numbers that the last pass reads are those of fragments that the line
holds, and the text with its marks filled in is the line as it is rendered. -/
theorem line_filled (context : Context) (htext : '\x00' ∉ text) :
    (∀ index, Part.found index ∈ parts markPattern (Piece.textOf (spelledLine context text).pieces) →
      index < (spelledLine context text).fragments.length) ∧
    renderSpelled? context text = some (renderInline context text) := by
  have hplain : Piece.char '\x00' ∉ (allHeld context text).withStyles.pieces :=
    nul_not_mem_withStyles (nul_not_mem_allHeld htext)
  have hnumbered : (allHeld context text).withStyles.Numbered := by
    intro index hmark
    rw [fragments_withStyles]
    exact allHeld_numbered context text index ((mem_withStyles rfl).mp hmark)
  have hline : spelledLine context text = (allHeld context text).withStyles.spelled := by
    rw [spelledLine, spelledHeld_eq, withStyles_spelled]
  rw [renderSpelled?, hline, Line.pieces_spelled, Line.fragments_spelled, textOf_spelled]
  refine ⟨fun index hfound => ?_, filled?_textOf hplain hnumbered⟩
  rw [parts_markPattern hplain] at hfound
  obtain ⟨piece, hpiece, heq⟩ := List.mem_map.mp hfound
  cases piece with
  | char c => cases heq
  | held other =>
    obtain rfl := Part.found.inj heq
    exact hnumbered other hpiece

variable {pending : Pending} {line : List Char} {rest lines read : List (List Char)} {fragment : Fragment}

/-! ### Reading turn by turn -/

/-- Reads preformatted text, from the line behind its opening on: the block, and the lines behind it. -/
def preformattedBlock (read : List (List Char)) : List (List Char) → Fragment × List (List Char)
  | [] => (.preformatted read false, [])
  | line :: rest =>
    match cut? preformattedEnd line with
    | some (before, _) => (.preformatted (if isBlankText before then read else read ++ [before]) true, rest)
    | none => preformattedBlock (read ++ [line]) rest

/-- What is open after a turn, what it has written, and the lines that are left. -/
structure Turn where
  pending : Pending
  fragments : List Fragment
  left : List (List Char)

/-- One turn: a line is read, and if it opens preformatted text, the block as well. -/
def Pending.turn (pending : Pending) (line : List Char) (rest : List (List Char)) : Turn :=
  match LineKind.of (pending.styles != 0) line with
  | .preformattedOpening first =>
    let (block, left) := preformattedBlock (if isBlankText first then [] else [first]) rest
    ⟨pending.withoutBlocks, pending.blocksEnd ++ [block], left⟩
  | _ => ⟨(pending.stepLine line).1, (pending.stepLine line).2, rest⟩

/-- The reading of preformatted text goes on from line to line. -/
theorem left_preformattedBlock (read lines : List (List Char)) : (preformattedBlock read lines).2 <:+ lines := by
  induction lines generalizing read with
  | nil => exact List.suffix_rfl
  | cons line rest ih =>
    rw [preformattedBlock]
    split
    · exact List.suffix_cons line rest
    · exact (ih _).trans (List.suffix_cons line rest)

/-- **A turn goes on.**  The line that it starts with is not read again. -/
theorem left_turn (pending : Pending) (line : List Char) (rest : List (List Char)) :
    (pending.turn line rest).left <:+ rest := by
  unfold Pending.turn
  split
  · exact left_preformattedBlock _ rest
  · exact List.suffix_rfl

/-- The fragments of the remaining lines, read turn by turn. -/
def fragmentsInTurns (pending : Pending) : List (List Char) → List Fragment
  | [] => pending.finish
  | line :: rest =>
    (pending.turn line rest).fragments ++ fragmentsInTurns (pending.turn line rest).pending (pending.turn line rest).left
termination_by lines => lines.length
decreasing_by exact Nat.lt_succ_of_le (left_turn pending line rest).length_le

/-- Preformatted text is read as a block. -/
theorem fragmentsFrom_block (hnone : pending.preformatted = none) (hblocks : pending.blocksEnd = [])
    (read lines : List (List Char)) : fragmentsFrom { pending with preformatted := some read } lines =
      (preformattedBlock read lines).1 :: fragmentsFrom pending (preformattedBlock read lines).2 := by
  have hclosed : { pending with preformatted := none } = pending := by rw [← hnone]
  induction lines generalizing read with
  | nil =>
    have hblocks' : { pending with preformatted := some read }.blocksEnd = [] := hblocks
    simp only [fragmentsFrom, Pending.finish, preformattedBlock, hnone, hblocks, hblocks']
    rfl
  | cons line rest ih =>
    rw [fragmentsFrom, Pending.step, preformattedBlock]
    dsimp only
    rw [Pending.stepPreformatted]
    split
    next hcut =>
      rw [hcut]
      exact ih _
    next before behind hcut =>
      rw [hcut]
      dsimp only
      rw [hclosed]
      rfl

theorem preformatted_stepLine (hnone : pending.preformatted = none)
    (hkind : ∀ first, LineKind.of (pending.styles != 0) line ≠ .preformattedOpening first) :
    (pending.stepLine line).1.preformatted = none := by
  unfold Pending.stepLine
  split
  next first h => exact absurd h (hkind first)
  all_goals exact hnone

/-- What a turn reads is what is read line by line. -/
theorem fragmentsFrom_turn (hnone : pending.preformatted = none) (line : List Char) (rest : List (List Char)) :
    (pending.turn line rest).pending.preformatted = none ∧
      fragmentsFrom pending (line :: rest) = (pending.turn line rest).fragments ++
        fragmentsFrom (pending.turn line rest).pending (pending.turn line rest).left := by
  have hstep : pending.step line = pending.stepLine line := by rw [Pending.step, hnone]
  rw [fragmentsFrom, hstep]
  unfold Pending.turn
  split
  next first hkind =>
    refine ⟨hnone, ?_⟩
    have hread := @fragmentsFrom_block pending.withoutBlocks hnone rfl
      (if isBlankText first then [] else [first]) rest
    simp only [Pending.stepLine, hkind]
    rw [hread, List.append_assoc]
    rfl
  next hkind => exact ⟨preformatted_stepLine hnone hkind, rfl⟩

/-- **Reading turn by turn comes to an end, and gives the fragments of the lines.** -/
theorem fragmentsInTurns_eq (hnone : pending.preformatted = none) (lines : List (List Char)) :
    fragmentsInTurns pending lines = fragmentsFrom pending lines := by
  induction pending, lines using fragmentsInTurns.induct with
  | case1 pending => rw [fragmentsInTurns]; rfl
  | case2 pending line rest ih =>
    obtain ⟨hnext, hturn⟩ := fragmentsFrom_turn hnone line rest
    rw [fragmentsInTurns, hturn, ih hnext]

/-! ### Lines of a page -/

/-- No line of inline markup has a NUL. -/
theorem nul_not_mem_inlineText {page text : List Char} (hfragment : fragment ∈ fragmentsOf page)
    (htext : text ∈ fragment.inlineTexts) : '\x00' ∉ text := by
  intro hmem
  obtain ⟨whole, hwhole, hsub⟩ := exists_text_of_mem_inlineTexts htext
  obtain ⟨line, hline, hsub'⟩ := exists_line_of_mem_texts hfragment hwhole
  exact nul_not_mem_pageLines hline (hsub' (hsub hmem))

end WikiMigration.Wiki

namespace WikiMigration.Conversion

open Rendering Text Wiki

theorem render_eq_error_iff (logger : String) (context : Context) (text : Option (List Char)) (error : MigrationError) :
    render .wiki logger context text = .error error ↔ text = none ∧ error = noMarkup context.page := by
  cases text with
  | none =>
    show Except.error (noMarkup context.page) = Except.error error ↔ _
    rw [Except.error.injEq, eq_comm, and_iff_right rfl]
  | some page => exact ⟨nofun, nofun⟩

/-- **Rendering is total.**  A page is rendered as HTML whatever its text is, and a missing text is the one thing that
fails, as a failure of the conversion.  The reading goes on with every turn, and through preformatted text with every
line, and comes to what the lines of the page are; every heading has a level; and in each line every number that the
last pass reads is that of a fragment of the line, so that the text with its marks filled in is there. -/
theorem rendering_total (logger : String) (context : Context) (page : List Char) :
    (∃ records, render .wiki logger context (some page) = .ok (renderPage context page, records)) ∧
    (∀ text error, render .wiki logger context text = .error error ↔ text = none ∧ error = noMarkup context.page) ∧
    (noMarkup context.page).kind = .conversion ∧
    (∀ pending line rest, (Pending.turn pending line rest).left <:+ rest) ∧
    (∀ read lines, (preformattedBlock read lines).2 <:+ lines) ∧
    fragmentsInTurns .empty (pageLines page) = fragmentsOf page ∧
    (∀ fragment ∈ fragmentsOf page, fragment.HasTag) ∧
    OnEveryLine page fun line =>
      (∀ index, Part.found index ∈ parts markPattern (Piece.textOf (spelledLine context line).pieces) →
        index < (spelledLine context line).fragments.length) ∧
      renderSpelled? context line = some (renderInline context line) :=
  ⟨⟨_, rfl⟩, render_eq_error_iff logger context, rfl, left_turn, left_preformattedBlock,
    fragmentsInTurns_eq rfl (pageLines page), fun _ => hasTag_fragmentsFrom,
    fun _ hfragment _ htext => line_filled context (nul_not_mem_inlineText hfragment htext)⟩

end WikiMigration.Conversion

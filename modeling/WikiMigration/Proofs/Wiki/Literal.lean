/-
What prose that was made literal is read as.

A letter that is written as it is stays a character of the line; one that is written in another way is held
apart.  The passes over a line look for marks of two characters, or for an opening bracket, and as these are
held apart, they find nothing.  Only a style is still found, for it starts with a mark that is never made
literal: the line is rendered as the text it was made of, exactly if the text has no style in it.
-/
import Mathlib.Data.List.Forall2
import WikiMigration.Proofs.Wiki.LinkLine
import WikiMigration.Proofs.Writing.Letters

namespace WikiMigration.Wiki

open Text Writing

variable {c d m : Char} {text : List Char} {letters : List Letter} {fragments : List (List Char)}
variable {piece : Piece} {pieces : List Piece}

/-! ### What is held of letters -/

/-- The pieces of letters of which those behind a tilde are held with numbers from `next` on, and those
written twice stand for the given pieces. -/
def piecesFrom (bracket : List Piece) : Nat → List Letter → List Piece
  | _, [] => []
  | next, letter :: rest =>
    match letter.spelling with
    | .plain => .char letter.char :: piecesFrom bracket next rest
    | .tilde => .held next :: piecesFrom bracket (next + 1) rest
    | .twice => bracket ++ piecesFrom bracket next rest

/-- The fragments of the letters behind a tilde. -/
def literalsOf : List Letter → List (List Char)
  | [] => []
  | letter :: rest => if letter.spelling = .tilde then [letter.char] :: literalsOf rest else literalsOf rest

theorem holdParts_literals (sound : ∀ letter ∈ letters, letter.IsSound) (next : Nat) :
    holdParts (fun c => [c]) next (parts literalPattern (Piece.ofText (Letter.writtenOf letters)))
      = (piecesFrom [.char '[', .char '['] next letters, literalsOf letters) := by
  induction letters generalizing next with
  | nil => rfl
  | cons letter rest ih =>
    have hrest := ih (fun l hl => sound l (List.mem_cons_of_mem letter hl))
    have hletter := sound letter List.mem_cons_self
    obtain ⟨c, spelling⟩ := letter
    have hplain : ∀ {c : Char} (others : List Piece), c ≠ '~' → parts literalPattern (.char c :: others)
        = .item (.char c) :: parts literalPattern others := fun others hc =>
      parts_of_none (literal_startsAt _ _ fun heq => hc (Piece.char.inj heq))
    cases spelling with
    | plain =>
      show holdParts _ next (parts literalPattern (.char c :: Piece.ofText (Letter.writtenOf rest))) = _
      rw [hplain _ hletter.1, holdParts, hrest]
      rfl
    | tilde =>
      have hfound : ∀ others, literalPattern (.char '~' :: .char c :: others) = some (c, 2) := fun others =>
        if_pos hletter
      show holdParts _ next (parts literalPattern (.char '~' :: .char c :: Piece.ofText (Letter.writtenOf rest))) = _
      rw [parts_of_some (hfound _), List.drop_one, List.tail_cons, holdParts, hrest]
      rfl
    | twice =>
      obtain rfl : c = '[' := hletter
      show holdParts _ next (parts literalPattern (.char '[' :: .char '[' :: Piece.ofText (Letter.writtenOf rest))) = _
      rw [hplain _ (by decide), hplain _ (by decide), holdParts, holdParts, hrest]
      rfl

theorem substitute_brackets (sound : ∀ letter ∈ letters, letter.IsSound) (mark : Piece) (next : Nat) :
    substitute (occurrence "[[".toList) (fun _ => [mark]) (piecesFrom [.char '[', .char '['] next letters)
      = piecesFrom [mark] next letters := by
  have hmark : "[[".toList = ['[', '['] := by decide
  induction letters generalizing next with
  | nil => rfl
  | cons letter rest ih =>
    have hrest := ih (fun l hl => sound l (List.mem_cons_of_mem letter hl))
    have hletter := sound letter List.mem_cons_self
    obtain ⟨c, spelling⟩ := letter
    cases spelling with
    | plain =>
      have hc : Piece.char c ≠ .char '[' := fun heq => hletter.2 (Piece.char.inj heq)
      show substitute _ _ (.char c :: piecesFrom _ next rest) = .char c :: piecesFrom _ next rest
      rw [substitute_of_none (bracket_startsAt _ _ hc), hrest]
    | tilde =>
      show substitute _ _ (.held next :: piecesFrom _ (next + 1) rest) = .held next :: piecesFrom _ (next + 1) rest
      rw [substitute_of_none (bracket_startsAt _ _ (by simp)), hrest]
    | twice =>
      have hfound : ∀ others, occurrence "[[".toList (.char '[' :: .char '[' :: others) = some ((), 2) :=
        fun others => by rw [occurrence, hmark]; rfl
      show substitute _ _ (.char '[' :: .char '[' :: piecesFrom _ next rest) = [mark] ++ piecesFrom _ next rest
      rw [substitute_of_some (hfound _), List.drop_one, List.tail_cons, hrest]

/-- A letter that is written as it is is a character, and every other one is held. -/
def StandsFor (fragments : List (List Char)) (piece : Piece) (letter : Letter) : Prop :=
  match letter.spelling with
  | .plain => piece = .char letter.char
  | _ => ∃ index, piece = .held index ∧ fragments[index]? = some [letter.char]

theorem standsFor_char {letter : Letter} : StandsFor fragments (.char c) letter ↔ letter = ⟨c, .plain⟩ := by
  obtain ⟨d, spelling⟩ := letter
  cases spelling with
  | plain => simp [StandsFor, eq_comm]
  | tilde => simp [StandsFor]
  | twice => simp [StandsFor]

theorem forall₂_piecesFrom {index next : Nat} (sound : ∀ letter ∈ letters, letter.IsSound)
    (hliterals : literalsOf letters <+: fragments.drop next) (hbracket : fragments[index]? = some ['[']) :
    List.Forall₂ (StandsFor fragments) (piecesFrom [.held index] next letters) letters := by
  induction letters generalizing next with
  | nil => exact .nil
  | cons letter rest ih =>
    have hsound := fun l hl => sound l (List.mem_cons_of_mem letter hl)
    have hletter := sound letter List.mem_cons_self
    obtain ⟨c, spelling⟩ := letter
    cases spelling with
    | plain => exact .cons rfl (ih hsound hliterals)
    | tilde =>
      obtain ⟨behind, hbehind⟩ : [c] :: literalsOf rest <+: fragments.drop next := hliterals
      rw [List.cons_append] at hbehind
      have hfirst : fragments[next]? = some [c] := by
        rw [← List.head?_drop, ← hbehind]
        rfl
      have hmore : literalsOf rest <+: fragments.drop (next + 1) := by
        refine ⟨behind, ?_⟩
        rw [← List.drop_drop, ← hbehind]
        rfl
      exact .cons ⟨next, rfl, hfirst⟩ (ih hsound hmore)
    | twice =>
      obtain rfl : c = '[' := hletter
      exact .cons ⟨index, rfl, hbracket⟩ (ih hsound hliterals)

/-! ### Passes that find nothing -/

/-- No opening bracket, and no two marks side by side that mean something together. -/
structure AreQuiet (pieces : List Piece) : Prop where
  bracket : Piece.char '[' ∉ pieces
  sparse : ∀ m ∈ pairedMarks, ¬ [.char m, .char m] <:+: pieces

theorem forall₂_append_right {α β : Type} {R : α → β → Prop} {xs : List α} {ys zs : List β}
    (h : List.Forall₂ R xs (ys ++ zs)) :
    ∃ front behind, xs = front ++ behind ∧ List.Forall₂ R front ys ∧ List.Forall₂ R behind zs :=
  ⟨_, _, (List.take_append_drop ys.length xs).symm, List.forall₂_take_append xs ys zs h,
    List.forall₂_drop_append xs ys zs h⟩

theorem forall₂_append_left {α β : Type} {R : α → β → Prop} {xs ys : List α} {zs : List β}
    (h : List.Forall₂ R (xs ++ ys) zs) :
    ∃ front behind, zs = front ++ behind ∧ List.Forall₂ R xs front ∧ List.Forall₂ R ys behind := by
  obtain ⟨front, behind, heq, hfront, hbehind⟩ := forall₂_append_right h.flip
  exact ⟨front, behind, heq, hfront.flip, hbehind.flip⟩

/-- Characters of the line are letters that are written as they are. -/
theorem eq_of_ofText (h : List.Forall₂ (StandsFor fragments) (Piece.ofText text) letters) :
    letters = text.map (⟨·, .plain⟩) := by
  induction text generalizing letters with
  | nil => exact List.forall₂_nil_left_iff.mp h
  | cons c rest ih =>
    obtain ⟨letter, others, hletter, hothers, rfl⟩ := List.forall₂_cons_left_iff.mp h
    rw [standsFor_char.mp hletter, ih hothers, List.map_cons]

theorem eq_ofText (h : List.Forall₂ (StandsFor fragments) pieces (text.map (⟨·, .plain⟩))) :
    pieces = Piece.ofText text := by
  induction text generalizing pieces with
  | nil => exact List.forall₂_nil_right_iff.mp h
  | cons c rest ih =>
    obtain ⟨piece, others, hpiece, hothers, rfl⟩ := List.forall₂_cons_right_iff.mp h
    rw [ofText_cons, ← ih hothers]
    exact congrArg (· :: others) hpiece

/-- A character of the line is a letter of it. -/
theorem plain_mem_of_char_mem (h : List.Forall₂ (StandsFor fragments) pieces letters) (hmem : .char c ∈ pieces) :
    ⟨c, .plain⟩ ∈ letters := by
  obtain ⟨before, behind, rfl⟩ := List.append_of_mem hmem
  obtain ⟨front, others, rfl, -, hothers⟩ := forall₂_append_left h
  obtain ⟨letter, more, hletter, -, rfl⟩ := List.forall₂_cons_left_iff.mp hothers
  rw [standsFor_char.mp hletter]
  exact List.mem_append_right front List.mem_cons_self

theorem areQuiet (h : List.Forall₂ (StandsFor fragments) pieces letters) (spelled : AreSpelled letters) :
    AreQuiet pieces where
  bracket hmem := (spelled.sound _ (plain_mem_of_char_mem h hmem)).2 rfl
  sparse m hm hwithin := by
    obtain ⟨before, behind, rfl⟩ := hwithin
    obtain ⟨front, others, rfl, hfront, -⟩ := forall₂_append_left h
    obtain ⟨first, pair, rfl, -, hpair⟩ := forall₂_append_left hfront
    obtain rfl := @eq_of_ofText [m, m] _ _ hpair
    exact spelled.sparse m hm ⟨first, others, rfl⟩

section Passes

variable {α : Type} {pattern : Pattern Piece α}

theorem substitute_of_items (replacement : α → List Piece) (h : parts pattern pieces = pieces.map .item) :
    substitute pattern replacement pieces = pieces := by
  rw [substitute, h, List.flatMap_map]
  exact List.flatMap_singleton' pieces

/-- What starts with a doubled mark is not found. -/
theorem AreQuiet.parts_enclosed (h : AreQuiet pieces) (hm : m ∈ pairedMarks) (more closing : List Char)
    (least : Nat) :
    parts (enclosedPattern (m :: m :: more) closing least) pieces = pieces.map .item := by
  refine parts_eq_items fun behind hbehind _ => ?_
  unfold enclosedPattern
  cases hafter : afterChars? (m :: m :: more) behind with
  | none => rfl
  | some rest =>
    have hpair : [.char m, .char m] <+: behind :=
      ⟨Piece.ofText more ++ rest, (afterChars?_eq_some hafter).symm⟩
    exact absurd (hpair.isInfix.trans hbehind.isInfix) (h.sparse m hm)

theorem AreQuiet.parts_lineBreak (h : AreQuiet pieces) : parts lineBreakPattern pieces = pieces.map .item := by
  refine parts_eq_items fun behind hbehind _ => ?_
  have hpair : ∀ rest, behind ≠ .char '\\' :: .char '\\' :: rest := fun rest heq =>
    h.sparse '\\' (by decide) (List.IsInfix.trans ⟨[], rest, by rw [heq]; rfl⟩ hbehind.isInfix)
  unfold lineBreakPattern
  split
  next rest => exact absurd rfl (hpair _)
  next rest _ => exact absurd rfl (hpair _)
  next => rfl

end Passes

/-- The letters behind a tilde are held apart. -/
theorem literalsHeld_writtenOf (sound : ∀ letter ∈ letters, letter.IsSound) :
    literalsHeld (Letter.writtenOf letters) =
      ⟨piecesFrom [.char '[', .char '['] 0 letters, literalsOf letters⟩ := by
  have hparts := holdParts_literals sound 0
  simp only [literalsHeld, Line.hold, List.length_nil, hparts, List.nil_append]

/-- **What is held of prose that was made literal** are its literal characters, and nothing else. -/
theorem exists_held (context : Context) (spelled : AreSpelled letters) :
    ∃ pieces fragments, (Line.withLiteralsHeld (Letter.writtenOf letters)).withLinksHeld context = ⟨pieces, fragments⟩ ∧
      List.Forall₂ (StandsFor fragments) pieces letters := by
  have hbrackets : bracketsHeld (Letter.writtenOf letters)
      = ⟨piecesFrom [.held (literalsOf letters).length] 0 letters, literalsOf letters ++ [['[']]⟩ := by
    have hpieces := substitute_brackets spelled.sound (.held (literalsOf letters).length) 0
    rw [bracketsHeld, literalsHeld_writtenOf spelled.sound, Line.holdLiteral]
    exact congrArg (Line.mk · _) hpieces
  have hreads : List.Forall₂ (StandsFor (literalsOf letters ++ [['[']]))
      (piecesFrom [.held (literalsOf letters).length] 0 letters) letters :=
    forall₂_piecesFrom spelled.sound (List.prefix_append _ _) (by simp)
  have hquiet := areQuiet hreads spelled
  have hcode : parts codePattern (piecesFrom [.held (literalsOf letters).length] 0 letters)
      = (piecesFrom [.held (literalsOf letters).length] 0 letters).map .item :=
    hquiet.parts_enclosed (by decide : '\x7b' ∈ pairedMarks) ['\x7b'] _ 0
  refine ⟨_, _, ?_, hreads⟩
  rw [withLiteralsHeld_eq, hbrackets, hold_of_items _ hcode, Line.withLinksHeld,
    hold_of_items _ (parts_of_not_mem plugin_startsAt hquiet.bracket),
    hold_of_items _ (parts_of_not_mem link_startsAt hquiet.bracket)]

end WikiMigration.Wiki

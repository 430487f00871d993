/-
Marks as plain text.

A mark is a number between two NULs in the text of a line, and the passes that come after read it as they read all other
characters.  Here a pass is run on a line whose marks are spelled out.  No pattern starts or ends with a NUL or a digit,
so none starts or ends within a mark.  Emphasis passes over one character without a look, which may be the first of a
mark; then the rest of the mark is passed over with it.  So every pass finds in the spelled line the matches that it
finds in the line, and leaves the spelled line behind.
-/
import WikiMigration.Proofs.Wiki.Prose
import WikiMigration.Proofs.Wiki.Restoring

namespace WikiMigration.Wiki

open Text

variable {index : Nat} {m : Char} {mark : List Char} {piece : Piece} {pieces rest : List Piece}

/-! ### Spelling -/

/-- The pieces with their marks spelled out: they all are plain characters. -/
def spelled (pieces : List Piece) : List Piece := Piece.ofText (Piece.textOf pieces)

@[simp] theorem spelled_nil : spelled [] = [] := rfl

@[simp] theorem spelled_append (xs ys : List Piece) : spelled (xs ++ ys) = spelled xs ++ spelled ys := by
  rw [spelled, Piece.textOf, List.flatMap_append, ofText_append]
  rfl

@[simp] theorem spelled_char (c : Char) (rest : List Piece) : spelled (.char c :: rest) = .char c :: spelled rest := rfl

theorem spelled_cons (piece : Piece) (rest : List Piece) : spelled (piece :: rest) = spelled [piece] ++ spelled rest :=
  spelled_append [piece] rest

theorem textOf_spelled (pieces : List Piece) : Piece.textOf (spelled pieces) = Piece.textOf pieces := textOf_ofText _

@[simp] theorem spelled_ofText (text : List Char) : spelled (Piece.ofText text) = Piece.ofText text :=
  congrArg Piece.ofText (textOf_ofText text)

theorem spelled_spelled (pieces : List Piece) : spelled (spelled pieces) = spelled pieces := spelled_ofText _

/-- No mark is spelled with the character. -/
def IsUnused (c : Char) : Prop := c ≠ '\x00' ∧ c.isDigit = false

instance (c : Char) : Decidable (IsUnused c) := inferInstanceAs (Decidable (c ≠ '\x00' ∧ c.isDigit = false))

/-- A mark starts with a NUL when it is spelled out. -/
theorem spelled_held (index : Nat) : ∃ inner, spelled [.held index] = .char '\x00' :: inner ∧
    ∀ rest, spelled (.held index :: rest) = .char '\x00' :: (inner ++ spelled rest) := by
  have hmark : spelled [.held index] =
      .char '\x00' :: Piece.ofText ((Nat.repr index).toList ++ ['\x00']) := by
    simp [spelled, Piece.textOf, Piece.text, Piece.ofText]
  exact ⟨_, hmark, fun rest => by rw [spelled_cons, hmark, List.cons_append]⟩

theorem char_not_mem_spelled_held (hm : IsUnused m) : Piece.char m ∉ spelled [.held index] := by
  intro h
  obtain ⟨c, hc, heq⟩ := List.mem_map.mp h
  obtain rfl := Piece.char.inj heq
  rcases mem_textOf hc with hmem | rfl | hdigit
  · simp at hmem
  · exact hm.1 rfl
  · rw [hm.2] at hdigit
    cases hdigit

/-! ### Reading spelled pieces -/

theorem afterChars?_spelled (hmark : '\x00' ∉ mark) (pieces : List Piece) :
    afterChars? mark (spelled pieces) = (afterChars? mark pieces).map spelled := by
  induction mark generalizing pieces with
  | nil => rfl
  | cons c cs ih =>
    have hne : c ≠ '\x00' := fun h => hmark (h ▸ List.mem_cons_self)
    have hrest : '\x00' ∉ cs := fun h => hmark (List.mem_cons_of_mem c h)
    cases pieces with
    | nil => rfl
    | cons piece rest =>
      cases piece with
      | char d =>
        rw [spelled_char, afterChars?, afterChars?]
        split
        · exact ih hrest rest
        · rfl
      | held index =>
        obtain ⟨inner, -, hcons⟩ := spelled_held index
        rw [hcons, afterChars?_of_ne (by simpa using Ne.symm hne)]
        rfl

/-- Pieces that a mark cannot start at are passed over. -/
theorem beforeChars?_passed (h : Piece.char m ∉ pieces) (rest : List Piece) :
    beforeChars? (m :: mark) (pieces ++ rest) = (beforeChars? (m :: mark) rest).map (pieces ++ ·) := by
  induction pieces with
  | nil => exact Option.map_id'.symm
  | cons piece others ih =>
    have hne : piece ≠ .char m := fun heq => h (heq ▸ List.mem_cons_self)
    rw [List.cons_append, beforeChars?, afterChars?_of_ne hne, ih fun hmem => h (List.mem_cons_of_mem piece hmem),
      Option.map_map]
    rfl

theorem beforeChars?_spelled (hm : IsUnused m) (hmark : '\x00' ∉ mark) (pieces : List Piece) :
    beforeChars? (m :: mark) (spelled pieces) = (beforeChars? (m :: mark) pieces).map spelled := by
  have hnul : '\x00' ∉ m :: mark := fun h => (List.mem_cons.mp h).elim (fun heq => hm.1 heq.symm) hmark
  induction pieces with
  | nil => rfl
  | cons piece rest ih =>
    cases piece with
    | char c =>
      have hafter := afterChars?_spelled hnul (.char c :: rest)
      rw [spelled_char] at hafter ⊢
      rw [beforeChars?, hafter, Option.isSome_map, beforeChars?]
      split
      · rfl
      · rw [ih, Option.map_map, Option.map_map]
        rfl
    | held index =>
      rw [spelled_cons, beforeChars?_passed (char_not_mem_spelled_held hm), ih, beforeChars?,
        afterChars?_of_ne (by simp), Option.isSome_none, if_neg Bool.false_ne_true, Option.map_map, Option.map_map]
      refine congrArg (Option.map · _) (funext fun more => ?_)
      exact (spelled_cons (.held index) more).symm

/-- A class takes marks as a whole, or it stops before them, spelled out or not. -/
structure SeesMarks (q : Piece → Bool) : Prop where
  kept : ∀ index, q (.held index) = true → ∀ piece ∈ spelled [.held index], q piece = true
  stopped : ∀ index, q (.held index) = false → q (.char '\x00') = false

theorem SeesMarks.span {q : Piece → Bool} (h : SeesMarks q) (pieces : List Piece) :
    (spelled pieces).takeWhile q = spelled (pieces.takeWhile q) ∧
      (spelled pieces).dropWhile q = spelled (pieces.dropWhile q) := by
  induction pieces with
  | nil => exact ⟨rfl, rfl⟩
  | cons piece rest ih =>
    cases piece with
    | char c =>
      rw [spelled_char, List.takeWhile_cons, List.takeWhile_cons, List.dropWhile_cons, List.dropWhile_cons]
      split
      · exact ⟨by rw [ih.1, spelled_char], ih.2⟩
      · exact ⟨rfl, rfl⟩
    | held index =>
      rw [List.takeWhile_cons, List.dropWhile_cons]
      cases hq : q (.held index) with
      | true =>
        rw [spelled_cons, List.takeWhile_append_of_pos (h.kept index hq),
          List.dropWhile_append_of_pos (h.kept index hq), ih.1, ih.2]
        exact ⟨(spelled_cons _ _).symm, rfl⟩
      | false =>
        obtain ⟨inner, -, hcons⟩ := spelled_held index
        rw [hcons, List.takeWhile_cons, List.dropWhile_cons, h.stopped index hq]
        exact ⟨rfl, (hcons rest).symm⟩

/-- A class of the characters that are not some that no mark is spelled with. -/
theorem seesMarks_not {p : Char → Bool} (h : ∀ c, p c = true → IsUnused c) :
    SeesMarks fun piece => !piece.isChar p where
  kept index _ piece hpiece := by
    cases piece with
    | held _ => rfl
    | char c =>
      by_cases hp : p c = true
      · exact absurd hpiece (char_not_mem_spelled_held (h c hp))
      · simp [Piece.isChar, hp]
  stopped index hheld := by simp [Piece.isChar] at hheld

/-- A class of characters without the NUL. -/
theorem seesMarks_isChar {p : Char → Bool} (h : p '\x00' = false) : SeesMarks fun piece => piece.isChar p where
  kept index hheld := by simp [Piece.isChar] at hheld
  stopped _ _ := h

/-! ### Patterns on spelled pieces -/

section Patterns

variable {α : Type} {pattern : Pattern Piece α} {spell : α → α}

/-- The pattern reads spelled pieces as it reads the pieces, and finds what it finds there in another spelling. -/
structure ReadsSpelled (pattern : Pattern Piece α) (spell : α → α) : Prop where
  start : ∃ m, IsUnused m ∧ StartsAt m pattern
  pos : ∀ pieces a n, pattern pieces = some (a, n) → 0 < n
  reads : ∀ pieces, pattern (spelled pieces) =
    (pattern pieces).map fun (a, n) => (spell a, (spelled (pieces.take n)).length)

/-- A part of a scanned line, spelled out. -/
def spelledPart (spell : α → α) : Part Piece α → List (Part Piece α) :=
  Part.weigh (fun piece => (spelled [piece]).map .item) fun a => [.found (spell a)]

/-- **No mark is split or forged.**  What a pattern finds in the spelled pieces is what it finds in the pieces. -/
theorem ReadsSpelled.parts (h : ReadsSpelled pattern spell) (pieces : List Piece) :
    Text.parts pattern (spelled pieces) = (Text.parts pattern pieces).flatMap (spelledPart spell) := by
  obtain ⟨m, hm, hstarts⟩ := h.start
  induction hn : pieces.length using Nat.strongRecOn generalizing pieces with
  | _ n ih =>
    subst hn
    cases pieces with
    | nil => rfl
    | cons piece rest =>
      have hreads := h.reads (piece :: rest)
      cases hfound : pattern (piece :: rest) with
      | none =>
        rw [parts_of_none hfound, List.flatMap_cons, ← ih _ (by simp) rest rfl]
        cases piece with
        | char c =>
          rw [hfound, spelled_char] at hreads
          rw [spelled_char, parts_of_none hreads]
          rfl
        | held index =>
          rw [spelled_cons, parts_append_of_startsAt hstarts (char_not_mem_spelled_held hm)]
          rfl
      | some found =>
        obtain ⟨a, n⟩ := found
        obtain ⟨k, rfl⟩ : ∃ k, n = k + 1 := ⟨n - 1, by have := h.pos _ _ _ hfound; omega⟩
        have hpiece : piece = .char m := by
          by_contra hne
          rw [hstarts piece rest hne] at hfound
          cases hfound
        subst hpiece
        have hsplit : spelled rest = spelled (rest.take k) ++ spelled (rest.drop k) := by
          rw [← spelled_append, List.take_append_drop]
        have hsome : pattern (.char m :: spelled rest) = some (spell a, (spelled (rest.take k)).length + 1) := by
          rw [← spelled_char, hreads, hfound]
          rfl
        rw [parts_of_some hfound, List.flatMap_cons, spelled_char, parts_of_some hsome, hsplit, List.drop_left,
          ih _ (by rw [List.length_cons, List.length_drop]; omega) _ rfl]
        rfl

/-- Spelled pieces with matches replaced. -/
theorem ReadsSpelled.substitute (h : ReadsSpelled pattern spell) (replacement : α → List Piece) (pieces : List Piece) :
    Text.substitute pattern replacement (spelled pieces) = (Text.parts pattern pieces).flatMap
      (Part.weigh (fun piece => spelled [piece]) fun a => replacement (spell a)) := by
  rw [Text.substitute, h.parts, List.flatMap_assoc]
  refine List.flatMap_congr fun part _ => ?_
  cases part with
  | item piece =>
    rw [spelledPart, Part.weigh, Part.weigh, List.flatMap_map]
    exact List.flatMap_singleton' _
  | found a => exact List.append_nil _

theorem spelled_flatMap {β : Type} (f : β → List Piece) (xs : List β) :
    spelled (xs.flatMap f) = xs.flatMap fun a => spelled (f a) := by
  induction xs with
  | nil => rfl
  | cons a rest ih => rw [List.flatMap_cons, spelled_append, ih, List.flatMap_cons]

theorem spelled_substitute (pattern : Pattern Piece α) (replacement : α → List Piece) (pieces : List Piece) :
    spelled (substitute pattern replacement pieces) = (parts pattern pieces).flatMap
      (Part.weigh (fun piece => spelled [piece]) fun a => spelled (replacement a)) := by
  rw [substitute, spelled_flatMap]
  refine List.flatMap_congr fun part _ => ?_
  cases part <;> rfl

/-- A pass that puts in the place of a spelled match what is put in the place of the match, spelled out. -/
theorem ReadsSpelled.substitute_eq (h : ReadsSpelled pattern spell) {replacement : α → List Piece}
    (hreplace : ∀ a ∈ foundIn pattern pieces, replacement (spell a) = spelled (replacement a)) :
    Text.substitute pattern replacement (spelled pieces) = spelled (Text.substitute pattern replacement pieces) := by
  rw [h.substitute, spelled_substitute]
  refine List.flatMap_congr fun part hpart => ?_
  cases part with
  | item piece => rfl
  | found a => exact hreplace a (List.mem_filterMap.mpr ⟨_, hpart, rfl⟩)

theorem holdParts_items (write : α → List Char) (next : Nat) (items : List Piece) (ps : List (Part Piece α)) :
    holdParts write next (items.map .item ++ ps) =
      (items ++ (holdParts write next ps).1, (holdParts write next ps).2) := by
  induction items with
  | nil => rfl
  | cons piece rest ih => rw [List.map_cons, List.cons_append, holdParts, ih, List.cons_append]

/-- The same fragments are held, and the marks stand at the same places. -/
theorem holdParts_spelled {write : α → List Char} (hwrite : ∀ a, write (spell a) = write a) (next : Nat)
    (ps : List (Part Piece α)) :
    spelled (holdParts write next (ps.flatMap (spelledPart spell))).1 = spelled (holdParts write next ps).1 ∧
      (holdParts write next (ps.flatMap (spelledPart spell))).2 = (holdParts write next ps).2 := by
  induction ps generalizing next with
  | nil => exact ⟨rfl, rfl⟩
  | cons part rest ih =>
    cases part with
    | item piece =>
      obtain ⟨hpieces, hfragments⟩ := ih next
      have hcons : (Part.item piece :: rest).flatMap (spelledPart spell) =
          (spelled [piece]).map .item ++ rest.flatMap (spelledPart spell) := rfl
      rw [hcons, holdParts_items, hfragments]
      refine ⟨?_, rfl⟩
      show _ = spelled (piece :: (holdParts write next rest).1)
      rw [spelled_append, spelled_spelled, hpieces, ← spelled_cons]
    | found a =>
      obtain ⟨hpieces, hfragments⟩ := ih (next + 1)
      have hcons : (Part.found a :: rest).flatMap (spelledPart spell) =
          .found (spell a) :: rest.flatMap (spelledPart spell) := rfl
      rw [hcons]
      refine ⟨?_, congrArg₂ List.cons (hwrite a) hfragments⟩
      show spelled (.held next :: _) = spelled (.held next :: _)
      rw [spelled_cons, hpieces, ← spelled_cons]

/-- The line with its marks spelled out. -/
def Line.spelled (line : Line) : Line := { line with pieces := Wiki.spelled line.pieces }

@[simp] theorem Line.pieces_spelled (line : Line) : line.spelled.pieces = Wiki.spelled line.pieces := rfl

@[simp] theorem Line.fragments_spelled (line : Line) : line.spelled.fragments = line.fragments := rfl

theorem ReadsSpelled.hold (h : ReadsSpelled pattern spell) {write : α → List Char}
    (hwrite : ∀ a, write (spell a) = write a) (line : Line) :
    (line.spelled.hold pattern write).spelled = (line.hold pattern write).spelled := by
  obtain ⟨pieces, fragments⟩ := line
  obtain ⟨hpieces, hfragments⟩ := holdParts_spelled hwrite fragments.length (Text.parts pattern pieces)
  rw [← h.parts] at hpieces hfragments
  exact congrArg₂ Line.mk hpieces (congrArg (fragments ++ ·) hfragments)

end Patterns

/-! ### The patterns of a line -/

theorem take_ofText_append (text : List Char) (rest : List Piece) :
    (Piece.ofText text ++ rest).take text.length = Piece.ofText text := List.take_left' (length_ofText text)

theorem readsSpelled_occurrence (hm : IsUnused m) (hmark : '\x00' ∉ mark) :
    ReadsSpelled (occurrence (m :: mark)) fun hit => hit where
  start := ⟨m, hm, fun piece rest hne => congrArg (Option.map _) (afterChars?_of_ne hne)⟩
  pos pieces a n h := by
    obtain ⟨-, -, heq⟩ := Option.map_eq_some_iff.mp h
    obtain rfl := (Prod.mk.inj heq).2
    exact Nat.succ_pos _
  reads pieces := by
    have hnul : '\x00' ∉ m :: mark := fun h => (List.mem_cons.mp h).elim (fun heq => hm.1 heq.symm) hmark
    have hafter := afterChars?_spelled hnul pieces
    unfold occurrence
    rw [hafter]
    cases hrest : afterChars? (m :: mark) pieces with
    | none => rfl
    | some rest =>
      obtain rfl := afterChars?_eq_some hrest
      simp only [Option.map_some, take_ofText_append, spelled_ofText, length_ofText]

/-- What is enclosed, for what stands behind the opening. -/
def enclosedBody? (closing : List Char) (least : Nat) (rest : List Piece) : Option (List Piece) :=
  if rest.length < least then none else (beforeChars? closing (rest.drop least)).map (rest.take least ++ ·)

theorem enclosedPattern_eq_bind (opening closing : List Char) (least : Nat) (pieces : List Piece) :
    enclosedPattern opening closing least pieces = (afterChars? opening pieces).bind fun rest =>
      (enclosedBody? closing least rest).map fun body => (body, opening.length + body.length + closing.length) := by
  rw [enclosedPattern]
  cases afterChars? opening pieces with
  | none => rfl
  | some rest =>
    dsimp only [Option.bind_some, enclosedBody?]
    split
    · rfl
    next hlong =>
      rw [Option.map_map]
      refine congrArg (Option.map · _) (funext fun more => Prod.ext rfl ?_)
      simp only [Function.comp_apply, List.length_append, List.length_take]
      omega

/-- At most one piece is passed over without a look; if that is a mark, all of it is in the spelled text too. -/
theorem enclosedBody?_spelled {least : Nat} (hm : IsUnused m) (hmark : '\x00' ∉ mark) (hleast : least ≤ 1)
    (rest : List Piece) :
    enclosedBody? (m :: mark) least (spelled rest) = (enclosedBody? (m :: mark) least rest).map spelled := by
  have hbefore := beforeChars?_spelled hm hmark
  rcases Nat.le_one_iff_eq_zero_or_eq_one.mp hleast with rfl | rfl
  · have hbody : ∀ pieces, enclosedBody? (m :: mark) 0 pieces = beforeChars? (m :: mark) pieces := fun pieces =>
      Option.map_id'
    rw [hbody, hbody, hbefore]
  · cases rest with
    | nil => rfl
    | cons piece others =>
      cases piece with
      | char c => simp [enclosedBody?, hbefore, Function.comp_def]
      | held index =>
        obtain ⟨inner, hinner, hcons⟩ := spelled_held index
        have hpassed : Piece.char m ∉ inner := fun hmem =>
          char_not_mem_spelled_held hm (hinner ▸ List.mem_cons_of_mem _ hmem)
        rw [hcons]
        simp [enclosedBody?, beforeChars?_passed hpassed, hbefore, Function.comp_def, hcons]

theorem readsSpelled_enclosed {least : Nat} {k : Char} {closing : List Char} (hm : IsUnused m) (hmark : '\x00' ∉ mark)
    (hk : IsUnused k) (hclosing : '\x00' ∉ closing) (hleast : least ≤ 1) :
    ReadsSpelled (enclosedPattern (m :: mark) (k :: closing) least) spelled where
  start := ⟨m, hm, enclosed_startsAt m mark _ least⟩
  pos pieces body n h := pos_of_enclosed (List.cons_ne_nil m mark) h
  reads pieces := by
    have hnul : '\x00' ∉ m :: mark := fun h => (List.mem_cons.mp h).elim (fun heq => hm.1 heq.symm) hmark
    cases hfound : enclosedPattern (m :: mark) (k :: closing) least pieces with
    | none =>
      rw [enclosedPattern_eq_bind] at hfound ⊢
      rw [afterChars?_spelled hnul]
      cases hrest : afterChars? (m :: mark) pieces with
      | none => rfl
      | some rest =>
        rw [hrest, Option.bind_some, Option.map_eq_none_iff] at hfound
        rw [Option.map_some, Option.bind_some, enclosedBody?_spelled hk hclosing hleast, hfound]
        rfl
    | some found =>
      obtain ⟨body, n⟩ := found
      have htake := take_enclosed hfound
      rw [enclosedPattern_eq_bind] at hfound ⊢
      obtain ⟨rest, hrest, hbody⟩ := Option.bind_eq_some_iff.mp hfound
      obtain ⟨inner, hinner, heq⟩ := Option.map_eq_some_iff.mp hbody
      obtain ⟨rfl, rfl⟩ := Prod.mk.inj heq
      rw [afterChars?_spelled hnul, hrest, Option.map_some, Option.bind_some,
        enclosedBody?_spelled hk hclosing hleast, hinner, Option.map_some, Option.map_some, Option.map_some]
      simp only [htake, spelled_append, spelled_ofText, List.length_append, length_ofText]

theorem afterChars?_singleton (c : Char) (rest : List Piece) : afterChars? [c] (.char c :: rest) = some rest :=
  if_pos (beq_self_eq_true c)

theorem afterChars?_singleton_of_ne (h : ∀ rest, pieces ≠ .char m :: rest) : afterChars? [m] pieces = none := by
  cases pieces with
  | nil => rfl
  | cons piece rest => exact afterChars?_of_ne fun heq => h rest (heq ▸ rfl)

/-- No bracket, so that it can be part of a link's text. -/
def isNoBracket (piece : Piece) : Bool := !piece.isChar fun c => c == '[' || c == ']'

theorem linkPattern_eq_bind (pieces : List Piece) : linkPattern pieces = (afterChars? ['['] pieces).bind fun rest =>
    (afterChars? [']'] (rest.dropWhile isNoBracket)).bind fun _ =>
      if (rest.takeWhile isNoBracket).isEmpty then none
      else some (rest.takeWhile isNoBracket, (rest.takeWhile isNoBracket).length + 2) := by
  unfold linkPattern
  split
  next rest =>
    rw [afterChars?_singleton, Option.bind_some, ← drop_takeWhile]
    dsimp only
    split
    next behind hclosing =>
      have hclosing : rest.drop (rest.takeWhile isNoBracket).length = .char ']' :: behind := hclosing
      rw [hclosing, afterChars?_singleton]
      rfl
    next hno =>
      have hnone : afterChars? [']'] (rest.drop (rest.takeWhile isNoBracket).length) = none :=
        afterChars?_singleton_of_ne hno
      rw [hnone]
      rfl
  next hno =>
    rw [afterChars?_singleton_of_ne hno]
    rfl

theorem isEmpty_spelled (pieces : List Piece) : (spelled pieces).isEmpty = pieces.isEmpty := by
  cases pieces with
  | nil => rfl
  | cons piece rest =>
    cases piece with
    | char c => rfl
    | held index =>
      obtain ⟨inner, -, hcons⟩ := spelled_held index
      rw [hcons]
      rfl

theorem readsSpelled_link : ReadsSpelled linkPattern spelled where
  start := ⟨'[', by decide, link_startsAt⟩
  pos pieces body n h := by
    obtain ⟨-, rfl, -⟩ := linkPattern_eq_some h
    exact Nat.succ_pos _
  reads pieces := by
    have hsees : SeesMarks isNoBracket := seesMarks_not fun c hc => by
      rcases Bool.or_eq_true _ _ |>.mp hc with h | h <;> rw [beq_iff_eq.mp h] <;> decide
    rw [linkPattern_eq_bind, linkPattern_eq_bind, afterChars?_spelled (by decide)]
    cases hopening : afterChars? ['['] pieces with
    | none => rfl
    | some rest =>
      obtain ⟨htake, hdrop⟩ := hsees.span rest
      rw [Option.map_some, Option.bind_some, Option.bind_some, htake, hdrop, afterChars?_spelled (by decide),
        isEmpty_spelled]
      cases hclosing : afterChars? [']'] (rest.dropWhile isNoBracket) with
      | none => rfl
      | some behind =>
        rw [Option.map_some, Option.bind_some, Option.bind_some]
        split
        · rfl
        · have hrest := List.takeWhile_append_dropWhile (p := isNoBracket) (l := rest)
          rw [afterChars?_eq_some hclosing] at hrest
          generalize rest.takeWhile isNoBracket = body at hrest
          subst hrest
          obtain rfl := afterChars?_eq_some hopening
          have hcovered : (Piece.ofText ['['] ++ (body ++ (Piece.ofText [']'] ++ behind))).take (body.length + 2) =
              .char '[' :: (body ++ [.char ']']) := by
            show (Piece.char '[' :: (body ++ .char ']' :: behind)).take (body.length + 1 + 1) = _
            rw [List.take_succ_cons, List.append_cons, List.take_left' (by simp)]
          rw [Option.map_some]
          dsimp only
          rw [hcovered]
          simp

theorem styleName?_spelled (pieces : List Piece) :
    styleName? (spelled pieces) = (styleName? pieces).map fun (name, rest) => (spelled name, spelled rest) := by
  cases pieces with
  | nil => rfl
  | cons piece rest =>
    cases piece with
    | held index =>
      obtain ⟨inner, -, hcons⟩ := spelled_held index
      rw [hcons]
      rfl
    | char c =>
      rw [spelled_char]
      by_cases hc : c = '('
      · subst hc
        have hsees : SeesMarks fun piece => !piece.isChar (· == ')') := seesMarks_not fun c hc => by
          rw [beq_iff_eq.mp hc]
          decide
        obtain ⟨htake, hdrop⟩ := hsees.span rest
        rw [styleName?_sheet, styleName?_sheet, htake, hdrop]
        generalize rest.dropWhile (fun piece => !piece.isChar (· == ')')) = behind
        cases behind with
        | nil => rfl
        | cons next others =>
          cases next with
          | char d =>
            rw [spelled_char]
            by_cases hd : d = ')'
            · subst hd
              simp
            · simp [hd]
          | held index =>
            obtain ⟨inner, -, hcons⟩ := spelled_held index
            rw [hcons]
            rfl
      · have hsees : SeesMarks fun piece => piece.isChar fun d => isWordChar d || d == '-' :=
          seesMarks_isChar (by decide)
        obtain ⟨htake, hdrop⟩ := hsees.span rest
        rw [styleName?_word hc, styleName?_word hc, htake, hdrop]
        split <;> rfl

/-- A style, for what stands behind its opening. -/
def styleBody? (rest : List Piece) : Option ((List Piece × List Piece) × Nat) :=
  match styleName? rest with
  | some (name, .char blank :: content) =>
    if isBlank blank then
      (beforeChars? "/%".toList content).map fun content =>
        ((name, content), 2 + name.length + 1 + content.length + 2)
    else none
  | _ => none

theorem stylePattern_eq_bind (pieces : List Piece) :
    stylePattern pieces = (afterChars? "%%".toList pieces).bind styleBody? := by
  rw [stylePattern]
  cases afterChars? "%%".toList pieces <;> rfl

theorem styleBody?_spelled (rest : List Piece) : styleBody? (spelled rest) =
    (styleBody? rest).map fun ((name, content), _) =>
      ((spelled name, spelled content), 2 + (spelled name).length + 1 + (spelled content).length + 2) := by
  rw [styleBody?, styleBody?, styleName?_spelled]
  cases styleName? rest with
  | none => rfl
  | some found =>
    obtain ⟨name, behind⟩ := found
    rw [Option.map_some]
    cases behind with
    | nil => rfl
    | cons piece more =>
      cases piece with
      | held index =>
        obtain ⟨inner, -, hcons⟩ := spelled_held index
        have hnul : isBlank '\x00' = false := by decide
        dsimp only
        rw [hcons]
        dsimp only
        rw [hnul]
        rfl
      | char blank =>
        have hend : "/%".toList = ['/', '%'] := by decide
        dsimp only [spelled_char]
        split
        · rw [hend, beforeChars?_spelled (by decide) (by decide)]
          cases beforeChars? ['/', '%'] more <;> rfl
        · rfl

theorem readsSpelled_style : ReadsSpelled stylePattern fun (name, content) => (spelled name, spelled content) where
  start := ⟨'%', by decide, style_startsAt⟩
  pos pieces style n h := (stylePattern_eq_some h).2.1
  reads pieces := by
    have hspelled : stylePattern (spelled pieces) = (stylePattern pieces).map fun ((name, content), _) =>
        ((spelled name, spelled content), 2 + (spelled name).length + 1 + (spelled content).length + 2) := by
      rw [stylePattern_eq_bind, stylePattern_eq_bind, afterChars?_spelled (by decide)]
      cases afterChars? "%%".toList pieces with
      | none => rfl
      | some rest => exact styleBody?_spelled rest
    rw [hspelled]
    cases hfound : stylePattern pieces with
    | none => rfl
    | some found =>
      obtain ⟨⟨name, content⟩, n⟩ := found
      obtain ⟨-, -, blank, -, htake⟩ := stylePattern_eq_some hfound
      rw [Option.map_some, Option.map_some]
      refine congrArg some (Prod.ext rfl ?_)
      dsimp only
      rw [htake]
      simp only [spelled_append, spelled_ofText, spelled_char, spelled_nil, List.length_append, length_ofText]
      rfl

theorem lineBreakPattern_eq_bind (pieces : List Piece) : lineBreakPattern pieces =
    (afterChars? ['\\'] pieces).bind fun rest => (afterChars? ['\\'] rest).map fun rest =>
      ((), if (afterChars? ['\\'] rest).isSome then 3 else 2) := by
  cases pieces with
  | nil => rfl
  | cons piece rest =>
    by_cases hpiece : piece = .char '\\'
    · subst hpiece
      rw [lineBreakPattern_eq, afterChars?_singleton, Option.bind_some]
      cases afterChars? ['\\'] rest with
      | none => rfl
      | some more =>
        dsimp only [Option.map_some]
        cases afterChars? ['\\'] more <;> rfl
    · rw [lineBreak_startsAt piece rest hpiece, afterChars?_of_ne hpiece]
      rfl

theorem readsSpelled_lineBreak : ReadsSpelled lineBreakPattern fun hit => hit where
  start := ⟨'\\', by decide, lineBreak_startsAt⟩
  pos pieces a n h := (covers_lineBreak pieces a n h).1
  reads pieces := by
    have hspelled : ∀ pieces, afterChars? ['\\'] (spelled pieces) = (afterChars? ['\\'] pieces).map spelled :=
      afterChars?_spelled (by decide)
    rw [lineBreakPattern_eq_bind, lineBreakPattern_eq_bind, hspelled]
    cases hfirst : afterChars? ['\\'] pieces with
    | none => rfl
    | some rest =>
      rw [Option.map_some, Option.bind_some, Option.bind_some, hspelled]
      cases hsecond : afterChars? ['\\'] rest with
      | none => rfl
      | some more =>
        rw [Option.map_some, Option.map_some, Option.map_some, hspelled, Option.isSome_map]
        obtain rfl := afterChars?_eq_some hfirst
        obtain rfl := afterChars?_eq_some hsecond
        cases hthird : afterChars? ['\\'] more with
        | none => rfl
        | some others =>
          obtain rfl := afterChars?_eq_some hthird
          rfl

/-! ### The passes over emphasis and styles -/

theorem escapeChar_of_mem_held {c : Char} (h : Piece.char c ∈ spelled [.held index]) :
    Html.escapeChar c = [c] ∧ Html.escapeAttributeChar c = [c] := by
  have hne : ∀ m, IsUnused m → (c == m) = false := fun m hm => beq_eq_false_iff_ne.mpr fun heq =>
    char_not_mem_spelled_held hm (heq ▸ h)
  have hrunning : Html.escapeChar c = [c] := by
    rw [Html.escapeChar, hne _ (by decide), hne _ (by decide), hne _ (by decide)]
    rfl
  refine ⟨hrunning, ?_⟩
  rw [Html.escapeAttributeChar, hne _ (by decide), hne _ (by decide)]
  exact hrunning

/-- A form of characters that leaves NULs and digits as they are can be given to a line before its marks are spelled
out or after. -/
theorem spelled_formed {form : Char → List Char}
    (hform : ∀ index c, Piece.char c ∈ spelled [.held index] → form c = [c])
    (pieces : List Piece) :
    (spelled pieces).flatMap (fun piece => match piece with
      | .char c => Piece.ofText (form c)
      | .held index => [.held index]) =
    spelled (pieces.flatMap fun piece => match piece with
      | .char c => Piece.ofText (form c)
      | .held index => [.held index]) := by
  induction pieces with
  | nil => rfl
  | cons piece rest ih =>
    rw [spelled_cons, List.flatMap_append, ih, List.flatMap_cons, spelled_append]
    congr 1
    cases piece with
    | char c => simp
    | held index =>
      refine (List.flatMap_congr fun piece hpiece => ?_).trans (List.flatMap_singleton' _)
      obtain ⟨c, -, rfl⟩ := List.mem_map.mp hpiece
      exact congrArg Piece.ofText (hform index c hpiece)

theorem escapePieces_spelled (pieces : List Piece) : escapePieces (spelled pieces) = spelled (escapePieces pieces) :=
  spelled_formed (fun _ _ h => (escapeChar_of_mem_held h).1) pieces

theorem escapeAttributePieces_spelled (pieces : List Piece) :
    escapeAttributePieces (spelled pieces) = spelled (escapeAttributePieces pieces) :=
  spelled_formed (fun _ _ h => (escapeChar_of_mem_held h).2) pieces

theorem tagged_spelled (tag : String) (content : List Piece) :
    tagged tag (spelled content) = spelled (tagged tag content) := by
  simp only [tagged, spelled_append, spelled_ofText]

theorem spelled_of_marks (h : marks pieces = []) : spelled pieces = pieces := by
  induction pieces with
  | nil => rfl
  | cons piece rest ih =>
    rw [marks_cons, List.append_eq_nil_iff] at h
    cases piece with
    | char c => rw [spelled_char, ih h.2]
    | held index => cases h.1

/-- A text without a NUL is not the spelling of anything else. -/
theorem spelled_eq_ofText {text : List Char} (htext : '\x00' ∉ text) :
    spelled pieces = Piece.ofText text ↔ pieces = Piece.ofText text := by
  refine ⟨fun h => ?_, fun h => by rw [h, spelled_ofText]⟩
  have hmarks : marks pieces = [] := by
    by_contra hne
    refine htext ?_
    rw [← textOf_ofText text, ← h, textOf_spelled]
    exact (nul_mem_textOf pieces).mpr hne
  rw [← h, spelled_of_marks hmarks]

theorem openStyle_spelled {name : List Piece} (hname : IsStyleName name) (tag : String) :
    openStyle tag (spelled name) = spelled (openStyle tag name) := by
  cases hname with
  | sheet inner =>
    have hsheet : spelled (.char '(' :: inner ++ [.char ')']) = .char '(' :: spelled inner ++ [.char ')'] := by simp
    rw [hsheet, openStyle_sheet, openStyle_sheet, escapeAttributePieces_spelled]
    simp only [spelled_append, spelled_ofText]
  | @word c hc more =>
    rw [openStyle_of_ne tag hc, spelled_char, openStyle_of_ne tag hc, ← spelled_char, escapeAttributePieces_spelled]
    simp only [spelled_append, spelled_ofText]

theorem renderStyle_spelled {name : List Piece} (hname : IsStyleName name) (content : List Piece) :
    renderStyle (spelled name) (spelled content) = spelled (renderStyle name content) := by
  have htag : styleTag? (spelled name) = styleTag? name := by
    have heq : ∀ word : List Char, '\x00' ∉ word →
        (spelled name == Piece.ofText word) = (name == Piece.ofText word) := by
      intro word hword
      rw [Bool.eq_iff_iff, beq_iff_eq, beq_iff_eq]
      exact spelled_eq_ofText hword
    rw [styleTag?, styleTag?, heq _ (by decide), heq _ (by decide), heq _ (by decide)]
  rw [renderStyle, renderStyle, htag]
  cases styleTag? name with
  | some tag => exact tagged_spelled tag content
  | none =>
    dsimp only
    rw [openStyle_spelled hname, spelled_append, spelled_append, spelled_ofText]

theorem substitute_emphasis {m k : Char} (hm : IsUnused m) (hk : IsUnused k) (tag : String) (pieces : List Piece) :
    substitute (enclosedPattern [m, m] [k, k] 1) (tagged tag) (spelled pieces) =
      spelled (substitute (enclosedPattern [m, m] [k, k] 1) (tagged tag) pieces) := by
  have hreads : ReadsSpelled (enclosedPattern [m, m] [k, k] 1) spelled :=
    readsSpelled_enclosed hm (by simpa using hm.1.symm) hk (by simpa using hk.1.symm) (by decide)
  exact hreads.substitute_eq fun content _ => tagged_spelled tag content

/-- **The passes over emphasis and styles make the same of spelled marks.** -/
theorem withStyles_spelled (line : Line) : line.spelled.withStyles = line.withStyles.spelled := by
  obtain ⟨pieces, fragments⟩ := line
  have hstyles : ∀ pieces : List Piece, substitute stylePattern (fun (name, content) => renderStyle name content)
      (spelled pieces) = spelled (substitute stylePattern (fun (name, content) => renderStyle name content) pieces) :=
    fun pieces => readsSpelled_style.substitute_eq fun style hstyle => by
      obtain ⟨xs, n, hfound⟩ := exists_match_of_mem hstyle
      exact renderStyle_spelled (stylePattern_eq_some hfound).1 style.2
  have hbreaks : ∀ pieces : List Piece, substitute lineBreakPattern (fun _ => Piece.ofText "<br />".toList)
      (spelled pieces) = spelled (substitute lineBreakPattern (fun _ => Piece.ofText "<br />".toList) pieces) :=
    fun pieces => readsSpelled_lineBreak.substitute_eq fun _ _ => (spelled_ofText _).symm
  have hbold := substitute_emphasis (m := '_') (k := '_') (by decide) (by decide) "b"
  have hitalic := substitute_emphasis (m := '\'') (k := '\'') (by decide) (by decide) "i"
  have hcode := substitute_emphasis (m := '\x7b') (k := '\x7d') (by decide) (by decide) "code"
  have hmarks : "__".toList = ['_', '_'] ∧ "''".toList = ['\'', '\''] ∧ "\x7b\x7b".toList = ['\x7b', '\x7b'] ∧
      "\x7d\x7d".toList = ['\x7d', '\x7d'] := by decide
  show (Line.mk (spelled pieces) fragments).withStyles = _
  rw [withStyles_eq, withStyles_eq, hmarks.1, hmarks.2.1, hmarks.2.2.1, hmarks.2.2.2, escapePieces_spelled, hbold, hitalic,
    hcode, hstyles, hbreaks]
  rfl

end WikiMigration.Wiki

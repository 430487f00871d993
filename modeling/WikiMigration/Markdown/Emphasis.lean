/-
Emphasis.

One sign before and behind a text emphasises it, two make it strong, three do both, in several
orders.  Asterisks may stand within a word, underscores only around words.  There are five forms for
each of the two signs; within a form only the forms behind it in the list are looked for.  The strong
form stands a second time behind the emphasising one, as emphasised text may hold strong text.
-/
import WikiMigration.Markdown.Glyph

namespace WikiMigration.Markdown

/-- What a form found: the parts of its text, and the signs behind it. -/
structure EmphasisMatch where
  parts : List (List Glyph)
  behind : List Glyph

/-- A form of emphasis, given the signs before, last first, and those from the place on. -/
abbrev EmphasisForm := List Glyph → List Glyph → Option EmphasisMatch

/-- The signs up to the first place, and behind it, where the character stands `n` times. -/
def upToRun? (c : Char) (n : Nat) (gs : List Glyph) : Option (List Glyph × List Glyph) :=
  if startsWithRun c n gs then some ([], gs.drop n)
  else (splitWhere? (fun _ rest => startsWithRun c n rest) [] gs).map fun (inner, rest) =>
    (inner, rest.drop n)

/-- As `upToRun?`, with at least one sign before the place. -/
def someUpToRun? (c : Char) (n : Nat) (gs : List Glyph) : Option (List Glyph × List Glyph) :=
  (splitWhere? (fun _ rest => startsWithRun c n rest) [] gs).map fun (inner, rest) =>
    (inner, rest.drop n)

/-- Three signs, a text, `first` signs, a text, and as many signs as are left of three. -/
def tripleForm (c : Char) (first : Nat) : EmphasisForm := fun _ gs => do
  if !startsWithRun c 3 gs then none
  else
    let (inner, rest) ← someUpToRun? c first (gs.drop 3)
    let (outer, behind) ← upToRun? c (3 - first) rest
    return ⟨[inner, outer], behind⟩

/-- Two asterisks, a text, one, a text, and three. -/
def strongThenBothForm : EmphasisForm := fun _ gs => do
  if !startsWithRun '*' 2 gs || startsWithRun '*' 3 gs then none
  else
    let inner := (gs.drop 2).takeWhile fun g => !g.is '*'
    let rest := (gs.drop 2).drop inner.length
    if inner.isEmpty || !startsWithRun '*' 1 rest || startsWithRun '*' 2 rest then none
    else
      let (outer, behind) ← someUpToRun? '*' 3 (rest.drop 1)
      return ⟨[inner, outer], behind⟩

/-- Two asterisks around a text. -/
def strongForm : EmphasisForm := fun _ gs => do
  if !startsWithRun '*' 2 gs then none
  else
    let (inner, behind) ← someUpToRun? '*' 2 (gs.drop 2)
    return ⟨[inner], behind⟩

/-- One asterisk, not beside another, around a text. -/
def emphasisForm : EmphasisForm := fun _ gs => do
  if !startsWithRun '*' 1 gs || startsWithRun '*' 2 gs then none
  else
    let (inner, rest) ← splitWhere? (fun before rest =>
      !firstIs '*' before && firstIs '*' rest && !firstIs '*' (rest.drop 1)) [] (gs.drop 1)
    return ⟨[inner], rest.drop 1⟩

/-- The places where three underscores, at the end of a word, can close. -/
def closesTriple (rest : List Glyph) : Bool := startsWithRun '_' 3 rest && noWordFirst (rest.drop 3)

/-- Two underscores, a text, one at the start of a word, a text, and three. -/
def wordStrongThenBothForm : EmphasisForm := fun before gs => do
  if !noWordFirst before || !startsWithRun '_' 2 gs || startsWithRun '_' 3 gs then none
  else
    let outer? (rest : List Glyph) : Option (List Glyph × List Glyph) :=
      splitWhere? (fun _ rest => closesTriple rest) [] (rest.drop 1)
    let (inner, rest) ← splitWhere? (fun before rest =>
      noWordFirst before && firstIs '_' rest && !firstIs '_' (rest.drop 1) && (outer? rest).isSome)
      [] (gs.drop 2)
    let (outer, behind) ← outer? rest
    return ⟨[inner, outer], behind.drop 3⟩

/-- `n` underscores around words. -/
def wordForm (n : Nat) : EmphasisForm := fun before gs => do
  if !noWordFirst before || !startsWithRun '_' n gs || startsWithRun '_' (n + 1) gs then none
  else
    let (inner, rest) ← splitWhere? (fun before rest =>
      !firstIs '_' before && startsWithRun '_' n rest && noWordFirst (rest.drop n)) [] (gs.drop n)
    return ⟨[inner], rest.drop n⟩

/-- How the parts of a form are put into elements. -/
inductive EmphasisShape where
  /-- The one part in the element. -/
  | single (tag : String)
  /-- The first part in both elements, the second in the outer one behind. -/
  | innerFirst (outer inner : String)
  /-- The first part in the outer element, the second in both. -/
  | innerLast (outer inner : String)

/-- The forms with asterisks. -/
def asteriskForms : List (EmphasisForm × EmphasisShape) :=
  [(tripleForm '*' 1, .innerFirst "strong" "em"), (tripleForm '*' 2, .innerFirst "em" "strong"),
    (strongThenBothForm, .innerLast "strong" "em"), (strongForm, .single "strong"),
    (emphasisForm, .single "em"), (strongForm, .single "strong")]

/-- The forms with underscores. -/
def underscoreForms : List (EmphasisForm × EmphasisShape) :=
  [(tripleForm '_' 1, .innerFirst "strong" "em"), (tripleForm '_' 2, .innerFirst "em" "strong"),
    (wordStrongThenBothForm, .innerLast "strong" "em"), (wordForm 2, .single "strong"),
    (wordForm 1, .single "em"), (wordForm 2, .single "strong")]

/-- A text with emphasised pieces in it: what stands before the first, and each piece with what
stands behind it. -/
structure EmphasisText where
  lead : List Glyph
  pieces : List (Draft × List Glyph)

/-- The text with one more sign in front. -/
def EmphasisText.cons (g : Glyph) (t : EmphasisText) : EmphasisText := { t with lead := g :: t.lead }

/-- The text with one more piece in front. -/
def EmphasisText.piece (d : Draft) (t : EmphasisText) : EmphasisText := ⟨[], (d, t.lead) :: t.pieces⟩

mutual

/-- The draft for what a form found; `forms` are those behind it.  `fuel` bounds the number of
signs. -/
def emphasisDraft (fuel : Nat) (forms : List (EmphasisForm × EmphasisShape)) (shape : EmphasisShape)
    (parts : List (List Glyph)) : Draft :=
  match fuel with
  | 0 => .whole (.held (shownText parts.flatten))
  | fuel + 1 =>
    let read (gs : List Glyph) : EmphasisText := emphasisText fuel forms [] gs
    match shape, parts with
    | .single tag, part :: _ =>
      let t := read part
      .element tag [] t.lead t.pieces
    | .innerFirst outer inner, part :: more =>
      let t := read part
      let u := read more.flatten
      .element outer [] [] ((.element inner [] t.lead t.pieces, u.lead) :: u.pieces)
    | .innerLast outer inner, part :: more =>
      let t := read part
      let u := read more.flatten
      .element outer [] t.lead (t.pieces ++ [(.element inner [] u.lead u.pieces, [])])
    | _, [] => .element "em" [] [] []

/-- The signs with what the forms find in them; `before` are those passed, last first. -/
def emphasisText (fuel : Nat) (forms : List (EmphasisForm × EmphasisShape)) (before : List Glyph)
    (gs : List Glyph) : EmphasisText :=
  match fuel with
  | 0 => ⟨gs, []⟩
  | fuel + 1 =>
    match gs with
    | [] => ⟨[], []⟩
    | g :: rest =>
      match firstForm? forms before (g :: rest) with
      | some (found, shape, later) =>
        let covered := (g :: rest).length - found.behind.length
        (emphasisText fuel forms (((g :: rest).take covered).reverse ++ before) found.behind).piece
          (emphasisDraft fuel later shape found.parts)
      | none => (emphasisText fuel forms (g :: before) rest).cons g
where
  /-- The first form that matches, with the forms behind it. -/
  firstForm? (forms : List (EmphasisForm × EmphasisShape)) (before gs : List Glyph) :
      Option (EmphasisMatch × EmphasisShape × List (EmphasisForm × EmphasisShape)) :=
    match forms with
    | [] => none
    | (form, shape) :: later =>
      match form before gs with
      | some found => some (found, shape, later)
      | none => firstForm? later before gs

end

/-- Emphasis at the place, and the signs behind it. -/
def emphasis? (forms : List (EmphasisForm × EmphasisShape)) (before gs : List Glyph) :
    Option (Draft × List Glyph) :=
  match forms with
  | [] => none
  | (form, shape) :: later =>
    match form before gs with
    | some found => some (emphasisDraft (gs.length + 1) later shape found.parts, found.behind)
    | none => emphasis? later before gs

end WikiMigration.Markdown

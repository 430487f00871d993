/-
The markup within lines.

Rules are applied one after another, each to the whole of a text and as often as it finds something;
what a rule makes of a piece is one sign for the rules behind it, and the text within the piece is
read by the rules behind it.  A rule may also pass over a piece without changing it.  HTML within a
line is kept aside under its mark.
-/
import WikiMigration.Markdown.Emphasis
import WikiMigration.Markdown.LetterName
import WikiMigration.Markdown.LinkTarget

namespace WikiMigration.Markdown

open Text

/-- What reading lines leaves besides the lines. -/
structure LineState where
  /-- The pieces set aside. -/
  kept : List Kept
  /-- The notes that were referred to, with the number of times, in the order of first mention. -/
  mentions : List (List Char × Nat) := []

/-- Reading lines. -/
abbrev LineM := StateM LineState

/-- What a rule makes of a place. -/
inductive RuleResult where
  | none
  /-- The piece of that many signs stays as it is. -/
  | pass (covered : Nat)
  /-- The piece of that many signs becomes something else. -/
  | put (draft : Draft) (covered : Nat)

/-- A rule, given the signs before a place, last first, and those from it on. -/
abbrev LineRule := List Glyph → List Glyph → LineM RuleResult

/-- Sets HTML aside; the result is its mark. -/
def keepPiece (html : List Char) : LineM (List Char) := do
  let s ← get
  set { s with kept := s.kept ++ [Kept.html html] }
  return keptMark s.kept.length

/-! ### Code and literal characters -/

/-- The signs of code that a run of `n` backticks opens, up to the run that closes it. -/
def codeContent? (n : Nat) (gs : List Glyph) : Option (List Glyph) :=
  (splitWhere? (fun before rest =>
    !firstIs '`' before && startsWithRun '`' n rest && !startsWithRun '`' (n + 1) rest) [] gs).map
    Prod.fst

/-- The longest run of at most `n` backticks that opens code, with its content. -/
def codeRun? (gs : List Glyph) : Nat → Option (Nat × List Glyph)
  | 0 => none
  | n + 1 =>
    match codeContent? (n + 1) (gs.drop (n + 1)) with
    | some content => some (n + 1, content)
    | none => codeRun? gs n

/-- Code between backticks; backslashes in pairs before a backtick are literal. -/
def codeLineRule : LineRule := fun before gs => do
  if firstIs '\\' before then return .none
  else
    let backslashes := runLength '\\' gs
    if backslashes != 0 then
      if backslashes % 2 == 0 && firstIs '`' (gs.drop backslashes) then
        let content := (List.replicate (backslashes / 2) (literalMark '\\')).flatten
        return .put (.whole (.held content)) backslashes
      else return .none
    else
      match codeRun? gs (runLength '`' gs) with
      | some (n, content) =>
        let code := trim (shownText content)
        return .put (.whole (.element "code" [] (if code.isEmpty then [] else [.text true code])))
          (2 * n + content.length)
      | none => return .none

/-- The characters that a backslash makes literal. -/
def escapable : List Char := "\\`*_\x7b\x7d[]()>#+-.!|".toList

/-- A backslash makes the character behind it literal. -/
def escapeLineRule : LineRule := fun _ gs => do
  match gs with
  | g :: h :: _ =>
    if g.is '\\' then
      match h with
      | .char c =>
        if escapable.contains c then return .put (.whole (.held (literalMark c))) 2 else return .pass 2
      | _ => return .pass 2
    else return .none
  | _ => return .none

/-! ### Notes and links -/

/-- The name of the mention of a note that has been mentioned so many times before. -/
def mentionName (note : List Char) (before : Nat) : List Char :=
  "fnref".toList ++ (if before == 0 then [] else (Nat.repr (before + 1)).toList) ++ ':' :: note

/-- The name of a note. -/
def noteName (note : List Char) : List Char := "fn:".toList ++ note

/-- The mention of a note, which becomes its number. -/
def noteLineRule (defs : Definitions) : LineRule := fun _ gs => do
  if !(firstIs '[' gs && firstIs '^' (gs.drop 1)) then return .none
  else
    let inner := (gs.drop 2).takeWhile fun g => !g.is ']'
    match firstIs ']' (gs.drop (2 + inner.length)), plainChars? inner with
    | true, some note =>
      if (defs.notes.lookup note).isNone then return .none
      else
        let s ← get
        let before := (s.mentions.lookup note).getD 0
        let mentions := define note (before + 1) s.mentions
        set { s with mentions }
        let number := (mentions.findIdx fun m => m.1 == note) + 1
        let link := Node.element "a"
          [("href", '#' :: noteName note), ("class", "footnote-ref".toList)]
          [.plain (Nat.repr number).toList]
        return .put (.whole (.element "sup" [("id", mentionName note before)] [link]))
          (inner.length + 3)
    | _, _ => return .none

/-- What a link is made into: a link with its text, or an image. -/
inductive LinkSort where
  | link
  | image
  deriving DecidableEq, Repr

/-- The title as an attribute, if there is one. -/
def titleAttribute (title : Option (List Char)) : List (String × List Char) :=
  match title with
  | some title => [("title", title)]
  | none => []

/-- A link or an image. -/
def LinkSort.draft (sort : LinkSort) (target : Target) (text : List Glyph) : Draft :=
  match sort with
  | .link => .element "a" (("href", target.address) :: titleAttribute target.title) text []
  | .image =>
    .whole (.element "img" (("src", target.address) :: titleAttribute target.title
      ++ [("alt", shownText text)]) [])

/-- The signs in the brackets of a link or an image, how many signs they cover, and those behind. -/
def LinkSort.text? (sort : LinkSort) (before gs : List Glyph) :
    Option (List Glyph × Nat × List Glyph) :=
  match sort with
  | .link =>
    if firstIs '[' gs && !firstIs '!' before then
      (bracketed? 0 (gs.drop 1)).map fun (inner, rest) => (inner, inner.length + 2, rest)
    else none
  | .image =>
    if firstIs '!' gs && firstIs '[' (gs.drop 1) then
      (bracketed? 0 (gs.drop 2)).map fun (inner, rest) => (inner, inner.length + 3, rest)
    else none

/-- A link with its target behind it. -/
def targetLineRule (sort : LinkSort) : LineRule := fun before gs => do
  match sort.text? before gs with
  | some (inner, covered, rest) =>
    match linkTarget? rest with
    | some (target, n) => return .put (sort.draft target inner) (covered + n)
    | none => return .none
  | none => return .none

/-- A reference by a name; one that is not defined is passed over. -/
def byName (defs : Definitions) (sort : LinkSort) (name text : List Glyph) (covered : Nat) :
    RuleResult :=
  match plainChars? name with
  | some name =>
    match defs.references.lookup (collapseBlanks (lower name)) with
    | some target => .put (sort.draft target text) covered
    | none => .pass covered
  | none => .pass covered

/-- A link with the name of a reference behind it; empty brackets stand for its own text. -/
def referenceLineRule (defs : Definitions) (sort : LinkSort) : LineRule := fun before gs => do
  match sort.text? before gs with
  | some (inner, covered, rest) =>
    let blank := match rest with
      | g :: _ => if g.isSpace then 1 else 0
      | [] => 0
    let rest := rest.drop blank
    if firstIs '[' rest then
      let name := (rest.drop 1).takeWhile fun g => !g.is ']'
      if firstIs ']' (rest.drop (name.length + 1)) then
        return byName defs sort (if name.isEmpty then inner else name) inner
          (covered + blank + name.length + 2)
      else return .none
    else return .none
  | none => return .none

/-- A link whose text is the name of a reference. -/
def ownReferenceLineRule (defs : Definitions) (sort : LinkSort) : LineRule := fun before gs => do
  match sort.text? before gs with
  | some (inner, covered, _) => return byName defs sort inner inner covered
  | none => return .none

/-- Whether the address starts with a protocol that makes it a link by itself. -/
def isLinkAddress (text : List Char) : Bool :=
  let lowered := text.map Char.toLower
  ["http://", "https://", "ftp://", "ftps://"].any fun p => startsWith p.toList lowered

/-- The signs between angle brackets, none of which is one. -/
def angled? (gs : List Glyph) : Option (List Glyph) :=
  if firstIs '<' gs then
    let inner := (gs.drop 1).takeWhile fun g => !(g.is '<' || g.is '>')
    if firstIs '>' (gs.drop (inner.length + 1)) then some inner else none
  else none

/-- An address between angle brackets. -/
def addressLineRule : LineRule := fun _ gs => do
  match angled? gs with
  | some inner =>
    if isLinkAddress (inner.map fun g => (g.char?).getD ' ') then
      return .put (.whole (.element "a" [("href", shownText inner)] (nodesOf true inner)))
        (inner.length + 2)
    else return .none
  | none => return .none

/-- Whether the text between angle brackets is an address for mail. -/
def isMailAddress (inner : List Glyph) : Bool :=
  let host := (inner.reverse.takeWhile fun g => !g.is '@')
  let user := inner.take (inner.length - host.length - 1)
  !host.isEmpty && host.length < inner.length && !user.isEmpty
    && inner.all (fun g => !g.is ' ') && user.all fun g => !g.is '!'

/-- An address for mail between angle brackets. -/
def mailLineRule : LineRule := fun _ gs => do
  match angled? gs with
  | some inner =>
    if isMailAddress inner then
      let shown := shownText inner
      let address := (after? "mailto:".toList shown).getD shown
      let link := ("mailto:".toList ++ address).flatMap numberReference
      return .put (.whole (.element "a" [("href", link)] [.text true (address.flatMap letterReference)]))
        (inner.length + 2)
    else return .none
  | none => return .none

/-! ### Breaks and HTML -/

/-- Two spaces at the end of a line break it. -/
def breakLineRule : LineRule := fun _ gs => do
  if startsWithRun ' ' 2 gs && firstIs '\n' (gs.drop 2) then
    return .put (.whole (.element "br" [] [])) 3
  else return .none

/-- How many signs a tag or a comment covers. -/
def htmlLength? (gs : List Glyph) : Option Nat :=
  let comment : Option Nat :=
    if firstIs '<' gs && firstIs '!' (gs.drop 1) && startsWithRun '-' 2 (gs.drop 2) then
      let closes (rest : List Glyph) : Bool := startsWithRun '-' 2 rest && firstIs '>' (rest.drop 2)
      let opens (rest : List Glyph) : Bool :=
        firstIs '<' rest && firstIs '!' (rest.drop 1) && startsWithRun '-' 2 (rest.drop 2)
      let rest := gs.drop 4
      if closes rest then some 7
      else if opens rest then none
      else
        match splitWhere? (fun _ rest => closes rest || opens rest) [] rest with
        | some (inner, behind) => if closes behind then some (inner.length + 7) else none
        | none => none
    else none
  let tag : Option Nat :=
    if firstIs '<' gs then
      let slash := if firstIs '/' (gs.drop 1) then 1 else 0
      let name := (gs.drop (1 + slash)).takeWhile fun g =>
        !(g.is '<' || g.is '>' || g.is '@' || g.is ' ')
      let isLetter := match name with
        | .char c :: _ => c.isAlpha
        | _ => false
      let start := 1 + slash + name.length
      let more := if firstIs ' ' (gs.drop start) then
          ((gs.drop start).takeWhile fun g => !(g.is '<' || g.is '>')).length
        else 0
      if isLetter && firstIs '>' (gs.drop (start + more)) then some (start + more + 1) else none
    else none
  tag.orElse fun _ => comment

/-- The HTML that signs stand for: elements are written out, and literal characters get their
backslash back. -/
def htmlOf (gs : List Glyph) : List Char :=
  readLiterals (gs.flatMap fun g =>
    match g with
    | .char c => [c]
    | .held content => '\\' :: content
    | .element tag attributes content => (Node.element tag attributes content).write)

/-- A tag or a comment within a line is kept as it is. -/
def htmlLineRule : LineRule := fun _ gs => do
  match htmlLength? gs with
  | some n =>
    let m ← keepPiece (htmlOf (gs.take n))
    return .put (.whole (.held m)) n
  | none => return .none

/-- How many signs a reference to a character covers. -/
def referenceLength? (gs : List Glyph) : Option Nat :=
  let closed (start : Nat) (p : Char → Bool) : Option Nat :=
    let n := ((gs.drop start).takeWhile fun g => (g.char?.map p).getD false).length
    if n != 0 && firstIs ';' (gs.drop (start + n)) then some (start + n + 1) else none
  if !firstIs '&' gs then none
  else if firstIs '#' (gs.drop 1) then
    if firstIs 'x' (gs.drop 2) then
      closed 3 fun c => c.isDigit || ('a' ≤ c.toLower && c.toLower ≤ 'f')
    else closed 2 Char.isDigit
  else closed 1 Char.isAlphanum

/-- A reference to a character is kept as it is. -/
def referenceHtmlLineRule : LineRule := fun _ gs => do
  match referenceLength? gs with
  | some n =>
    let m ← keepPiece (htmlOf (gs.take n))
    return .put (.whole (.held m)) n
  | none => return .none

/-! ### Emphasis -/

/-- One to three asterisks or underscores that stand alone are no emphasis. -/
def aloneLineRule : LineRule := fun before gs => do
  match gs with
  | .char c :: _ =>
    if c == '*' || c == '_' then
      let n := runLength c gs
      let standsAlone := match before with
        | g :: _ => g.isSpace
        | [] => true
      let endsAlone := match gs.drop n with
        | g :: _ => g.isSpace
        | [] => true
      if n ≤ 3 && standsAlone && endsAlone then
        return .put (.whole (.held (List.replicate n c))) n
      else return .none
    else return .none
  | _ => return .none

/-- Emphasis with the forms of a sign. -/
def emphasisLineRule (c : Char) (forms : List (EmphasisForm × EmphasisShape)) : LineRule :=
  fun before gs => do
    if firstIs c gs then
      match emphasis? forms before gs with
      | some (draft, behind) => return .put draft (gs.length - behind.length)
      | none => return .none
    else return .none

/-! ### Applying the rules -/

/-- The rules, in the order in which they are applied. -/
def lineRules (defs : Definitions) : List LineRule :=
  [codeLineRule, escapeLineRule, noteLineRule defs, referenceLineRule defs .link,
    targetLineRule .link, targetLineRule .image, referenceLineRule defs .image,
    ownReferenceLineRule defs .link, ownReferenceLineRule defs .image, addressLineRule, mailLineRule,
    breakLineRule, htmlLineRule, referenceHtmlLineRule, aloneLineRule,
    emphasisLineRule '*' asteriskForms, emphasisLineRule '_' underscoreForms]

/-- A place where a rule found something: the signs before it, last first, what it is, and the signs
from it on. -/
abbrev Place := List Glyph × RuleResult × List Glyph

/-- The first place where the rule finds something. -/
def findPlace (rule : LineRule) (before : List Glyph) : List Glyph → LineM (Option Place)
  | [] => return none
  | g :: rest => do
    match ← rule before (g :: rest) with
    | .none => findPlace rule (g :: before) rest
    | result => return some (before, result, g :: rest)

mutual

/-- Applies the rules to the signs; the first one starts at a position.  `fuel` bounds the number of
pieces found. -/
def readLine (fuel : Nat) (rules : List LineRule) (start : Nat) (gs : List Glyph) :
    LineM (List Glyph) :=
  match fuel, rules with
  | 0, _ => return gs
  | _, [] => return gs
  | fuel + 1, rule :: later => do
    match ← findPlace rule (gs.take start).reverse (gs.drop start) with
    | some (before, .pass covered, _) =>
      readLine fuel (rule :: later) (before.length + max covered 1) gs
    | some (before, .put draft covered, rest) =>
      let g ← finishDraft fuel (rule :: later) later draft
      readLine fuel (rule :: later) 0 (before.reverse ++ g :: rest.drop covered)
    | _ => readLine fuel later 0 gs

/-- Reads the text within a draft by the rules behind the one that made it, and the text behind its
children by that one too. -/
def finishDraft (fuel : Nat) (rules later : List LineRule) (draft : Draft) : LineM Glyph :=
  match fuel, draft with
  | 0, _ => return .held []
  | _, .whole g => return g
  | fuel + 1, .element tag attributes text children => do
    let text ← readLine fuel later 0 text
    let inner ← finishAll fuel rules later children
    return .element tag attributes (nodesOf false (text ++ inner))

/-- Reads the children of a draft. -/
def finishAll (fuel : Nat) (rules later : List LineRule) (children : List (Draft × List Glyph)) :
    LineM (List Glyph) :=
  match fuel, children with
  | 0, _ => return []
  | _, [] => return []
  | fuel + 1, (draft, tail) :: rest => do
    let g ← finishDraft fuel rules later draft
    let tail ← readLine fuel rules 0 tail
    let more ← finishAll fuel rules later rest
    return g :: tail ++ more

end

/-- Reads the markup in a text. -/
def readMarkup (defs : Definitions) (text : List Char) : LineM (List Node) := do
  let gs ← readLine (40 * (text.length + 2)) (lineRules defs) 0 (glyphs text)
  return nodesOf false gs

end WikiMigration.Markdown

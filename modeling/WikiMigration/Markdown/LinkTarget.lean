/-
The target of a link.

Behind the brackets of a link stand, in parentheses, an address and perhaps a title in quotes.
Parentheses may be nested in the address.  From the first quote on the text may be a title, in which
parentheses are not counted; if no quote closes it, the link ends where its parentheses match as if
there were none.
-/
import WikiMigration.Markdown.Glyph

namespace WikiMigration.Markdown

open Text

/-- A quote in the text of a target: the sign, where the text within it starts, and where it has
last been closed. -/
structure QuoteSpan where
  sign : Char
  start : Nat
  stop : Option Nat := none

/-- What is known of a target while it is gone through. -/
structure TargetScan where
  /-- The parentheses open. -/
  depth : Nat := 1
  /-- Those that are open if the quote that was found is none. -/
  fallback : Nat := 1
  /-- Where the link ends in that case. -/
  fallbackEnd : Option Nat := none
  first : Option QuoteSpan := none
  second : Option QuoteSpan := none
  /-- The last sign that is no space. -/
  last : Option Char := none

/-- Whether the sign before closes the quote. -/
def QuoteSpan.isClosedBy (q : Option QuoteSpan) (last : Option Char) : Bool :=
  match q with
  | some q => q.stop.isSome && some q.sign == last
  | none => false

/-- The scan behind the character at a position. -/
def TargetScan.step (s : TargetScan) (position : Nat) (c : Char) : TargetScan :=
  let inQuote := s.first.isSome
  if c == '(' then
    if !inQuote then { s with depth := s.depth + 1 }
    else { s with fallback := s.fallback - 1 }
  else if c == ')' then
    if QuoteSpan.isClosedBy s.first s.last || QuoteSpan.isClosedBy s.second s.last then
      { s with depth := 0 }
    else if !inQuote then { s with depth := s.depth - 1 }
    else if 0 < s.fallback then
      { s with
        fallback := s.fallback - 1
        fallbackEnd := if s.fallback == 1 then some (position + 1) else s.fallbackEnd }
    else s
  else if c == '"' || c == '\'' then
    match s.first, s.second with
    | none, _ =>
      { s with fallback := s.depth, depth := 1, first := some { sign := c, start := position + 1 } }
    | some q, none =>
      if c == q.sign then { s with first := some { q with stop := some (position + 1) } }
      else { s with second := some { sign := c, start := position + 1 } }
    | some q, some r =>
      if c == q.sign then { s with first := some { q with stop := some (position + 1) } }
      else if c == r.sign then { s with second := some { r with stop := some (position + 1) } }
      else s
  else s

/-- An address and a title as they stand in the text. -/
structure RawTarget where
  address : List Glyph
  title : Option (List Glyph)
  /-- How many signs they cover, with the closing parenthesis. -/
  covered : Nat

/-- The signs between two positions. -/
def between (gs : List Glyph) (start stop : Nat) : List Glyph := (gs.take stop).drop start

/-- Goes through a target; `whole` is all of it, and the position that of the first of the signs
left. -/
def scanTarget (whole : List Glyph) (s : TargetScan) (position : Nat) :
    List Glyph → Option RawTarget
  | [] =>
    match s.fallback, s.fallbackEnd with
    | 0, some stop => some ⟨between whole 0 (stop - 1), none, stop⟩
    | _, _ => none
  | g :: rest =>
    let next := match g with
      | .char c => s.step position c
      | _ => s
    if next.depth == 0 then
      let titled (q : QuoteSpan) (stop : Nat) : RawTarget :=
        ⟨between whole 0 (q.start - 1), some (between whole q.start (stop - 1)), position + 1⟩
      match next.first, next.second with
      | some ⟨sign, start, some stop⟩, second =>
        if some sign == next.last then some (titled ⟨sign, start, some stop⟩ stop)
        else
          match second with
          | some ⟨sign, start, some stop⟩ =>
            if some sign == next.last then some (titled ⟨sign, start, some stop⟩ stop)
            else some ⟨between whole 0 position, none, position + 1⟩
          | _ => some ⟨between whole 0 position, none, position + 1⟩
      | _, some ⟨sign, start, some stop⟩ =>
        if some sign == next.last then some (titled ⟨sign, start, some stop⟩ stop)
        else some ⟨between whole 0 position, none, position + 1⟩
      | _, _ => some ⟨between whole 0 position, none, position + 1⟩
    else
      let next := match g with
        | .char ' ' => next
        | .char c => { next with last := some c }
        | _ => { next with last := none }
      scanTarget whole next (position + 1) rest

/-- A title in quotes at the front, blanks, and a closing parenthesis: the title, and how many signs
they cover. -/
def closingTitle? (gs : List Glyph) : Option (Option (List Glyph) × Nat) :=
  match gs with
  | g :: rest =>
    if g.is ')' then some (none, 1)
    else if g.is '"' || g.is '\'' then
      let same (h : Glyph) : Bool := h.char? == g.char?
      let inner := rest.takeWhile fun h => !same h
      match rest.drop inner.length with
      | _ :: more =>
        let blanks := (more.takeWhile Glyph.isSpace).length
        if firstIs ')' (more.drop blanks) then some (some inner, inner.length + blanks + 3) else none
      | [] => none
    else none
  | [] => none

/-- An address between angle brackets, and a title. -/
def bracketTarget? (gs : List Glyph) : Option RawTarget :=
  match gs with
  | g :: rest =>
    if g.is '<' then
      let inner := rest.takeWhile fun h => !(h.is '<' || h.is '>')
      let behind := rest.drop inner.length
      if firstIs '>' behind then
        let blanks := ((behind.drop 1).takeWhile Glyph.isSpace).length
        let start := inner.length + 2 + blanks
        (closingTitle? (gs.drop start)).map fun (title, n) => ⟨inner, title, start + n⟩
      else none
    else none
  | [] => none

/-- The text without the quotes around it. -/
def withoutQuotes (text : List Char) : List Char :=
  match text with
  | c :: rest =>
    if c == '"' || c == '\'' then
      match rest.reverse with
      | d :: inner => if d == c then inner.reverse else text
      | [] => []
    else text
  | [] => []

/-- The target in parentheses at the front, and how many signs it covers. -/
def linkTarget? (gs : List Glyph) : Option (Target × Nat) :=
  match gs with
  | g :: rest =>
    if g.is '(' then
      let blanks := (rest.takeWhile Glyph.isSpace).length
      let inner := rest.drop blanks
      let found := (bracketTarget? inner).orElse fun _ => scanTarget inner {} 0 inner
      found.map fun raw =>
        let title := raw.title.map fun title =>
          (withoutQuotes (trim (shownText title))).map fun c => if isBlank c then ' ' else c
        (⟨trim (shownText raw.address), title⟩, blanks + 1 + raw.covered)
    else none
  | [] => none

/-- The signs up to the bracket that closes the one before them, and those behind it. -/
def bracketed? (depth : Nat) : List Glyph → Option (List Glyph × List Glyph)
  | [] => none
  | g :: rest =>
    if g.is ']' then
      match depth with
      | 0 => some ([], rest)
      | d + 1 => (bracketed? d rest).map fun (inner, behind) => (g :: inner, behind)
    else
      (bracketed? (if g.is '[' then depth + 1 else depth) rest).map fun (inner, behind) =>
        (g :: inner, behind)

end WikiMigration.Markdown

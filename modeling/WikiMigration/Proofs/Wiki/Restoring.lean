/-
What is held of a line shows in the page.

Where no fragment of a line is made of something with a mark in it, every fragment is in the HTML of the
page, and no NUL is.  The condition cannot be left out: a literal character within a plugin is written as
its mark, between two NULs, and so is every other mark that a later pass comes upon.
-/
import WikiMigration.Proofs.Url.Percent
import WikiMigration.Proofs.Wiki.Marks
import WikiMigration.Proofs.Wiki.Reading

namespace WikiMigration.Wiki

open Text

variable {line : Line} {context : Context} {text fragment : List Char} {piece : Piece}

/-! ### Lines in work -/

/-- The fragment stands in the line: it is what one of the marks gives way to. -/
def Line.Shows (line : Line) (fragment : List Char) : Prop :=
  ∃ index, Piece.held index ∈ line.pieces ∧ line.fragments[index]? = some fragment

/-- Every mark of the line has a fragment. -/
def Line.Numbered (line : Line) : Prop :=
  ∀ index, Piece.held index ∈ line.pieces → index < line.fragments.length

section Hold

variable {α : Type} {pattern : Pattern Piece α} {inside : α → List Piece} {write : α → List Char}

theorem fragments_hold (line : Line) :
    (line.hold pattern write).fragments = line.fragments ++ (foundIn pattern line.pieces).map write := by
  rw [Line.hold]
  exact congrArg (line.fragments ++ ·) (fragments_holdParts _ _)

theorem mem_hold : piece ∈ (line.hold pattern write).pieces ↔ Part.item piece ∈ parts pattern line.pieces ∨
    ∃ k < (foundIn pattern line.pieces).length, piece = .held (line.fragments.length + k) := mem_holdParts

/-- What a pattern finds stands in the line. -/
theorem shows_hold {a : α} (ha : a ∈ foundIn pattern line.pieces) :
    (line.hold pattern write).Shows (write a) := by
  obtain ⟨k, hk, rfl⟩ := List.mem_iff_getElem.mp ha
  refine ⟨line.fragments.length + k, mem_hold.mpr (Or.inr ⟨k, hk, rfl⟩), ?_⟩
  rw [fragments_hold, List.getElem?_append_right (by omega), Nat.add_sub_cancel_left,
    List.getElem?_map, List.getElem?_eq_getElem hk]
  rfl

/-- What stood in it still does, if no mark is inside of what is found. -/
theorem Line.Shows.hold (h : line.Shows fragment) (covers : Covers pattern inside)
    (flat : ∀ a ∈ foundIn pattern line.pieces, inside a = []) :
    (line.hold pattern write).Shows fragment := by
  obtain ⟨index, hmark, hfragment⟩ := h
  refine ⟨index, mem_hold.mpr (Or.inl (item_mem_parts covers flat (mem_marks.mpr ⟨hmark, rfl⟩))), ?_⟩
  rw [fragments_hold, List.getElem?_append_left (List.getElem?_eq_some_iff.mp hfragment).1, hfragment]

theorem Line.Numbered.hold (h : line.Numbered) : (line.hold pattern write).Numbered := by
  intro index hmark
  rw [fragments_hold, List.length_append, List.length_map]
  rcases mem_hold.mp hmark with hitem | ⟨k, hk, heq⟩
  · exact Nat.lt_add_right _ (h index (mem_of_item_mem hitem))
  · obtain rfl := Piece.held.inj heq
    omega

theorem char_mem_hold {c : Char} (h : Piece.char c ∈ (line.hold pattern write).pieces) :
    Piece.char c ∈ line.pieces := by
  rcases mem_hold.mp h with hitem | ⟨k, -, heq⟩
  · exact mem_of_item_mem hitem
  · cases heq

end Hold

section HoldLiteral

variable {literal : List Char}

theorem mem_holdLiteral : piece ∈ (line.holdLiteral literal fragment).pieces ↔
    Part.item piece ∈ parts (occurrence literal) line.pieces ∨
      foundIn (occurrence literal) line.pieces ≠ [] ∧ piece = .held line.fragments.length := by
  refine mem_substitute.trans (or_congr_right ?_)
  constructor
  · rintro ⟨a, ha, heq⟩
    exact ⟨List.ne_nil_of_mem ha, List.mem_singleton.mp heq⟩
  · rintro ⟨hne, rfl⟩
    obtain ⟨a, ha⟩ := List.exists_mem_of_ne_nil _ hne
    exact ⟨a, ha, List.mem_singleton_self _⟩

/-- A text that is held stands in the line if it occurs there. -/
theorem shows_holdLiteral (h : foundIn (occurrence literal) line.pieces ≠ []) :
    (line.holdLiteral literal fragment).Shows fragment :=
  ⟨_, mem_holdLiteral.mpr (Or.inr ⟨h, rfl⟩), List.getElem?_concat_length⟩

theorem Line.Shows.holdLiteral {other : List Char} (h : line.Shows other) (hne : literal ≠ [])
    (hliteral : '\x00' ∉ literal) : (line.holdLiteral literal fragment).Shows other := by
  obtain ⟨index, hmark, hother⟩ := h
  have hitem := item_mem_parts (covers_occurrence hne hliteral) (fun _ _ => rfl)
    (mem_marks.mpr ⟨hmark, rfl⟩)
  refine ⟨index, mem_holdLiteral.mpr (Or.inl hitem), ?_⟩
  exact (List.getElem?_append_left (List.getElem?_eq_some_iff.mp hother).1).trans hother

theorem Line.Numbered.holdLiteral (h : line.Numbered) : (line.holdLiteral literal fragment).Numbered := by
  intro index hmark
  have hlength : (line.holdLiteral literal fragment).fragments.length = line.fragments.length + 1 :=
    List.length_append
  rw [hlength]
  rcases mem_holdLiteral.mp hmark with hitem | ⟨-, heq⟩
  · exact Nat.lt_succ_of_lt (h index (mem_of_item_mem hitem))
  · obtain rfl := Piece.held.inj heq
    omega

theorem char_mem_holdLiteral {c : Char} (h : Piece.char c ∈ (line.holdLiteral literal fragment).pieces) :
    Piece.char c ∈ line.pieces := by
  rcases mem_holdLiteral.mp h with hitem | ⟨-, heq⟩
  · exact mem_of_item_mem hitem
  · cases heq

end HoldLiteral

/-! ### Restored lines -/

/-- A mark of the line is one when its styles are written, and the other way round. -/
theorem mem_withStyles (h : piece.isMark = true) : piece ∈ line.withStyles.pieces ↔ piece ∈ line.pieces := by
  have hmarks := marks_withStyles line
  constructor
  · exact fun hpiece => (mem_marks.mp (hmarks ▸ mem_marks.mpr ⟨hpiece, h⟩)).1
  · exact fun hpiece => (mem_marks.mp (hmarks.symm ▸ mem_marks.mpr ⟨hpiece, h⟩)).1

/-- What stands in a line is in its text. -/
theorem Line.Shows.infix_restore (h : line.Shows fragment) : fragment <:+: line.withStyles.restore := by
  obtain ⟨index, hmark, hfragment⟩ := h
  obtain ⟨front, behind, hpieces⟩ := List.append_of_mem ((mem_withStyles rfl).mpr hmark)
  rw [Line.restore, hpieces, List.flatMap_append, List.flatMap_cons, fragments_withStyles]
  dsimp only
  rw [hfragment]
  exact ⟨_, _, List.append_assoc ..⟩

/-- A NUL in the text of a line is in one of its fragments. -/
theorem nul_mem_restore (hplain : Piece.char '\x00' ∉ line.pieces) :
    '\x00' ∈ line.withStyles.restore ↔ ∃ fragment, line.Shows fragment ∧ '\x00' ∈ fragment := by
  constructor
  · intro h
    obtain ⟨piece, hpiece, hmem⟩ := List.mem_flatMap.mp h
    cases piece with
    | char c =>
      obtain rfl := List.mem_singleton.mp hmem
      exact absurd ((mem_withStyles rfl).mp hpiece) hplain
    | held index =>
      rw [fragments_withStyles] at hmem
      dsimp only at hmem
      cases hfragment : line.fragments[index]? with
      | none =>
        rw [hfragment] at hmem
        cases hmem
      | some fragment =>
        rw [hfragment] at hmem
        exact ⟨fragment, ⟨index, (mem_withStyles rfl).mp hpiece, hfragment⟩, hmem⟩
  · rintro ⟨fragment, hshows, hmem⟩
    exact hshows.infix_restore.subset hmem

/-! ### What a line holds -/

/-- A line with its literal characters held apart. -/
def literalsHeld (text : List Char) : Line := (Line.mk (Piece.ofText text) []).hold literalPattern fun c => [c]

/-- A line with its literal brackets held apart too. -/
def bracketsHeld (text : List Char) : Line := (literalsHeld text).holdLiteral "[[".toList ['[']

/-- Preformatted text between three braces. -/
def codePattern : Pattern Piece (List Piece) :=
  enclosedPattern "\x7b\x7b\x7b".toList "\x7d\x7d\x7d".toList 0

/-- A line with its plugins held apart too. -/
def pluginsHeld (text : List Char) : Line := (Line.withLiteralsHeld text).hold pluginPattern renderPlugin

/-- A line with all held apart that is to be. -/
def allHeld (context : Context) (text : List Char) : Line :=
  (Line.withLiteralsHeld text).withLinksHeld context

theorem withLiteralsHeld_eq (text : List Char) :
    Line.withLiteralsHeld text = (bracketsHeld text).hold codePattern renderCode := rfl

theorem allHeld_eq (context : Context) (text : List Char) : allHeld context text =
    (pluginsHeld text).hold linkPattern fun body => renderLink context (Piece.textOf body) := rfl

/-- The literal characters of a line. -/
def literalsIn (text : List Char) : List Char := foundIn literalPattern (Piece.ofText text)

/-- The literal brackets of a line. -/
def bracketsIn (text : List Char) : List Unit := foundIn (occurrence "[[".toList) (literalsHeld text).pieces

/-- What the preformatted texts of a line are made of. -/
def codesIn (text : List Char) : List (List Piece) := foundIn codePattern (bracketsHeld text).pieces

/-- What the plugins of a line are made of. -/
def pluginsIn (text : List Char) : List (List Piece) :=
  foundIn pluginPattern (Line.withLiteralsHeld text).pieces

/-- What the links of a line are made of. -/
def linksIn (text : List Char) : List (List Piece) := foundIn linkPattern (pluginsHeld text).pieces

/-- All that is held of a line, as it is written. -/
def heldIn (context : Context) (text : List Char) : List (List Char) :=
  (literalsIn text).map (fun c => [c]) ++ (bracketsIn text).map (fun _ => ['['])
    ++ (codesIn text).map renderCode ++ (pluginsIn text).map renderPlugin
    ++ (linksIn text).map fun body => renderLink context (Piece.textOf body)

/-- No mark is inside of what a line holds. -/
structure Flat (text : List Char) : Prop where
  codes : ∀ body ∈ codesIn text, marks body = []
  plugins : ∀ body ∈ pluginsIn text, marks body = []
  links : ∀ body ∈ linksIn text, marks body = []

instance (text : List Char) : Decidable (Flat text) :=
  decidable_of_iff ((∀ body ∈ codesIn text, marks body = []) ∧ (∀ body ∈ pluginsIn text, marks body = []) ∧
    ∀ body ∈ linksIn text, marks body = [])
    ⟨fun ⟨codes, plugins, links⟩ => ⟨codes, plugins, links⟩, fun ⟨codes, plugins, links⟩ =>
      ⟨codes, plugins, links⟩⟩

theorem covers_code : Covers codePattern marks := covers_enclosed (by decide) (by decide) (by decide)

theorem covers_plugin : Covers pluginPattern marks := covers_enclosed (by decide) (by decide) (by decide)

theorem allHeld_numbered (context : Context) (text : List Char) : (allHeld context text).Numbered := by
  have hstart : (Line.mk (Piece.ofText text) []).Numbered := by
    intro index hmark
    obtain ⟨c, -, heq⟩ := List.mem_map.mp hmark
    cases heq
  exact hstart.hold.holdLiteral.hold.hold.hold

theorem nul_not_mem_allHeld (htext : '\x00' ∉ text) : Piece.char '\x00' ∉ (allHeld context text).pieces := by
  intro h
  have hstart := char_mem_hold (char_mem_holdLiteral (char_mem_hold (char_mem_hold (char_mem_hold h))))
  obtain ⟨c, hc, heq⟩ := List.mem_map.mp hstart
  obtain rfl := Piece.char.inj heq
  exact htext hc

/-- A plugin shows, if no link has a mark inside. -/
theorem shows_plugin {body : List Piece} (links : ∀ body ∈ linksIn text, marks body = [])
    (h : body ∈ pluginsIn text) : (allHeld context text).Shows (renderPlugin body) :=
  (shows_hold h).hold covers_link links

/-- Preformatted text shows, if no plugin and no link has a mark inside. -/
theorem shows_code {body : List Piece} (plugins : ∀ body ∈ pluginsIn text, marks body = [])
    (links : ∀ body ∈ linksIn text, marks body = []) (h : body ∈ codesIn text) :
    (allHeld context text).Shows (renderCode body) :=
  ((shows_hold h).hold covers_plugin plugins).hold covers_link links

/-- All that a flat line holds shows. -/
theorem Flat.shows (h : Flat text) (hfragment : fragment ∈ heldIn context text) :
    (allHeld context text).Shows fragment := by
  have later : (bracketsHeld text).Shows fragment → (allHeld context text).Shows fragment := fun hshows =>
    ((hshows.hold covers_code h.codes).hold covers_plugin h.plugins).hold covers_link h.links
  simp only [heldIn, List.mem_append, List.mem_map] at hfragment
  rcases hfragment with (((⟨c, hc, rfl⟩ | ⟨_, hbracket, rfl⟩) | ⟨body, hbody, rfl⟩) | ⟨body, hbody, rfl⟩) |
    ⟨body, hbody, rfl⟩
  · have hliteral : (literalsHeld text).Shows [c] := shows_hold hc
    exact later (hliteral.holdLiteral (by decide) (by decide))
  · exact later (shows_holdLiteral (List.ne_nil_of_mem hbracket))
  · exact shows_code h.plugins h.links hbody
  · exact shows_plugin h.links hbody
  · exact shows_hold hbody

/-! ### What is written with a NUL -/

theorem nul_not_mem_append {xs ys : List Char} (hxs : '\x00' ∉ xs) (hys : '\x00' ∉ ys) :
    '\x00' ∉ xs ++ ys := fun h => (List.mem_append.mp h).elim hxs hys

theorem nul_mem_flatMap {form : Char → List Char} (hform : ∀ c, '\x00' ∈ form c ↔ c = '\x00')
    (text : List Char) : '\x00' ∈ text.flatMap form ↔ '\x00' ∈ text := by
  rw [List.mem_flatMap]
  constructor
  · rintro ⟨c, hc, hmem⟩
    exact (hform c).mp hmem ▸ hc
  · exact fun h => ⟨_, h, (hform _).mpr rfl⟩

theorem nul_mem_form {form : Char → List Char} (hnul : '\x00' ∈ form '\x00')
    (hform : ∀ c, form c ∈ entities ∨ form c = [c]) (c : Char) : '\x00' ∈ form c ↔ c = '\x00' := by
  have hentity : ∀ entity ∈ entities, '\x00' ∉ entity := by decide
  refine ⟨fun h => ?_, fun h => h ▸ hnul⟩
  rcases hform c with hmem | heq
  · exact absurd h (hentity _ hmem)
  · rw [heq, List.mem_singleton] at h
    exact h.symm

theorem nul_mem_escape (text : List Char) : '\x00' ∈ Html.escape text ↔ '\x00' ∈ text :=
  nul_mem_flatMap (nul_mem_form (by decide) fun c => (escapeChar_cases c).imp_right And.left) text

theorem nul_mem_escapeAttribute (text : List Char) :
    '\x00' ∈ Html.escapeAttribute text ↔ '\x00' ∈ text :=
  nul_mem_flatMap (nul_mem_form (by decide) fun c => (escapeAttributeChar_cases c).imp_right And.left) text

theorem nul_not_mem_encodeChar (c : Char) : '\x00' ∉ Url.encodeChar c := by
  intro h
  rcases Url.class_of_mem_encodeChar h with hd | heq
  · exact Url.ne_of_isUnreserved hd (by decide) rfl
  · exact absurd heq (by decide)

theorem nul_not_mem_encodePath (path : List Char) : '\x00' ∉ Url.encodePath path := by
  intro h
  obtain ⟨c, -, hd⟩ := List.mem_flatMap.mp h
  split at hd
  next hc =>
    obtain rfl := List.mem_singleton.mp hd
    exact absurd hc (by decide)
  next => exact nul_not_mem_encodeChar c hd

theorem nul_mem_between {opening closing xs : List Char} (hopening : '\x00' ∉ opening)
    (hclosing : '\x00' ∉ closing) : '\x00' ∈ opening ++ xs ++ closing ↔ '\x00' ∈ xs := by
  rw [List.mem_append, List.mem_append, or_iff_left hclosing, or_iff_right hopening]

/-- Preformatted text and plugins are written with a NUL if they have a mark inside. -/
theorem nul_mem_renderCode (body : List Piece) : '\x00' ∈ renderCode body ↔ marks body ≠ [] :=
  (nul_mem_between (by decide) (by decide)).trans ((nul_mem_escape _).trans (nul_mem_textOf body))

theorem nul_mem_renderPlugin (body : List Piece) : '\x00' ∈ renderPlugin body ↔ marks body ≠ [] :=
  (nul_mem_between (by decide) (by decide)).trans ((nul_mem_escape _).trans (nul_mem_textOf body))

section Links

variable {target body : List Char}

theorem not_mem_linkParts {c : Char} (h : c ∉ body) : c ∉ (linkParts body).1 ∧ c ∉ (linkParts body).2 := by
  unfold linkParts
  split
  next label target rest hsplit =>
    have hparts : ∀ part ∈ splitAt '|' body, c ∉ trim part := fun part hpart hmem =>
      h (mem_of_mem_splitAt hpart (mem_of_mem_trim hmem))
    rw [hsplit] at hparts
    have hlabel := hparts label (by simp)
    have htarget := hparts target (by simp)
    refine ⟨?_, htarget⟩
    dsimp only
    split
    · exact htarget
    · exact hlabel
  next => exact ⟨fun hmem => h (mem_of_mem_trim hmem), fun hmem => h (mem_of_mem_trim hmem)⟩

/-- The label and the target of a link without a bar. -/
theorem linkParts_of_not_mem (h : '|' ∉ body) : linkParts body = (trim body, trim body) := by
  rw [linkParts, splitAt_of_not_mem h]

/-- The label and the target of a link with a bar: without a label the target stands in for it. -/
theorem linkParts_named {label : List Char} (hlabel : '|' ∉ label) (htarget : '|' ∉ target) :
    linkParts (label ++ '|' :: target) = (if (trim label).isEmpty then trim target else trim label, trim target) := by
  rw [linkParts, splitAt_append hlabel, splitAt_of_not_mem htarget]

/-- The label of a link has no bar in it. -/
theorem bar_not_mem_linkParts (body : List Char) : '|' ∉ (linkParts body).1 := by
  by_cases hbar : '|' ∈ body
  · have hparts : ∀ part ∈ splitAt '|' body, '|' ∉ trim part := fun part hpart hmem =>
      not_mem_of_mem_splitAt hpart (mem_of_mem_trim hmem)
    obtain ⟨label, target, rfl, hlabel⟩ := List.eq_append_cons_of_mem hbar
    obtain ⟨first, others, hsplit⟩ := List.exists_cons_of_ne_nil (splitAt_ne_nil '|' target)
    rw [splitAt_append hlabel, hsplit] at hparts
    rw [linkParts, splitAt_append hlabel, hsplit]
    dsimp only
    split
    · exact hparts first (by simp)
    · exact hparts label (by simp)
  · rw [linkParts_of_not_mem hbar]
    exact fun hmem => hbar (mem_of_mem_trim hmem)

theorem nul_not_mem_pageAddress (h : '\x00' ∉ target) : '\x00' ∉ pageAddress context target := by
  have hsection : '\x00' ∉ (target.dropWhile (· != '#')).drop 1 := fun hmem =>
    h ((List.dropWhile_sublist _).subset (List.mem_of_mem_drop hmem))
  unfold pageAddress
  split
  · exact h
  · refine nul_not_mem_append (nul_not_mem_append (by decide) (Url.not_mem_encodeQuery (by decide) _)) ?_
    split
    · exact List.not_mem_nil
    · exact @nul_not_mem_append ['#'] _ (by decide) hsection

theorem nul_not_mem_attachmentAddress (h : '\x00' ∉ target) :
    '\x00' ∉ attachmentAddress context target := by
  unfold attachmentAddress
  split
  · exact h
  · exact nul_not_mem_append (by decide) (nul_not_mem_encodePath _)

theorem nul_not_mem_footnoteName (hpage : '\x00' ∉ context.page) (h : '\x00' ∉ target) :
    '\x00' ∉ footnoteName context target :=
  nul_not_mem_append (nul_not_mem_append (by decide) ((nul_mem_escapeAttribute _).not.mpr hpage))
    (@nul_not_mem_append ['-'] _ (by decide) h)

theorem footnoteMark?_eq_some {number : List Char} (h : footnoteMark? target = some number) :
    target = '#' :: number := by
  unfold footnoteMark? at h
  split at h
  · split at h
    · rw [Option.some.inj h]
    · cases h
  · cases h

theorem nul_not_mem_anchor {kind : String} {address label : List Char} (hkind : '\x00' ∉ kind.toList)
    (haddress : '\x00' ∉ address) (hlabel : '\x00' ∉ label) : '\x00' ∉ anchor kind address label := by
  have hquoted := (nul_mem_escapeAttribute address).not.mpr haddress
  exact nul_not_mem_append (nul_not_mem_append (nul_not_mem_append (nul_not_mem_append (nul_not_mem_append
    (nul_not_mem_append (by decide) hkind) (by decide)) hquoted) (by decide)) hlabel) (by decide)

theorem nul_not_mem_inlineImage {address description : List Char} (haddress : '\x00' ∉ address)
    (hdescription : '\x00' ∉ description) : '\x00' ∉ inlineImage address description := by
  have hsource := (nul_mem_escapeAttribute address).not.mpr haddress
  have htext := (nul_mem_escapeAttribute description).not.mpr hdescription
  exact nul_not_mem_append (nul_not_mem_append (nul_not_mem_append (nul_not_mem_append (by decide) hsource)
    (by decide)) htext) (by decide)

/-- A link is written without a NUL, if none is in its text or in the name of the page. -/
theorem nul_not_mem_renderLink (hpage : '\x00' ∉ context.page) (hbody : '\x00' ∉ body) :
    '\x00' ∉ renderLink context body := by
  obtain ⟨htext, htarget⟩ := not_mem_linkParts hbody
  have hlabel : '\x00' ∉ Html.escape (linkParts body).1 := (nul_mem_escape _).not.mpr htext
  unfold renderLink
  dsimp only
  split
  next number hnumber =>
    have hnul : '\x00' ∉ number := fun hmem =>
      htarget (footnoteMark?_eq_some hnumber ▸ List.mem_cons_of_mem _ hmem)
    have hname := nul_not_mem_footnoteName hpage hnul
    exact nul_not_mem_append (nul_not_mem_append (nul_not_mem_append
      (nul_not_mem_append (by decide) hname) (by decide)) hnul) (by decide)
  next =>
    split
    next =>
      have hname := nul_not_mem_footnoteName hpage htarget
      exact nul_not_mem_append (nul_not_mem_append (nul_not_mem_append
        (nul_not_mem_append (by decide) hname) (by decide)) hlabel) (by decide)
    split
    next =>
      split
      · exact nul_not_mem_inlineImage htarget htarget
      · exact nul_not_mem_anchor (by decide) htarget hlabel
    split
    next => exact nul_not_mem_anchor (by decide) htarget hlabel
    split
    next =>
      have haddress : '\x00' ∉ attachmentAddress context (linkParts body).2 :=
        nul_not_mem_attachmentAddress htarget
      split
      · exact nul_not_mem_inlineImage haddress htarget
      · exact nul_not_mem_anchor (by decide) haddress hlabel
    next => exact nul_not_mem_anchor (by decide) (nul_not_mem_pageAddress htarget) hlabel

end Links

/-! ### Lines -/

theorem fragments_allHeld (context : Context) (text : List Char) : (allHeld context text).fragments =
    (literalsIn text).map (fun c => [c]) ++ [['[']] ++ (codesIn text).map renderCode
      ++ (pluginsIn text).map renderPlugin
      ++ (linksIn text).map fun body => renderLink context (Piece.textOf body) := by
  have hbrackets : (bracketsHeld text).fragments = (literalsHeld text).fragments ++ [['[']] := rfl
  rw [allHeld_eq, fragments_hold, pluginsHeld, fragments_hold, withLiteralsHeld_eq, fragments_hold,
    hbrackets, literalsHeld, fragments_hold]
  rfl

/-- Nothing that a flat line holds is written with a NUL. -/
theorem Flat.nul_not_mem_fragments (h : Flat text) (hpage : '\x00' ∉ context.page) :
    ∀ fragment ∈ (allHeld context text).fragments, '\x00' ∉ fragment := by
  intro fragment hfragment
  rw [fragments_allHeld] at hfragment
  simp only [List.mem_append, List.mem_map, List.mem_singleton] at hfragment
  rcases hfragment with (((⟨c, hc, rfl⟩ | rfl) | ⟨body, hbody, rfl⟩) | ⟨body, hbody, rfl⟩) |
    ⟨body, hbody, rfl⟩
  · obtain ⟨xs, n, hfound⟩ := exists_match_of_mem hc
    simpa using (literalPattern_eq_some hfound).1.symm
  · decide
  · exact (nul_mem_renderCode body).not.mpr (not_not.mpr (h.codes body hbody))
  · exact (nul_mem_renderPlugin body).not.mpr (not_not.mpr (h.plugins body hbody))
  · exact nul_not_mem_renderLink hpage ((nul_mem_textOf body).not.mpr (not_not.mpr (h.links body hbody)))

/-- A flat line is written without a NUL. -/
theorem Flat.nul_not_mem_renderInline (h : Flat text) (hpage : '\x00' ∉ context.page)
    (htext : '\x00' ∉ text) : '\x00' ∉ renderInline context text := by
  rintro hmem
  obtain ⟨fragment, ⟨index, -, hfragment⟩, hnul⟩ :=
    (nul_mem_restore (nul_not_mem_allHeld htext)).mp hmem
  exact h.nul_not_mem_fragments hpage fragment (List.mem_of_getElem? hfragment) hnul

/-- A line without a NUL is flat, if its links have no mark inside: a link leaves out what it has no use
for. -/
theorem flat_of_nul_not_mem (links : ∀ body ∈ linksIn text, marks body = [])
    (h : '\x00' ∉ renderInline context text) : Flat text := by
  have hplugins : ∀ body ∈ pluginsIn text, marks body = [] := by
    intro body hbody
    by_contra hmark
    exact h ((shows_plugin links hbody).infix_restore.subset ((nul_mem_renderPlugin body).mpr hmark))
  refine ⟨fun body hbody => ?_, hplugins, links⟩
  by_contra hmark
  exact h ((shows_code hplugins links hbody).infix_restore.subset ((nul_mem_renderCode body).mpr hmark))

/-! ### Fragments -/

theorem renderInline_nil (context : Context) : renderInline context [] = [] := by cbv

theorem infix_append {xs ys : List Char} (zs : List Char) (h : xs <:+: ys) : xs <:+: ys ++ zs :=
  h.trans (List.prefix_append ys zs).isInfix

/-- A line of a fragment is in the HTML of the fragment. -/
theorem infix_render {fragment : Fragment} (h : text ∈ fragment.inlineTexts) :
    renderInline context text <:+: fragment.render context := by
  cases fragment with
  | paragraph lines => exact (infix_unlines (List.mem_map_of_mem h)).trans ⟨_, _, rfl⟩
  | table rows =>
    obtain ⟨row, hrow, htext⟩ := List.mem_flatMap.mp h
    obtain ⟨cell, hcell, rfl⟩ := List.mem_map.mp htext
    have hcells : renderInline context (trim cell.content) <:+: cell.render context := ⟨_, _, rfl⟩
    have hrows : cell.render context <:+: renderRow context row :=
      (List.infix_of_mem_flatten (List.mem_map_of_mem hcell)).trans ⟨_, _, rfl⟩
    exact ((hcells.trans hrows).trans (List.infix_of_mem_flatten (List.mem_map_of_mem hrow))).trans
      ⟨_, _, rfl⟩
  | item content =>
    obtain rfl := List.mem_singleton.mp h
    exact (List.suffix_append _ _).isInfix
  | heading level title =>
    obtain rfl := List.mem_singleton.mp h
    exact infix_append _ (infix_append _ (infix_append _ (infix_append _ (infix_append _
      (List.suffix_append _ _).isInfix))))
  | definition term meaning =>
    simp only [Fragment.inlineTexts, List.mem_cons, List.not_mem_nil, or_false] at h
    rcases h with heq | heq
    · have hterm : renderInline context text <:+: (if term.isEmpty then []
          else "<dt>".toList ++ renderInline context term ++ "</dt>".toList) := by
        rw [heq]
        split
        next hempty =>
          refine List.infix_nil.mpr ?_
          rw [List.isEmpty_iff.mp hempty]
          exact renderInline_nil context
        next => exact ⟨"<dt>".toList, "</dt>".toList, rfl⟩
      exact infix_append _ (infix_append _ (infix_append _
        (hterm.trans (List.suffix_append "<dl>".toList _).isInfix)))
    · rw [heq]
      exact infix_append _ (List.suffix_append _ _).isInfix
  | _ => cases h

theorem nul_not_mem_digits (n : Nat) : '\x00' ∉ (Nat.repr n).toList := by
  intro h
  rw [Nat.toList_repr] at h
  exact absurd (Nat.isDigit_of_mem_toDigits (by decide) (by decide) h) (by decide)

theorem nul_not_mem_sectionId (context : Context) (title : List Char) : '\x00' ∉ sectionId context title := by
  have hword : ∀ name : List Char, '\x00' ∉ name.filter isWordChar := fun name hmem =>
    absurd (List.mem_filter.mp hmem).2 (by decide)
  exact (nul_mem_escapeAttribute _).not.mpr (nul_not_mem_append (nul_not_mem_append (by decide) (hword _))
    (@nul_not_mem_append ['-'] _ (by decide) (hword _)))

theorem nul_not_mem_styleOpening {style : List Char} (h : '\x00' ∉ style) :
    '\x00' ∉ (Fragment.styleOpening style).render context := by
  have hpieces : ∀ pieces, (∀ piece ∈ pieces, piece ∈ Piece.ofText style) →
      marks (escapeAttributePieces pieces) = [] := by
    intro pieces hsub
    rw [marks_escapeAttributePieces, List.eq_nil_iff_forall_not_mem]
    intro piece hpiece
    have hmark := mem_marks.mpr ⟨hsub piece (mem_marks.mp hpiece).1, (mem_marks.mp hpiece).2⟩
    rw [marks_ofText h] at hmark
    cases hmark
  refine (nul_mem_textOf _).not.mpr (not_not.mpr ?_)
  unfold openStyle
  split
  next inner hname =>
    have hsub : ∀ piece ∈ inner.dropLast, piece ∈ Piece.ofText style := fun piece hpiece =>
      hname ▸ List.mem_cons_of_mem _ (List.dropLast_subset inner hpiece)
    rw [marks_append, marks_append, hpieces _ hsub, marks_ofText (by decide), marks_ofText (by decide)]
    rfl
  next =>
    rw [marks_append, marks_append, hpieces _ fun _ => id, marks_ofText (by decide),
      marks_ofText (by decide)]
    rfl

theorem nul_not_mem_cellTag (isHeader : Bool) :
    '\x00' ∉ ("<" ++ (if isHeader then "th" else "td") ++ ">").toList ∧
      '\x00' ∉ ("</" ++ (if isHeader then "th" else "td") ++ ">").toList := by
  cases isHeader <;> decide

theorem nul_not_mem_listTag (kind : ListKind) :
    '\x00' ∉ ("<" ++ kind.tag ++ ">").toList ∧ '\x00' ∉ ("</li></" ++ kind.tag ++ ">").toList := by
  cases kind <;> decide

/-- A NUL in the HTML of a fragment is in one of its lines. -/
theorem nul_mem_render {fragment : Fragment} (htexts : ∀ text ∈ fragment.texts, '\x00' ∉ text)
    (h : '\x00' ∈ fragment.render context) :
    ∃ text ∈ fragment.inlineTexts, '\x00' ∈ renderInline context text := by
  cases fragment with
  | paragraph lines =>
    obtain ⟨written, hwritten, hmem⟩ := mem_unlines (by decide)
      ((nul_mem_between (by decide) (by decide)).mp h)
    obtain ⟨text, htext, rfl⟩ := List.mem_map.mp hwritten
    exact ⟨text, htext, hmem⟩
  | table rows =>
    obtain ⟨row, hrow, hmem⟩ := List.mem_flatMap.mp ((nul_mem_between (by decide) (by decide)).mp h)
    obtain ⟨cell, hcell, hmem⟩ := List.mem_flatMap.mp ((nul_mem_between (by decide) (by decide)).mp hmem)
    refine ⟨trim cell.content, List.mem_flatMap.mpr ⟨row, hrow, List.mem_map_of_mem hcell⟩, ?_⟩
    exact (nul_mem_between (nul_not_mem_cellTag _).1 (nul_not_mem_cellTag _).2).mp hmem
  | item content =>
    exact ⟨content, List.mem_singleton_self _, (List.mem_append.mp h).resolve_left (by decide)⟩
  | heading level title =>
    refine ⟨title, List.mem_singleton_self _, ?_⟩
    by_contra hnul
    have hlevel := nul_not_mem_digits level
    have hanchor := nul_not_mem_sectionId context title
    exact nul_not_mem_append (nul_not_mem_append (nul_not_mem_append (nul_not_mem_append (nul_not_mem_append
      (nul_not_mem_append (nul_not_mem_append (nul_not_mem_append (nul_not_mem_append
        (nul_not_mem_append (by decide) hlevel) (by decide)) hanchor) (by decide)) hnul) (by decide))
      hanchor) (by decide)) hlevel) (by decide) h
  | definition term meaning =>
    by_contra hnone
    push Not at hnone
    have hterm := hnone term (by simp [Fragment.inlineTexts])
    have hmeaning := hnone meaning (by simp [Fragment.inlineTexts])
    refine nul_not_mem_append (nul_not_mem_append (nul_not_mem_append (nul_not_mem_append (by decide) ?_)
      (by decide)) hmeaning) (by decide) h
    split
    · exact List.not_mem_nil
    · exact nul_not_mem_append (nul_not_mem_append (by decide) hterm) (by decide)
  | preformatted lines closed =>
    have hlines := (nul_mem_escape _).mp ((nul_mem_between (by decide) (by decide)).mp h)
    obtain ⟨text, htext, hmem⟩ := mem_unlines (by decide) hlines
    exact absurd hmem (htexts text htext)
  | styleOpening style =>
    exact absurd h (nul_not_mem_styleOpening (htexts style (List.mem_singleton_self _)))
  | listOpening kind => exact absurd h (nul_not_mem_listTag kind).1
  | listClosing kind => exact absurd h (nul_not_mem_listTag kind).2
  | itemClosing => exact absurd h (show '\x00' ∉ "</li>".toList by decide)
  | itemOpening => exact absurd h (show '\x00' ∉ "<li>".toList by decide)
  | rule => exact absurd h (show '\x00' ∉ "<hr />".toList by decide)
  | styleClosing => exact absurd h (show '\x00' ∉ "</div>".toList by decide)

/-! ### Pages -/

/-- No line of a page has a NUL. -/
theorem nul_not_mem_pageLines {page line : List Char} (h : line ∈ pageLines page) : '\x00' ∉ line := by
  intro hmem
  have hpage := mem_of_mem_normalizeNewlines (by decide) (mem_of_mem_splitAt h hmem)
  exact absurd (List.mem_filter.mp hpage).2 (by decide)

/-- It holds of every line of inline markup that a page has. -/
def OnEveryLine (page : List Char) (holds : List Char → Prop) : Prop :=
  ∀ fragment ∈ fragmentsOf page, ∀ text ∈ fragment.inlineTexts, holds text

instance (page : List Char) (holds : List Char → Prop) [DecidablePred holds] :
    Decidable (OnEveryLine page holds) :=
  inferInstanceAs (Decidable (∀ fragment ∈ fragmentsOf page, ∀ text ∈ fragment.inlineTexts, holds text))

theorem nul_not_mem_renderPage {page : List Char} : '\x00' ∉ renderPage context page ↔
    OnEveryLine page fun text => '\x00' ∉ renderInline context text := by
  constructor
  · intro h fragment hfragment text htext hmem
    exact h ((infix_unlines (List.mem_map_of_mem hfragment)).subset
      ((infix_render htext).subset hmem))
  · intro h hmem
    obtain ⟨written, hwritten, hnul⟩ := mem_unlines (by decide) hmem
    obtain ⟨fragment, hfragment, rfl⟩ := List.mem_map.mp hwritten
    have htexts : ∀ text ∈ fragment.texts, '\x00' ∉ text := by
      intro text htext hnul
      obtain ⟨line, hline, hsub⟩ := exists_line_of_mem_texts hfragment htext
      exact nul_not_mem_pageLines hline (hsub hnul)
    obtain ⟨text, htext, hnul⟩ := nul_mem_render htexts hnul
    exact h fragment hfragment text htext hnul

/-- **All that is held shows in the page.**  Every mark of a line has a fragment to give way to.  If no mark
is inside of what is held, all of that is in the HTML, and no NUL is.  And a page without a NUL has no mark
inside of what is held, as long as its links have none: a link leaves out what it has no use for. -/
theorem page_shows_what_is_held (context : Context) (page : List Char) (named : '\x00' ∉ context.page) :
    (OnEveryLine page fun text => (allHeld context text).withStyles.Numbered) ∧
      (OnEveryLine page Flat → '\x00' ∉ renderPage context page ∧
        OnEveryLine page fun text => ∀ fragment ∈ heldIn context text,
          fragment <:+: renderPage context page) ∧
      ((OnEveryLine page fun text => ∀ body ∈ linksIn text, marks body = []) →
        '\x00' ∉ renderPage context page → OnEveryLine page Flat) := by
  refine ⟨fun fragment _ text _ index hmark => ?_, fun flat => ⟨?_, ?_⟩, ?_⟩
  · rw [fragments_withStyles]
    exact allHeld_numbered context text index ((mem_withStyles rfl).mp hmark)
  · refine nul_not_mem_renderPage.mpr fun fragment hfragment text htext => ?_
    obtain ⟨whole, hwhole, hsub⟩ := exists_text_of_mem_inlineTexts htext
    obtain ⟨line, hline, hsub'⟩ := exists_line_of_mem_texts hfragment hwhole
    exact (flat fragment hfragment text htext).nul_not_mem_renderInline named fun hmem =>
      nul_not_mem_pageLines hline (hsub' (hsub hmem))
  · intro fragment hfragment text htext held hheld
    have hline := ((flat fragment hfragment text htext).shows hheld).infix_restore
    exact (hline.trans (infix_render htext)).trans (infix_unlines (List.mem_map_of_mem hfragment))
  · intro links hnul fragment hfragment text htext
    exact flat_of_nul_not_mem (links fragment hfragment text htext)
      (nul_not_mem_renderPage.mp hnul fragment hfragment text htext)

/-- A page in the editor under a plain name. -/
def plainContext : Context := ⟨"Main".toList, true, false⟩

/-- A plugin with a literal bracket inside leaves a mark in the page. -/
theorem literal_in_plugin_leaves_mark : '\x00' ∈ renderPage plainContext "[\x7ba~[b\x7d]".toList := by
  decide +kernel

/-- A page with something of each kind that is held. -/
def variedPage : List Char := "~* [[ \x7b\x7b\x7ba\x7d\x7d\x7d [\x7bb\x7d] [c|d]".toList

theorem variedPage_shows_what_is_held :
    '\x00' ∉ plainContext.page ∧ OnEveryLine variedPage Flat ∧ '\x00' ∉ renderPage plainContext variedPage ∧
      OnEveryLine variedPage fun text => ∀ fragment ∈ heldIn plainContext text,
        fragment <:+: renderPage plainContext variedPage := by
  have named : '\x00' ∉ plainContext.page := by decide
  have flat : OnEveryLine variedPage Flat := by decide +kernel
  exact ⟨named, flat, (page_shows_what_is_held plainContext variedPage named).2.1 flat⟩

end WikiMigration.Wiki

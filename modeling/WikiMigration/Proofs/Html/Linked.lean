/-
A paragraph that holds one link.

The value of an attribute is read as it was before it was escaped, so a tag is read with the attributes it
was written with, one after the other.  A paragraph with an anchor or an image in it is thus read as just
these two elements, and the cleaning takes nothing out of it: it reads the address back as a name.
-/
import Mathlib.Data.List.Nodup
import WikiMigration.Proofs.Html.Blocks

namespace WikiMigration.Html

open Text

variable {name : String} {text rest : List Char}

/-! ### Attribute values -/

/-- The numbered reference that a single quote is written as. -/
theorem readReferences_singleQuote (rest : List Char) :
    readReferences true ("&#x27;".toList ++ rest) = '\'' :: readReferences true rest := by
  have hmark : "&#x27;".toList = ['&', '#', 'x', '2', '7', ';'] := by decide
  have hfound : referencePattern true ('&' :: '#' :: 'x' :: '2' :: '7' :: ';' :: rest) = some (['\''], 6) := by
    rfl
  rw [hmark]
  exact substitute_of_some hfound

theorem readReferences_escapeAttributeChar (c : Char) (rest : List Char) :
    readReferences true (escapeAttributeChar c ++ rest) = c :: readReferences true rest := by
  unfold escapeAttributeChar
  split
  next hc =>
    rw [beq_iff_eq.mp hc]
    exact @readReferences_entity rest "quot".toList ['"'] true (List.all_eq_true.mp (by decide))
      (by decide +kernel)
  split
  next hc => rw [beq_iff_eq.mp hc, readReferences_singleQuote]
  next => exact readReferences_escapeChar true c rest

/-- **Reading the references of an escaped attribute value gives the value.** -/
theorem readReferences_escapeAttribute (text : List Char) :
    readReferences true (escapeAttribute text) = text := by
  induction text with
  | nil => rfl
  | cons c rest ih =>
    rw [escapeAttribute, List.flatMap_cons, ← escapeAttribute, readReferences_escapeAttributeChar, ih]

/-- The characters that the entities of an attribute value are made of. -/
def isAttributeEntityChar (c : Char) : Bool := "&ampltgquo#x27;".toList.contains c

theorem mem_escapeAttribute {c : Char} (h : c ∈ escapeAttribute text) :
    (c ∈ text ∧ c ≠ '"') ∨ isAttributeEntityChar c = true := by
  obtain ⟨d, hd, hc⟩ := List.mem_flatMap.mp h
  unfold escapeAttributeChar at hc
  split at hc
  · exact Or.inr (List.all_eq_true.mp (by decide : "&quot;".toList.all isAttributeEntityChar = true) c hc)
  split at hc
  · exact Or.inr (List.all_eq_true.mp (by decide : "&#x27;".toList.all isAttributeEntityChar = true) c hc)
  next hquote _ =>
    have hescape : c ∈ escape [d] := by simpa [escape] using hc
    rcases mem_escape hescape with ⟨hmem, -⟩ | hentity
    · obtain rfl := List.mem_singleton.mp hmem
      exact Or.inl ⟨hd, by simpa using hquote⟩
    · exact Or.inr (List.all_eq_true.mp (by decide : "&ampltg;".toList.all isAttributeEntityChar = true) c
        (by simpa [isEntityChar] using hentity))

theorem quote_not_mem_escapeAttribute (text : List Char) : '"' ∉ escapeAttribute text := fun hmem =>
  (mem_escapeAttribute hmem).elim (fun hin => hin.2 rfl) (by decide)

theorem readValue_escapeAttribute (value rest : List Char) :
    readValue ('"' :: (escapeAttribute value ++ '"' :: rest)) = (value, rest) := by
  have hvalue : (escapeAttribute value ++ '"' :: rest).takeWhile (· != '"') = escapeAttribute value := by
    rw [List.takeWhile_append_of_pos
        (fun c hc => by simpa using fun heq : c = '"' => quote_not_mem_escapeAttribute value (heq ▸ hc)),
      List.takeWhile_cons_of_neg (by simp), List.append_nil]
  have hblank : ('"' :: (escapeAttribute value ++ '"' :: rest)).dropWhile isTagBlank
      = '"' :: (escapeAttribute value ++ '"' :: rest) := List.dropWhile_cons_of_neg (by decide)
  simp only [readValue, hblank, hvalue, readReferences_escapeAttribute, List.drop_append]
  simp

/-! ### Attributes -/

/-- The attribute in a tag, behind a blank. -/
def Attribute.html (a : Attribute) : List Char :=
  ' ' :: a.name.toList ++ '=' :: '"' :: escapeAttribute a.value ++ ['"']

/-- A name that an attribute has in a tag as it is. -/
structure IsPlainAttribute (name : String) : Prop where
  chars : ∀ c ∈ name.toList, (!(isTagBlank c || c == '/' || c == '>' || c == '=')) = true
  filled : name.toList ≠ []
  lower : lowerName name.toList = name

variable {attributes known : List Attribute} {a : Attribute}

theorem IsPlainAttribute.readAttribute (h : IsPlainAttribute name) {first : Char} {more : List Char}
    (hname : name.toList = first :: more) (value rest : List Char) :
    readAttribute first (more ++ '=' :: '"' :: escapeAttribute value ++ '"' :: rest) = (⟨name, value⟩, rest) := by
  have hmore : ∀ tail, (more ++ '=' :: tail).takeWhile
      (fun c => !(isTagBlank c || c == '/' || c == '>' || c == '=')) = more := by
    intro tail
    rw [List.takeWhile_append_of_pos
        (fun c hc => h.chars c (hname ▸ List.mem_cons_of_mem first hc)),
      List.takeWhile_cons_of_neg (by decide), List.append_nil]
  have hblank : ∀ tail, ('=' :: tail).dropWhile isTagBlank = '=' :: tail := fun tail =>
    List.dropWhile_cons_of_neg (by decide)
  rw [List.append_assoc, List.cons_append, List.cons_append]
  unfold Html.readAttribute
  simp only [hmore, List.drop_left, hblank, readValue_escapeAttribute, ← hname, h.lower]

/-- Reading an attribute takes two steps: over the blank, and over the attribute. -/
theorem readTagEnd_html (h : IsPlainAttribute a.name) (hnew : ∀ b ∈ known, b.name ≠ a.name) (fuel : Nat)
    (rest : List Char) :
    readTagEnd (fuel + 2) known (a.html ++ rest) = readTagEnd fuel (a :: known) rest := by
  obtain ⟨first, more, hname⟩ := List.exists_cons_of_ne_nil h.filled
  have hfirst := h.chars first (hname ▸ List.mem_cons_self)
  simp only [Bool.not_eq_true', Bool.or_eq_false_iff, beq_eq_false_iff_ne] at hfirst
  obtain ⟨⟨⟨hblank, hslash⟩, hclose⟩, -⟩ := hfirst
  have hknown : (known.any fun b => b.name == a.name) = false :=
    List.any_eq_false.mpr fun b hb => by simpa using hnew b hb
  have hhtml : a.html ++ rest
      = ' ' :: first :: (more ++ '=' :: '"' :: escapeAttribute a.value ++ '"' :: rest) := by
    simp [Attribute.html, hname]
  have hstart : ∀ tail : List Char, readTagEnd (fuel + 1) known (first :: tail)
      = readTagEnd fuel (if known.any fun b => b.name == (Html.readAttribute first tail).1.name then known
          else (Html.readAttribute first tail).1 :: known) (Html.readAttribute first tail).2 := by
    intro tail
    rw [readTagEnd]
    · simp [hblank, hslash]
    · exact fun heq => absurd heq hclose
    · exact fun _ heq => absurd heq hslash
  have hspace : ∀ tail : List Char, readTagEnd (fuel + 2) known (' ' :: tail) = readTagEnd (fuel + 1) known tail :=
    fun tail => rfl
  rw [hhtml, hspace, hstart, h.readAttribute hname]
  simp [hknown]

/-- **The attributes of a tag are read as they were written**, the last one first. -/
theorem readTagEnd_attributes (h : ∀ a ∈ attributes, IsPlainAttribute a.name)
    (hdistinct : ((attributes.reverse ++ known).map Attribute.name).Nodup) (fuel : Nat) (rest : List Char) :
    readTagEnd (fuel + 2 * attributes.length) known (attributes.flatMap Attribute.html ++ rest)
      = readTagEnd fuel (attributes.reverse ++ known) rest := by
  induction attributes generalizing known with
  | nil => rfl
  | cons a others ih =>
    rw [List.reverse_cons, List.append_assoc, List.singleton_append] at hdistinct ⊢
    have hnew : ∀ b ∈ known, b.name ≠ a.name := by
      rw [List.map_append, List.map_cons] at hdistinct
      have hcons := (List.nodup_cons.mp (List.nodup_append.mp hdistinct).2.1).1
      exact fun b hb heq => hcons (List.mem_map.mpr ⟨b, hb, heq⟩)
    rw [List.flatMap_cons, List.append_assoc,
      show fuel + 2 * (a :: others).length = fuel + 2 * others.length + 2 by rw [List.length_cons]; omega,
      readTagEnd_html (h a List.mem_cons_self) hnew, ih (fun b hb => h b (List.mem_cons_of_mem a hb)) hdistinct]

theorem length_html (attributes : List Attribute) :
    2 * attributes.length ≤ (attributes.flatMap Attribute.html).length := by
  induction attributes with
  | nil => exact Nat.le_refl 0
  | cons a others ih =>
    simp only [List.flatMap_cons, List.length_append, List.length_cons, Attribute.html] at ih ⊢
    omega

/-! ### Start tags -/

/-- The end of a start tag. -/
def closingText (selfClosing : Bool) : List Char := if selfClosing then " />".toList else ['>']

/-- The start tag of a name with attributes. -/
def openingText (name : String) (attributes : List Attribute) (selfClosing : Bool) : List Char :=
  '<' :: (name.toList ++ (attributes.flatMap Attribute.html ++ closingText selfClosing))

theorem readTagEnd_closing (selfClosing : Bool) (fuel : Nat) (known : List Attribute) (rest : List Char) :
    readTagEnd (fuel + 2) known (closingText selfClosing ++ rest) = some (known.reverse, selfClosing, rest) := by
  cases selfClosing <;> rfl

/-- Attributes that a tag is read with. -/
structure ArePlain (attributes : List Attribute) : Prop where
  filled : attributes ≠ []
  plain : ∀ a ∈ attributes, IsPlainAttribute a.name
  distinct : (attributes.map Attribute.name).Nodup

theorem ArePlain.readTagEnd (h : ArePlain attributes) (selfClosing : Bool) {fuel : Nat}
    (hfuel : (attributes.flatMap Attribute.html).length + 2 ≤ fuel) (rest : List Char) :
    readTagEnd fuel [] (attributes.flatMap Attribute.html ++ (closingText selfClosing ++ rest))
      = some (attributes, selfClosing, rest) := by
  have hlength := length_html attributes
  obtain ⟨more, rfl⟩ : ∃ more, fuel = more + 2 + 2 * attributes.length :=
    ⟨fuel - 2 - 2 * attributes.length, by omega⟩
  have hdistinct : ((attributes.reverse ++ []).map Attribute.name).Nodup := by
    rw [List.append_nil, List.map_reverse, List.nodup_reverse]
    exact h.distinct
  rw [readTagEnd_attributes h.plain hdistinct, List.append_nil, readTagEnd_closing, List.reverse_reverse]

/-- **A start tag is read with its attributes.** -/
theorem ArePlain.tokensOf (h : ArePlain attributes) (hname : IsPlainTag name) (selfClosing : Bool)
    (rest : List Char) :
    tokensOf (openingText name attributes selfClosing ++ rest)
      = .startTag name attributes selfClosing :: Html.tokensOf rest := by
  have hword : (name.toList ++ (attributes.flatMap Attribute.html ++ (closingText selfClosing ++ rest))).takeWhile
      isTagNameChar = name.toList := by
    -- The blank before the first attribute ends the name.
    obtain ⟨a, others, rfl⟩ := List.exists_cons_of_ne_nil h.filled
    rw [List.takeWhile_append_of_pos hname.chars, List.flatMap_cons, Attribute.html]
    exact (congrArg (name.toList ++ ·) (List.takeWhile_cons_of_neg (by decide))).trans (List.append_nil _)
  have hclosing : 0 < (closingText selfClosing).length := by cases selfClosing <;> decide
  have hread : readStartTag (name.toList ++ (attributes.flatMap Attribute.html ++ (closingText selfClosing ++ rest)))
      = ([.startTag name attributes selfClosing], rest) := by
    have hinside : readInside name rest = ([], rest) := by rw [readInside, hname.mode]
    have hend := fun fuel hfuel => @ArePlain.readTagEnd attributes h selfClosing fuel hfuel rest
    simp only [readStartTag, hword, List.drop_left, hname.lower]
    rw [hend _ (by simp only [List.length_append]; omega)]
    cases selfClosing <;> simp [hinside]
  rw [openingText, List.cons_append, List.append_assoc, List.append_assoc]
  exact tokensOf_cons ((hname.readFront_eq _).trans hread) (by simp only [List.length_append]; omega)

/-! ### The tree -/

namespace Builder

/-- The tree in work inside the paragraph that a page starts with. -/
def inParagraph (children : List Node) : Builder :=
  ⟨[⟨"p", [], children⟩, ⟨"body", [], []⟩, ⟨"html", [], []⟩], [], [], true, false, true, 0⟩

/-- The tree in work inside an element of that paragraph, behind the text of the element. -/
def inInline (name : String) (attributes : List Attribute) (text : List Char) : Builder :=
  ⟨[⟨name, attributes, []⟩, ⟨"p", [], []⟩, ⟨"body", [], []⟩, ⟨"html", [], []⟩], [], text, true, false, true, 0⟩

theorem startTag_inline (h : name = "a" ∨ name = "span") (attributes : List Attribute) :
    (inParagraph []).startTag name attributes false = inInline name (attributes.map (normalizeAttribute name)) [] := by
  have hcloses : closes name "p" = false := by rcases h with rfl | rfl <;> decide
  rcases h with rfl | rfl <;>
    simp [startTag, inParagraph, autoClose, closedBy, hcloses, popMany, supplyFrame, isOpen, isHeadElement,
      isMisplaced, isVoid, push, flush, inInline]

theorem startTag_image (attributes : List Attribute) :
    (inParagraph []).startTag "img" attributes true
      = inParagraph [.element "img" (attributes.map (normalizeAttribute "img")) []] := by
  have hcloses : closes "img" "p" = false := by decide
  simp [startTag, inParagraph, autoClose, closedBy, hcloses, popMany, supplyFrame, isOpen, isHeadElement,
    isMisplaced, push, pop, flush, add]

theorem addText_inInline (h : name = "a" ∨ name = "span") (attributes : List Attribute) (hne : text ≠ []) :
    (inInline name attributes []).addText text = inInline name attributes text := by
  rcases h with rfl | rfl <;> simp [addText, inInline, hne, isOutside, top?]

theorem endTag_inInline (h : name = "a" ∨ name = "span") (attributes : List Attribute) (hne : text ≠ []) :
    (inInline name attributes text).endTag name
      = inParagraph [.element name attributes [.text ((inInline name attributes []).keptText text)]] := by
  rcases h with rfl | rfl <;>
    simp [endTag, inInline, closedByEnd, popMany, pop, flush, hne, textNode, holdsAsides, keptText, add, inParagraph]

theorem finish_inParagraph (children : List Node) :
    ((inParagraph children).endTag "p").finish = document [.element "p" [] children.reverse] := by
  simp [endTag, inParagraph, closedByEnd, finish, popMany, pop, flush, add, document]

end Builder

/-! ### Cleaning -/

/-- The addresses of the links and images, in document order. -/
def linkAddresses (nodes : List Node) : List (Option (List Char)) :=
  (elementsNamed ["a", "img"] nodes).map fun e =>
    attributeValue? (if e.name == "img" then "src" else "href") e.attributes

/-- An element in a paragraph that is no empty wrapper is kept with what is in it, and its address is read back. -/
theorem clean_linked {children : List Node}
    (hkept : isEmptyWrapper ⟨name, cleanAddresses name attributes, children⟩ = false)
    (hclasses : isDecoration ⟨name, attributes, children⟩ = false)
    (hid : attributeValue? "id" attributes = none) (hchildren : ∀ node ∈ children, ∃ content, node = .text content) :
    clean (document [.element "p" [] [.element name attributes children]])
      = document [.element "p" [] [.element name (cleanAddresses name attributes) children]] := by
  have hdrop : ∀ p, dropElements p children = children := fun p =>
    dropElements_eq_self fun node hnode => by
      obtain ⟨content, rfl⟩ := hchildren node hnode
      rfl
  have hmap : ∀ f, mapAttributes f children = children := fun f =>
    mapAttributes_eq_self fun node hnode => by
      obtain ⟨content, rfl⟩ := hchildren node hnode
      rfl
  have hsection : dropSectionId name attributes = attributes := by
    rw [dropSectionId, hid]
    rfl
  have hplain : ∀ other, dropSectionId other [] = [] := fun _ => rfl
  have hundecorated : undecorated (document [.element "p" [] [.element name attributes children]])
      = document [.element "p" [] [.element name (cleanAddresses name attributes) children]] := by
    simp [undecorated, document, dropElements, Node.dropElements, mapAttributes, Node.mapAttributes, hdrop, hmap,
      hclasses, isDecoration_plain, hsection, hplain, cleanAddresses_nil]
  rw [clean, hundecorated]
  -- The paragraph has an element in it, so it is no empty wrapper.
  refine dropElements_document (fun _ => rfl) rfl fun node hnode => ?_
  obtain rfl := List.mem_singleton.mp hnode
  have hparagraph : isEmptyWrapper ⟨"p", [], [.element name (cleanAddresses name attributes) children]⟩ = false :=
    rfl
  simp [Node.dropElements, dropElements, hparagraph, hkept, hdrop]

/-! ### Anchors and images -/

theorem readBack_eq (name : String) {address : List Char} (h : attributeValue? name attributes = some address)
    (hne : address ≠ []) : readBack name attributes = setAttribute name (plainName address) attributes := by
  rw [readBack, h]
  exact if_neg (by simpa using hne)

/-- The classes of the anchors that lead out of the wiki and to its pages. -/
def anchorKinds : List String := ["external", "wikipage"]

/-- The attributes of an anchor of a class. -/
def anchorAttributes (kind : String) (address : List Char) : List Attribute :=
  [⟨"class", kind.toList⟩, ⟨"href", address⟩]

/-- The attributes of an image that is shown in the text. -/
def imageAttributes (address description : List Char) : List Attribute :=
  [⟨"class", "inline".toList⟩, ⟨"src", address⟩, ⟨"alt", description⟩]

variable {kind : String}

theorem mem_anchorKinds : kind ∈ anchorKinds ↔ kind = "external" ∨ kind = "wikipage" := List.mem_pair

theorem cleanAddresses_anchor (hkind : kind ∈ anchorKinds) {address : List Char} (hne : address ≠ []) :
    cleanAddresses "a" (anchorAttributes kind address) = [⟨"href", plainName address⟩] := by
  have hread : readBack "href" (anchorAttributes kind address) = anchorAttributes kind (plainName address) :=
    readBack_eq "href" rfl hne
  have hclass : attributeValue? "class" (anchorAttributes kind (plainName address)) = some kind.toList := rfl
  have hclasses : ((words kind.toList).filter fun c => !linkClasses.contains (String.ofList c)) = [] := by
    rcases mem_anchorKinds.mp hkind with rfl | rfl <;> decide +kernel
  rw [cleanAddresses, if_neg (by decide), if_pos (by decide), cleanLink, hread]
  simp only [hclass, hclasses]
  rfl

theorem cleanAddresses_image {address description : List Char} (hne : address ≠ []) (hne' : description ≠ []) :
    cleanAddresses "img" (imageAttributes address description) = imageAttributes (plainName address) description := by
  have hread : readBack "src" (imageAttributes address description)
      = imageAttributes (plainName address) description := readBack_eq "src" rfl hne
  have halt : attributeValue? "alt" (imageAttributes (plainName address) description) = some description := rfl
  have hfilled : description.isEmpty = false := by simpa using hne'
  rw [cleanAddresses, if_pos (by decide), cleanImage, hread]
  simp [halt, hfilled]

/-- The attributes that links and images have. -/
def linkAttributeNames : List String := ["class", "href", "src", "alt"]

theorem isPlainAttribute (h : name ∈ linkAttributeNames) : IsPlainAttribute name := by
  simp only [linkAttributeNames, List.mem_cons, List.not_mem_nil, or_false] at h
  rcases h with rfl | rfl | rfl | rfl <;> exact ⟨List.all_eq_true.mp (by decide), by decide, by decide⟩

/-- Attributes are plain if their names are those of links and images, each once. -/
theorem arePlain (hne : attributes ≠ []) (hnames : ∀ name ∈ attributes.map Attribute.name, name ∈ linkAttributeNames)
    (hdistinct : (attributes.map Attribute.name).Nodup) : ArePlain attributes :=
  ⟨hne, fun a ha => isPlainAttribute (hnames a.name (List.mem_map_of_mem ha)), hdistinct⟩

theorem arePlain_anchor (kind : String) (address : List Char) : ArePlain (anchorAttributes kind address) :=
  arePlain (by simp [anchorAttributes]) (by decide : ∀ name ∈ ["class", "href"], name ∈ linkAttributeNames)
    (by decide : ["class", "href"].Nodup)

theorem arePlain_image (address description : List Char) : ArePlain (imageAttributes address description) :=
  arePlain (by simp [imageAttributes]) (by decide : ∀ name ∈ ["class", "src", "alt"], name ∈ linkAttributeNames)
    (by decide : ["class", "src", "alt"].Nodup)

/-! ### Paragraphs -/

/-- A paragraph, as it is written. -/
def paragraphText (content : List Char) : List Char := startTagText "p" ++ content ++ endTagText "p"

/-- An anchor of a class, as it is written. -/
def anchorText (kind : String) (address label : List Char) : List Char :=
  openingText "a" (anchorAttributes kind address) false ++ escape label ++ endTagText "a"

/-- An image that is shown in the text, as it is written. -/
def imageText (address description : List Char) : List Char :=
  openingText "img" (imageAttributes address description) true

theorem tokensOf_nil : tokensOf [] = [] := by rw [tokensOf]

/-- A paragraph with text in one element is read as the tags and the text. -/
theorem tokensOf_inline (h : ArePlain attributes) (hname : IsPlainTag name) (hne : text ≠ []) :
    tokensOf (paragraphText (openingText name attributes false ++ escape text ++ endTagText name))
      = [.startTag "p" [] false, .startTag name attributes false, .text text, .endTag name, .endTag "p"] := by
  have hparagraph : IsPlainTag "p" := isPlainTag (by decide)
  have hend : endTagText name ++ endTagText "p" = '<' :: (endTagText name ++ endTagText "p").tail := rfl
  have hclosed := hparagraph.tokensOf_endTag []
  rw [List.append_nil, tokensOf_nil] at hclosed
  simp only [paragraphText, List.append_assoc]
  rw [hparagraph.tokensOf_startTag, h.tokensOf hname, hend, tokensOf_text (escape_ne_nil hne)
    (bracket_not_mem_escape text), readReferences_escape, ← hend, hname.tokensOf_endTag, hclosed]

theorem tokensOf_image (address description : List Char) :
    tokensOf (paragraphText (imageText address description))
      = [.startTag "p" [] false, .startTag "img" (imageAttributes address description) true, .endTag "p"] := by
  have hparagraph : IsPlainTag "p" := isPlainTag (by decide)
  have himage : IsPlainTag "img" := isPlainTag (by decide)
  have hclosed := hparagraph.tokensOf_endTag []
  rw [List.append_nil, tokensOf_nil] at hclosed
  simp only [paragraphText, imageText, List.append_assoc]
  rw [hparagraph.tokensOf_startTag, (arePlain_image address description).tokensOf himage, hclosed]

theorem anchorText_eq (hkind : kind ∈ anchorKinds) (address label : List Char) : anchorText kind address label
    = "<a class=\"".toList ++ kind.toList ++ "\" href=\"".toList ++ escapeAttribute address ++ "\">".toList
      ++ escape label ++ "</a>".toList := by
  have hclass : escapeAttribute kind.toList = kind.toList := by
    rcases mem_anchorKinds.mp hkind with rfl | rfl <;> decide
  simp only [anchorText, openingText, anchorAttributes, List.flatMap_cons, List.flatMap_nil, Attribute.html, hclass,
    closingText, endTagText]
  simp

theorem imageText_eq (address description : List Char) : imageText address description
    = "<img class=\"inline\" src=\"".toList ++ escapeAttribute address ++ "\" alt=\"".toList
      ++ escapeAttribute description ++ "\" />".toList := by
  have hclass : escapeAttribute "inline".toList = "inline".toList := by decide
  simp only [imageText, openingText, imageAttributes, List.flatMap_cons, List.flatMap_nil, Attribute.html, hclass,
    closingText]
  simp

/-- A NUL is read as the sign for what is no character. -/
def shownChar (c : Char) : Char := if c == '\x00' then Char.ofNat 0xFFFD else c

theorem map_shownChar (h : '\x00' ∉ text) : text.map shownChar = text :=
  (List.map_congr_left fun c hc => if_neg (by simpa using fun heq : c = '\x00' => h (heq ▸ hc))).trans
    (List.map_id text)

theorem map_shownChar_escape (text : List Char) : (escape text).map shownChar = escape (text.map shownChar) := by
  rw [escape, escape, List.map_flatMap, List.flatMap_map]
  refine List.flatMap_congr fun c _ => ?_
  by_cases hc : c = '\x00'
  · rw [hc]
    decide
  · have hnul : '\x00' ∉ escapeChar c := by
      have hescape := @not_mem_escape [c] '\x00' (by simpa using Ne.symm hc) (by decide)
      simpa [escape] using hescape
    rw [map_shownChar hnul, shownChar, if_neg (by simpa using hc)]

/-- The value of an attribute has only characters in it that the page has or that are markup. -/
theorem not_mem_escapeAttribute {c : Char} (h : c ∉ text) (hc : isAttributeEntityChar c = false) :
    c ∉ escapeAttribute text :=
  fun hmem => (mem_escapeAttribute hmem).elim (fun hin => h hin.1) (by simp [hc])

/-- The tokens of a page without carriage returns. -/
theorem tokens_eq (h : '\r' ∉ text) : tokens text = tokensOf (text.map shownChar) := by
  rw [tokens, normalizeNewlines_eq_self h]
  rfl

variable {address description label : List Char}

theorem tokens_anchor (hkind : kind ∈ anchorKinds) (haddress : '\r' ∉ address ∧ '\x00' ∉ address)
    (hlabel : '\r' ∉ label) :
    tokens (paragraphText (anchorText kind address label))
      = tokensOf (paragraphText (anchorText kind address (label.map shownChar))) := by
  have hclass : '\r' ∉ kind.toList ∧ kind.toList.map shownChar = kind.toList := by
    rcases mem_anchorKinds.mp hkind with rfl | rfl <;> decide
  have hvalue := not_mem_escapeAttribute haddress.1 (by decide)
  have hvalue' := map_shownChar (not_mem_escapeAttribute haddress.2 (by decide))
  have htext := not_mem_escape hlabel (by decide)
  have hreturn : '\r' ∉ paragraphText (anchorText kind address label) := by
    rw [anchorText_eq hkind]
    simp [paragraphText, startTagText, endTagText, hclass.1, hvalue, htext]
  rw [tokens_eq hreturn, anchorText_eq hkind, anchorText_eq hkind, ← map_shownChar_escape]
  simp only [paragraphText, List.map_append, hclass.2, hvalue']
  rfl

theorem tokens_image (haddress : '\r' ∉ address ∧ '\x00' ∉ address)
    (hdescription : '\r' ∉ description ∧ '\x00' ∉ description) :
    tokens (paragraphText (imageText address description))
      = tokensOf (paragraphText (imageText address description)) := by
  have hvalue := not_mem_escapeAttribute haddress.1 (by decide)
  have hvalue' := map_shownChar (not_mem_escapeAttribute haddress.2 (by decide))
  have htext := not_mem_escapeAttribute hdescription.1 (by decide)
  have htext' := map_shownChar (not_mem_escapeAttribute hdescription.2 (by decide))
  have hreturn : '\r' ∉ paragraphText (imageText address description) := by
    rw [imageText_eq]
    simp [paragraphText, startTagText, endTagText, hvalue, htext]
  rw [tokens_eq hreturn, imageText_eq]
  simp only [paragraphText, List.map_append, hvalue', htext']
  rfl

theorem normalize_anchor (hkind : kind ∈ anchorKinds) (address : List Char) :
    (anchorAttributes kind address).map (normalizeAttribute "a") = anchorAttributes kind address := by
  have hclass : normalizeAttribute "a" ⟨"class", kind.toList⟩ = ⟨"class", kind.toList⟩ := by
    rcases mem_anchorKinds.mp hkind with rfl | rfl <;> decide +kernel
  have hvalue : normalizeAttribute "a" ⟨"href", address⟩ = ⟨"href", address⟩ := rfl
  rw [anchorAttributes, List.map_cons, hclass, List.map_cons, hvalue, List.map_nil]

theorem normalize_image (address description : List Char) :
    (imageAttributes address description).map (normalizeAttribute "img") = imageAttributes address description := by
  have hclass : normalizeAttribute "img" ⟨"class", "inline".toList⟩ = ⟨"class", "inline".toList⟩ := by
    decide +kernel
  have hvalue : normalizeAttribute "img" ⟨"src", address⟩ = ⟨"src", address⟩ := rfl
  have htext : normalizeAttribute "img" ⟨"alt", description⟩ = ⟨"alt", description⟩ := rfl
  rw [imageAttributes, List.map_cons, hclass, List.map_cons, hvalue, List.map_cons, htext, List.map_nil]

/-- A paragraph with text in one element is read as the two elements. -/
theorem parse_inline (h : name = "a" ∨ name = "span") {page : List Char}
    (htokens : tokens page
      = [.startTag "p" [] false, .startTag name attributes false, .text text, .endTag name, .endTag "p"])
    (hne : text ≠ []) (hnormal : attributes.map (normalizeAttribute name) = attributes) :
    parse page = document
      [.element "p" [] [.element name attributes [.text ((Builder.inInline name attributes []).keptText text)]]] := by
  have hstart : Builder.empty.startTag "p" [] false = .inParagraph [] := Builder.startTag_empty (Or.inl rfl)
  rw [parse, htokens]
  simp only [List.foldl_cons, List.foldl_nil, Builder.step, hstart, Builder.startTag_inline h, hnormal,
    Builder.addText_inInline h _ hne, Builder.endTag_inInline h _ hne, Builder.finish_inParagraph]
  rfl

/-- An anchor is one such element. -/
theorem parse_anchor (hkind : kind ∈ anchorKinds) (haddress : '\r' ∉ address ∧ '\x00' ∉ address)
    (hlabel : '\r' ∉ label) (hne : label ≠ []) : ∃ content, parse (paragraphText (anchorText kind address label))
      = document [.element "p" [] [.element "a" (anchorAttributes kind address) [.text content]]] := by
  have hne' : label.map shownChar ≠ [] := by simpa using hne
  have htokens := (tokens_anchor hkind haddress hlabel).trans
    (tokensOf_inline (arePlain_anchor kind address) (isPlainTag (by decide)) hne')
  exact ⟨_, parse_inline (Or.inl rfl) htokens hne' (normalize_anchor hkind address)⟩

/-- So is a paragraph with an image. -/
theorem parse_image (haddress : '\r' ∉ address ∧ '\x00' ∉ address)
    (hdescription : '\r' ∉ description ∧ '\x00' ∉ description) :
    parse (paragraphText (imageText address description))
      = document [.element "p" [] [.element "img" (imageAttributes address description) []]] := by
  have hstart : Builder.empty.startTag "p" [] false = .inParagraph [] := Builder.startTag_empty (Or.inl rfl)
  rw [parse, tokens_image haddress hdescription, tokensOf_image]
  simp only [List.foldl_cons, List.foldl_nil, Builder.step, hstart, Builder.startTag_image, normalize_image,
    Builder.finish_inParagraph]
  rfl

/-- **An anchor leads to the name of its address** once its paragraph is read and cleaned. -/
theorem linkAddresses_anchor (hkind : kind ∈ anchorKinds) (haddress : '\r' ∉ address ∧ '\x00' ∉ address)
    (hfilled : address ≠ []) (hlabel : '\r' ∉ label) (hne : label ≠ []) :
    linkAddresses (clean (parse (paragraphText (anchorText kind address label)))) = [some (plainName address)] := by
  obtain ⟨content, hparse⟩ := parse_anchor hkind haddress hlabel hne
  have hclasses : isDecoration ⟨"a", anchorAttributes kind address, [.text content]⟩ = false := by
    have hvalue : classesOf (anchorAttributes kind address) = (words kind.toList).map String.ofList := rfl
    rw [isDecoration, hvalue]
    rcases mem_anchorKinds.mp hkind with rfl | rfl <;> decide +kernel
  rw [hparse, clean_linked rfl hclasses rfl (by simp), cleanAddresses_anchor hkind hfilled]
  rfl

/-- **An image is taken from the name of its address**, too. -/
theorem linkAddresses_image (haddress : '\r' ∉ address ∧ '\x00' ∉ address) (hfilled : address ≠ []) :
    linkAddresses (clean (parse (paragraphText (imageText address address)))) = [some (plainName address)] := by
  have hclasses : isDecoration ⟨"img", imageAttributes address address, []⟩ = false := by
    have hwords : (words "inline".toList).map String.ofList = ["inline"] := by decide +kernel
    have hvalue : classesOf (imageAttributes address address) = (words "inline".toList).map String.ofList := rfl
    rw [isDecoration, hvalue, hwords]
    decide
  rw [parse_image haddress haddress, clean_linked rfl hclasses rfl (by simp),
    cleanAddresses_image hfilled hfilled]
  rfl

end WikiMigration.Html

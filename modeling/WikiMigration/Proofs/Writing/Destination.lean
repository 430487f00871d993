/-
Addresses as the targets of links and images.

An address with blanks stands between angle brackets, and any other stands bare.  Nothing else about it is looked at.
Between angle brackets Markdown reads an address up to the first angle bracket, and a bare one up to the parenthesis
that closes none of its own.  So an address is read as it was if it has blanks and no angle brackets, or no blanks and
balanced parentheses; any other one ends early, or late, and the link with it.
-/
import WikiMigration.Writing.Page

namespace WikiMigration.Writing.Markdown

open Text Html

variable {c : Char} {depth : Nat} {text rest address tail read behind : List Char}

/-! ### What a destination is -/

/-- Every closing parenthesis of the text closes one that was opened before it, in the text or as one of the `depth`
before the text, and none of them stays open. -/
structure ClosesAll (depth : Nat) (text : List Char) : Prop where
  within : ∀ before, before <+: text → before.count ')' ≤ before.count '(' + depth
  total : text.count ')' = text.count '(' + depth

/-- The parentheses of the text close each other. -/
def IsBalanced (text : List Char) : Prop := ClosesAll 0 text

/-- The destination of a link to the address: between angle brackets if there are none in it, or bare without blanks
and with balanced parentheses. -/
def IsDestinationOf (written address : List Char) : Prop :=
  (written = '<' :: address ++ ['>'] ∧ '<' ∉ address ∧ '>' ∉ address) ∨
    (written = address ∧ (∀ c ∈ address, isBlank c = false) ∧ IsBalanced address)

/-- The address has blanks and no angle brackets, or no blanks and balanced parentheses. -/
def IsFit (address : List Char) : Prop :=
  if address.any isBlank then '<' ∉ address ∧ '>' ∉ address else IsBalanced address

theorem isDestinationOf_iff (address : List Char) :
    IsDestinationOf (destination address) address ↔ IsFit address := by
  have hlonger : '<' :: address ++ ['>'] ≠ address := by
    intro h
    have hlength := congrArg List.length h
    simp at hlength
    omega
  rw [IsDestinationOf, IsFit, destination]
  by_cases hblank : address.any isBlank = true
  · rw [if_pos hblank, if_pos hblank]
    exact ⟨fun h => (h.resolve_right fun h => hlonger h.1).2, fun h => .inl ⟨rfl, h⟩⟩
  · have hsolid : ∀ c ∈ address, isBlank c = false := by simpa using hblank
    rw [if_neg hblank, if_neg hblank]
    exact ⟨fun h => (h.resolve_left fun h => hlonger h.1.symm).2.2, fun h => .inr ⟨rfl, hsolid, h⟩⟩

/-! ### Reading a destination -/

/-- What is read, with a character in front. -/
def readBehind (c : Char) (read : Option (List Char × List Char)) : Option (List Char × List Char) :=
  read.map fun (text, rest) => (c :: text, rest)

/-- The text up to the closing angle bracket, on one line and without an opening one, and what is behind the bracket. -/
def readAngled : List Char → Option (List Char × List Char)
  | [] => none
  | c :: rest =>
    if c == '>' then some ([], rest)
    else if c == '<' || c == '\n' then none
    else readBehind c (readAngled rest)

/-- The text up to the first blank or the parenthesis that closes none of its own, and what is from there on; `depth`
counts the parentheses that are open. -/
def readBare (depth : Nat) : List Char → Option (List Char × List Char)
  | [] => none
  | c :: rest =>
    if isBlank c then if depth == 0 then some ([], c :: rest) else none
    else if c == '(' then readBehind c (readBare (depth + 1) rest)
    else if c == ')' then if depth == 0 then some ([], c :: rest) else readBehind c (readBare (depth - 1) rest)
    else readBehind c (readBare depth rest)

/-- The destination at the front of what is between a link's parentheses, and what is behind it. -/
def readDestination (text : List Char) : Option (List Char × List Char) :=
  match text with
  | '<' :: rest => readAngled rest
  | _ => readBare 0 text

theorem readBehind_eq_some {d : Char} {read : Option (List Char × List Char)} :
    readBehind c read = some (d :: text, rest) ↔ c = d ∧ read = some (text, rest) := by
  cases read with
  | none => simp [readBehind]
  | some found => simp [readBehind, Prod.ext_iff, and_assoc]

theorem readBehind_ne_nil (c : Char) (read : Option (List Char × List Char)) (rest : List Char) :
    readBehind c read ≠ some ([], rest) := by
  simp [readBehind]

/-- The text up to the first angle bracket is read. -/
theorem readAngled_eq_some :
    readAngled text = some (read, behind) ↔ text = read ++ '>' :: behind ∧ '<' ∉ read ∧ '>' ∉ read ∧ '\n' ∉ read := by
  induction text generalizing read with
  | nil => simp [readAngled]
  | cons c rest ih =>
    rw [readAngled]
    by_cases hclose : c = '>'
    · subst hclose
      cases read with
      | nil => simp
      | cons d more => grind
    · by_cases hbreak : c = '<' ∨ c = '\n'
      · rw [if_neg (by simpa using hclose), if_pos (by simpa using hbreak)]
        cases read with
        | nil => simp [hclose]
        | cons d more => grind
      · rw [if_neg (by simpa using hclose), if_neg (by simpa using hbreak)]
        cases read with
        | nil => simp [readBehind_ne_nil, hclose]
        | cons d more =>
          rw [readBehind_eq_some, ih]
          grind

/-! ### Parentheses -/

theorem forall_prefix_cons {p : List Char → Prop} :
    (∀ before, before <+: c :: rest → p before) ↔ p [] ∧ ∀ before, before <+: rest → p (c :: before) := by
  refine ⟨fun h => ⟨h [] List.nil_prefix, fun before hbefore => h _ (List.cons_prefix_cons.mpr ⟨rfl, hbefore⟩)⟩, ?_⟩
  rintro ⟨hnil, hcons⟩ before hbefore
  rcases List.prefix_cons_iff.mp hbefore with rfl | ⟨more, rfl, hmore⟩
  · exact hnil
  · exact hcons more hmore

theorem closesAll_nil : ClosesAll depth [] ↔ depth = 0 := by
  refine ⟨fun h => ?_, fun h => ⟨by simp, by simp [h]⟩⟩
  have htotal := h.total
  simpa using htotal.symm

/-- The first character opens a parenthesis, closes one, or neither. -/
theorem closesAll_cons {next : Nat} (hnext : depth + (if c = '(' then 1 else 0) = next + (if c = ')' then 1 else 0)) :
    ClosesAll depth (c :: rest) ↔ ClosesAll next rest := by
  have hopen : ∀ text, (c :: text).count '(' = text.count '(' + if c = '(' then 1 else 0 := by simp [List.count_cons]
  have hclose : ∀ text, (c :: text).count ')' = text.count ')' + if c = ')' then 1 else 0 := by simp [List.count_cons]
  constructor <;> rintro ⟨hwithin, htotal⟩
  · rw [forall_prefix_cons] at hwithin
    rw [hopen, hclose] at htotal
    refine ⟨fun before h => ?_, by omega⟩
    have hbefore := hwithin.2 before h
    rw [hopen, hclose] at hbefore
    omega
  · refine ⟨forall_prefix_cons.mpr ⟨by simp, fun before h => ?_⟩, ?_⟩
    · have hbefore := hwithin before h
      rw [hopen, hclose]
      omega
    · rw [hopen, hclose]
      omega

/-- With none open there is none to close. -/
theorem not_closesAll_close (rest : List Char) : ¬ ClosesAll 0 (')' :: rest) := by
  intro h
  have hfirst := h.within [')'] (List.prefix_append [')'] rest)
  simp at hfirst

/-- What ends a bare destination: a blank or a closing parenthesis. -/
def IsTail (tail : List Char) : Prop := ∃ c others, tail = c :: others ∧ (isBlank c = true ∨ c = ')')

/-- A bare address is read up to what stands behind it if it has no blanks and closes the parentheses that are open. -/
theorem readBare_eq_some (htail : IsTail tail) :
    readBare depth (address ++ tail) = some (address, tail) ↔
      (∀ c ∈ address, isBlank c = false) ∧ ClosesAll depth address := by
  have hmarks : isBlank '(' = false ∧ isBlank ')' = false := by decide
  induction address generalizing depth with
  | nil =>
    obtain ⟨c, others, rfl, hc⟩ := htail
    rw [List.nil_append, readBare, closesAll_nil]
    rcases hc with hblank | rfl
    · by_cases hdepth : depth = 0 <;> simp [hblank, hdepth]
    · by_cases hdepth : depth = 0 <;> simp [hmarks.2, hdepth, readBehind_ne_nil]
  | cons c rest ih =>
    rw [List.cons_append, readBare, List.forall_mem_cons]
    by_cases hblank : isBlank c = true
    · by_cases hdepth : depth = 0 <;> simp [hblank, hdepth]
    have hsolid : isBlank c = false := by simpa using hblank
    rw [if_neg hblank]
    by_cases hopen : c = '('
    · have hnext : ClosesAll depth (c :: rest) ↔ ClosesAll (depth + 1) rest := closesAll_cons (by simp [hopen])
      rw [if_pos (by simpa using hopen), readBehind_eq_some, hnext]
      simp [ih, hsolid]
    rw [if_neg (by simpa using hopen)]
    by_cases hclose : c = ')'
    · rw [if_pos (by simpa using hclose)]
      cases depth with
      | zero =>
        have hnone := hclose ▸ not_closesAll_close rest
        simp [hnone]
      | succ depth =>
        have hnext : ClosesAll (depth + 1) (c :: rest) ↔ ClosesAll depth rest := closesAll_cons (by simp [hclose])
        rw [if_neg (by simp), readBehind_eq_some, hnext]
        simp [ih, hsolid]
    · have hnext : ClosesAll depth (c :: rest) ↔ ClosesAll depth rest := closesAll_cons (by simp [hopen, hclose])
      rw [if_neg (by simpa using hclose), readBehind_eq_some, hnext]
      simp [ih, hsolid]

/-! ### Targets -/

/-- **A destination is read back if the address fits and does not look like one between angle brackets.** -/
theorem readDestination_eq_some (hline : '\n' ∉ address) (htail : IsTail tail) :
    readDestination (destination address ++ tail) = some (address, tail) ↔
      IsFit address ∧ (address.any isBlank = false → address.head? ≠ some '<') := by
  rw [destination, IsFit]
  by_cases hblank : address.any isBlank = true
  · have hread : readDestination ('<' :: address ++ ['>'] ++ tail) = readAngled (address ++ '>' :: tail) := by
      simp [readDestination]
    rw [if_pos hblank, if_pos hblank, hread, readAngled_eq_some]
    simp [hblank, hline]
  · have hsolid : ∀ c ∈ address, isBlank c = false := by simpa using hblank
    rw [if_neg hblank, if_neg hblank]
    by_cases hangle : (address ++ tail).head? = some '<'
    · have hhead : address.head? = some '<' := by
        cases address with
        | cons c more => exact hangle
        | nil =>
          obtain ⟨c, others, rfl, hc⟩ := htail
          obtain rfl := Option.some.inj hangle
          exact absurd hc (by decide)
      obtain ⟨more, rfl⟩ := List.head?_eq_some_iff.mp hhead
      have hread : readDestination ('<' :: more ++ tail) ≠ some ('<' :: more, tail) := fun h =>
        (readAngled_eq_some.mp h).2.1 List.mem_cons_self
      exact ⟨fun h => absurd h hread, fun h => absurd rfl (h.2 (Bool.eq_false_iff.mpr hblank))⟩
    · have hread : readDestination (address ++ tail) = readBare 0 (address ++ tail) := by
        unfold readDestination
        split
        · next heq => exact absurd (congrArg List.head? heq) hangle
        · rfl
      have hhead : address.head? ≠ some '<' := by
        intro h
        obtain ⟨more, rfl⟩ := List.head?_eq_some_iff.mp h
        exact hangle rfl
      rw [hread, readBare_eq_some htail]
      exact ⟨fun h => ⟨h.2, fun _ => hhead⟩, fun h => ⟨hsolid, h.1⟩⟩

/-- The markup of a link or an image.  Its destination is one for the address if that fits, and it is the address that
Markdown reads, with the title and the closing parenthesis behind it, if it does not start like one between angle
brackets. -/
structure IsTargeted (written opening address title closing : List Char) : Prop where
  parts : written = opening ++ "](".toList ++ (destination address ++ (title ++ ')' :: closing))
  formed_iff : IsDestinationOf (destination address) address ↔ IsFit address
  read_iff : ∀ rest, readDestination (destination address ++ (title ++ ')' :: (closing ++ rest))) =
      some (address, title ++ ')' :: (closing ++ rest)) ↔
    IsFit address ∧ (address.any isBlank = false → address.head? ≠ some '<')

/-- A title stands behind a space, and without one the closing parenthesis comes first. -/
theorem isTail_linkTitle (title rest : List Char) : IsTail (linkTitle title ++ ')' :: rest) := by
  rw [linkTitle]
  split
  · exact ⟨')', rest, rfl, .inr rfl⟩
  · exact ⟨' ', _, rfl, .inl (by decide)⟩

theorem isTargeted {written opening closing : List Char} (title : List Char)
    (parts : written = opening ++ "](".toList ++ (destination address ++ (linkTitle title ++ ')' :: closing)))
    (hline : '\n' ∉ address) : IsTargeted written opening address (linkTitle title) closing where
  parts := parts
  formed_iff := isDestinationOf_iff address
  read_iff rest := readDestination_eq_some hline (isTail_linkTitle title (closing ++ rest))

/-- The text within an element. -/
def textWithin (place : Place) (e : Element) : List Char :=
  joinTexts place e.name (keptTexts e.name none e.children (writeNodes .markdown (place.inside e) [] e.children))

/-- The description of an image. -/
def description (e : Element) : List Char := if (valueOf "alt" e).isEmpty then valueOf "title" e else valueOf "alt" e

/-- **The destination of a link or an image denotes its address if that fits**, and only then: with blanks and no angle
brackets, or without blanks and with balanced parentheses.  In code there are no links, and a link needs a text and an
address. -/
theorem destinations_denote_iff (place : Place) (before behind : List Node) (e : Element) :
    (e.name = "a" → place.verbatim = false → (chomp (textWithin place e)).text ≠ [] →
      valueOf "href" e ≠ [] → '\n' ∉ valueOf "href" e →
      IsTargeted (writeNode .markdown place before behind (.element e.name e.attributes e.children)).text
        ((chomp (textWithin place e)).before ++ '[' :: (chomp (textWithin place e)).text)
        (valueOf "href" e) (linkTitle (valueOf "title" e)) (chomp (textWithin place e)).after) ∧
    (e.name = "img" → '\n' ∉ valueOf "src" e →
      IsTargeted (writeNode .markdown place before behind (.element e.name e.attributes e.children)).text
        ("![".toList ++ description e) (valueOf "src" e) [] []) := by
  obtain ⟨name, attributes, children⟩ := e
  constructor
  · rintro rfl hverbatim hfilled haddress hline
    have hlink : (writeNode .markdown place before behind (.element "a" attributes children)).text =
        writeLink place ⟨"a", attributes, children⟩ (textWithin place ⟨"a", attributes, children⟩) := rfl
    refine isTargeted _ ?_ hline
    rw [hlink, writeLink, hverbatim, if_neg Bool.false_ne_true, if_neg (by simpa using hfilled),
      if_neg (by simpa using haddress)]
    simp [Chomped.around]
  · rintro rfl hline
    have himage : (writeNode .markdown place before behind (.element "img" attributes children)).text =
        "![".toList ++ description ⟨"img", attributes, children⟩ ++ "](".toList ++
          destination (valueOf "src" ⟨"img", attributes, children⟩) ++ [')'] := rfl
    refine isTargeted [] ?_ hline
    rw [himage]
    simp [linkTitle]

/-- A link to a name with blanks and a title, and an image. -/
theorem named_page_denoted :
    IsTargeted (writeNode .markdown .outside [] [] (.element "a"
        [⟨"href", "Other Page".toList⟩, ⟨"title", "a (b)".toList⟩] [.text "x".toList])).text
      "[x".toList "Other Page".toList " \"a (b)\"".toList [] ∧
    IsTargeted (writeNode .markdown .outside [] [] (.element "img" [⟨"src", "a(b)".toList⟩] [])).text
      "![".toList "a(b)".toList [] [] :=
  ⟨(destinations_denote_iff .outside [] [] ⟨"a", [⟨"href", "Other Page".toList⟩, ⟨"title", "a (b)".toList⟩],
      [.text "x".toList]⟩).1 rfl rfl (by decide) (by decide) (by decide),
    (destinations_denote_iff .outside [] [] ⟨"img", [⟨"src", "a(b)".toList⟩], []⟩).2 rfl (by decide)⟩

/-- A parenthesis of an address takes the one that was to end the link. -/
theorem open_parenthesis_takes_end :
    (writeNode .markdown .outside [] [] (.element "a" [⟨"href", "a(b".toList⟩] [.text "x".toList])).text =
        "[x](a(b)".toList ∧
      ¬ IsDestinationOf "a(b".toList "a(b".toList ∧ readDestination "a(b)".toList = none := by
  refine ⟨by decide, ?_, by decide⟩
  rintro (h | h)
  · exact absurd h.1 (by decide)
  · exact absurd h.2.2.total (by decide)

end WikiMigration.Writing.Markdown

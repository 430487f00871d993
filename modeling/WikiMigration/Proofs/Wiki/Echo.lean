/-
Where the characters of a written page come from.

A page is written with tags, entities and plain characters of its own, and with the characters of its text.
Which is which shows when the text is renamed: what the writer adds stays the same, and a character of the
text gives way to its new name, written the same way.  An echo of a written page is the page written anew
for a renamed text.  It knows no way to write an angle bracket or an ampersand of the text but by an
entity or by percent signs.
-/
import WikiMigration.Proofs.Wiki.Renaming

namespace WikiMigration.Wiki

open Text

/-! ### Tags and entities -/

/-- The names of the tags that pages are written with. -/
def tagNames : List String :=
  ["p", "hr", "h2", "h3", "h4", "a", "ul", "ol", "li", "dl", "dt", "dd", "table", "tr", "th", "td",
    "div", "span", "pre", "code", "b", "i", "sup", "sub", "del", "br", "img"]

/-- The fronts of tags: an angle bracket, perhaps a slash, a name, and a space or the other bracket. -/
def tagFronts : List (List Char) :=
  tagNames.flatMap fun name => [[], ['/']].flatMap fun slash => [' ', '>'].map fun ending =>
    '<' :: (slash ++ name.toList ++ [ending])

/-- The entities that escaping writes. -/
def entities : List (List Char) :=
  ["&amp;".toList, "&lt;".toList, "&gt;".toList, "&quot;".toList, "&#x27;".toList]

/-- Every opening bracket starts a tag, and every ampersand an entity. -/
def Tame (out : List Char) : Prop :=
  (∀ front behind, out = front ++ '<' :: behind → ∃ tag ∈ tagFronts, tag <+: '<' :: behind) ∧
    ∀ front behind, out = front ++ '&' :: behind → ∃ entity ∈ entities, entity <+: '&' :: behind

variable {x y x' y' b b' : List Char} {c : Char}

/-- What is found behind a character of two joined texts is found in one of them. -/
theorem starts_append {starts : List (List Char)}
    (hx : ∀ front behind, x = front ++ c :: behind → ∃ t ∈ starts, t <+: c :: behind)
    (hy : ∀ front behind, y = front ++ c :: behind → ∃ t ∈ starts, t <+: c :: behind) :
    ∀ front behind, x ++ y = front ++ c :: behind → ∃ t ∈ starts, t <+: c :: behind := by
  intro front behind h
  rcases List.append_eq_append_iff.mp h with ⟨a, -, hy'⟩ | ⟨a, hx', hrest⟩
  · exact hy a behind hy'
  · cases a with
    | nil => exact hy [] behind hrest.symm
    | cons d a =>
      rw [List.cons_append, List.cons.injEq] at hrest
      obtain ⟨rfl, rfl⟩ := hrest
      obtain ⟨t, ht, hprefix⟩ := hx front a hx'
      exact ⟨t, ht, hprefix.trans (List.prefix_append (c :: a) y)⟩

theorem Tame.append (hx : Tame x) (hy : Tame y) : Tame (x ++ y) :=
  ⟨starts_append hx.1 hy.1, starts_append hx.2 hy.2⟩

theorem tame_of_plain (h : ∀ c ∈ x, c ≠ '<' ∧ c ≠ '&') : Tame x := by
  constructor
  · rintro front behind rfl
    exact absurd rfl (h '<' (by simp)).1
  · rintro front behind rfl
    exact absurd rfl (h '&' (by simp)).2

/-- A text that is the start of something in whole, with plain characters behind the first. -/
theorem starts_self {starts : List (List Char)} (h : c :: x ∈ starts) (hx : c ∉ x) :
    ∀ front behind, c :: x = front ++ c :: behind → ∃ t ∈ starts, t <+: c :: behind := by
  intro front behind hsplit
  cases front with
  | nil => exact ⟨c :: x, h, hsplit ▸ List.prefix_refl _⟩
  | cons d front =>
    rw [List.cons_append, List.cons.injEq] at hsplit
    exact absurd (hsplit.2 ▸ by simp) hx

/-- The front of a tag has one bracket, its first character, and no ampersand. -/
theorem tagFront_shape (h : x ∈ tagFronts) : x = '<' :: x.tail ∧ '<' ∉ x.tail ∧ '&' ∉ x.tail := by
  have hshape : ∀ t ∈ tagFronts, t = '<' :: t.tail ∧ '<' ∉ t.tail ∧ '&' ∉ t.tail := by decide +kernel
  exact hshape x h

theorem tame_front (h : x ∈ tagFronts) : Tame x := by
  obtain ⟨hx, hopen, hamp⟩ := tagFront_shape h
  generalize x.tail = rest at hx hopen hamp
  subst hx
  refine ⟨starts_self h hopen, fun front behind hsplit => absurd ?_ hamp⟩
  have hmem : '&' ∈ '<' :: rest := hsplit ▸ by simp
  simpa using hmem

theorem tame_entity (h : x ∈ entities) : Tame x := by
  have hshape : ∀ t ∈ entities, t = '&' :: t.tail ∧ '&' ∉ t.tail ∧ '<' ∉ t.tail := by decide
  obtain ⟨hx, hamp, hopen⟩ := hshape x h
  generalize x.tail = rest at hx hopen hamp
  subst hx
  refine ⟨fun front behind hsplit => absurd ?_ hopen, starts_self h hamp⟩
  have hmem : '<' ∈ '&' :: rest := hsplit ▸ by simp
  simpa using hmem

/-! ### Escaped characters -/

/-- An escaped character is an entity, or is itself and plain. -/
theorem escapeChar_cases (c : Char) :
    Html.escapeChar c ∈ entities ∨ (Html.escapeChar c = [c] ∧ c ≠ '<' ∧ c ≠ '&') := by
  unfold Html.escapeChar
  split
  · exact Or.inl (by decide)
  next hamp =>
    split
    · exact Or.inl (by decide)
    next hopen =>
      split
      · exact Or.inl (by decide)
      · exact Or.inr ⟨rfl, by simpa using hopen, by simpa using hamp⟩

theorem escapeAttributeChar_cases (c : Char) :
    Html.escapeAttributeChar c ∈ entities ∨
      (Html.escapeAttributeChar c = [c] ∧ c ≠ '<' ∧ c ≠ '&') := by
  unfold Html.escapeAttributeChar
  split
  · exact Or.inl (by decide)
  split
  · exact Or.inl (by decide)
  · exact escapeChar_cases c

/-- Percent-encoding writes plain characters. -/
theorem plain_of_mem_encodeChar {c d : Char} (h : d ∈ Url.encodeChar c) : d ≠ '<' ∧ d ≠ '&' := by
  rcases Url.class_of_mem_encodeChar h with hd | rfl
  · exact ⟨Url.ne_of_isUnreserved hd (by decide), Url.ne_of_isUnreserved hd (by decide)⟩
  · decide

/-- The ways to write a character of the text: as running text, as an attribute value, percent-encoded,
and any of them as an attribute value again. -/
inductive IsForm : (Char → List Char) → Prop
  | running : IsForm Html.escapeChar
  | quoted : IsForm Html.escapeAttributeChar
  | encoded : IsForm Url.encodeChar
  | again {form : Char → List Char} (hform : IsForm form) : IsForm fun c => Html.escapeAttribute (form c)

theorem tame_escapeAttributeChar (c : Char) : Tame (Html.escapeAttributeChar c) := by
  rcases escapeAttributeChar_cases c with h | ⟨h, hopen, hamp⟩
  · exact tame_entity h
  · rw [h]
    exact tame_of_plain (by simp [hopen, hamp])

theorem tame_escapeAttribute (text : List Char) : Tame (Html.escapeAttribute text) := by
  induction text with
  | nil => exact tame_of_plain (by simp [Html.escapeAttribute])
  | cons c rest ih =>
    rw [Html.escapeAttribute, List.flatMap_cons]
    exact (tame_escapeAttributeChar c).append ih

/-- However a character is written, it is tame. -/
theorem tame_form {form : Char → List Char} (h : IsForm form) (c : Char) : Tame (form c) := by
  cases h with
  | running =>
    rcases escapeChar_cases c with h | ⟨h, hopen, hamp⟩
    · exact tame_entity h
    · rw [h]
      exact tame_of_plain (by simp [hopen, hamp])
  | quoted => exact tame_escapeAttributeChar c
  | encoded => exact tame_of_plain fun d hd => plain_of_mem_encodeChar hd
  | again _ => exact tame_escapeAttribute _

/-! ### Echoes -/

variable {σ : Renaming}

/-- A piece of the written page and the same piece for the renamed text: the front of a tag, an entity,
or a character of the text with its new name. -/
inductive Block (σ : Renaming) : List Char → List Char → Prop
  | front {tag : List Char} (h : tag ∈ tagFronts) : Block σ tag tag
  | entity {entity : List Char} (h : entity ∈ entities) : Block σ entity entity
  | written {form : Char → List Char} {c : Char} (hform : IsForm form) (hc : isInert c = true) :
      Block σ (form c) (form (σ c))

/-- What is written for a text, and what is written for the renamed text. -/
inductive Echo (σ : Renaming) : List Char → List Char → Prop
  | nil : Echo σ [] []
  | plain {c : Char} {x y : List Char} (hopen : c ≠ '<') (hamp : c ≠ '&') (h : Echo σ x y) :
      Echo σ (c :: x) (c :: y)
  | block {b b' x y : List Char} (hblock : Block σ b b') (h : Echo σ x y) : Echo σ (b ++ x) (b' ++ y)

theorem Block.echo (h : Block σ b b') : Echo σ b b' := by
  simpa using Echo.block h .nil

theorem Echo.append (h : Echo σ x y) (h' : Echo σ x' y') : Echo σ (x ++ x') (y ++ y') := by
  induction h with
  | nil => exact h'
  | plain hopen hamp _ ih => exact .plain hopen hamp ih
  | block hblock _ ih =>
    rw [List.append_assoc, List.append_assoc]
    exact .block hblock ih

theorem Block.tame (h : Block σ b b') : Tame b := by
  cases h with
  | front h => exact tame_front h
  | entity h => exact tame_entity h
  | written hform _ => exact tame_form hform _

/-- What has an echo is tame. -/
theorem Echo.tame (h : Echo σ x y) : Tame x := by
  induction h with
  | nil => exact tame_of_plain (by simp)
  | plain hopen hamp _ ih =>
    rw [← List.singleton_append]
    exact (tame_of_plain (by simp [hopen, hamp])).append ih
  | block hblock _ ih => exact hblock.tame.append ih

/-! ### What the writer adds -/

/-- Whether a text is made of fronts of tags and plain characters. -/
def isOwnText : List Char → Bool
  | [] => true
  | c :: rest =>
    (if c == '<' then tagFronts.any fun tag => tag.isPrefixOf (c :: rest) else c != '&') && isOwnText rest

theorem isOwnText_of_append (h : isOwnText (x ++ y) = true) : isOwnText y = true := by
  induction x with
  | nil => exact h
  | cons c x ih =>
    rw [List.cons_append, isOwnText, Bool.and_eq_true] at h
    exact ih h.2

/-- What holds of the empty text and stays true when a front of a tag or a plain character is put in
front holds of every text of the writer's own. -/
theorem ownText_induction {motive : List Char → Prop} (nil : motive [])
    (front : ∀ tag ∈ tagFronts, ∀ behind, motive behind → motive (tag ++ behind))
    (plain : ∀ c rest, c ≠ '<' → c ≠ '&' → motive rest → motive (c :: rest))
    (hx : isOwnText x = true) : motive x := by
  induction hn : x.length using Nat.strong_induction_on generalizing x with
  | _ n ih =>
    subst hn
    cases x with
    | nil => exact nil
    | cons c rest =>
      rw [isOwnText, Bool.and_eq_true] at hx
      obtain ⟨hc, hrest⟩ := hx
      split at hc
      next hopen =>
        obtain rfl : c = '<' := by simpa using hopen
        obtain ⟨tag, htag, hprefix⟩ := List.any_eq_true.mp hc
        obtain ⟨behind, hbehind⟩ := List.isPrefixOf_iff_prefix.mp hprefix
        have htag' : tag = '<' :: tag.tail := (tagFront_shape htag).1
        generalize tag.tail = inner at htag'
        subst htag'
        obtain rfl : inner ++ behind = rest := by simpa using hbehind
        exact front _ htag _ (ih behind.length (by rw [List.length_cons, List.length_append]; omega) (isOwnText_of_append hrest) rfl)
      next hopen =>
        exact plain c rest (by simpa using hopen) (by simpa using hc)
          (ih rest.length (by simp) hrest rfl)

theorem echo_own (hx : isOwnText x = true) : Echo σ x x :=
  ownText_induction (motive := fun x => Echo σ x x) .nil (fun _ htag _ h => .block (.front htag) h)
    (fun _ _ hopen hamp h => .plain hopen hamp h) hx

/-- The texts that a page is written with around its own text, where nothing is filled into them. -/
def ownTexts : List String :=
  ["<p>", "</p>", "<pre>", "</pre>", "<code>", "</code>", "<span class=\"wikiplugin\">", "</span>",
    "<a class=\"footnote\" name=\"", "<a class=\"footnoteref\" href=\"#", "\">[#", "\">[", "]</a>", "ref-",
    "<a class=\"", "\" href=\"", "\">", "</a>", "<img class=\"inline\" src=\"", "\" alt=\"", "\" />",
    "<table class=\"wikitable\" border=\"1\">", "</table>", "<tr>", "</tr>", "</li>", "<li>", "<hr />",
    "<a class=\"hashlink\" href=\"#", "<dl>", "<dt>", "</dt>", "<dd>", "</dd></dl>", "</div>"]

/-- All of them are made of fronts of tags and plain characters. -/
theorem own_of_mem_ownTexts : ∀ text ∈ ownTexts, isOwnText text.toList = true := by decide

theorem echo_ownText {text : String} (h : text ∈ ownTexts) : Echo σ text.toList text.toList :=
  echo_own (own_of_mem_ownTexts text h)

theorem echo_plain (h : ∀ c ∈ x, c ≠ '<' ∧ c ≠ '&') : Echo σ x x := by
  induction x with
  | nil => exact .nil
  | cons c x ih => exact .plain (h c (by simp)).1 (h c (by simp)).2 (ih fun d hd => h d (by simp [hd]))

theorem echo_flatMap {α : Type} {f g : α → List Char} {xs : List α} (h : ∀ a ∈ xs, Echo σ (f a) (g a)) :
    Echo σ (xs.flatMap f) (xs.flatMap g) := by
  induction xs with
  | nil => exact .nil
  | cons a xs ih =>
    rw [List.flatMap_cons, List.flatMap_cons]
    exact (h a (by simp)).append (ih fun b hb => h b (by simp [hb]))

/-- A text of the writer's own as an attribute value. -/
theorem echo_quotedOwn (text : List Char) :
    Echo σ (Html.escapeAttribute text) (Html.escapeAttribute text) := by
  refine echo_flatMap fun c _ => ?_
  rcases escapeAttributeChar_cases c with h | ⟨h, hopen, hamp⟩
  · exact (Block.entity h).echo
  · rw [h]
    exact echo_plain (by simp [hopen, hamp])

/-! ### What the text adds -/

/-- A text has an echo if its inert characters are written in one of the ways, and all others have one. -/
theorem echo_text {f form : Char → List Char} (hform : IsForm form)
    (hinert : ∀ c, isInert c = true → f c = form c)
    (hown : ∀ c, isInert c = false → Echo σ (f c) (f c)) (text : List Char) :
    Echo σ (text.flatMap f) ((σ.text text).flatMap f) := by
  rw [Renaming.text, List.flatMap_map]
  refine echo_flatMap fun c _ => ?_
  by_cases hc : isInert c = true
  · rw [hinert c hc, hinert (σ c) ((σ.inert c).trans hc)]
    exact (Block.written hform hc).echo
  · rw [σ.fixes c (by simpa using hc)]
    exact hown c (by simpa using hc)

theorem escapeChar_of_not_inert {c : Char} (hc : isInert c = false) : Html.escapeChar c = [c] := by
  have hne : ∀ d, isInert d = true → c ≠ d := fun d hd => (ne_of_isInert hd hc).symm
  simp [Html.escapeChar, hne '&' (by decide), hne '<' (by decide), hne '>' (by decide)]

theorem echo_escape (text : List Char) : Echo σ (Html.escape text) (Html.escape (σ.text text)) := by
  refine echo_text .running (fun _ _ => rfl) (fun c _ => ?_) text
  rcases escapeChar_cases c with h | ⟨h, hopen, hamp⟩
  · exact (Block.entity h).echo
  · rw [h]
    exact echo_plain (by simp [hopen, hamp])

theorem echo_quoted (text : List Char) :
    Echo σ (Html.escapeAttribute text) (Html.escapeAttribute (σ.text text)) := by
  refine echo_text .quoted (fun _ _ => rfl) (fun c _ => ?_) text
  simpa [Html.escapeAttribute] using echo_quotedOwn (σ := σ) [c]

/-- What has an echo has one as an attribute value. -/
theorem Echo.quoted (h : Echo σ x y) : Echo σ (Html.escapeAttribute x) (Html.escapeAttribute y) := by
  induction h with
  | nil => exact .nil
  | @plain c x y _ _ _ ih =>
    have hc := echo_quotedOwn (σ := σ) [c]
    rw [← List.singleton_append, ← List.singleton_append (l := y), Html.escapeAttribute,
      Html.escapeAttribute, List.flatMap_append, List.flatMap_append]
    exact hc.append ih
  | block hblock _ ih =>
    rw [Html.escapeAttribute, Html.escapeAttribute, List.flatMap_append, List.flatMap_append]
    refine Echo.append ?_ ih
    cases hblock with
    | front | entity => exact echo_quotedOwn _
    | written hform hc => exact (Block.written (.again hform) hc).echo

theorem isUnreserved_of_isInert {c : Char} (hc : isInert c = true) : Url.isUnreserved c = false := by
  have hne : ∀ d, isInert d = false → c ≠ d := fun d hd => ne_of_isInert hc hd
  simp [Url.isUnreserved, seesInert_isLatin c hc, seesInert_isDigit c hc, hne '_' (by decide),
    hne '.' (by decide), hne '-' (by decide), hne '~' (by decide)]

theorem echo_encodeQuery (text : List Char) :
    Echo σ (Url.encodeQuery text) (Url.encodeQuery (σ.text text)) := by
  refine echo_text .encoded (fun c hc => ?_) (fun c _ => ?_) text
  · have hspace : c ≠ ' ' := by
      rintro rfl
      exact absurd hc (by decide)
    simp [isUnreserved_of_isInert hc, hspace]
  · refine echo_plain fun d hd => ?_
    have hd : d ∈ Url.encodeQuery [c] := by simpa [Url.encodeQuery] using hd
    rcases Url.class_of_mem_encodeQuery hd with h | rfl | rfl
    · exact ⟨Url.ne_of_isUnreserved h (by decide), Url.ne_of_isUnreserved h (by decide)⟩
    · decide
    · decide

theorem plain_of_mem_encodePath {path : List Char} {d : Char} (h : d ∈ Url.encodePath path) :
    d ≠ '<' ∧ d ≠ '&' := by
  obtain ⟨c, -, hd⟩ := List.mem_flatMap.mp h
  split at hd
  next hc =>
    obtain rfl := List.mem_singleton.mp hd
    rcases Bool.or_eq_true_iff.mp hc with hc | hc
    · exact ⟨Url.ne_of_isUnreserved hc (by decide), Url.ne_of_isUnreserved hc (by decide)⟩
    · rw [beq_iff_eq.mp hc]
      decide
  next => exact plain_of_mem_encodeChar hd

theorem echo_encodePath (text : List Char) :
    Echo σ (Url.encodePath text) (Url.encodePath (σ.text text)) := by
  refine echo_text .encoded (fun c hc => ?_) (fun c _ => ?_) text
  · have hslash : c ≠ '/' := by
      rintro rfl
      exact absurd hc (by decide)
    simp [isUnreserved_of_isInert hc, hslash]
  · refine echo_plain fun d hd => ?_
    have hd : d ∈ Url.encodePath [c] := by simpa [Url.encodePath] using hd
    exact plain_of_mem_encodePath hd

end WikiMigration.Wiki

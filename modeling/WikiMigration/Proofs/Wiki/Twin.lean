/-
Emphasis and styles in a renamed line.

Once its running text is escaped, a line in work is made of marks, of plain characters and of blocks: tags,
entities and written characters.  A block can be written differently for a renamed text, but it holds none
of the characters that emphasis, styles and line breaks are made of, so a pattern can neither start nor
end inside one.  The passes thus find the same matches in a line and in its twin, and what they put in the
place of matches that are twins are twins again.
-/
import WikiMigration.Proofs.Text.Lines
import WikiMigration.Proofs.Text.Scan
import WikiMigration.Proofs.Wiki.Echo

namespace WikiMigration.Wiki

open Text

variable {σ : Renaming} {xs ys xs' ys' : List Piece} {b b' : List Char} {c : Char}

/-! ### Twins -/

/-- A piece with its character renamed. -/
def Piece.renamed (σ : Renaming) : Piece → Piece
  | .char c => .char (σ c)
  | .held index => .held index

/-- The characters that the passes over escaped text look for. -/
def passChars : List Char := "_'\x7b\x7d%\\()".toList

/-- A block that no match of a pass starts or ends in. -/
structure Solid (b : List Char) : Prop where
  head : ∃ c rest, b = c :: rest ∧ isInert c = true
  inner : ∀ c ∈ b, c ∉ passChars
  last : b.getLast? ≠ some '/'

/-- The pieces of a line in work and those for the renamed text. -/
inductive Twin (σ : Renaming) : List Piece → List Piece → Prop
  | nil : Twin σ [] []
  | held (index : Nat) {xs ys : List Piece} (h : Twin σ xs ys) :
      Twin σ (.held index :: xs) (.held index :: ys)
  | plain {c : Char} {xs ys : List Piece} (hopen : c ≠ '<') (hamp : c ≠ '&') (h : Twin σ xs ys) :
      Twin σ (.char c :: xs) (.char c :: ys)
  | block {b b' : List Char} {xs ys : List Piece} (hblock : Block σ b b') (solid : Solid b)
      (solid' : Solid b') (h : Twin σ xs ys) : Twin σ (Piece.ofText b ++ xs) (Piece.ofText b' ++ ys)

theorem Twin.append (h : Twin σ xs ys) (h' : Twin σ xs' ys') : Twin σ (xs ++ xs') (ys ++ ys') := by
  induction h with
  | nil => exact h'
  | held index _ ih => exact .held index ih
  | plain hopen hamp _ ih => exact .plain hopen hamp ih
  | block hblock solid solid' _ ih =>
    rw [List.append_assoc, List.append_assoc]
    exact .block hblock solid solid' ih

theorem ofText_append (text rest : List Char) :
    Piece.ofText (text ++ rest) = Piece.ofText text ++ Piece.ofText rest := List.map_append

theorem ofText_cons (c : Char) (text : List Char) :
    Piece.ofText (c :: text) = .char c :: Piece.ofText text := rfl

theorem Twin.ofBlock (hblock : Block σ b b') (solid : Solid b) (solid' : Solid b') :
    Twin σ (Piece.ofText b) (Piece.ofText b') := by
  simpa using Twin.block hblock solid solid' .nil

/-! ### Solid blocks -/

/-- The test for a block that no match starts or ends in. -/
def isSolid (b : List Char) : Bool :=
  b.head?.any isInert && b.all (fun c => !passChars.contains c) && b.getLast? != some '/'

theorem solid_of_isSolid (h : isSolid b = true) : Solid b := by
  simp only [isSolid, Bool.and_eq_true] at h
  obtain ⟨⟨hhead, hinner⟩, hlast⟩ := h
  refine ⟨?_, by simpa using hinner, by simpa using hlast⟩
  cases b with
  | nil => cases hhead
  | cons c rest => exact ⟨c, rest, rfl, hhead⟩

theorem solid_front (h : b ∈ tagFronts) : Solid b := by
  have hall : ∀ t ∈ tagFronts, isSolid t = true := by decide +kernel
  exact solid_of_isSolid (hall b h)

theorem solid_entity (h : b ∈ entities) : Solid b := by
  have hall : ∀ t ∈ entities, isSolid t = true := by decide
  exact solid_of_isSolid (hall b h)

theorem passChars_not_inert {c : Char} (h : c ∈ passChars) : isInert c = false := by
  exact isInert_of_mem (by decide) c h

theorem solid_singleton (hc : isInert c = true) : Solid [c] where
  head := ⟨c, [], rfl, hc⟩
  inner := by
    intro d hd hmem
    obtain rfl := List.mem_singleton.mp hd
    rw [passChars_not_inert hmem] at hc
    cases hc
  last := by
    intro h
    obtain rfl : c = '/' := by simpa using h
    exact absurd hc (by decide)

theorem solid_escapeChar (hc : isInert c = true) : Solid (Html.escapeChar c) := by
  rcases escapeChar_cases c with h | ⟨h, -, -⟩
  · exact solid_entity h
  · rw [h]
    exact solid_singleton hc

theorem mem_escapeAttributeChar {c d : Char} (h : d ∈ Html.escapeAttributeChar c)
    (hc : c ∉ passChars) : d ∉ passChars := by
  rcases escapeAttributeChar_cases c with hentity | ⟨hself, -, -⟩
  · exact (solid_entity hentity).inner d h
  · rw [hself] at h
    exact List.mem_singleton.mp h ▸ hc

/-- A block stays solid as an attribute value. -/
theorem Solid.quoted (h : Solid b) : Solid (Html.escapeAttribute b) where
  head := by
    obtain ⟨c, rest, rfl, hc⟩ := h.head
    rw [Html.escapeAttribute, List.flatMap_cons]
    rcases escapeAttributeChar_cases c with hentity | ⟨hself, -, -⟩
    · obtain ⟨d, rest', hd, hinert⟩ := (solid_entity hentity).head
      exact ⟨d, _, by rw [hd, List.cons_append], hinert⟩
    · exact ⟨c, _, by rw [hself, List.singleton_append], hc⟩
  inner := by
    intro d hd
    obtain ⟨c, hc, hmem⟩ := List.mem_flatMap.mp hd
    exact mem_escapeAttributeChar hmem (h.inner c hc)
  last := by
    obtain ⟨c, rest, hb, -⟩ := h.head
    have hne : b ≠ [] := by simp [hb]
    have hsplit := List.dropLast_append_getLast hne
    have hlast : b.getLast hne ≠ '/' := fun heq =>
      h.last (by rw [List.getLast?_eq_some_getLast hne, heq])
    rw [← hsplit, Html.escapeAttribute, List.flatMap_append, List.flatMap_singleton]
    rcases escapeAttributeChar_cases (b.getLast hne) with hentity | ⟨hself, -, -⟩
    · have hentity' := (solid_entity hentity).last
      obtain ⟨d, rest', hd, -⟩ := (solid_entity hentity).head
      rw [List.getLast?_append_of_ne_nil _ (by simp [hd])]
      exact hentity'
    · rw [hself]
      simpa using hlast

/-! ### What the passes put in -/

theorem twin_own {x : List Char} (hx : isOwnText x = true) :
    Twin σ (Piece.ofText x) (Piece.ofText x) := by
  refine ownText_induction (motive := fun x => Twin σ (Piece.ofText x) (Piece.ofText x)) .nil
    (fun tag htag behind h => ?_) (fun _ _ hopen hamp h => .plain hopen hamp h) hx
  rw [ofText_append]
  exact .block (.front htag) (solid_front htag) (solid_front htag) h

/-- The running text of a line and of the renamed line, written as HTML. -/
theorem twin_escapePieces (σ : Renaming) (pieces : List Piece) :
    Twin σ (escapePieces pieces) (escapePieces (pieces.map (Piece.renamed σ))) := by
  induction pieces with
  | nil => exact .nil
  | cons piece rest ih =>
    cases piece with
    | held index => exact .held index ih
    | char c =>
      by_cases hc : isInert c = true
      · exact .block (.written .running hc) (solid_escapeChar hc)
          (solid_escapeChar ((σ.inert c).trans hc)) ih
      · have hc : isInert c = false := by simpa using hc
        have hne : ∀ d, isInert d = true → c ≠ d := fun d hd => (ne_of_isInert hd hc).symm
        show Twin σ (Piece.ofText (Html.escapeChar c) ++ _) (Piece.ofText (Html.escapeChar (σ c)) ++ _)
        rw [σ.fixes c hc, escapeChar_of_not_inert hc]
        exact .plain (hne '<' (by decide)) (hne '&' (by decide)) ih

theorem twin_quotedOwn (text : List Char) :
    Twin σ (Piece.ofText (Html.escapeAttribute text)) (Piece.ofText (Html.escapeAttribute text)) := by
  induction text with
  | nil => exact .nil
  | cons c rest ih =>
    rw [Html.escapeAttribute, List.flatMap_cons, ofText_append]
    refine Twin.append ?_ ih
    rcases escapeAttributeChar_cases c with h | ⟨h, hopen, hamp⟩
    · exact .ofBlock (.entity h) (solid_entity h) (solid_entity h)
    · rw [h]
      exact .plain hopen hamp .nil

theorem escapeAttributePieces_append (xs ys : List Piece) :
    escapeAttributePieces (xs ++ ys) = escapeAttributePieces xs ++ escapeAttributePieces ys :=
  List.flatMap_append

theorem escapeAttributePieces_ofText (text : List Char) :
    escapeAttributePieces (Piece.ofText text) = Piece.ofText (Html.escapeAttribute text) := by
  rw [escapeAttributePieces, Piece.ofText, List.flatMap_map, Piece.ofText, Html.escapeAttribute,
    List.map_flatMap]
  rfl

/-- Twins stay twins as attribute values. -/
theorem Twin.quoted (h : Twin σ xs ys) :
    Twin σ (escapeAttributePieces xs) (escapeAttributePieces ys) := by
  induction h with
  | nil => exact .nil
  | held index _ ih => exact .held index ih
  | @plain c xs ys _ _ _ ih =>
    have hc := twin_quotedOwn (σ := σ) [c]
    rw [← escapeAttributePieces_ofText] at hc
    have h := hc.append ih
    rwa [← escapeAttributePieces_append, ← escapeAttributePieces_append] at h
  | @block b b' xs ys hblock solid solid' _ ih =>
    rw [escapeAttributePieces_append, escapeAttributePieces_append, escapeAttributePieces_ofText,
      escapeAttributePieces_ofText]
    refine Twin.append ?_ ih
    cases hblock with
    | front | entity => exact twin_quotedOwn _
    | written hform hc => exact .ofBlock (.written (.again hform) hc) solid.quoted solid'.quoted

/-! ### Marks -/

theorem afterChars?_eq_some {mark : List Char} {rest : List Piece}
    (h : afterChars? mark xs = some rest) : xs = Piece.ofText mark ++ rest := by
  induction mark generalizing xs with
  | nil =>
    rw [afterChars?, Option.some.injEq] at h
    exact h
  | cons c mark ih =>
    cases xs with
    | nil => cases h
    | cons piece xs =>
      cases piece with
      | held index => cases h
      | char d =>
        rw [afterChars?] at h
        split at h
        next hc =>
          rw [ih h, ofText_cons, beq_iff_eq.mp hc]
          rfl
        next => cases h

theorem afterChars?_of_ne {m : Char} {mark : List Char} {piece : Piece} {rest : List Piece}
    (h : piece ≠ .char m) : afterChars? (m :: mark) (piece :: rest) = none := by
  cases piece with
  | held index => rfl
  | char d =>
    rw [afterChars?, if_neg]
    intro hd
    exact h (by rw [beq_iff_eq.mp hd])

/-- A mark follows in both lines or in neither. -/
theorem Twin.afterChars? {mark : List Char} (hmark : ∀ c ∈ mark, isInert c = false) (h : Twin σ xs ys) :
    (Wiki.afterChars? mark xs = none ∧ Wiki.afterChars? mark ys = none) ∨
      ∃ xs' ys', Wiki.afterChars? mark xs = some xs' ∧ Wiki.afterChars? mark ys = some ys' ∧
        Twin σ xs' ys' := by
  induction mark generalizing xs ys with
  | nil => exact Or.inr ⟨xs, ys, rfl, rfl, h⟩
  | cons m mark ih =>
    cases h with
    | nil => exact Or.inl ⟨rfl, rfl⟩
    | held index h => exact Or.inl ⟨rfl, rfl⟩
    | @plain c xs ys _ _ h =>
      by_cases hc : m = c
      · subst hc
        rcases ih (fun d hd => hmark d (by simp [hd])) h with ⟨hx, hy⟩ | ⟨xs', ys', hx, hy, h'⟩
        · exact Or.inl ⟨by simpa [Wiki.afterChars?] using hx, by simpa [Wiki.afterChars?] using hy⟩
        · exact Or.inr ⟨xs', ys', by simpa [Wiki.afterChars?] using hx,
            by simpa [Wiki.afterChars?] using hy, h'⟩
      · have hne : Piece.char c ≠ .char m := fun h => hc (by cases h; rfl)
        exact Or.inl ⟨afterChars?_of_ne hne, afterChars?_of_ne hne⟩
    | block _ solid solid' h =>
      obtain ⟨c, rest, rfl, hc⟩ := solid.head
      obtain ⟨d, rest', rfl, hd⟩ := solid'.head
      have hne : ∀ e, isInert e = true → Piece.char e ≠ .char m := fun e he heq =>
        ne_of_isInert he (hmark m (by simp)) (Piece.char.inj heq)
      exact Or.inl ⟨afterChars?_of_ne (hne c hc), afterChars?_of_ne (hne d hd)⟩

/-- The marks that matches end with: none starts inside a solid block. -/
def IsMark (mark : List Char) : Prop :=
  (∃ m rest, mark = m :: rest ∧ m ∈ passChars ∧ ∀ c ∈ rest, isInert c = false) ∨ mark = ['/', '%']

theorem IsMark.not_inert {mark : List Char} (h : IsMark mark) : ∀ c ∈ mark, isInert c = false := by
  rcases h with ⟨m, rest, rfl, hm, hrest⟩ | rfl
  · intro c hc
    rcases List.mem_cons.mp hc with rfl | hc
    · exact passChars_not_inert hm
    · exact hrest c hc
  · exact isInert_of_mem (by decide)

theorem IsMark.ne_nil {mark : List Char} (h : IsMark mark) : mark ≠ [] := by
  rcases h with ⟨m, rest, rfl, -, -⟩ | rfl <;> simp

/-- The rest of a solid block is no start of a mark. -/
theorem afterChars?_of_suffix {mark b s : List Char} (hmark : IsMark mark) (solid : Solid b)
    (hs : s ≠ []) (hsuffix : s <:+ b) (rest : List Piece) :
    afterChars? mark (Piece.ofText s ++ rest) = none := by
  cases s with
  | nil => exact absurd rfl hs
  | cons c s =>
    have hin : ∀ d ∈ c :: s, d ∉ passChars := fun d hd => solid.inner d (hsuffix.subset hd)
    rw [ofText_cons, List.cons_append]
    rcases hmark with ⟨m, mark, rfl, hm, -⟩ | rfl
    · refine afterChars?_of_ne fun heq => ?_
      cases heq
      exact hin c (by simp) hm
    · by_cases hc : c = '/'
      · subst hc
        cases s with
        | nil =>
          obtain ⟨front, rfl⟩ := hsuffix
          exact absurd (by simp) solid.last
        | cons d s =>
          have hd : Piece.char d ≠ .char '%' := by
            intro heq
            cases heq
            exact hin '%' (by simp) (by decide)
          rw [afterChars?, if_pos (by decide)]
          exact afterChars?_of_ne hd
      · refine afterChars?_of_ne fun heq => ?_
        cases heq
        exact hc rfl

theorem beforeChars?_of_suffix {mark b s : List Char} (hmark : IsMark mark) (solid : Solid b)
    (hsuffix : s <:+ b) (rest : List Piece) :
    beforeChars? mark (Piece.ofText s ++ rest) =
      (beforeChars? mark rest).map (Piece.ofText s ++ ·) := by
  induction s with
  | nil => cases h : beforeChars? mark rest <;> simp [Piece.ofText, h]
  | cons c s ih =>
    have hnot := afterChars?_of_suffix hmark solid (by simp) hsuffix rest
    rw [ofText_cons, List.cons_append] at hnot ⊢
    rw [beforeChars?, hnot, ih ((List.suffix_cons c s).trans hsuffix)]
    cases beforeChars? mark rest <;> rfl

/-- Either a mark is in neither line, or what stands before it and behind it are twins. -/
def CutAlike (σ : Renaming) (mark : List Char) (xs ys : List Piece) : Prop :=
  (beforeChars? mark xs = none ∧ beforeChars? mark ys = none) ∨
    ∃ us vs xs' ys', beforeChars? mark xs = some us ∧ beforeChars? mark ys = some vs ∧
      Twin σ us vs ∧ xs = us ++ Piece.ofText mark ++ xs' ∧ ys = vs ++ Piece.ofText mark ++ ys' ∧
      Twin σ xs' ys'

theorem CutAlike.cons {mark : List Char} {piece : Piece} (hmark : IsMark mark)
    (hcons : ∀ us vs, Twin σ us vs → Twin σ (piece :: us) (piece :: vs)) (h : Twin σ xs ys)
    (hcut : CutAlike σ mark xs ys) : CutAlike σ mark (piece :: xs) (piece :: ys) := by
  unfold CutAlike
  rw [beforeChars?, beforeChars?]
  rcases (hcons xs ys h).afterChars? hmark.not_inert with ⟨hx, hy⟩ | ⟨xs', ys', hx, hy, h'⟩
  · rw [hx, hy]
    rcases hcut with ⟨hx, hy⟩ | ⟨us, vs, xs', ys', hx, hy, huv, rfl, rfl, h'⟩
    · exact Or.inl ⟨by rw [hx]; rfl, by rw [hy]; rfl⟩
    · exact Or.inr ⟨_, _, xs', ys', by rw [hx]; rfl, by rw [hy]; rfl, hcons us vs huv, rfl, rfl, h'⟩
  · rw [hx, hy]
    exact Or.inr ⟨[], [], xs', ys', rfl, rfl, .nil, afterChars?_eq_some hx, afterChars?_eq_some hy, h'⟩

/-- A mark is found in both lines or in neither. -/
theorem Twin.cutAlike {mark : List Char} (hmark : IsMark mark) (h : Twin σ xs ys) :
    CutAlike σ mark xs ys := by
  induction h with
  | nil => exact Or.inl ⟨rfl, rfl⟩
  | held index h ih => exact ih.cons hmark (fun _ _ h => .held index h) h
  | plain hopen hamp h ih => exact ih.cons hmark (fun _ _ h => .plain hopen hamp h) h
  | @block b b' xs ys hblock solid solid' h ih =>
    unfold CutAlike
    rw [beforeChars?_of_suffix hmark solid (List.suffix_refl b),
      beforeChars?_of_suffix hmark solid' (List.suffix_refl b')]
    rcases ih with ⟨hx, hy⟩ | ⟨us, vs, xs', ys', hx, hy, huv, rfl, rfl, h'⟩
    · exact Or.inl ⟨by rw [hx]; rfl, by rw [hy]; rfl⟩
    · refine Or.inr ⟨_, _, xs', ys', by rw [hx]; rfl, by rw [hy]; rfl,
        .block hblock solid solid' huv, ?_, ?_, h'⟩ <;> simp [List.append_assoc]

/-! ### Scanning -/

section Scanning

variable {α : Type} {pattern : Pattern Piece α} {replacement : α → List Piece}

/-- A pattern whose matches start with a character. -/
def StartsAt (m : Char) (pattern : Pattern Piece α) : Prop :=
  ∀ piece rest, piece ≠ .char m → pattern (piece :: rest) = none

/-- At a character, a pattern finds matches in both lines that are alike, or none in either. -/
def MatchesAlike (σ : Renaming) (m : Char) (pattern : Pattern Piece α) (alike : α → α → Prop) : Prop :=
  ∀ xs ys, Twin σ xs ys →
    (pattern (.char m :: xs) = none ∧ pattern (.char m :: ys) = none) ∨
      ∃ a a' n n', pattern (.char m :: xs) = some (a, n + 1) ∧
        pattern (.char m :: ys) = some (a', n' + 1) ∧ alike a a' ∧ Twin σ (xs.drop n) (ys.drop n')

/-- Where no match can start, the pieces are kept. -/
theorem parts_append_of_startsAt {m : Char} {pieces : List Piece} (hstarts : StartsAt m pattern)
    (h : Piece.char m ∉ pieces) (rest : List Piece) :
    parts pattern (pieces ++ rest) = pieces.map .item ++ parts pattern rest := by
  induction pieces with
  | nil => rfl
  | cons piece others ih =>
    have hne : piece ≠ .char m := fun heq => h (heq ▸ List.mem_cons_self)
    rw [List.cons_append, parts_of_none (hstarts _ _ hne), ih fun hmem => h (List.mem_cons_of_mem piece hmem),
      List.map_cons, List.cons_append]

/-- A pattern that starts with a character finds nothing in pieces without it. -/
theorem parts_of_not_mem {m : Char} {pieces : List Piece} (hstarts : StartsAt m pattern) (h : Piece.char m ∉ pieces) :
    parts pattern pieces = pieces.map .item := by
  have hparts := parts_append_of_startsAt hstarts h []
  rw [List.append_nil] at hparts
  exact hparts.trans (List.append_nil _)

theorem substitute_of_solid {m : Char} (hstarts : StartsAt m pattern) (hb : ∀ c ∈ b, c ≠ m)
    (xs : List Piece) :
    substitute pattern replacement (Piece.ofText b ++ xs) =
      Piece.ofText b ++ substitute pattern replacement xs := by
  have hnone : Piece.char m ∉ Piece.ofText b := by
    intro hmem
    obtain ⟨c, hc, heq⟩ := List.mem_map.mp hmem
    exact hb c hc (Piece.char.inj heq)
  rw [substitute, parts_append_of_startsAt hstarts hnone, List.flatMap_append, List.flatMap_map]
  exact congrArg (· ++ substitute pattern replacement xs) (List.flatMap_singleton' _)

/-- A pass that puts twins in the place of matches that are alike makes twins of twins. -/
theorem Twin.substitute (replacement : α → List Piece) {m : Char} {alike : α → α → Prop}
    (hstarts : StartsAt m pattern) (hm : m ∈ passChars) (hmatches : MatchesAlike σ m pattern alike)
    (hreplace : ∀ a a', alike a a' → Twin σ (replacement a) (replacement a')) (h : Twin σ xs ys) :
    Twin σ (Text.substitute pattern replacement xs) (Text.substitute pattern replacement ys) := by
  induction hn : xs.length using Nat.strong_induction_on generalizing xs ys with
  | _ n ih =>
    subst hn
    cases h with
    | nil => exact .nil
    | held index h =>
      have hne : Piece.held index ≠ .char m := by simp
      rw [substitute_of_none (hstarts _ _ hne), substitute_of_none (hstarts _ _ hne)]
      exact .held index (ih _ (by simp) h rfl)
    | @plain c xs ys hopen hamp h =>
      by_cases hc : c = m
      · subst hc
        rcases hmatches xs ys h with ⟨hx, hy⟩ | ⟨a, a', n, n', hx, hy, halike, hrest⟩
        · rw [substitute_of_none hx, substitute_of_none hy]
          exact .plain hopen hamp (ih _ (by simp) h rfl)
        · rw [substitute_of_some hx, substitute_of_some hy]
          exact (hreplace a a' halike).append (ih _ (by rw [List.length_cons, List.length_drop]; omega) hrest rfl)
      · have hne : Piece.char c ≠ .char m := fun heq => hc (by cases heq; rfl)
        rw [substitute_of_none (hstarts _ _ hne), substitute_of_none (hstarts _ _ hne)]
        exact .plain hopen hamp (ih _ (by simp) h rfl)
    | @block b b' xs ys hblock solid solid' h =>
      have hinner : ∀ b, Solid b → ∀ c ∈ b, c ≠ m := by
        rintro b solid c hc rfl
        exact solid.inner c hc hm
      rw [substitute_of_solid hstarts (hinner b solid), substitute_of_solid hstarts (hinner b' solid')]
      obtain ⟨c, rest, rfl, -⟩ := solid.head
      exact .block hblock solid solid' (ih _ (by rw [ofText_cons, List.cons_append, List.length_cons, List.length_append]; omega) h rfl)

end Scanning

/-! ### The patterns -/

theorem length_ofText (text : List Char) : (Piece.ofText text).length = text.length :=
  List.length_map ..

theorem enclosed_startsAt (m : Char) (mark closing : List Char) (least : Nat) :
    StartsAt m (enclosedPattern (m :: mark) closing least) := by
  intro piece rest hne
  rw [enclosedPattern, afterChars?_of_ne hne]

/-- The first piece of a line, with the rest of the block that it is the front of: no mark is found in it. -/
theorem Twin.first {mark : List Char} (hmark : IsMark mark) (h : Twin σ xs ys) :
    (xs = [] ∧ ys = []) ∨ ∃ p s us p' s' vs, xs = p :: (s ++ us) ∧ ys = p' :: (s' ++ vs) ∧
      Twin σ us vs ∧ (∀ us vs, Twin σ us vs → Twin σ (p :: (s ++ us)) (p' :: (s' ++ vs))) ∧
      (∀ rest, beforeChars? mark (s ++ rest) = (beforeChars? mark rest).map (s ++ ·)) ∧
      ∀ rest, beforeChars? mark (s' ++ rest) = (beforeChars? mark rest).map (s' ++ ·) := by
  have hnil : ∀ rest, beforeChars? mark ([] ++ rest) = (beforeChars? mark rest).map ([] ++ ·) := by
    intro rest
    simp
  cases h with
  | nil => exact Or.inl ⟨rfl, rfl⟩
  | held index h =>
    exact Or.inr ⟨_, [], _, _, [], _, rfl, rfl, h, fun _ _ h => .held index h, hnil, hnil⟩
  | plain hopen hamp h =>
    exact Or.inr ⟨_, [], _, _, [], _, rfl, rfl, h, fun _ _ h => .plain hopen hamp h, hnil, hnil⟩
  | block hblock solid solid' h =>
    obtain ⟨c, s, rfl, -⟩ := id solid.head
    obtain ⟨d, s', rfl, -⟩ := id solid'.head
    exact Or.inr ⟨.char c, Piece.ofText s, _, .char d, Piece.ofText s', _, rfl, rfl, h,
      fun _ _ h => .block hblock solid solid' h,
      beforeChars?_of_suffix hmark solid (List.suffix_cons c s),
      beforeChars?_of_suffix hmark solid' (List.suffix_cons d s')⟩

theorem enclosedPattern_eq (m : Char) (closing : List Char) (p : Piece) (rest : List Piece) :
    enclosedPattern [m, m] closing 1 (.char m :: .char m :: p :: rest) =
      (beforeChars? closing rest).map fun more =>
        (p :: more, more.length + closing.length + 2 + 1) := by
  rw [enclosedPattern]
  simp only [afterChars?, beq_self_eq_true, if_true]
  rw [if_neg (by simp)]
  refine congrFun (congrArg Option.map (funext fun more => ?_)) _
  simp
  omega

/-- A text between two marks: at least one piece is passed over, and if that is the front of a block, a
mark can only be found behind the block. -/
theorem enclosed_alike {m : Char} (hm : m ∈ passChars) {closing : List Char} (hclosing : IsMark closing) :
    MatchesAlike σ m (enclosedPattern [m, m] closing 1) (Twin σ) := by
  have hinert : ∀ c ∈ [m], isInert c = false := by simpa using passChars_not_inert hm
  have hshort : ∀ xs, afterChars? [m] xs = none →
      enclosedPattern [m, m] closing 1 (.char m :: xs) = none := by
    intro xs h
    have hopening : afterChars? [m, m] (.char m :: xs) = none := by
      rw [afterChars?, if_pos (beq_self_eq_true m), h]
    rw [enclosedPattern, hopening]
  intro xs ys h
  rcases h.afterChars? hinert with ⟨hx, hy⟩ | ⟨xs', ys', hx, hy, h'⟩
  · exact Or.inl ⟨hshort xs hx, hshort ys hy⟩
  obtain rfl := afterChars?_eq_some hx
  obtain rfl := afterChars?_eq_some hy
  rcases h'.first hclosing with ⟨rfl, rfl⟩ | ⟨p, s, us, p', s', vs, rfl, rfl, huv, hcons, hs, hs'⟩
  · have hempty : enclosedPattern [m, m] closing 1 (.char m :: .char m :: []) = none := by
      simp [enclosedPattern, afterChars?]
    exact Or.inl ⟨hempty, hempty⟩
  unfold Piece.ofText
  simp only [List.map_cons, List.map_nil, List.singleton_append, enclosedPattern_eq, hs, hs']
  rcases huv.cutAlike hclosing with ⟨hx, hy⟩ | ⟨us', vs', xs', ys', hx, hy, huv', rfl, rfl, hrest⟩
  · exact Or.inl ⟨by rw [hx]; rfl, by rw [hy]; rfl⟩
  · refine Or.inr ⟨p :: (s ++ us'), p' :: (s' ++ vs'), _, _, by rw [hx]; rfl, by rw [hy]; rfl,
      hcons us' vs' huv', ?_⟩
    have hdrop : ∀ (p : Piece) (s us rest : List Piece),
        (Piece.char m :: p :: (s ++ (us ++ Piece.ofText closing ++ rest))).drop
          ((s ++ us).length + closing.length + 2) = rest := by
      intro p s us rest
      have hall : Piece.char m :: p :: (s ++ (us ++ Piece.ofText closing ++ rest)) =
          (Piece.char m :: p :: (s ++ us) ++ Piece.ofText closing) ++ rest := by simp
      rw [hall, List.drop_left' (by simp [length_ofText]; omega)]
    rw [hdrop, hdrop]
    exact hrest

/-- What a class takes of a line and of its twin are twins, and so is what it leaves, if the class passes
over whole blocks or stops at each. -/
theorem Twin.span {q : Piece → Bool}
    (hq : (∀ c, c ∉ passChars → q (.char c) = true) ∨ ∀ c, isInert c = true → q (.char c) = false)
    (h : Twin σ xs ys) :
    Twin σ (xs.takeWhile q) (ys.takeWhile q) ∧ Twin σ (xs.dropWhile q) (ys.dropWhile q) := by
  induction h with
  | nil => exact ⟨.nil, .nil⟩
  | @held index xs ys h ih =>
    cases hheld : q (.held index) with
    | true => simpa [hheld] using ⟨.held index ih.1, ih.2⟩
    | false => simpa [hheld] using ⟨.nil, .held index h⟩
  | @plain c xs ys hopen hamp h ih =>
    cases hc : q (.char c) with
    | true => simpa [hc] using ⟨.plain hopen hamp ih.1, ih.2⟩
    | false => simpa [hc] using ⟨.nil, .plain hopen hamp h⟩
  | @block b b' xs ys hblock solid solid' h ih =>
    rcases hq with hpass | hstop
    · have hall : ∀ b, Solid b → ∀ piece ∈ Piece.ofText b, q piece = true := by
        intro b solid piece hpiece
        obtain ⟨c, hc, rfl⟩ := List.mem_map.mp hpiece
        exact hpass c (solid.inner c hc)
      rw [List.takeWhile_append_of_pos (hall b solid), List.takeWhile_append_of_pos (hall b' solid'),
        List.dropWhile_append_of_pos (hall b solid), List.dropWhile_append_of_pos (hall b' solid')]
      exact ⟨.block hblock solid solid' ih.1, ih.2⟩
    · have hstops : ∀ b, Solid b → ∀ xs, (Piece.ofText b ++ xs).takeWhile q = [] ∧
          (Piece.ofText b ++ xs).dropWhile q = Piece.ofText b ++ xs := by
        intro b solid xs
        obtain ⟨c, rest, rfl, hc⟩ := solid.head
        rw [ofText_cons, List.cons_append, List.takeWhile_cons, List.dropWhile_cons, hstop c hc]
        exact ⟨rfl, rfl⟩
      rw [(hstops b solid xs).1, (hstops b' solid' ys).1, (hstops b solid xs).2, (hstops b' solid' ys).2]
      exact ⟨.nil, .block hblock solid solid' h⟩

/-- The names of styles that are read at the same place. -/
inductive NamesAlike (σ : Renaming) : List Piece → List Piece → Prop
  | sheet {inner inner' : List Piece} (h : Twin σ inner inner') :
      NamesAlike σ (.char '(' :: inner ++ [.char ')']) (.char '(' :: inner' ++ [.char ')'])
  | word {c : Char} {more more' : List Piece} (hc : isLatin c = true) (h : Twin σ more more') :
      NamesAlike σ (.char c :: more) (.char c :: more')

theorem styleName?_word {c : Char} (hc : c ≠ '(') (rest : List Piece) :
    styleName? (.char c :: rest) =
      if isLatin c then
        some (.char c :: rest.takeWhile (fun piece => piece.isChar fun d => isWordChar d || d == '-'),
          rest.dropWhile fun piece => piece.isChar fun d => isWordChar d || d == '-')
      else none := by
  rw [← drop_takeWhile]
  simp [styleName?]

theorem styleName?_sheet (rest : List Piece) :
    styleName? (.char '(' :: rest) =
      match rest.dropWhile fun piece => !piece.isChar (· == ')') with
      | .char ')' :: behind =>
        some (.char '(' :: rest.takeWhile (fun piece => !piece.isChar (· == ')')) ++ [.char ')'], behind)
      | _ => none := by
  rw [← drop_takeWhile]
  rfl

theorem isLatin_of_isInert {c : Char} (hc : isInert c = true) : isLatin c = false :=
  seesInert_isLatin c hc

/-- What is found of the name of a style and behind it: nothing in either line, or twins. -/
def FindsStyleName (σ : Renaming) (xs ys : List Piece) : Prop :=
  (styleName? xs = none ∧ styleName? ys = none) ∨
    ∃ name name' rest rest', styleName? xs = some (name, rest) ∧ styleName? ys = some (name', rest') ∧
      NamesAlike σ name name' ∧ xs = name ++ rest ∧ ys = name' ++ rest' ∧ Twin σ rest rest'

theorem Twin.findsStyleName_sheet (h : Twin σ xs ys) :
    FindsStyleName σ (.char '(' :: xs) (.char '(' :: ys) := by
  have hpass : ∀ c, c ∉ passChars → (!(Piece.char c).isChar (· == ')')) = true := by
    intro c hc
    have hne : c ≠ ')' := by
      rintro rfl
      exact hc (by decide)
    simpa [Piece.isChar] using hne
  obtain ⟨htake, hdrop⟩ := h.span (q := fun piece => !piece.isChar (· == ')')) (Or.inl hpass)
  have hxs := List.takeWhile_append_dropWhile (p := fun piece => !piece.isChar (· == ')')) (l := xs)
  have hys := List.takeWhile_append_dropWhile (p := fun piece => !piece.isChar (· == ')')) (l := ys)
  rw [FindsStyleName, styleName?_sheet, styleName?_sheet]
  generalize xs.dropWhile (fun piece => !piece.isChar (· == ')')) = us at hdrop hxs
  generalize ys.dropWhile (fun piece => !piece.isChar (· == ')')) = vs at hdrop hys
  cases hdrop with
  | nil => exact Or.inl ⟨rfl, rfl⟩
  | held index h => exact Or.inl ⟨rfl, rfl⟩
  | @plain d us vs _ _ hrest =>
    by_cases hd : d = ')'
    · subst hd
      exact Or.inr ⟨_, _, us, vs, rfl, rfl, .sheet htake, by simpa using hxs.symm,
        by simpa using hys.symm, hrest⟩
    · simp [hd]
  | block hblock solid solid' h =>
    obtain ⟨d, rest, rfl, hd⟩ := solid.head
    obtain ⟨d', rest', rfl, hd'⟩ := solid'.head
    have hne : ∀ d, isInert d = true → d ≠ ')' := fun d hd => ne_of_isInert hd (by decide)
    simp [ofText_cons, hne d hd, hne d' hd']

theorem Twin.findsStyleName_word {c : Char} (hc : c ≠ '(') (h : Twin σ xs ys) :
    FindsStyleName σ (.char c :: xs) (.char c :: ys) := by
  rw [FindsStyleName, styleName?_word hc, styleName?_word hc]
  split
  next hlatin =>
    obtain ⟨htake, hdrop⟩ := h.span (q := fun piece => piece.isChar fun d => isWordChar d || d == '-')
      (Or.inr fun d hd => (seesInert_isWordChar.or (seesInert_beq (by decide))) d hd)
    exact Or.inr ⟨_, _, _, _, rfl, rfl, .word hlatin htake,
      by rw [List.cons_append, List.takeWhile_append_dropWhile],
      by rw [List.cons_append, List.takeWhile_append_dropWhile], hdrop⟩
  next => exact Or.inl ⟨rfl, rfl⟩

/-- Behind the mark of a style, a name that is renamed is none of a style. -/
theorem styleName?_solid {block : List Char} (solid : Solid block) (rest : List Piece) :
    styleName? (Piece.ofText block ++ rest) = none := by
  obtain ⟨c, more, rfl, hc⟩ := solid.head
  have hopen : c ≠ '(' := ne_of_isInert hc (by decide)
  rw [ofText_cons, List.cons_append, styleName?_word hopen, isLatin_of_isInert hc]
  rfl

/-- A style has its name in both lines or in neither. -/
theorem Twin.findsStyleName (h : Twin σ xs ys) : FindsStyleName σ xs ys := by
  cases h with
  | nil => exact Or.inl ⟨rfl, rfl⟩
  | held index h => exact Or.inl ⟨rfl, rfl⟩
  | @plain c xs ys _ _ h =>
    by_cases hc : c = '('
    · exact hc ▸ h.findsStyleName_sheet
    · exact h.findsStyleName_word hc
  | block hblock solid solid' h => exact Or.inl ⟨styleName?_solid solid _, styleName?_solid solid' _⟩

/-! ### Styles and line breaks -/

/-- The name and the content of a style are twins in the two lines. -/
def StylesAlike (σ : Renaming) (style style' : List Piece × List Piece) : Prop :=
  NamesAlike σ style.1 style'.1 ∧ Twin σ style.2 style'.2

theorem style_startsAt : StartsAt '%' stylePattern := by
  intro piece rest hne
  have hmark : "%%".toList = ['%', '%'] := by decide
  rw [stylePattern, hmark, afterChars?_of_ne hne]

theorem stylePattern_eq (rest : List Piece) :
    stylePattern (.char '%' :: .char '%' :: rest) =
      match styleName? rest with
      | some (name, .char blank :: content) =>
        if isBlank blank then
          (beforeChars? ['/', '%'] content).map fun content =>
            ((name, content), 2 + name.length + 1 + content.length + 2)
        else none
      | _ => none := by
  have hmark : "%%".toList = ['%', '%'] := by decide
  have hend : "/%".toList = ['/', '%'] := by decide
  rw [stylePattern, hmark, hend]
  rfl

theorem stylePattern_short {xs : List Piece} (h : afterChars? ['%'] xs = none) :
    stylePattern (.char '%' :: xs) = none := by
  have hmark : "%%".toList = ['%', '%'] := by decide
  have hopening : afterChars? ['%', '%'] (.char '%' :: xs) = none := by
    rw [afterChars?, if_pos (by decide), h]
  rw [stylePattern, hmark, hopening]

/-- A style that is found, with what is covered of the line behind its first character. -/
theorem stylePattern_closed {blank : Char} (hblank : isBlank blank = true) {name behind content rest : List Piece}
    (hname : styleName? (name ++ .char blank :: behind) = some (name, .char blank :: behind))
    (hclose : beforeChars? ['/', '%'] behind = some content)
    (hsplit : behind = content ++ Piece.ofText ['/', '%'] ++ rest) :
    stylePattern (.char '%' :: .char '%' :: (name ++ .char blank :: behind)) =
        some ((name, content), name.length + content.length + 4 + 1) ∧
      (Piece.char '%' :: (name ++ .char blank :: behind)).drop (name.length + content.length + 4) = rest := by
  constructor
  · rw [stylePattern_eq, hname]
    simp only [if_pos hblank, hclose, Option.map_some, Option.some.injEq, Prod.mk.injEq, true_and]
    omega
  · have hall : Piece.char '%' :: (name ++ .char blank :: behind) =
        (Piece.char '%' :: (name ++ .char blank :: (content ++ Piece.ofText ['/', '%']))) ++ rest := by
      simp [hsplit]
    rw [hall, List.drop_left' (by simp [length_ofText]; omega)]

theorem style_alike : MatchesAlike σ '%' stylePattern (StylesAlike σ) := by
  have hinert : ∀ c ∈ ['%'], isInert c = false := isInert_of_mem (by decide)
  intro xs ys h
  rcases h.afterChars? hinert with ⟨hx, hy⟩ | ⟨xs', ys', hx, hy, h'⟩
  · exact Or.inl ⟨stylePattern_short hx, stylePattern_short hy⟩
  obtain rfl := afterChars?_eq_some hx
  obtain rfl := afterChars?_eq_some hy
  unfold Piece.ofText
  simp only [List.map_cons, List.map_nil, List.singleton_append]
  rcases h'.findsStyleName with ⟨hx, hy⟩ | ⟨name, name', rest, rest', hx, hy, hname, rfl, rfl, hrest⟩
  · rw [stylePattern_eq, stylePattern_eq, hx, hy]
    exact Or.inl ⟨rfl, rfl⟩
  cases hrest with
  | nil => exact Or.inl ⟨by rw [stylePattern_eq, hx], by rw [stylePattern_eq, hy]⟩
  | held index h => exact Or.inl ⟨by rw [stylePattern_eq, hx], by rw [stylePattern_eq, hy]⟩
  | @plain c us vs _ _ hbehind =>
    by_cases hc : isBlank c = true
    · rcases hbehind.cutAlike (Or.inr rfl) with ⟨hx', hy'⟩ | ⟨us', vs', xs', ys', hx', hy', huv, hus, hvs, hrest⟩
      · refine Or.inl ⟨?_, ?_⟩
        · rw [stylePattern_eq, hx]
          simp [hx']
        · rw [stylePattern_eq, hy]
          simp [hy']
      · obtain ⟨hfound, hdrop⟩ := stylePattern_closed hc hx hx' hus
        obtain ⟨hfound', hdrop'⟩ := stylePattern_closed hc hy hy' hvs
        refine Or.inr ⟨(name, us'), (name', vs'), _, _, hfound, hfound', ⟨hname, huv⟩, ?_⟩
        rw [hdrop, hdrop']
        exact hrest
    · rw [stylePattern_eq, stylePattern_eq, hx, hy]
      simp [hc]
  | block hblock solid solid' h =>
    obtain ⟨c, rest, rfl, hc⟩ := solid.head
    obtain ⟨d, rest', rfl, hd⟩ := solid'.head
    rw [stylePattern_eq, stylePattern_eq, hx, hy]
    simp [ofText_cons, seesInert_isBlank c hc, seesInert_isBlank d hd]

/-- A name of its own has a style in both lines or in neither. -/
theorem Twin.eq_ofText {text : List Char} (htext : ∀ c ∈ text, isInert c = false) (h : Twin σ xs ys) :
    xs = Piece.ofText text ↔ ys = Piece.ofText text := by
  induction text generalizing xs ys with
  | nil =>
    cases h with
    | nil => rfl
    | held | plain => simp [Piece.ofText]
    | block hblock solid solid' h =>
      obtain ⟨c, rest, rfl, -⟩ := solid.head
      obtain ⟨d, rest', rfl, -⟩ := solid'.head
      simp [Piece.ofText]
  | cons c text ih =>
    cases h with
    | nil => simp [Piece.ofText]
    | held => simp [Piece.ofText]
    | plain _ _ h =>
      rw [ofText_cons, List.cons.injEq, List.cons.injEq, ih (fun d hd => htext d (by simp [hd])) h]
    | block hblock solid solid' h =>
      obtain ⟨d, rest, rfl, hd⟩ := solid.head
      obtain ⟨d', rest', rfl, hd'⟩ := solid'.head
      have hne : ∀ d, isInert d = true → d ≠ c := fun d hd => ne_of_isInert hd (htext c (by simp))
      simp [ofText_cons, hne d hd, hne d' hd']

theorem NamesAlike.twin {name name' : List Piece} (h : NamesAlike σ name name') : Twin σ name name' := by
  cases h with
  | sheet h =>
    exact .plain (by decide) (by decide) (h.append (.plain (by decide) (by decide) .nil))
  | @word c more more' hc h =>
    refine .plain ?_ ?_ h
    · rintro rfl
      exact absurd hc (by decide)
    · rintro rfl
      exact absurd hc (by decide)

theorem NamesAlike.styleTag? {name name' : List Piece} (h : NamesAlike σ name name') :
    Wiki.styleTag? name = Wiki.styleTag? name' := by
  have htext : ∀ text : List Char, (∀ c ∈ text, isInert c = false) →
      (name == Piece.ofText text) = (name' == Piece.ofText text) := by
    intro text htext
    rw [Bool.eq_iff_iff, beq_iff_eq, beq_iff_eq]
    exact h.twin.eq_ofText htext
  rw [Wiki.styleTag?, Wiki.styleTag?, htext _ (isInert_of_mem (by decide)),
    htext _ (isInert_of_mem (by decide)), htext _ (isInert_of_mem (by decide))]

theorem twin_tagged {tag : String} (hopening : isOwnText ("<" ++ tag ++ ">").toList = true)
    (hclosing : isOwnText ("</" ++ tag ++ ">").toList = true) (h : Twin σ xs ys) :
    Twin σ (tagged tag xs) (tagged tag ys) :=
  ((twin_own hopening).append h).append (twin_own hclosing)

theorem openStyle_sheet (tag : String) (inner : List Piece) :
    openStyle tag (.char '(' :: inner ++ [.char ')']) =
      Piece.ofText ("<" ++ tag ++ " style=\"").toList ++ escapeAttributePieces inner
        ++ Piece.ofText "\">".toList := by
  have hinner : (inner ++ [Piece.char ')']).dropLast = inner := List.dropLast_concat
  show Piece.ofText _ ++ escapeAttributePieces (inner ++ [Piece.char ')']).dropLast
    ++ Piece.ofText _ = _
  rw [hinner]

theorem openStyle_of_ne (tag : String) {c : Char} (hc : c ≠ '(') (more : List Piece) :
    openStyle tag (.char c :: more) =
      Piece.ofText ("<" ++ tag ++ " class=\"").toList ++ escapeAttributePieces (.char c :: more)
        ++ Piece.ofText "\">".toList := by
  simp [openStyle, hc]

theorem openStyle_word (tag : String) {c : Char} (hc : isLatin c = true) (more : List Piece) :
    openStyle tag (.char c :: more) =
      Piece.ofText ("<" ++ tag ++ " class=\"").toList ++ escapeAttributePieces (.char c :: more)
        ++ Piece.ofText "\">".toList := by
  refine openStyle_of_ne tag ?_ more
  rintro rfl
  exact absurd hc (by decide)

theorem twin_openStyle {name name' : List Piece} (h : NamesAlike σ name name') :
    Twin σ (openStyle "span" name) (openStyle "span" name') := by
  have hend : Twin σ (Piece.ofText "\">".toList) (Piece.ofText "\">".toList) :=
    twin_own (by decide)
  have htwin := h.twin
  cases h with
  | sheet h =>
    rw [openStyle_sheet, openStyle_sheet]
    exact ((twin_own (by decide)).append h.quoted).append hend
  | word hc h =>
    rw [openStyle_word _ hc, openStyle_word _ hc]
    exact ((twin_own (by decide)).append htwin.quoted).append hend

theorem twin_renderStyle {name name' content content' : List Piece} (h : NamesAlike σ name name')
    (hcontent : Twin σ content content') :
    Twin σ (renderStyle name content) (renderStyle name' content') := by
  have htags : ∀ tag, styleTag? name' = some tag → tag ∈ ["sup", "sub", "del"] := by
    intro tag htag
    unfold styleTag? at htag
    grind
  rw [renderStyle, renderStyle, h.styleTag?]
  cases htag : styleTag? name' with
  | none => exact ((twin_openStyle h).append hcontent).append (twin_own (by decide))
  | some tag =>
    have hown : ∀ tag ∈ ["sup", "sub", "del"], isOwnText ("<" ++ tag ++ ">").toList = true ∧
        isOwnText ("</" ++ tag ++ ">").toList = true := by decide
    obtain ⟨hopening, hclosing⟩ := hown tag (htags tag htag)
    exact twin_tagged hopening hclosing hcontent

theorem lineBreak_startsAt : StartsAt '\\' lineBreakPattern := by
  intro piece rest hne
  cases piece with
  | held index => rfl
  | char c =>
    have hc : c ≠ '\\' := fun h => hne (by rw [h])
    simp [lineBreakPattern, hc]

theorem lineBreakPattern_eq (xs : List Piece) :
    lineBreakPattern (.char '\\' :: xs) =
      match afterChars? ['\\'] xs with
      | none => none
      | some rest =>
        match afterChars? ['\\'] rest with
        | none => some ((), 2)
        | some _ => some ((), 3) := by
  have hsecond : ∀ c : Char, ('\\' == c) = true ↔ c = '\\' := fun c => by rw [beq_iff_eq, eq_comm]
  cases xs with
  | nil => rfl
  | cons piece xs =>
    cases piece with
    | held index => rfl
    | char c =>
      by_cases hc : c = '\\'
      · subst hc
        cases xs with
        | nil => rfl
        | cons piece xs =>
          cases piece with
          | held index => rfl
          | char d =>
            by_cases hd : d = '\\'
            · subst hd
              rfl
            · simp [lineBreakPattern, afterChars?, hd, Ne.symm hd]
      · simp [lineBreakPattern, afterChars?, hc, Ne.symm hc]

theorem lineBreak_alike : MatchesAlike σ '\\' lineBreakPattern fun _ _ => True := by
  have hinert : ∀ c ∈ ['\\'], isInert c = false := isInert_of_mem (by decide)
  intro xs ys h
  rw [lineBreakPattern_eq, lineBreakPattern_eq]
  rcases h.afterChars? hinert with ⟨hx, hy⟩ | ⟨xs', ys', hx, hy, h'⟩
  · exact Or.inl ⟨by rw [hx], by rw [hy]⟩
  rw [hx, hy]
  obtain rfl := afterChars?_eq_some hx
  obtain rfl := afterChars?_eq_some hy
  dsimp only
  rcases h'.afterChars? hinert with ⟨hx, hy⟩ | ⟨us, vs, hx, hy, huv⟩
  · rw [hx, hy]
    exact Or.inr ⟨(), (), 1, 1, rfl, rfl, trivial, h'⟩
  · rw [hx, hy]
    obtain rfl := afterChars?_eq_some hx
    obtain rfl := afterChars?_eq_some hy
    exact Or.inr ⟨(), (), 2, 2, rfl, rfl, trivial, huv⟩

/-! ### Lines -/

/-- A pass over emphasis. -/
theorem Twin.emphasis (h : Twin σ xs ys) (m : Char) (opening closing : List Char) (tag : String)
    (hopening : opening = [m, m]) (hm : m ∈ passChars) (hclosing : IsMark closing)
    (hfront : isOwnText ("<" ++ tag ++ ">").toList = true)
    (hend : isOwnText ("</" ++ tag ++ ">").toList = true) :
    Twin σ (Text.substitute (enclosedPattern opening closing 1) (tagged tag) xs)
      (Text.substitute (enclosedPattern opening closing 1) (tagged tag) ys) := by
  subst hopening
  exact h.substitute _ (enclosed_startsAt m [m] closing 1) hm (enclosed_alike hm hclosing)
    fun _ _ hcontent => twin_tagged hfront hend hcontent

theorem replace_eq {α : Type} (pieces : List Piece) (fragments : List (List Char))
    (pattern : Pattern Piece α) (replacement : α → List Piece) :
    (Line.mk pieces fragments).replace pattern replacement =
      ⟨substitute pattern replacement pieces, fragments⟩ := rfl

theorem withStyles_eq (pieces : List Piece) (fragments : List (List Char)) :
    (Line.mk pieces fragments).withStyles =
      ⟨substitute lineBreakPattern (fun _ => Piece.ofText "<br />".toList)
        (substitute stylePattern (fun (name, content) => renderStyle name content)
          (substitute (enclosedPattern "\x7b\x7b".toList "\x7d\x7d".toList 1) (tagged "code")
            (substitute (enclosedPattern "''".toList "''".toList 1) (tagged "i")
              (substitute (enclosedPattern "__".toList "__".toList 1) (tagged "b")
                (escapePieces pieces))))), fragments⟩ := by
  unfold Line.withStyles
  simp only [replace_eq]

theorem restore_ofText (text : List Char) (rest : List Piece) (fragments : List (List Char)) :
    (Line.mk (Piece.ofText text ++ rest) fragments).restore = text ++ (Line.mk rest fragments).restore := by
  rw [Line.restore, Line.restore, List.flatMap_append, Piece.ofText, List.flatMap_map]
  congr 1
  exact List.flatMap_singleton' text

/-- A line and the renamed line are restored to a text and its echo, if what they hold is. -/
theorem Twin.restore {fragments fragments' : List (List Char)} (h : Twin σ xs ys)
    (hfragments : List.Forall₂ (Echo σ) fragments fragments') :
    Echo σ (Line.mk xs fragments).restore (Line.mk ys fragments').restore := by
  have hheld : ∀ index : Nat, Echo σ ((fragments[index]?).getD []) ((fragments'[index]?).getD []) := by
    induction hfragments with
    | nil => exact fun _ => .nil
    | cons hfragment _ ih =>
      intro index
      cases index with
      | zero => exact hfragment
      | succ index => exact ih index
  induction h with
  | nil => exact .nil
  | held index _ ih => exact (hheld index).append ih
  | plain hopen hamp _ ih => exact .plain hopen hamp ih
  | block hblock _ _ _ ih =>
    rw [restore_ofText, restore_ofText]
    exact .block hblock ih

/-- What the passes make of a line is echoed by what they make of the renamed line. -/
theorem echo_withStyles (σ : Renaming) (pieces : List Piece) {fragments fragments' : List (List Char)}
    (hfragments : List.Forall₂ (Echo σ) fragments fragments') :
    Echo σ (Line.mk pieces fragments).withStyles.restore
      (Line.mk (pieces.map (Piece.renamed σ)) fragments').withStyles.restore := by
  have hescaped : Twin σ (escapePieces pieces) (escapePieces (pieces.map (Piece.renamed σ))) :=
    twin_escapePieces σ pieces
  have hbold := hescaped.emphasis '_' "__".toList "__".toList "b" (by decide) (by decide)
    (Or.inl ⟨'_', ['_'], by decide, by decide, isInert_of_mem (by decide)⟩) (by decide) (by decide)
  have hitalic := hbold.emphasis '\'' "''".toList "''".toList "i" (by decide) (by decide)
    (Or.inl ⟨'\'', ['\''], by decide, by decide, isInert_of_mem (by decide)⟩) (by decide) (by decide)
  have hcode := hitalic.emphasis '\x7b' "\x7b\x7b".toList "\x7d\x7d".toList "code" (by decide) (by decide)
    (Or.inl ⟨'\x7d', ['\x7d'], by decide, by decide, isInert_of_mem (by decide)⟩) (by decide) (by decide)
  have hstyle := hcode.substitute (fun (name, content) => renderStyle name content)
    style_startsAt (by decide) style_alike fun _ _ halike => twin_renderStyle halike.1 halike.2
  have hbreak := hstyle.substitute (fun _ => Piece.ofText "<br />".toList)
    lineBreak_startsAt (by decide) lineBreak_alike fun _ _ _ => twin_own (by decide)
  rw [withStyles_eq, withStyles_eq]
  exact hbreak.restore hfragments

end WikiMigration.Wiki

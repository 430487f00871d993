/-
Reading a page adds no characters.

Whatever a fragment holds was in a line of the page: a title, a term or a cell is cut out of its line, and
cutting, trimming and splitting bring in nothing new.  The induction is on the lines, and what is carried
along is what the open blocks have read so far.
-/
import WikiMigration.Proofs.Text.Lines
import WikiMigration.Wiki.Page

namespace WikiMigration.Wiki

open Text

variable {c : Char} {text line : List Char}

/-! ### Lines -/

/-- The texts that the kind of a line has in it. -/
def LineKind.texts : LineKind → List (List Char)
  | .preformattedOpening first => [first]
  | .styleOpening style => [style]
  | .heading _ title => [title]
  | .item _ content => [content]
  | .definition term meaning => [term, meaning]
  | _ => []

theorem mem_of_mem_styleOpening {style : List Char} (h : styleOpening? text = some style) (hc : c ∈ style) :
    c ∈ text := by
  unfold styleOpening? at h
  split at h
  next rest hrest =>
    rw [after?_eq_some.mp hrest]
    dsimp only at h
    split at h
    next behind hbehind =>
      split at h
      next =>
        obtain rfl := Option.some.inj h
        have hclose : ')' ∈ rest := List.mem_of_mem_drop (hbehind ▸ List.mem_cons_self)
        simp only [List.cons_append, List.mem_cons, List.mem_append, List.not_mem_nil, or_false] at hc ⊢
        rcases hc with rfl | hc | rfl
        · exact Or.inr (Or.inl rfl)
        · exact Or.inr (Or.inr ((List.takeWhile_sublist _).subset hc))
        · exact Or.inr (Or.inr hclose)
      next => cases h
    next => cases h
  next d rest _ hrest =>
    rw [after?_eq_some.mp hrest]
    dsimp only at h
    split at h
    next =>
      obtain rfl := Option.some.inj h
      rcases List.mem_cons.mp hc with rfl | hc
      · simp
      · simp [(List.takeWhile_sublist _).subset hc]
    next => cases h
  next => cases h

theorem mem_of_mem_heading {level : Nat} {title : List Char} (h : heading? text = some (level, title))
    (hc : c ∈ title) : c ∈ text := by
  unfold heading? at h
  dsimp only at h
  split at h
  · cases h
  · obtain ⟨-, rfl⟩ := Prod.mk.inj (Option.some.inj h)
    exact List.mem_of_mem_drop (mem_of_mem_trim hc)

theorem mem_of_mem_item {kinds : List ListKind} {content : List Char}
    (h : item? text = some (kinds, content)) (hc : c ∈ content) : c ∈ text := by
  unfold item? at h
  dsimp only at h
  split at h
  · cases h
  · obtain ⟨-, rfl⟩ := Prod.mk.inj (Option.some.inj h)
    exact List.mem_of_mem_drop (mem_of_mem_trimLeft hc)

theorem mem_of_mem_definition {term meaning : List Char} (h : definition? text = some (term, meaning))
    (hc : c ∈ term ∨ c ∈ meaning) : c ∈ text := by
  unfold definition? at h
  split at h
  next rest =>
    obtain ⟨⟨before, behind⟩, hcut, heq⟩ := Option.map_eq_some_iff.mp h
    obtain ⟨rfl, rfl⟩ := Prod.mk.inj heq
    rw [cut?_eq_some hcut]
    rcases hc with hc | hc
    · simp [mem_of_mem_trim hc]
    · simp [mem_of_mem_trim hc]
  next => cases h

/-- What the kind of a line has in it is of the line. -/
theorem mem_of_mem_kind {inStyle : Bool} {part : List Char} (hpart : part ∈ (LineKind.of inStyle line).texts)
    (h : c ∈ part) : c ∈ line := by
  unfold LineKind.of at hpart
  dsimp only at hpart
  split at hpart
  next first hfirst =>
    obtain rfl := List.mem_singleton.mp hpart
    have hafter := (Option.filter_eq_some_iff.mp hfirst).1
    exact mem_of_mem_trim (after?_eq_some.mp hafter ▸ List.mem_append_right _ h)
  split at hpart
  next => cases hpart
  split at hpart
  next => cases hpart
  split at hpart
  next style hstyle =>
    obtain rfl := List.mem_singleton.mp hpart
    exact mem_of_mem_trim (mem_of_mem_styleOpening hstyle h)
  split at hpart
  next => cases hpart
  split at hpart
  next => cases hpart
  split at hpart
  next level title hheading =>
    obtain rfl := List.mem_singleton.mp hpart
    exact mem_of_mem_heading hheading h
  split at hpart
  next kinds content hitem =>
    obtain rfl := List.mem_singleton.mp hpart
    exact mem_of_mem_item hitem h
  split at hpart
  next term meaning hdefinition =>
    simp only [LineKind.texts, List.mem_cons, List.not_mem_nil, or_false] at hpart
    rcases hpart with rfl | rfl
    · exact mem_of_mem_definition hdefinition (Or.inl h)
    · exact mem_of_mem_definition hdefinition (Or.inr h)
  next => cases hpart

/-! ### Fragments -/

/-- The texts that a fragment holds. -/
def Fragment.texts : Fragment → List (List Char)
  | .paragraph lines => lines
  | .table rows => rows
  | .item content => [content]
  | .preformatted lines _ => lines
  | .heading _ title => [title]
  | .definition term meaning => [term, meaning]
  | .styleOpening style => [style]
  | _ => []

/-- The texts that the open blocks hold. -/
def Pending.texts (pending : Pending) : List (List Char) :=
  pending.paragraph ++ pending.rows ++ pending.preformatted.getD []

variable {pending : Pending} {fragment : Fragment} {part : List Char}

theorem texts_of_mem_paragraphEnd (h : fragment ∈ pending.paragraphEnd) (hpart : part ∈ fragment.texts) :
    part ∈ pending.texts := by
  unfold Pending.paragraphEnd at h
  split at h
  · cases h
  · obtain rfl := List.mem_singleton.mp h
    exact List.mem_append_left _ (List.mem_append_left _ hpart)

theorem texts_of_mem_tableEnd (h : fragment ∈ pending.tableEnd) (hpart : part ∈ fragment.texts) :
    part ∈ pending.texts := by
  unfold Pending.tableEnd at h
  split at h
  · cases h
  · obtain rfl := List.mem_singleton.mp h
    exact List.mem_append_left _ (List.mem_append_right _ hpart)

theorem texts_of_mem_closeLists {lists : List ListKind} (h : fragment ∈ closeLists lists) :
    fragment.texts = [] := by
  obtain ⟨kind, -, rfl⟩ := List.mem_map.mp h
  rfl

theorem texts_of_mem_openLists {kinds : List ListKind} (h : fragment ∈ openLists kinds) :
    fragment.texts = [] := by
  fun_induction openLists kinds with
  | case1 => cases h
  | case2 kind =>
    obtain rfl := List.mem_singleton.mp h
    rfl
  | case3 kind kinds _ ih =>
    rcases List.mem_cons.mp h with rfl | h
    · rfl
    rcases List.mem_cons.mp h with rfl | h
    · rfl
    · exact ih h

theorem texts_of_mem_blocksEnd (h : fragment ∈ pending.blocksEnd) (hpart : part ∈ fragment.texts) :
    part ∈ pending.texts := by
  rcases List.mem_append.mp h with h | h
  · rcases List.mem_append.mp h with h | h
    · exact texts_of_mem_paragraphEnd h hpart
    · exact texts_of_mem_tableEnd h hpart
  · rw [texts_of_mem_closeLists h] at hpart
    cases hpart

theorem texts_of_mem_itemFragments {lists kinds : List ListKind} {content : List Char}
    (h : fragment ∈ itemFragments lists kinds content) (hpart : part ∈ fragment.texts) :
    part = content := by
  unfold itemFragments at h
  rcases List.mem_append.mp h with h | h
  · rcases List.mem_append.mp h with h | h
    · rw [texts_of_mem_closeLists h] at hpart
      cases hpart
    · split at h
      · obtain rfl := List.mem_singleton.mp h
        cases hpart
      · rw [texts_of_mem_openLists h] at hpart
        cases hpart
  · obtain rfl := List.mem_singleton.mp h
    exact List.mem_singleton.mp hpart

/-- What a line outside preformatted text gives was open, or is of the line. -/
theorem texts_of_mem_stepLine (h : fragment ∈ (pending.stepLine line).2) (hpart : part ∈ fragment.texts) :
    part ∈ pending.texts ∨ part ⊆ line := by
  have hblock : ∀ last : Fragment, (part ∈ last.texts → part ⊆ line) →
      fragment ∈ pending.blocksEnd ++ [last] → part ∈ pending.texts ∨ part ⊆ line := by
    intro last hlast h
    rcases List.mem_append.mp h with h | h
    · exact Or.inl (texts_of_mem_blocksEnd h hpart)
    · obtain rfl := List.mem_singleton.mp h
      exact Or.inr (hlast hpart)
  have hclosed : ∀ lists, fragment ∈ closeLists lists → part ∈ pending.texts ∨ part ⊆ line := by
    intro lists h
    rw [texts_of_mem_closeLists h] at hpart
    cases hpart
  have hkind : part ∈ (LineKind.of (pending.styles != 0) line).texts → part ⊆ line := fun hpart _ hc =>
    mem_of_mem_kind hpart hc
  unfold Pending.stepLine at h
  -- The cases are the kinds of lines, in the order of the definition.
  split at h
  case h_1 | h_2 => exact Or.inl (texts_of_mem_blocksEnd h hpart)
  case h_3 =>
    rcases List.mem_append.mp h with h | h
    · exact Or.inl (texts_of_mem_paragraphEnd h hpart)
    · exact hclosed _ h
  case h_4 style hof => exact hblock (.styleOpening style) (fun h => hkind (by rw [hof]; exact h)) h
  case h_5 => exact hblock .styleClosing nofun h
  case h_6 => exact hblock .rule nofun h
  case h_7 level title hof => exact hblock (.heading level title) (fun h => hkind (by rw [hof]; exact h)) h
  case h_8 term meaning hof => exact hblock (.definition term meaning) (fun h => hkind (by rw [hof]; exact h)) h
  case h_9 kinds content hof =>
    rcases List.mem_append.mp h with h | h
    · rcases List.mem_append.mp h with h | h
      · exact Or.inl (texts_of_mem_tableEnd h hpart)
      · exact Or.inl (texts_of_mem_paragraphEnd h hpart)
    · obtain rfl := texts_of_mem_itemFragments h hpart
      exact Or.inr (hkind (hof ▸ List.mem_singleton_self _))
  case h_10 =>
    rcases List.mem_append.mp h with h | h
    · exact Or.inl (texts_of_mem_tableEnd h hpart)
    · exact hclosed _ h

/-- So was what it leaves open. -/
theorem texts_of_stepLine (hpart : part ∈ (pending.stepLine line).1.texts) :
    part ∈ pending.texts ∨ part ⊆ line := by
  have hkind : part ∈ (LineKind.of (pending.styles != 0) line).texts → part ⊆ line := fun hpart _ hc =>
    mem_of_mem_kind hpart hc
  unfold Pending.stepLine at hpart
  split at hpart <;>
    simp only [Pending.texts, Pending.withoutBlocks, List.nil_append, List.append_nil, List.mem_append,
      List.mem_singleton] at hpart ⊢
  case h_1 first hof =>
    split at hpart
    next => cases hpart
    next => exact Or.inr (hkind (hof ▸ hpart))
  case h_3 =>
    rcases hpart with (hrows | rfl) | hpre
    · exact Or.inl (Or.inl (Or.inr hrows))
    · exact Or.inr (List.Subset.refl _)
    · exact Or.inl (Or.inr hpre)
  case h_10 =>
    rcases hpart with (hlines | rfl) | hpre
    · exact Or.inl (Or.inl (Or.inl hlines))
    · exact Or.inr (List.Subset.refl _)
    · exact Or.inl (Or.inr hpre)
  all_goals exact Or.inl (Or.inr hpart)

/-- Every text that a line gives or leaves open was open, or is of the line. -/
theorem texts_of_step (hpart : part ∈ (pending.step line).1.texts ∨
      ∃ fragment ∈ (pending.step line).2, part ∈ fragment.texts) :
    part ∈ pending.texts ∨ part ⊆ line := by
  unfold Pending.step at hpart
  split at hpart
  next read hread =>
    have hopen : part ∈ read → part ∈ pending.texts ∨ part ⊆ line := fun h =>
      Or.inl (List.mem_append_right _ (by rw [hread]; exact h))
    unfold Pending.stepPreformatted at hpart
    split at hpart
    next =>
      rcases hpart with hpart | ⟨fragment, hfragment, -⟩
      · simp only [Pending.texts, Option.getD_some, List.mem_append, List.mem_singleton] at hpart ⊢
        rcases hpart with hblocks | hpart | rfl
        · exact Or.inl (Or.inl hblocks)
        · simpa only [Pending.texts, List.mem_append] using hopen hpart
        · exact Or.inr (List.Subset.refl _)
      · cases hfragment
    next before behind hcut =>
      rcases hpart with hpart | ⟨fragment, hfragment, hpart⟩
      · simp only [Pending.texts, Option.getD_none, List.append_nil, List.mem_append] at hpart ⊢
        exact Or.inl (Or.inl hpart)
      · obtain rfl := List.mem_singleton.mp hfragment
        simp only [Fragment.texts] at hpart
        split at hpart
        next => exact hopen hpart
        next =>
          rcases List.mem_append.mp hpart with hpart | hpart
          · exact hopen hpart
          · obtain rfl := List.mem_singleton.mp hpart
            exact Or.inr fun c hc => by rw [cut?_eq_some hcut]; simp [hc]
  next =>
    rcases hpart with hpart | ⟨fragment, hfragment, hpart⟩
    · exact texts_of_stepLine hpart
    · exact texts_of_mem_stepLine hfragment hpart

theorem texts_of_mem_finish (h : fragment ∈ pending.finish) (hpart : part ∈ fragment.texts) :
    part ∈ pending.texts := by
  rcases List.mem_append.mp h with h | h
  · rcases List.mem_append.mp h with h | h
    · split at h
      next read hread =>
        obtain rfl := List.mem_singleton.mp h
        exact List.mem_append_right _ (by rw [hread]; exact hpart)
      next => cases h
    · exact texts_of_mem_blocksEnd h hpart
  · rw [List.eq_of_mem_replicate h] at hpart
    cases hpart

/-- Every text of a fragment was open at the start, or is of one of the lines. -/
theorem texts_of_mem_fragmentsFrom {lines : List (List Char)} (h : fragment ∈ fragmentsFrom pending lines)
    (hpart : part ∈ fragment.texts) : part ∈ pending.texts ∨ ∃ line ∈ lines, part ⊆ line := by
  induction lines generalizing pending with
  | nil => exact Or.inl (texts_of_mem_finish h hpart)
  | cons line rest ih =>
    have hstep : part ∈ pending.texts ∨ part ⊆ line → part ∈ pending.texts ∨ ∃ l ∈ line :: rest, part ⊆ l :=
      fun h => h.imp_right fun hline => ⟨line, List.mem_cons_self, hline⟩
    rcases List.mem_append.mp h with h | h
    · exact hstep (texts_of_step (Or.inr ⟨fragment, h, hpart⟩))
    · rcases ih h with hopen | ⟨other, hother, hsub⟩
      · exact hstep (texts_of_step (Or.inl hopen))
      · exact Or.inr ⟨other, List.mem_cons_of_mem line hother, hsub⟩

/-- **Every text of a fragment is of a line of the page.** -/
theorem exists_line_of_mem_texts {page : List Char} (h : fragment ∈ fragmentsOf page)
    (hpart : part ∈ fragment.texts) : ∃ line ∈ pageLines page, part ⊆ line :=
  (texts_of_mem_fragmentsFrom h hpart).resolve_left nofun

/-! ### Rows -/

theorem mem_of_mem_endedCell {cell : Option Bool} {read : List Char} {found : Cell}
    (h : found ∈ endedCell cell read) (hc : c ∈ found.content) : c ∈ read := by
  unfold endedCell at h
  split at h
  · cases h
  · obtain rfl := List.mem_singleton.mp h
    exact List.mem_reverse.mp hc

theorem mem_of_mem_cellsFrom {depth : Nat} {cell : Option Bool} {read row : List Char} {found : Cell}
    (h : found ∈ cellsFrom depth cell read row) (hc : c ∈ found.content) : c ∈ read ∨ c ∈ row := by
  fun_induction cellsFrom depth cell read row with
  | case1 depth cell read =>
    unfold lastCell at h
    split at h
    · cases h
    split at h
    · cases h
    · obtain rfl := List.mem_singleton.mp h
      exact Or.inl (List.mem_reverse.mp hc)
  | case2 => grind
  | case3 => grind [mem_of_mem_endedCell]
  | case4 => grind
  | case5 => grind [mem_of_mem_endedCell]
  | case6 => grind
  | case7 => grind

theorem mem_of_mem_splitRow {row : List Char} {cell : Cell} (h : cell ∈ splitRow row)
    (hc : c ∈ cell.content) : c ∈ row := (mem_of_mem_cellsFrom h hc).resolve_left nofun

/-- The text of inline markup in a fragment is of one of the fragment's texts. -/
theorem exists_text_of_mem_inlineTexts (h : part ∈ fragment.inlineTexts) :
    ∃ text ∈ fragment.texts, part ⊆ text := by
  cases fragment with
  | table rows =>
    obtain ⟨row, hrow, hpart⟩ := List.mem_flatMap.mp h
    obtain ⟨cell, hcell, rfl⟩ := List.mem_map.mp hpart
    exact ⟨row, hrow, fun c hc => mem_of_mem_splitRow hcell (mem_of_mem_trim hc)⟩
  | paragraph | item | heading | definition => exact ⟨part, h, List.Subset.refl part⟩
  | _ => cases h

end WikiMigration.Wiki

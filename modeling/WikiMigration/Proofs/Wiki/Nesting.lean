/-
How the elements of a page are nested.

Between two lines the open elements are those of the style blocks, and within them the lists that an item
line left open, each holding the item that holds the next.  Of the paragraph, the table and the lists that
wait for further lines at most one is there, so nothing that ends a paragraph or a table is ever written
into a list.  An item line closes the lists it does not share with the open ones and opens its own within
the last shared one: the lists of its shared markers stay the same elements, and all others are new.
-/
import Mathlib.Data.List.Forall2
import Mathlib.Data.List.TakeWhile
import WikiMigration.Proofs.Wiki.Element

namespace WikiMigration.Wiki

open Text

variable {context : Context} {fragment : Fragment} {fragments fragments' : List Fragment}
  {r r' r₁ r₂ : Reading} {n : Nat} {stack : List Element}

/-! ### Fragments in their places -/

/-- Only style blocks are open. -/
def Reading.OnlyStyles (r : Reading) : Prop := ∀ element ∈ r.stack, element.tag = .div

/-- The fragments can be read one after the other, and where one that stands alone is written only style
blocks are open. -/
inductive Placed (context : Context) : Reading → List Fragment → Reading → Prop
  | nil (r : Reading) : Placed context r [] r
  | cons {r r₁ r₂ : Reading} {fragment : Fragment} {rest : List Fragment}
      (alone : fragment.standsAlone = true → r.OnlyStyles)
      (reads : Reads (fragment.marks context) r r₁) (placed : Placed context r₁ rest r₂) :
      Placed context r (fragment :: rest) r₂

theorem placed_singleton (alone : fragment.standsAlone = true → r.OnlyStyles)
    (reads : Reads (fragment.marks context) r r') : Placed context r [fragment] r' :=
  .cons alone reads (.nil r')

theorem Placed.append (h : Placed context r fragments r₁) (h' : Placed context r₁ fragments' r₂) :
    Placed context r (fragments ++ fragments') r₂ := by
  induction h with
  | nil => exact h'
  | cons alone reads _ ih => exact .cons alone reads (ih h')

theorem Placed.reads (h : Placed context r fragments r') :
    Reads (fragments.flatMap (Fragment.marks context)) r r' := by
  induction h with
  | nil => exact reads_nil.mpr rfl
  | cons _ reads _ ih => exact reads.append ih

/-- What is placed can be split anywhere. -/
theorem Placed.split (h : Placed context r (fragments ++ fragments') r') :
    ∃ r₁, Placed context r fragments r₁ ∧ Placed context r₁ fragments' r' := by
  induction fragments generalizing r with
  | nil => exact ⟨r, .nil r, h⟩
  | cons fragment rest ih =>
    cases h with
    | cons alone reads placed =>
      obtain ⟨r₁, hfirst, hsecond⟩ := ih placed
      exact ⟨r₁, .cons alone reads hfirst, hsecond⟩

/-- Blocks of their own leave no element open. -/
theorem placed_blocks (h : ∀ f ∈ fragments, f.standsAlone = true ∧ f.turnsStyle = false)
    (alone : fragments ≠ [] → r.OnlyStyles) :
    ∃ m, r.opened ≤ m ∧ Placed context r fragments ⟨m, r.stack⟩ := by
  induction fragments generalizing r with
  | nil => exact ⟨r.opened, Nat.le_refl _, .nil r⟩
  | cons fragment rest ih =>
    have hstyles : r.OnlyStyles := alone (by simp)
    obtain ⟨halone, hturns⟩ := h fragment (by simp)
    obtain ⟨m, hm, hreads⟩ := whole_marks context halone hturns r.opened r.stack
    obtain ⟨m', hm', hplaced⟩ := ih (r := ⟨m, r.stack⟩) (fun f hf => h f (by simp [hf])) fun _ => hstyles
    exact ⟨m', Nat.le_trans hm hm', .cons (fun _ => hstyles) hreads hplaced⟩

/-! ### Lists within lists -/

/-- A list and the item of it that is open. -/
structure Level where
  list : Element
  item : Element

/-- The level is of a list of the kind. -/
def Level.IsOf (level : Level) (kind : ListKind) : Prop :=
  level.list.tag = kind.blockTag ∧ level.item.tag = .li

/-- The open elements of levels that are given outermost first. -/
def levelStack (levels : List Level) : List Element :=
  levels.reverse.flatMap fun level => [level.item, level.list]

@[simp] theorem levelStack_nil : levelStack [] = [] := rfl

@[simp] theorem levelStack_append (levels levels' : List Level) :
    levelStack (levels ++ levels') = levelStack levels' ++ levelStack levels := by
  simp [levelStack]

theorem levelStack_cons (level : Level) (levels : List Level) :
    levelStack (level :: levels) = levelStack levels ++ [level.item, level.list] := by
  simp [levelStack]

/-- Lists are closed from the innermost outwards. -/
theorem placed_closeLists {levels : List Level} {kinds : List ListKind}
    (h : List.Forall₂ Level.IsOf levels kinds) :
    Placed context ⟨n, levelStack levels ++ stack⟩ (closeLists kinds) ⟨n, stack⟩ := by
  induction h generalizing stack with
  | nil => exact .nil _
  | cons hof _ ih =>
    rename_i level kind levels kinds _
    have hlast : Placed context ⟨n, [level.item, level.list] ++ stack⟩ [.listClosing kind] ⟨n, stack⟩ := by
      refine placed_singleton (fun h => by cases h) ?_
      exact (reads_closing hof.2).mpr ((reads_closing hof.1).mpr (reads_nil.mpr rfl))
    rw [levelStack_cons, List.append_assoc, closeLists, List.reverse_cons, List.map_append]
    exact ih.append hlast

/-- The levels that are opened one inside another, the next element being the one with the number. -/
def levelsFrom (n : Nat) : List ListKind → List Level
  | [] => []
  | kind :: kinds => ⟨⟨kind.blockTag, n⟩, ⟨.li, n + 1⟩⟩ :: levelsFrom (n + 2) kinds

theorem levelsFrom_isOf (kinds : List ListKind) :
    List.Forall₂ Level.IsOf (levelsFrom n kinds) kinds := by
  induction kinds generalizing n with
  | nil => exact .nil
  | cons kind kinds ih => exact .cons ⟨rfl, rfl⟩ ih

theorem le_of_mem_levelsFrom {kinds : List ListKind} {level : Level}
    (h : level ∈ levelsFrom n kinds) :
    n ≤ level.list.serial ∧ level.list.serial < n + 2 * kinds.length := by
  induction kinds generalizing n with
  | nil => cases h
  | cons kind kinds ih =>
    rw [List.length_cons]
    rcases List.mem_cons.mp h with rfl | h
    · exact ⟨Nat.le_refl n, show n < n + 2 * (kinds.length + 1) by omega⟩
    · have := ih h
      omega

/-- Lists are opened one inside another, with the item in the innermost. -/
theorem placed_openLists (context : Context) (n : Nat) (stack : List Element) {kinds : List ListKind}
    (hkinds : kinds ≠ []) (content : List Char) :
    Placed context ⟨n, stack⟩ (openLists kinds ++ [.item content])
      ⟨n + 2 * kinds.length, levelStack (levelsFrom n kinds) ++ stack⟩ := by
  induction kinds generalizing n stack with
  | nil => exact absurd rfl hkinds
  | cons kind kinds ih =>
    rw [levelsFrom, levelStack_cons, List.append_assoc]
    cases kinds with
    | nil =>
      refine .cons (fun h => by cases h) (reads_opening.mpr (reads_nil.mpr rfl)) ?_
      refine placed_singleton (fun h => by cases h) ?_
      exact reads_opening.mpr (reads_content.mpr (reads_nil.mpr rfl))
    | cons next kinds =>
      have hrest := ih (n + 2) (⟨.li, n + 1⟩ :: ⟨kind.blockTag, n⟩ :: stack) (by simp)
      have hlength : n + 2 + 2 * (next :: kinds).length = n + 2 * (kind :: next :: kinds).length := by
        simp only [List.length_cons]
        omega
      rw [hlength] at hrest
      refine .cons (fun h => by cases h) (reads_opening.mpr (reads_nil.mpr rfl)) ?_
      exact .cons (fun h => by cases h) (reads_opening.mpr (reads_nil.mpr rfl)) hrest

/-- A new item of the innermost list takes the place of the open one. -/
theorem placed_nextItem (context : Context) (n : Nat) (stack : List Element) {levels : List Level}
    {kinds : List ListKind} (h : List.Forall₂ Level.IsOf levels kinds) (hne : levels ≠ [])
    (content : List Char) :
    ∃ levels', List.Forall₂ Level.IsOf levels' kinds ∧ levels'.map Level.list = levels.map Level.list ∧
      Placed context ⟨n, levelStack levels ++ stack⟩ [.itemClosing, .item content]
        ⟨n + 1, levelStack levels' ++ stack⟩ := by
  induction h generalizing stack with
  | nil => exact absurd rfl hne
  | cons hof hrest ih =>
    rename_i level kind levels kinds
    cases levels with
    | nil =>
      refine ⟨[⟨level.list, ⟨.li, n⟩⟩], .cons ⟨hof.1, rfl⟩ hrest, rfl, ?_⟩
      refine .cons (fun h => by cases h) ((reads_closing hof.2).mpr (reads_nil.mpr rfl)) ?_
      refine placed_singleton (fun h => by cases h) ?_
      exact reads_opening.mpr (reads_content.mpr (reads_nil.mpr rfl))
    | cons next levels =>
      obtain ⟨levels', hof', hlists, hplaced⟩ :=
        ih ([level.item, level.list] ++ stack) (by simp)
      refine ⟨level :: levels', .cons hof hof', by rw [List.map_cons, hlists]; rfl, ?_⟩
      rw [levelStack_cons, levelStack_cons level levels', List.append_assoc, List.append_assoc]
      exact hplaced

/-- An item is opened within the lists that are kept: as the next item of the innermost one if there is
no further list, and in new lists otherwise. -/
theorem placed_newItem (context : Context) (n : Nat) (stack : List Element) {levels : List Level}
    {kinds : List ListKind} {shared : Nat}
    (h : List.Forall₂ Level.IsOf levels (kinds.take shared)) (hshared : shared ≤ kinds.length)
    (hkinds : kinds ≠ []) (content : List Char) :
    ∃ levels' m, List.Forall₂ Level.IsOf levels' kinds ∧ n ≤ m ∧
      Placed context ⟨n, levelStack levels ++ stack⟩
        ((if shared != 0 && shared == kinds.length then [.itemClosing]
          else openLists (kinds.drop shared)) ++ [.item content])
        ⟨m, levelStack levels' ++ stack⟩ ∧
      ∃ fresh, levels'.map Level.list = levels.map Level.list ++ fresh ∧
        ∀ element ∈ fresh, n ≤ element.serial ∧ element.serial < m := by
  by_cases hall : shared = kinds.length
  · subst hall
    rw [List.take_length] at h
    have hne : levels ≠ [] := by
      rintro rfl
      exact hkinds (List.forall₂_nil_left_iff.mp h)
    obtain ⟨levels', hof, hlists, hplaced⟩ := placed_nextItem context n stack h hne content
    rw [if_pos (by simp [hkinds])]
    exact ⟨levels', n + 1, hof, Nat.le_succ n, hplaced, [], by rw [hlists, List.append_nil], by simp⟩
  · have hdeeper : kinds.drop shared ≠ [] := fun hnil =>
      hall (Nat.le_antisymm hshared (List.drop_eq_nil_iff.mp hnil))
    rw [if_neg (by simp [hall])]
    have hplaced := placed_openLists context n (levelStack levels ++ stack) hdeeper content
    have hof : List.Forall₂ Level.IsOf (levels ++ levelsFrom n (kinds.drop shared))
        (kinds.take shared ++ kinds.drop shared) := List.rel_append h (levelsFrom_isOf _)
    rw [List.take_append_drop] at hof
    rw [← List.append_assoc, ← levelStack_append] at hplaced
    refine ⟨_, _, hof, Nat.le_add_right _ _, hplaced, _, List.map_append, fun element hmem => ?_⟩
    obtain ⟨level, hlevel, rfl⟩ := List.mem_map.mp hmem
    exact le_of_mem_levelsFrom hlevel

/-! ### What an item shares with the open lists -/

theorem sharedDepth_le_left (lists kinds : List ListKind) : sharedDepth lists kinds ≤ lists.length := by
  induction lists generalizing kinds with
  | nil => simp [sharedDepth]
  | cons openKind lists ih =>
    cases kinds with
    | nil => simp [sharedDepth]
    | cons kind kinds =>
      have := ih kinds
      rw [sharedDepth, List.length_cons]
      split <;> omega

theorem sharedDepth_le_right (lists kinds : List ListKind) : sharedDepth lists kinds ≤ kinds.length := by
  induction lists generalizing kinds with
  | nil => simp [sharedDepth]
  | cons openKind lists ih =>
    cases kinds with
    | nil => simp [sharedDepth]
    | cons kind kinds =>
      have := ih kinds
      rw [sharedDepth, List.length_cons]
      split <;> omega

theorem take_sharedDepth (lists kinds : List ListKind) :
    lists.take (sharedDepth lists kinds) = kinds.take (sharedDepth lists kinds) := by
  induction lists generalizing kinds with
  | nil => simp [sharedDepth]
  | cons openKind lists ih =>
    cases kinds with
    | nil => simp [sharedDepth]
    | cons kind kinds =>
      rw [sharedDepth]
      split
      next h => rw [List.take_succ_cons, List.take_succ_cons, h, ih]
      next => rfl

/-- No longer front of the kinds is that of the open lists. -/
theorem le_sharedDepth {lists kinds : List ListKind} {m : Nat} (hlists : m ≤ lists.length)
    (hkinds : m ≤ kinds.length) (h : lists.take m = kinds.take m) : m ≤ sharedDepth lists kinds := by
  induction lists generalizing kinds m with
  | nil => exact Nat.le_trans hlists (Nat.zero_le _)
  | cons openKind lists ih =>
    cases m with
    | zero => exact Nat.zero_le _
    | succ m =>
      cases kinds with
      | nil => simp at hkinds
      | cons kind kinds =>
        rw [List.take_succ_cons, List.take_succ_cons, List.cons.injEq] at h
        rw [sharedDepth, if_pos h.1]
        have := ih (by simpa using hlists) (by simpa using hkinds) h.2
        omega

/-! ### What is open between two lines -/

/-- The open elements are so many style blocks. -/
def Reading.HasStyles (r : Reading) (styles : Nat) : Prop :=
  r.stack.map Element.tag = List.replicate styles .div

theorem Reading.HasStyles.onlyStyles {styles : Nat} (h : r.HasStyles styles) : r.OnlyStyles := by
  intro element hmem
  have htag : element.tag ∈ r.stack.map Element.tag := List.mem_map_of_mem hmem
  rw [h] at htag
  exact List.eq_of_mem_replicate htag

/-- The open elements are what the pending blocks say: style blocks, and within them levels of lists of
the pending kinds. -/
structure Pending.Stands (pending : Pending) (levels : List Level) (r : Reading) : Prop where
  stack : ∃ styles, r.stack = levelStack levels ++ styles ∧
    styles.map Element.tag = List.replicate pending.styles .div
  kinds : List.Forall₂ Level.IsOf levels pending.lists
  early : ∀ level ∈ levels, level.list.serial < r.opened
  /-- Lists wait for further lines only if nothing else does. -/
  single : pending.lists ≠ [] →
    pending.paragraph = [] ∧ pending.rows = [] ∧ pending.preformatted = none

variable {pending : Pending} {levels : List Level}

theorem stands_of_hasStyles (h : r.HasStyles pending.styles) (hlists : pending.lists = []) :
    pending.Stands [] r where
  stack := ⟨r.stack, rfl, h⟩
  kinds := by
    rw [hlists]
    exact .nil
  early := by simp
  single := fun hne => absurd hlists hne

theorem Pending.Stands.hasStyles (h : pending.Stands levels r) (hlists : pending.lists = []) :
    r.HasStyles pending.styles := by
  obtain ⟨styles, hstack, htags⟩ := h.stack
  have hkinds := h.kinds
  rw [hlists, List.forall₂_nil_right_iff] at hkinds
  subst hkinds
  rw [Reading.HasStyles, hstack]
  exact htags

/-- The paragraph and the table that end here do so outside all lists. -/
theorem Pending.Stands.placed_ends (h : pending.Stands levels r) (context : Context)
    {ends : List Fragment}
    (hends : ∀ f ∈ ends, f ∈ pending.paragraphEnd ∨ f ∈ pending.tableEnd) :
    ∃ m, r.opened ≤ m ∧ Placed context r ends ⟨m, r.stack⟩ := by
  have hparagraph : ∀ f ∈ pending.paragraphEnd,
      (f.standsAlone = true ∧ f.turnsStyle = false) ∧ pending.paragraph ≠ [] := by
    intro f hf
    unfold paragraphEnd at hf
    split at hf
    · cases hf
    next hne =>
      obtain rfl := List.mem_singleton.mp hf
      exact ⟨⟨rfl, rfl⟩, fun hnil => hne (by rw [hnil]; rfl)⟩
  have htable : ∀ f ∈ pending.tableEnd,
      (f.standsAlone = true ∧ f.turnsStyle = false) ∧ pending.rows ≠ [] := by
    intro f hf
    unfold tableEnd at hf
    split at hf
    · cases hf
    next hne =>
      obtain rfl := List.mem_singleton.mp hf
      exact ⟨⟨rfl, rfl⟩, fun hnil => hne (by rw [hnil]; rfl)⟩
  refine placed_blocks (fun f hf => ?_) fun hne => ?_
  · rcases hends f hf with hf | hf
    · exact (hparagraph f hf).1
    · exact (htable f hf).1
  · obtain ⟨f, hf⟩ := List.exists_mem_of_ne_nil _ hne
    refine (h.hasStyles ?_).onlyStyles
    by_contra hlists
    obtain ⟨hnoParagraph, hnoRows, -⟩ := h.single hlists
    rcases hends f hf with hf | hf
    · exact (hparagraph f hf).2 hnoParagraph
    · exact (htable f hf).2 hnoRows

/-- When all lists are closed behind them, only the style blocks are open. -/
theorem Pending.Stands.placed_blocksEnd (h : pending.Stands levels r) (context : Context)
    {ends : List Fragment}
    (hends : ∀ f ∈ ends, f ∈ pending.paragraphEnd ∨ f ∈ pending.tableEnd) :
    ∃ r', Placed context r (ends ++ closeLists pending.lists) r' ∧ r'.HasStyles pending.styles := by
  obtain ⟨m, -, hplaced⟩ := h.placed_ends context hends
  obtain ⟨styles, hstack, htags⟩ := h.stack
  rw [hstack] at hplaced
  exact ⟨⟨m, styles⟩, hplaced.append (placed_closeLists h.kinds), htags⟩

theorem mem_ends {f : Fragment} (h : f ∈ pending.paragraphEnd ++ pending.tableEnd) :
    f ∈ pending.paragraphEnd ∨ f ∈ pending.tableEnd := List.mem_append.mp h

/-! ### Lines -/

/-- A block that ends all others is written where only style blocks are open. -/
theorem Pending.Stands.placed_block (h : pending.Stands levels r) {context : Context}
    {fragment : Fragment} (hreads : ∀ r, r.HasStyles pending.styles →
      ∃ r', Reads (fragment.marks context) r r' ∧ r'.HasStyles n) :
    ∃ r', Placed context r (pending.blocksEnd ++ [fragment]) r' ∧ r'.HasStyles n := by
  obtain ⟨r₁, hplaced, hstyles⟩ := h.placed_blocksEnd context fun f hf => mem_ends hf
  obtain ⟨r', hmarks, hstyles'⟩ := hreads r₁ hstyles
  exact ⟨r', hplaced.append (placed_singleton (fun _ => hstyles.onlyStyles) hmarks), hstyles'⟩

theorem reads_block (context : Context) (fragment : Fragment)
    (halone : fragment.standsAlone = true) (hturns : fragment.turnsStyle = false)
    (h : r.HasStyles n) : ∃ r', Reads (fragment.marks context) r r' ∧ r'.HasStyles n := by
  obtain ⟨m, -, hreads⟩ := whole_marks context halone hturns r.opened r.stack
  exact ⟨⟨m, r.stack⟩, hreads, h⟩

theorem reads_styleOpening (context : Context) (style : List Char) (h : r.HasStyles n) :
    ∃ r', Reads ((Fragment.styleOpening style).marks context) r r' ∧ r'.HasStyles (n + 1) := by
  refine ⟨_, reads_opening.mpr (reads_nil.mpr rfl), ?_⟩
  rw [Reading.HasStyles, List.map_cons, h, List.replicate_succ]

theorem reads_styleClosing (context : Context) (h : r.HasStyles (n + 1)) :
    ∃ r', Reads (Fragment.styleClosing.marks context) r r' ∧ r'.HasStyles n := by
  obtain ⟨opened, stack⟩ := r
  cases stack with
  | nil => cases h
  | cons element stack =>
    rw [Reading.HasStyles, List.map_cons, List.replicate_succ, List.cons.injEq] at h
    exact ⟨_, (reads_closing h.1).mpr (reads_nil.mpr rfl), h.2⟩

/-- An item line closes the lists it does not share with the open ones; the shared ones stay the same
elements, and all others are new. -/
theorem Pending.Stands.item (h : pending.Stands levels r) (context : Context)
    (hpre : pending.preformatted = none)
    {kinds : List ListKind} (hkinds : kinds ≠ []) (content : List Char) :
    ∃ levels' r', Placed context r
        (pending.tableEnd ++ pending.paragraphEnd ++ itemFragments pending.lists kinds content) r' ∧
      Pending.Stands { pending with paragraph := [], rows := [], lists := kinds } levels' r' ∧
      ∃ fresh, levels'.map Level.list =
          (levels.map Level.list).take (sharedDepth pending.lists kinds) ++ fresh ∧
        ∀ element ∈ fresh, r.opened ≤ element.serial := by
  obtain ⟨m, hm, hends⟩ := h.placed_ends context
    fun (f : Fragment) (hf : f ∈ pending.tableEnd ++ pending.paragraphEnd) =>
      (List.mem_append.mp hf).symm
  obtain ⟨styles, hstack, htags⟩ := h.stack
  let shared := sharedDepth pending.lists kinds
  have hclosed : Placed context r
      (pending.tableEnd ++ pending.paragraphEnd ++ closeLists (pending.lists.drop shared))
      ⟨m, levelStack (levels.take shared) ++ styles⟩ := by
    rw [← List.take_append_drop shared levels, levelStack_append, List.append_assoc] at hstack
    rw [hstack] at hends
    exact hends.append (placed_closeLists (List.forall₂_drop shared h.kinds))
  have hshared : List.Forall₂ Level.IsOf (levels.take shared) (kinds.take shared) := by
    rw [← take_sharedDepth]
    exact List.forall₂_take shared h.kinds
  obtain ⟨levels', m', hof, hm', hopened, fresh, hlists, hfresh⟩ :=
    placed_newItem context m styles hshared
      (sharedDepth_le_right _ _) hkinds content
  have hplaced := hclosed.append hopened
  rw [List.append_assoc _ (closeLists _), ← List.append_assoc (closeLists _)] at hplaced
  refine ⟨levels', ⟨m', levelStack levels' ++ styles⟩, hplaced,
    ⟨⟨styles, rfl, htags⟩, hof, fun level hmem => ?_, fun _ => ⟨rfl, rfl, hpre⟩⟩,
    fresh, by rw [hlists, List.map_take], fun element hmem => Nat.le_trans hm (hfresh element hmem).1⟩
  have hlist : level.list ∈ (levels.take shared).map Level.list ++ fresh :=
    hlists ▸ List.mem_map_of_mem hmem
  rcases List.mem_append.mp hlist with hold | hnew
  · obtain ⟨old, hmem, heq⟩ := List.mem_map.mp hold
    rw [← heq]
    exact Nat.lt_of_lt_of_le (h.early old (List.mem_of_mem_take hmem)) (Nat.le_trans hm hm')
  · exact (hfresh _ hnew).2

/-- The markers at the front of a line. -/
def markers (line : List Char) : List Char := line.takeWhile fun c => c == '*' || c == '#'

/-- An item line has the kinds of its markers, and at least one. -/
theorem kinds_of_item {inStyle : Bool} {line content : List Char} {kinds : List ListKind}
    (h : LineKind.of inStyle line = .item kinds content) :
    kinds = (markers line).map ListKind.ofMarker ∧ kinds ≠ [] := by
  have hitem : item? line = some (kinds, content) := by
    unfold LineKind.of at h
    grind
  rw [item?] at hitem
  split at hitem
  · cases hitem
  next hne =>
    obtain ⟨rfl, -⟩ := Prod.mk.inj (Option.some.inj hitem)
    refine ⟨rfl, fun hnil => hne ?_⟩
    rw [List.map_eq_nil_iff.mp hnil]
    rfl

/-- A style block can only end where one is open. -/
theorem styles_of_styleClosing {inStyle : Bool} {line : List Char}
    (h : LineKind.of inStyle line = .styleClosing) : inStyle = true := by
  unfold LineKind.of at h
  grind

/-- A line outside preformatted text is placed. -/
theorem Pending.Stands.stepLine (h : pending.Stands levels r) (context : Context)
    (hpre : pending.preformatted = none) (line : List Char) :
    ∃ levels' r', Placed context r (pending.stepLine line).2 r' ∧
      (pending.stepLine line).1.Stands levels' r' := by
  unfold Pending.stepLine
  -- The cases are the kinds of lines, in the order of the definition.
  split
  case h_1 | h_2 =>
    obtain ⟨r', hplaced, hstyles⟩ := h.placed_blocksEnd context fun f hf => mem_ends hf
    exact ⟨[], r', hplaced, stands_of_hasStyles hstyles rfl⟩
  case h_3 =>
    obtain ⟨r', hplaced, hstyles⟩ := h.placed_blocksEnd context
      fun (f : Fragment) (hf : f ∈ pending.paragraphEnd) => Or.inl hf
    exact ⟨[], r', hplaced, stands_of_hasStyles hstyles rfl⟩
  case h_4 style _ =>
    obtain ⟨r', hplaced, hstyles⟩ := h.placed_block fun _ => reads_styleOpening context style
    exact ⟨[], r', hplaced, stands_of_hasStyles hstyles rfl⟩
  case h_5 hkind =>
    have hopen : pending.styles = pending.styles - 1 + 1 := by
      have := styles_of_styleClosing hkind
      simp at this
      omega
    obtain ⟨r', hplaced, hstyles⟩ := h.placed_block (n := pending.styles - 1)
      fun _ hstyles => reads_styleClosing context (hopen ▸ hstyles)
    exact ⟨[], r', hplaced, stands_of_hasStyles hstyles rfl⟩
  case h_6 =>
    obtain ⟨r', hplaced, hstyles⟩ := h.placed_block fun _ =>
      reads_block context .rule rfl rfl
    exact ⟨[], r', hplaced, stands_of_hasStyles hstyles rfl⟩
  case h_7 level title _ =>
    obtain ⟨r', hplaced, hstyles⟩ := h.placed_block fun _ =>
      reads_block context (.heading level title) rfl rfl
    exact ⟨[], r', hplaced, stands_of_hasStyles hstyles rfl⟩
  case h_8 term meaning _ =>
    obtain ⟨r', hplaced, hstyles⟩ := h.placed_block fun _ =>
      reads_block context (.definition term meaning) rfl rfl
    exact ⟨[], r', hplaced, stands_of_hasStyles hstyles rfl⟩
  case h_9 kinds content hkind =>
    obtain ⟨levels', r', hplaced, hstands, -⟩ := h.item context hpre
      (kinds_of_item hkind).2 content
    exact ⟨levels', r', hplaced, hstands⟩
  case h_10 =>
    obtain ⟨r', hplaced, hstyles⟩ := h.placed_blocksEnd context
      fun (f : Fragment) (hf : f ∈ pending.tableEnd) => Or.inr hf
    exact ⟨[], r', hplaced, stands_of_hasStyles hstyles rfl⟩

/-- Preformatted text waits for further lines outside all lists, and is written there. -/
theorem Pending.Stands.preformatted (h : pending.Stands levels r) (context : Context)
    {read : List (List Char)} (hpre : pending.preformatted = some read) (lines : List (List Char)) (closed : Bool) :
    pending.lists = [] ∧ r.HasStyles pending.styles ∧
      ∃ r', Placed context r [.preformatted lines closed] r' ∧ r'.HasStyles pending.styles := by
  have hlists : pending.lists = [] := by
    by_contra hne
    have hnone := (h.single hne).2.2
    rw [hpre] at hnone
    cases hnone
  have hstyles := h.hasStyles hlists
  obtain ⟨r', hreads, hstyles'⟩ := reads_block context (.preformatted lines closed) rfl rfl hstyles
  exact ⟨hlists, hstyles, r', placed_singleton (fun _ => hstyles.onlyStyles) hreads, hstyles'⟩

/-- A line of preformatted text is placed. -/
theorem Pending.Stands.stepPreformatted (h : pending.Stands levels r) (context : Context)
    {read : List (List Char)}
    (hpre : pending.preformatted = some read) (line : List Char) :
    ∃ r', Placed context r (pending.stepPreformatted read line).2 r' ∧
      (pending.stepPreformatted read line).1.Stands [] r' := by
  unfold Pending.stepPreformatted
  split
  · obtain ⟨hlists, hstyles, -⟩ := h.preformatted context hpre read true
    exact ⟨r, .nil r, stands_of_hasStyles hstyles hlists⟩
  next before _ _ =>
    obtain ⟨hlists, -, r', hplaced, hstyles⟩ := h.preformatted context hpre
      (if isBlankText before then read else read ++ [before]) true
    exact ⟨r', hplaced, stands_of_hasStyles hstyles hlists⟩

/-- What a line is written as is placed. -/
theorem Pending.Stands.step (h : pending.Stands levels r) (context : Context) (line : List Char) :
    ∃ levels' r', Placed context r (pending.step line).2 r' ∧
      (pending.step line).1.Stands levels' r' := by
  unfold Pending.step
  split
  next read hpre =>
    obtain ⟨r', hplaced, hstands⟩ := h.stepPreformatted context hpre line
    exact ⟨[], r', hplaced, hstands⟩
  next hpre => exact h.stepLine context hpre line

theorem placed_styleClosings (context : Context) {styles : Nat} (h : r.HasStyles styles) :
    ∃ m, Placed context r (List.replicate styles .styleClosing) ⟨m, []⟩ := by
  induction styles generalizing r with
  | zero =>
    obtain ⟨opened, stack⟩ := r
    obtain rfl := List.map_eq_nil_iff.mp h
    exact ⟨opened, .nil _⟩
  | succ styles ih =>
    obtain ⟨r₁, hreads, hstyles⟩ := reads_styleClosing context h
    obtain ⟨m, hplaced⟩ := ih hstyles
    exact ⟨m, .cons (fun _ => h.onlyStyles) hreads hplaced⟩

/-- The end of a page closes all that is open. -/
theorem Pending.Stands.finish (h : pending.Stands levels r) (context : Context) :
    ∃ m, Placed context r pending.finish ⟨m, []⟩ := by
  have hends : ∀ {levels₁ r₁}, pending.Stands levels₁ r₁ → ∃ m, Placed context r₁
      (pending.blocksEnd ++ List.replicate pending.styles .styleClosing) ⟨m, []⟩ := by
    intro levels₁ r₁ hstands
    obtain ⟨r₂, hends, hstyles⟩ := hstands.placed_blocksEnd context fun f hf => mem_ends hf
    obtain ⟨m, hclosed⟩ := placed_styleClosings context hstyles
    exact ⟨m, hends.append hclosed⟩
  unfold Pending.finish
  rw [List.append_assoc]
  split
  next read hpre =>
    obtain ⟨hlists, -, r₁, hplaced, hstyles⟩ := h.preformatted context hpre read false
    obtain ⟨m, hrest⟩ := hends (stands_of_hasStyles hstyles hlists)
    exact ⟨m, hplaced.append hrest⟩
  next => exact hends h

/-! ### Pages -/

/-- What is pending behind lines, and the fragments they were written as. -/
def readLines (pending : Pending) : List (List Char) → Pending × List Fragment
  | [] => (pending, [])
  | line :: rest =>
    ((readLines (pending.step line).1 rest).1,
      (pending.step line).2 ++ (readLines (pending.step line).1 rest).2)

theorem readLines_append (pending : Pending) (lines lines' : List (List Char)) :
    readLines pending (lines ++ lines') =
      ((readLines (readLines pending lines).1 lines').1,
        (readLines pending lines).2 ++ (readLines (readLines pending lines).1 lines').2) := by
  induction lines generalizing pending with
  | nil => rfl
  | cons line rest ih => simp only [List.cons_append, readLines, ih, List.append_assoc]

theorem fragmentsFrom_append (pending : Pending) (lines lines' : List (List Char)) :
    fragmentsFrom pending (lines ++ lines') =
      (readLines pending lines).2 ++ fragmentsFrom (readLines pending lines).1 lines' := by
  induction lines generalizing pending with
  | nil => rfl
  | cons line rest ih => simp only [List.cons_append, fragmentsFrom, readLines, ih, List.append_assoc]

/-- What lines are written as is placed, whatever they are. -/
theorem Pending.Stands.readLines (h : pending.Stands levels r) (context : Context) (lines : List (List Char)) :
    ∃ levels' r', Placed context r (Wiki.readLines pending lines).2 r' ∧
      (Wiki.readLines pending lines).1.Stands levels' r' := by
  induction lines generalizing pending levels r with
  | nil => exact ⟨levels, r, .nil r, h⟩
  | cons line rest ih =>
    obtain ⟨levels₁, r₁, hplaced, hstands⟩ := h.step context line
    obtain ⟨levels', r', hrest, hstands'⟩ := ih hstands
    exact ⟨levels', r', hplaced.append hrest, hstands'⟩

theorem empty_stands : Pending.empty.Stands [] Reading.start :=
  stands_of_hasStyles rfl rfl

/-- What the lines in front of others are written as. -/
def written (lines : List (List Char)) : List Fragment := (readLines .empty lines).2

/-- Behind the lines in front of it the line is an item. -/
def IsItemLine (front : List (List Char)) (line : List Char) : Prop :=
  (readLines .empty front).1.preformatted = none ∧
    ∃ kinds content, LineKind.of ((readLines .empty front).1.styles != 0) line = .item kinds content

/-- The tag of the list of a marker. -/
def markerTag (marker : Char) : BlockTag := if marker = '*' then .ul else .ol

theorem Placed.readingOf (h : Placed context .start fragments r) :
    readingOf context fragments = some r := reads_pageMarks.mpr h.reads

theorem fragmentsOf_eq {text : List Char} {front behind : List (List Char)}
    (h : pageLines text = front ++ behind) :
    fragmentsOf text = written front ++ fragmentsFrom (readLines .empty front).1 behind := by
  rw [fragmentsOf, h, fragmentsFrom_append, written]

/-- Every page is placed, and in the end nothing is open. -/
theorem placed_page (context : Context) (text : List Char) :
    ∃ m, Placed context .start (fragmentsOf text) ⟨m, []⟩ := by
  obtain ⟨levels, r, hplaced, hstands⟩ := empty_stands.readLines context (pageLines text)
  obtain ⟨m, hfinish⟩ := hstands.finish context
  have hall := fragmentsOf_eq (List.append_nil (pageLines text)).symm
  rw [hall]
  exact ⟨m, hplaced.append hfinish⟩

/-! ### Items -/

/-- The marker of a kind of list. -/
def ListKind.marker : ListKind → Char
  | .bulleted => '*'
  | .numbered => '#'

theorem map_marker (line : List Char) :
    ((markers line).map ListKind.ofMarker).map ListKind.marker = markers line := by
  rw [List.map_map]
  refine (List.map_congr_left fun c hc => ?_).trans (List.map_id _)
  have hmarker := List.mem_takeWhile_imp hc
  rcases Bool.or_eq_true_iff.mp hmarker with h | h <;> rw [beq_iff_eq.mp h] <;> rfl

theorem take_markers {line line' : List Char} {m : Nat} :
    (markers line).take m = (markers line').take m ↔
      ((markers line).map ListKind.ofMarker).take m = ((markers line').map ListKind.ofMarker).take m := by
  constructor
  · intro h
    rw [← List.map_take, h, List.map_take]
  · intro h
    rw [← map_marker line, ← map_marker line', ← List.map_take, h, List.map_take]

theorem blockTag_ofMarker (c : Char) : (ListKind.ofMarker c).blockTag = markerTag c := by
  unfold ListKind.ofMarker markerTag
  by_cases hc : c = '*' <;> simp [hc, ListKind.blockTag]

theorem lists_levelStack {kinds : List ListKind} (h : List.Forall₂ Level.IsOf levels kinds) :
    (levelStack levels).filter (fun element => element.tag.isList) =
      (levels.map Level.list).reverse := by
  induction h with
  | nil => rfl
  | cons hof _ ih =>
    rename_i level kind levels kinds _
    have hlist : level.list.tag.isList = true := by
      rw [hof.1]
      cases kind <;> rfl
    have hitem : level.item.tag.isList = false := by
      rw [hof.2]
      rfl
    simp [levelStack_cons, ih, hlist, hitem]

theorem tags_of_isOf {kinds : List ListKind} (h : List.Forall₂ Level.IsOf levels kinds) :
    (levels.map Level.list).map Element.tag = kinds.map ListKind.blockTag := by
  induction h with
  | nil => rfl
  | cons hof _ ih => rw [List.map_cons, List.map_cons, List.map_cons, ih, hof.1]

/-- The open lists are those of the levels. -/
theorem Pending.Stands.lists (h : pending.Stands levels r) : r.lists = levels.map Level.list := by
  obtain ⟨styles, hstack, htags⟩ := h.stack
  have hstyles : styles.filter (fun element => element.tag.isList) = [] := by
    rw [List.filter_eq_nil_iff]
    intro element hmem
    have htag : element.tag ∈ styles.map Element.tag := List.mem_map_of_mem hmem
    rw [htags] at htag
    rw [List.eq_of_mem_replicate htag]
    decide
  rw [Reading.lists, hstack, List.filter_append, lists_levelStack h.kinds, hstyles, List.append_nil,
    List.reverse_reverse]

theorem head?_levelStack {kinds : List ListKind} (h : List.Forall₂ Level.IsOf levels kinds)
    (hne : levels ≠ []) : (levelStack levels ++ stack).head?.map Element.tag = some .li := by
  induction h generalizing stack with
  | nil => exact absurd rfl hne
  | cons hof _ ih =>
    rename_i level kind levels kinds _
    rw [levelStack_cons, List.append_assoc]
    cases levels with
    | nil => exact congrArg some hof.2
    | cons next levels => exact ih (by simp)

theorem stepLine_item {line content : List Char} {kinds : List ListKind}
    (h : LineKind.of (pending.styles != 0) line = .item kinds content) :
    pending.stepLine line = ({ pending with paragraph := [], rows := [], lists := kinds },
      pending.tableEnd ++ pending.paragraphEnd ++ itemFragments pending.lists kinds content) := by
  unfold Pending.stepLine
  rw [h]

theorem itemFragments_ends (lists kinds : List ListKind) (content : List Char) :
    ∃ above, itemFragments lists kinds content = above ++ [.item content] := ⟨_, rfl⟩

/-- What an item line is written as ends with its item, in lists along its markers. -/
theorem written_itemLine {front : List (List Char)} {line : List Char} (hline : IsItemLine front line)
    (hplaced : Placed context .start (written front) r)
    (hstands : (readLines .empty front).1.Stands levels r) :
    ∃ levels' r', Placed context .start (written (front ++ [line])) r' ∧
      (readLines .empty (front ++ [line])).1.Stands levels' r' ∧
      (readLines .empty (front ++ [line])).1.lists = (markers line).map ListKind.ofMarker ∧
      levels' ≠ [] ∧
      (∃ above content, written (front ++ [line]) = above ++ [.item content]) ∧
      ∃ fresh, levels'.map Level.list = (levels.map Level.list).take
          (sharedDepth (readLines .empty front).1.lists ((markers line).map ListKind.ofMarker)) ++ fresh ∧
        ∀ element ∈ fresh, r.opened ≤ element.serial := by
  obtain ⟨hpre, kinds, content, hkind⟩ := hline
  obtain ⟨rfl, hkinds⟩ := kinds_of_item hkind
  obtain ⟨levels', r', hitem, hstands', hfresh⟩ := hstands.item context hpre hkinds content
  have hstep : (readLines .empty front).1.step line = (readLines .empty front).1.stepLine line := by
    rw [Pending.step, hpre]
  rw [written, readLines_append, readLines, readLines, hstep, stepLine_item hkind, List.append_nil]
  refine ⟨levels', r', hplaced.append hitem, hstands', rfl, ?_, ?_, hfresh⟩
  · rintro rfl
    exact hkinds (List.forall₂_nil_left_iff.mp hstands'.kinds)
  · obtain ⟨above, habove⟩ := itemFragments_ends (readLines .empty front).1.lists
      ((markers line).map ListKind.ofMarker) content
    exact ⟨_, content, by rw [habove, ← List.append_assoc, ← List.append_assoc]⟩

/-- The elements at two item lines, one behind the other: the lists of the longest front that their markers
share are the same, and all others are not. -/
theorem lists_shared {front : List (List Char)} {line₁ line₂ : List Char}
    (h₁ : IsItemLine front line₁) (h₂ : IsItemLine (front ++ [line₁]) line₂) :
    ∃ r₁ r₂ m, readingOf context (written (front ++ [line₁])) = some r₁ ∧
      readingOf context (written (front ++ [line₁, line₂])) = some r₂ ∧
      m ≤ (markers line₁).length ∧ m ≤ (markers line₂).length ∧
      (markers line₁).take m = (markers line₂).take m ∧
      (∀ k, k ≤ (markers line₁).length → k ≤ (markers line₂).length →
        (markers line₁).take k = (markers line₂).take k → k ≤ m) ∧
      r₁.lists.take m = r₂.lists.take m ∧ ∀ list ∈ r₂.lists.drop m, list ∉ r₁.lists := by
  obtain ⟨levels, r, hplaced, hstands⟩ := empty_stands.readLines context front
  obtain ⟨levels₁, r₁, hplaced₁, hstands₁, hkinds₁, -⟩ := written_itemLine h₁ hplaced hstands
  obtain ⟨levels₂, r₂, hplaced₂, hstands₂, -, -, -, fresh, hlists, hfresh⟩ :=
    written_itemLine h₂ hplaced₁ hstands₁
  rw [hkinds₁] at hlists
  let kinds₁ := (markers line₁).map ListKind.ofMarker
  let kinds₂ := (markers line₂).map ListKind.ofMarker
  have hle₁ : sharedDepth kinds₁ kinds₂ ≤ (markers line₁).length := by
    simpa [kinds₁] using sharedDepth_le_left kinds₁ kinds₂
  have hle₂ : sharedDepth kinds₁ kinds₂ ≤ (markers line₂).length := by
    simpa [kinds₂] using sharedDepth_le_right kinds₁ kinds₂
  have hlength : ((levels₁.map Level.list).take (sharedDepth kinds₁ kinds₂)).length =
      sharedDepth kinds₁ kinds₂ := by
    have hlevels := hstands₁.kinds.length_eq
    rw [hkinds₁, List.length_map] at hlevels
    rw [List.length_take, List.length_map, hlevels]
    exact Nat.min_eq_left hle₁
  rw [List.append_assoc] at hplaced₂
  refine ⟨r₁, r₂, sharedDepth kinds₁ kinds₂, hplaced₁.readingOf, hplaced₂.readingOf, hle₁, hle₂,
    take_markers.mpr (take_sharedDepth kinds₁ kinds₂), fun k hk₁ hk₂ htake => ?_, ?_, ?_⟩
  · exact le_sharedDepth (by simpa [kinds₁] using hk₁) (by simpa [kinds₂] using hk₂)
      (take_markers.mp htake)
  · rw [hstands₁.lists, hstands₂.lists, hlists, List.take_left' hlength]
  · rw [hstands₁.lists, hstands₂.lists, hlists, List.drop_left' hlength]
    intro list hmem hold
    obtain ⟨level, hlevel, rfl⟩ := List.mem_map.mp hold
    have hnew := hfresh _ hmem
    have hearly := hstands₁.early level hlevel
    omega

/-- **The blocks of every page are well nested.**  A page is written as the marks of its fragments.  Only
the innermost element is ever closed, and in the end all are.  A block of its own is written where only
style blocks are open, so no list straddles one.  Every item line ends with an item in lists along its
markers, and two item lines, one behind the other, share the lists of the longest front that their markers
have in common and no others. -/
theorem blocks_well_nested (context : Context) (text : List Char) :
    renderPage context text = (pageMarks context (fragmentsOf text)).flatMap Mark.text ∧
    (∃ m, readingOf context (fragmentsOf text) = some ⟨m, []⟩) ∧
    (∀ front fragment behind, fragmentsOf text = front ++ fragment :: behind →
      fragment.standsAlone = true → ∃ r, readingOf context front = some r ∧ r.OnlyStyles) ∧
    (∀ front line behind, pageLines text = front ++ line :: behind → IsItemLine front line →
      written (front ++ [line]) <+: fragmentsOf text ∧
      ∃ above content r, written (front ++ [line]) = above ++ [.item content] ∧
        readingOf context (written (front ++ [line])) = some r ∧
        r.stack.head?.map Element.tag = some .li ∧
        r.lists.map Element.tag = (markers line).map markerTag) ∧
    ∀ front line₁ line₂ behind, pageLines text = front ++ line₁ :: line₂ :: behind →
      IsItemLine front line₁ → IsItemLine (front ++ [line₁]) line₂ →
      ∃ r₁ r₂ m, readingOf context (written (front ++ [line₁])) = some r₁ ∧
        readingOf context (written (front ++ [line₁, line₂])) = some r₂ ∧
        m ≤ (markers line₁).length ∧ m ≤ (markers line₂).length ∧
        (markers line₁).take m = (markers line₂).take m ∧
        (∀ k, k ≤ (markers line₁).length → k ≤ (markers line₂).length →
          (markers line₁).take k = (markers line₂).take k → k ≤ m) ∧
        r₁.lists.take m = r₂.lists.take m ∧ ∀ list ∈ r₂.lists.drop m, list ∉ r₁.lists := by
  obtain ⟨m, hpage⟩ := placed_page context text
  refine ⟨(text_pageMarks context _).symm, ⟨m, hpage.readingOf⟩, ?_, ?_, ?_⟩
  · intro front fragment behind hsplit halone
    rw [hsplit] at hpage
    obtain ⟨r, hfront, hrest⟩ := hpage.split
    cases hrest with
    | cons alone _ _ => exact ⟨r, hfront.readingOf, alone halone⟩
  · intro front line behind hsplit hline
    obtain ⟨levels, r, hplaced, hstands⟩ := empty_stands.readLines context front
    obtain ⟨levels', r', hplaced', hstands', hkinds, hne, ⟨above, content, hends⟩, -⟩ :=
      written_itemLine hline hplaced hstands
    have hpage : fragmentsOf text = written (front ++ [line]) ++ _ :=
      fragmentsOf_eq (by rw [hsplit, List.append_assoc]; rfl)
    refine ⟨⟨_, hpage.symm⟩, above, content, r', hends, hplaced'.readingOf, ?_, ?_⟩
    · obtain ⟨styles, hstack, -⟩ := hstands'.stack
      rw [hstack]
      exact head?_levelStack hstands'.kinds hne
    · rw [hstands'.lists, tags_of_isOf hstands'.kinds, hkinds, List.map_map]
      exact List.map_congr_left fun c _ => blockTag_ofMarker c
  · intro front line₁ line₂ behind _ h₁ h₂
    exact lists_shared h₁ h₂

/-- A deeper item of another kind leaves the numbered list and stays in the bulleted one. -/
theorem deeper_items_nested :
    (∃ r, readingOf ⟨"Main".toList, true, false⟩ (written ["*# one".toList]) = some r ∧
      r.lists.map Element.tag = [.ul, .ol]) ∧
    ∃ r₁ r₂ m, readingOf ⟨"Main".toList, true, false⟩ (written ["*# one".toList]) = some r₁ ∧
      readingOf ⟨"Main".toList, true, false⟩ (written ["*# one".toList, "*** two".toList]) = some r₂ ∧
      r₁.lists.take m = r₂.lists.take m ∧ 1 ≤ m := by
  have hlines : pageLines "*# one\n*** two".toList = ["*# one".toList, "*** two".toList] := by
    decide
  have hone : IsItemLine [] "*# one".toList :=
    ⟨rfl, [.bulleted, .numbered], "one".toList, by decide⟩
  have htwo : IsItemLine ["*# one".toList] "*** two".toList :=
    ⟨by decide, [.bulleted, .bulleted, .bulleted], "two".toList, by decide⟩
  obtain ⟨-, -, -, hitem, hshared⟩ :=
    blocks_well_nested ⟨"Main".toList, true, false⟩ "*# one\n*** two".toList
  obtain ⟨-, above, content, r, -, hread, -, htags⟩ := hitem [] _ _ hlines hone
  obtain ⟨r₁, r₂, m, hread₁, hread₂, -, -, -, hlongest, hsame, -⟩ := hshared [] _ _ _ hlines hone htwo
  refine ⟨⟨r, hread, htags.trans (by decide)⟩, r₁, r₂, m, hread₁, hread₂, hsame, ?_⟩
  exact hlongest 1 (by decide) (by decide) (by decide)

end WikiMigration.Wiki

/-
One block waits at a time, and the page comes out in the order of its lines.

A line may end blocks that wait for further lines, and may itself begin to wait in one.  The branches of the reading
end different blocks: a row ends the paragraph and the lists but not the table, an item ends the paragraph and the
table but keeps the lists that it continues, running text ends the table and the lists, and every other line ends all.
What keeps the order is that they never have two blocks to end: at most one of the three waits, and the line that
begins another has ended it.

The order is told by what the lines hold.  Whatever stands in front of a line decides no more about it than how many
style blocks are open and whether the line is preformatted, so what each line holds is told without any block.  What
has been written and what waits are, together and in this order, what the lines so far hold, line by line.
-/
import Mathlib.Data.List.Induction
import WikiMigration.Proofs.Wiki.Nesting

namespace WikiMigration.Wiki

open Text

variable {pending : Pending} {fragment : Fragment} {fragments fragments' : List Fragment}

/-! ### What waits -/

/-- No paragraph, table or list waits for further lines. -/
structure Pending.IsClear (pending : Pending) : Prop where
  paragraph : pending.paragraph = []
  rows : pending.rows = []
  lists : pending.lists = []

/-- Of the paragraph, the table and the lists at most one waits for further lines, and none does within preformatted
text. -/
structure Pending.IsSingle (pending : Pending) : Prop where
  paragraphOrRows : pending.paragraph = [] ∨ pending.rows = []
  paragraphOrLists : pending.paragraph = [] ∨ pending.lists = []
  rowsOrLists : pending.rows = [] ∨ pending.lists = []
  preformatted : pending.preformatted ≠ none → pending.IsClear

theorem Pending.IsClear.isSingle (h : pending.IsClear) : pending.IsSingle :=
  ⟨Or.inl h.paragraph, Or.inl h.paragraph, Or.inl h.rows, fun _ => h⟩

theorem withoutBlocks_isClear (pending : Pending) : pending.withoutBlocks.IsClear := ⟨rfl, rfl, rfl⟩

/-- A fragment that ends all blocks: what opens or closes a style block, and a rule, a heading, a definition or
preformatted text. -/
def Fragment.endsBlocks : Fragment → Bool
  | .styleOpening _ | .styleClosing | .rule | .heading _ _ | .definition _ _ | .preformatted _ _ => true
  | _ => false

/-- Whether the fragment opens a list. -/
def Fragment.opensList : Fragment → Bool
  | .listOpening _ => true
  | _ => false

/-! ### Writing fragments one by one -/

/-- What still waits when the fragment has been written. -/
def Pending.after (pending : Pending) : Fragment → Pending
  | .paragraph _ => { pending with paragraph := [] }
  | .table _ => { pending with rows := [] }
  | .listOpening kind => { pending with lists := pending.lists ++ [kind] }
  | .listClosing _ => { pending with lists := pending.lists.dropLast }
  | .preformatted _ _ => { pending with preformatted := none }
  | .styleOpening _ => { pending with styles := pending.styles + 1 }
  | .styleClosing => { pending with styles := pending.styles - 1 }
  | _ => pending

/-- Some fragments, each with what waits when it is written. -/
def moments (pending : Pending) : List Fragment → List (Pending × Fragment)
  | [] => []
  | fragment :: rest => (pending, fragment) :: moments (pending.after fragment) rest

/-- The fragments of the remaining lines, each with what waits when it is written. -/
def momentsFrom (pending : Pending) : List (List Char) → List (Pending × Fragment)
  | [] => moments pending pending.finish
  | line :: rest => moments pending (pending.step line).2 ++ momentsFrom (pending.step line).1 rest

/-- The fragments of a page, each with what waits when it is written. -/
def momentsOf (text : List Char) : List (Pending × Fragment) := momentsFrom .empty (pageLines text)

theorem map_moments (pending : Pending) (fragments : List Fragment) :
    (moments pending fragments).map Prod.snd = fragments := by
  induction fragments generalizing pending with
  | nil => rfl
  | cons fragment rest ih => exact congrArg (fragment :: ·) (ih (pending.after fragment))

theorem map_momentsFrom (pending : Pending) (lines : List (List Char)) :
    (momentsFrom pending lines).map Prod.snd = fragmentsFrom pending lines := by
  induction lines generalizing pending with
  | nil => exact map_moments pending pending.finish
  | cons line rest ih => rw [momentsFrom, List.map_append, map_moments, ih, fragmentsFrom]

theorem moments_append (pending : Pending) (fragments fragments' : List Fragment) :
    moments pending (fragments ++ fragments') =
      moments pending fragments ++ moments (fragments.foldl Pending.after pending) fragments' := by
  induction fragments generalizing pending with
  | nil => rfl
  | cons fragment rest ih => exact congrArg ((pending, fragment) :: ·) (ih (pending.after fragment))

/-! ### What is left when blocks have ended -/

theorem foldl_paragraphEnd (pending : Pending) :
    pending.paragraphEnd.foldl Pending.after pending = { pending with paragraph := [] } := by
  unfold Pending.paragraphEnd
  split
  next hempty =>
    obtain ⟨paragraph, rows, lists, styles, preformatted⟩ := pending
    obtain rfl := List.isEmpty_iff.mp hempty
    rfl
  next => rfl

theorem foldl_tableEnd (pending : Pending) :
    pending.tableEnd.foldl Pending.after pending = { pending with rows := [] } := by
  unfold Pending.tableEnd
  split
  next hempty =>
    obtain ⟨paragraph, rows, lists, styles, preformatted⟩ := pending
    obtain rfl := List.isEmpty_iff.mp hempty
    rfl
  next => rfl

/-- Lists are closed from the innermost outwards, and those around them stay open. -/
theorem foldl_closeLists {outer inner : List ListKind} (h : pending.lists = outer ++ inner) :
    (closeLists inner).foldl Pending.after pending = { pending with lists := outer } := by
  induction inner using List.reverseRecOn generalizing pending with
  | nil =>
    obtain ⟨paragraph, rows, lists, styles, preformatted⟩ := pending
    rw [List.append_nil] at h
    obtain rfl := h
    rfl
  | append_singleton inner kind ih =>
    rw [closeLists, List.reverse_concat, List.map_cons, List.foldl_cons]
    refine (ih ?_).trans rfl
    show pending.lists.dropLast = outer ++ inner
    rw [h, ← List.append_assoc, List.dropLast_concat]

theorem foldl_openLists (pending : Pending) (kinds : List ListKind) :
    (openLists kinds).foldl Pending.after pending = { pending with lists := pending.lists ++ kinds } := by
  induction kinds generalizing pending with
  | nil =>
    rw [List.append_nil]
    rfl
  | cons kind kinds ih =>
    cases kinds with
    | nil => rfl
    | cons next kinds =>
      refine (ih { pending with lists := pending.lists ++ [kind] }).trans ?_
      show ({ pending with lists := pending.lists ++ [kind] ++ next :: kinds } : Pending) = _
      rw [List.append_assoc, List.singleton_append]

theorem foldl_blocksEnd (pending : Pending) :
    pending.blocksEnd.foldl Pending.after pending = pending.withoutBlocks := by
  have htable := foldl_tableEnd { pending with paragraph := [] }
  rw [Pending.blocksEnd, List.foldl_append, List.foldl_append, foldl_paragraphEnd]
  show (closeLists pending.lists).foldl Pending.after
    (({ pending with paragraph := [] } : Pending).tableEnd.foldl Pending.after _) = _
  rw [htable]
  exact foldl_closeLists (List.nil_append _).symm

/-! ### Each fragment in its time -/

/-- When a fragment of these is written, at most one block waits, and none does if the fragment ends all blocks. -/
def Orderly (pending : Pending) (fragments : List Fragment) : Prop :=
  ∀ moment ∈ moments pending fragments, moment.1.IsSingle ∧ (moment.2.endsBlocks = true → moment.1.IsClear)

theorem orderly_nil (pending : Pending) : Orderly pending [] := by
  intro moment hmem
  cases hmem

/-- Fragments come in their time if what waits stays of a kind in which they may come. -/
theorem orderly_of_kept {waits : Pending → Prop} {comes : Fragment → Prop}
    (hsingle : ∀ pending, waits pending → pending.IsSingle)
    (hclear : ∀ pending fragment, waits pending → comes fragment → fragment.endsBlocks = true → pending.IsClear)
    (hafter : ∀ pending fragment, waits pending → comes fragment → waits (pending.after fragment))
    (h : waits pending) (hcomes : ∀ f ∈ fragments, comes f) : Orderly pending fragments := by
  induction fragments generalizing pending with
  | nil => exact orderly_nil pending
  | cons fragment rest ih =>
    have hfirst : comes fragment := hcomes fragment (by simp)
    intro moment hmem
    rcases List.mem_cons.mp hmem with rfl | hmem
    · exact ⟨hsingle pending h, hclear pending fragment h hfirst⟩
    · exact ih (hafter pending fragment h hfirst) (fun f hf => hcomes f (by simp [hf])) moment hmem

theorem Orderly.append (h : Orderly pending fragments)
    (h' : Orderly (fragments.foldl Pending.after pending) fragments') : Orderly pending (fragments ++ fragments') := by
  intro moment hmem
  rw [moments_append] at hmem
  rcases List.mem_append.mp hmem with hmem | hmem
  · exact h moment hmem
  · exact h' moment hmem

/-- What ends all blocks leaves none. -/
theorem Pending.IsClear.after (h : pending.IsClear) (hends : fragment.endsBlocks = true) :
    (pending.after fragment).IsClear := by
  cases fragment with
  | preformatted _ _ | rule | heading _ _ | definition _ _ | styleOpening _ | styleClosing =>
    exact ⟨h.paragraph, h.rows, h.lists⟩
  | paragraph _ | table _ | listOpening _ | listClosing _ | itemClosing | itemOpening | item _ => cases hends

/-- The end of a block is not the start of another. -/
theorem Pending.IsSingle.after (h : pending.IsSingle) (hends : fragment.endsBlocks = false)
    (hopens : fragment.opensList = false) : (pending.after fragment).IsSingle := by
  cases fragment with
  | paragraph lines =>
    exact ⟨Or.inl rfl, Or.inl rfl, h.rowsOrLists, fun hpre =>
      ⟨rfl, (h.preformatted hpre).rows, (h.preformatted hpre).lists⟩⟩
  | table rows =>
    exact ⟨Or.inr rfl, h.paragraphOrLists, Or.inl rfl, fun hpre =>
      ⟨(h.preformatted hpre).paragraph, rfl, (h.preformatted hpre).lists⟩⟩
  | listClosing kind =>
    have hdrop : pending.lists = [] → pending.lists.dropLast = [] := fun hnil => by rw [hnil]; rfl
    exact ⟨h.paragraphOrRows, h.paragraphOrLists.imp_right hdrop, h.rowsOrLists.imp_right hdrop, fun hpre =>
      ⟨(h.preformatted hpre).paragraph, (h.preformatted hpre).rows, hdrop (h.preformatted hpre).lists⟩⟩
  | itemClosing | itemOpening | item _ => exact h
  | listOpening _ => cases hopens
  | preformatted _ _ | rule | heading _ _ | definition _ _ | styleOpening _ | styleClosing => cases hends

/-- No fragment opens preformatted text. -/
theorem preformatted_after (fragment : Fragment) (hpre : pending.preformatted = none) :
    (pending.after fragment).preformatted = none := by
  cases fragment with
  | preformatted _ _ => rfl
  | paragraph _ | table _ | listOpening _ | listClosing _ | itemClosing | itemOpening | item _ | rule | heading _ _
  | definition _ _ | styleOpening _ | styleClosing => exact hpre

theorem Pending.IsClear.foldl (h : pending.IsClear) (hpre : pending.preformatted = none)
    (hends : ∀ f ∈ fragments, f.endsBlocks = true) :
    (fragments.foldl Pending.after pending).IsClear ∧
      (fragments.foldl Pending.after pending).preformatted = none := by
  induction fragments generalizing pending with
  | nil => exact ⟨h, hpre⟩
  | cons fragment rest ih =>
    exact ih (h.after (hends fragment (by simp))) (preformatted_after fragment hpre) fun f hf => hends f (by simp [hf])

theorem Pending.IsClear.orderly (h : pending.IsClear) (hends : ∀ f ∈ fragments, f.endsBlocks = true) :
    Orderly pending fragments :=
  orderly_of_kept (fun _ h => h.isSingle) (fun _ _ h _ _ => h) (fun _ _ h hends => h.after hends) h hends

/-- The ends of blocks come in any order, as long as no more than one of them waits. -/
theorem Pending.IsSingle.orderly (h : pending.IsSingle)
    (hends : ∀ f ∈ fragments, f.endsBlocks = false ∧ f.opensList = false) : Orderly pending fragments :=
  orderly_of_kept (fun _ h => h) (fun _ _ _ hnot hends => absurd hends (by simp [hnot.1]))
    (fun _ _ h hnot => h.after hnot.1 hnot.2) h hends

/-- Nothing but lists waits. -/
structure Pending.OnlyLists (pending : Pending) : Prop where
  paragraph : pending.paragraph = []
  rows : pending.rows = []
  preformatted : pending.preformatted = none

theorem Pending.OnlyLists.isSingle (h : pending.OnlyLists) : pending.IsSingle :=
  ⟨Or.inl h.paragraph, Or.inl h.paragraph, Or.inl h.rows, fun hpre => absurd h.preformatted hpre⟩

theorem Pending.OnlyLists.after (h : pending.OnlyLists) (hends : fragment.endsBlocks = false) :
    (pending.after fragment).OnlyLists := by
  refine ⟨?_, ?_, preformatted_after fragment h.preformatted⟩
  · cases fragment with
    | paragraph _ => rfl
    | table _ | listOpening _ | listClosing _ | itemClosing | itemOpening | item _ => exact h.paragraph
    | preformatted _ _ | rule | heading _ _ | definition _ _ | styleOpening _ | styleClosing => cases hends
  · cases fragment with
    | table _ => rfl
    | paragraph _ | listOpening _ | listClosing _ | itemClosing | itemOpening | item _ => exact h.rows
    | preformatted _ _ | rule | heading _ _ | definition _ _ | styleOpening _ | styleClosing => cases hends

/-- Lists may be closed and opened where nothing else waits. -/
theorem Pending.OnlyLists.orderly (h : pending.OnlyLists)
    (hends : ∀ f ∈ fragments, f.endsBlocks = false) : Orderly pending fragments :=
  orderly_of_kept (fun _ h => h.isSingle) (fun _ _ _ hnot hends => absurd hends (by simp [hnot]))
    (fun _ _ h hnot => h.after hnot) h hends

/-! ### What lines hold -/

/-- Something that a line holds. -/
inductive LineContent where
  | text (line : List Char)
  | row (line : List Char)
  | item (content : List Char)
  | rule
  | heading (level : Nat) (title : List Char)
  | definition (term : List Char) (meaning : List Char)
  | preformattedOpening
  | preformatted (line : List Char)
  | styleOpening (style : List Char)
  | styleClosing
  deriving DecidableEq, Repr

/-- What a fragment holds of the lines, in the order of the page. -/
def Fragment.contents : Fragment → List LineContent
  | .paragraph lines => lines.map .text
  | .table rows => rows.map .row
  | .item content => [.item content]
  | .preformatted lines _ => .preformattedOpening :: lines.map .preformatted
  | .rule => [.rule]
  | .heading level title => [.heading level title]
  | .definition term meaning => [.definition term meaning]
  | .styleOpening style => [.styleOpening style]
  | .styleClosing => [.styleClosing]
  | .listOpening _ | .listClosing _ | .itemClosing | .itemOpening => []

/-- What waits of the lines. -/
def Pending.held (pending : Pending) : List LineContent :=
  pending.paragraph.map .text ++ pending.rows.map .row ++
    match pending.preformatted with
    | some read => .preformattedOpening :: read.map .preformatted
    | none => []

theorem Pending.IsClear.held (h : pending.IsClear) (hpre : pending.preformatted = none) : pending.held = [] := by
  rw [Pending.held, h.paragraph, h.rows, hpre]
  rfl

/-- What the lines in front of a line decide about it. -/
structure Mode where
  /-- How many style blocks are open. -/
  styles : Nat
  /-- Whether preformatted text is open. -/
  preformatted : Bool
  deriving DecidableEq, Repr

def Pending.mode (pending : Pending) : Mode := ⟨pending.styles, pending.preformatted.isSome⟩

/-- What a line of the kind holds, and what it decides about the next one. -/
def Mode.readAs (mode : Mode) (line : List Char) : LineKind → Mode × List LineContent
  | .preformattedOpening first =>
    ({ mode with preformatted := true },
      .preformattedOpening :: if isBlankText first then [] else [.preformatted first])
  | .blank => (mode, [])
  | .row => (mode, [.row line])
  | .styleOpening style => ({ mode with styles := mode.styles + 1 }, [.styleOpening style])
  | .styleClosing => ({ mode with styles := mode.styles - 1 }, [.styleClosing])
  | .rule => (mode, [.rule])
  | .heading level title => (mode, [.heading level title])
  | .item _ content => (mode, [.item content])
  | .definition term meaning => (mode, [.definition term meaning])
  | .text => (mode, [.text line])

/-- What a line holds, and what it decides about the next one. -/
def Mode.read (mode : Mode) (line : List Char) : Mode × List LineContent :=
  if mode.preformatted then
    match cut? preformattedEnd line with
    | none => (mode, [.preformatted line])
    | some (before, _) =>
      ({ mode with preformatted := false }, if isBlankText before then [] else [.preformatted before])
  else mode.readAs line (LineKind.of (mode.styles != 0) line)

/-- What each line holds. -/
def lineContents (mode : Mode) : List (List Char) → List (List LineContent)
  | [] => []
  | line :: rest => (mode.read line).2 :: lineContents (mode.read line).1 rest

theorem contents_paragraphEnd (pending : Pending) :
    pending.paragraphEnd.flatMap Fragment.contents = pending.paragraph.map .text := by
  unfold Pending.paragraphEnd
  split
  next hempty =>
    rw [List.isEmpty_iff.mp hempty]
    rfl
  next => exact List.append_nil _

theorem contents_tableEnd (pending : Pending) :
    pending.tableEnd.flatMap Fragment.contents = pending.rows.map .row := by
  unfold Pending.tableEnd
  split
  next hempty =>
    rw [List.isEmpty_iff.mp hempty]
    rfl
  next => exact List.append_nil _

theorem contents_closeLists (lists : List ListKind) : (closeLists lists).flatMap Fragment.contents = [] := by
  rw [List.flatMap_eq_nil_iff]
  intro fragment hmem
  obtain ⟨kind, -, rfl⟩ := List.mem_map.mp hmem
  rfl

theorem contents_openLists (kinds : List ListKind) : (openLists kinds).flatMap Fragment.contents = [] := by
  induction kinds with
  | nil => rfl
  | cons kind kinds ih =>
    cases kinds with
    | nil => rfl
    | cons next kinds => exact ih

theorem contents_itemFragments (lists kinds : List ListKind) (content : List Char) :
    (itemFragments lists kinds content).flatMap Fragment.contents = [.item content] := by
  rw [itemFragments, List.flatMap_append, List.flatMap_append, contents_closeLists]
  split
  · rfl
  · rw [contents_openLists]
    rfl

/-- The end of all blocks writes what waited in them. -/
theorem contents_blocksEnd (hpre : pending.preformatted = none) :
    pending.blocksEnd.flatMap Fragment.contents = pending.held := by
  rw [Pending.blocksEnd, List.flatMap_append, List.flatMap_append, contents_paragraphEnd, contents_tableEnd,
    contents_closeLists, Pending.held, hpre]

/-! ### The ends of blocks -/

theorem ends_paragraphEnd (pending : Pending) :
    ∀ f ∈ pending.paragraphEnd, f.endsBlocks = false ∧ f.opensList = false := by
  unfold Pending.paragraphEnd
  split <;> simp [Fragment.endsBlocks, Fragment.opensList]

theorem ends_tableEnd (pending : Pending) :
    ∀ f ∈ pending.tableEnd, f.endsBlocks = false ∧ f.opensList = false := by
  unfold Pending.tableEnd
  split <;> simp [Fragment.endsBlocks, Fragment.opensList]

theorem ends_closeLists (lists : List ListKind) :
    ∀ f ∈ closeLists lists, f.endsBlocks = false ∧ f.opensList = false := by
  simp [closeLists, Fragment.endsBlocks, Fragment.opensList]

theorem ends_blocksEnd (pending : Pending) :
    ∀ f ∈ pending.blocksEnd, f.endsBlocks = false ∧ f.opensList = false := by
  intro f hf
  rcases List.mem_append.mp hf with hf | hf
  · rcases List.mem_append.mp hf with hf | hf
    · exact ends_paragraphEnd pending f hf
    · exact ends_tableEnd pending f hf
  · exact ends_closeLists pending.lists f hf

theorem ends_openLists (kinds : List ListKind) : ∀ f ∈ openLists kinds, f.endsBlocks = false := by
  induction kinds with
  | nil => simp [openLists]
  | cons kind kinds ih =>
    cases kinds with
    | nil => simp [openLists, Fragment.endsBlocks]
    | cons next kinds => simpa [openLists, Fragment.endsBlocks] using ih

theorem ends_itemFragments (lists kinds : List ListKind) (content : List Char) :
    ∀ f ∈ itemFragments lists kinds content, f.endsBlocks = false := by
  intro f hf
  rcases List.mem_append.mp hf with hf | hf
  · rcases List.mem_append.mp hf with hf | hf
    · exact (ends_closeLists _ f hf).1
    · split at hf
      · rw [List.mem_singleton.mp hf]
        rfl
      · exact ends_openLists _ f hf
  · rw [List.mem_singleton.mp hf]
    rfl

/-- An item leaves the lists of its kinds. -/
theorem foldl_itemFragments (pending : Pending) (kinds : List ListKind) (content : List Char) :
    (itemFragments pending.lists kinds content).foldl Pending.after pending = { pending with lists := kinds } := by
  have hclosed := foldl_closeLists
    (List.take_append_drop (sharedDepth pending.lists kinds) pending.lists).symm
  have hkinds : pending.lists.take (sharedDepth pending.lists kinds) ++
      kinds.drop (sharedDepth pending.lists kinds) = kinds := by
    rw [take_sharedDepth, List.take_append_drop]
  rw [itemFragments, List.foldl_append, List.foldl_append, hclosed]
  split
  next hall =>
    have hlength : sharedDepth pending.lists kinds = kinds.length := by
      simp only [Bool.and_eq_true, beq_iff_eq] at hall
      exact hall.2
    rw [hlength, List.drop_length, List.append_nil] at hkinds
    rw [hlength, hkinds]
    rfl
  next =>
    rw [foldl_openLists]
    show ({ pending with lists := _ } : Pending) = _
    rw [hkinds]

/-! ### Lines -/

/-- What waits behind a line: what its fragments leave waiting, or that with the line in one further place. -/
inductive Joins (line : List Char) (pending : Pending) : Pending → Prop
  | none : Joins line pending pending
  | paragraph : Joins line pending { pending with paragraph := pending.paragraph ++ [line] }
  | row : Joins line pending { pending with rows := pending.rows ++ [line] }
  | preformatted (read : List (List Char)) : Joins line pending { pending with preformatted := some read }

/-- What a line does: its fragments come in their time and keep the order of the lines, and behind them again at
most one block waits. -/
structure Turns (pending : Pending) (line : List Char) (result : Pending × List Fragment) : Prop where
  orderly : Orderly pending result.2
  joins : Joins line (result.2.foldl Pending.after pending) result.1
  single : result.1.IsSingle
  contents : result.2.flatMap Fragment.contents ++ result.1.held = pending.held ++ (pending.mode.read line).2
  mode : result.1.mode = (pending.mode.read line).1

variable {line : List Char}

theorem read_of_kind {kind : LineKind} (hpre : pending.preformatted = none)
    (hkind : LineKind.of (pending.styles != 0) line = kind) :
    pending.mode.read line = pending.mode.readAs line kind := by
  rw [← hkind, Mode.read, Pending.mode, hpre]
  rfl

/-- A line that ends all blocks and is written at once. -/
theorem Pending.IsSingle.turns_block (h : pending.IsSingle) (hpre : pending.preformatted = none)
    (own : List Fragment) (hown : ∀ f ∈ own, f.endsBlocks = true)
    (hread : pending.mode.read line =
      ((own.foldl Pending.after pending.withoutBlocks).mode, own.flatMap Fragment.contents)) :
    Turns pending line (own.foldl Pending.after pending.withoutBlocks, pending.blocksEnd ++ own) := by
  obtain ⟨hclear, hclosed⟩ := (withoutBlocks_isClear pending).foldl hpre hown
  have hfolded : (pending.blocksEnd ++ own).foldl Pending.after pending =
      own.foldl Pending.after pending.withoutBlocks := by
    rw [List.foldl_append, foldl_blocksEnd]
  refine ⟨?_, ?_, hclear.isSingle, ?_, ?_⟩
  · refine (h.orderly (ends_blocksEnd pending)).append ?_
    rw [foldl_blocksEnd]
    exact (withoutBlocks_isClear pending).orderly hown
  · rw [hfolded]
    exact .none
  · rw [List.flatMap_append, contents_blocksEnd hpre, hclear.held hclosed, List.append_nil, hread]
  · rw [hread]

/-- A line that opens preformatted text. -/
theorem Pending.IsSingle.turns_preformattedOpening (h : pending.IsSingle) (hpre : pending.preformatted = none)
    {first : List Char} (hkind : LineKind.of (pending.styles != 0) line = .preformattedOpening first) :
    Turns pending line
      ({ pending.withoutBlocks with preformatted := some (if isBlankText first then [] else [first]) },
        pending.blocksEnd) := by
  have hread := read_of_kind hpre hkind
  refine ⟨h.orderly (ends_blocksEnd pending), ?_, ?_, ?_, ?_⟩
  · rw [foldl_blocksEnd]
    exact .preformatted _
  · exact Pending.IsClear.isSingle ⟨rfl, rfl, rfl⟩
  · rw [contents_blocksEnd hpre, hread, Mode.readAs]
    split <;> rfl
  · rw [hread]
    rfl

/-- A row ends the paragraph and the lists. -/
theorem Pending.IsSingle.turns_row (h : pending.IsSingle) (hpre : pending.preformatted = none)
    (hkind : LineKind.of (pending.styles != 0) line = .row) :
    Turns pending line
      ({ pending with paragraph := [], lists := [], rows := pending.rows ++ [line] },
        pending.paragraphEnd ++ closeLists pending.lists) := by
  have hfolded : (pending.paragraphEnd ++ closeLists pending.lists).foldl Pending.after pending =
      { pending with paragraph := [], lists := [] } := by
    rw [List.foldl_append, foldl_paragraphEnd]
    exact foldl_closeLists (List.nil_append _).symm
  refine ⟨h.orderly fun f hf => ?_, ?_, ?_, ?_, ?_⟩
  · rcases List.mem_append.mp hf with hf | hf
    · exact ends_paragraphEnd pending f hf
    · exact ends_closeLists pending.lists f hf
  · rw [hfolded]
    exact .row
  · exact ⟨Or.inl rfl, Or.inl rfl, Or.inr rfl, fun hopen => absurd hpre hopen⟩
  · rw [List.flatMap_append, contents_paragraphEnd, contents_closeLists, read_of_kind hpre hkind]
    simp [Pending.held, Mode.readAs, hpre]
  · rw [read_of_kind hpre hkind]
    rfl

/-- An item ends the paragraph and the table, of which only one waits. -/
theorem Pending.IsSingle.turns_item (h : pending.IsSingle) (hpre : pending.preformatted = none)
    {kinds : List ListKind} {content : List Char}
    (hkind : LineKind.of (pending.styles != 0) line = .item kinds content) :
    Turns pending line
      ({ pending with paragraph := [], rows := [], lists := kinds },
        pending.tableEnd ++ pending.paragraphEnd ++ itemFragments pending.lists kinds content) := by
  have hends : (pending.tableEnd ++ pending.paragraphEnd).foldl Pending.after pending =
      { pending with paragraph := [], rows := [] } := by
    rw [List.foldl_append, foldl_tableEnd]
    exact foldl_paragraphEnd { pending with rows := [] }
  have hitem := foldl_itemFragments { pending with paragraph := [], rows := [] } kinds content
  refine ⟨?_, ?_, ?_, ?_, ?_⟩
  · refine Orderly.append (h.orderly fun f hf => ?_) ?_
    · rcases List.mem_append.mp hf with hf | hf
      · exact ends_tableEnd pending f hf
      · exact ends_paragraphEnd pending f hf
    · rw [hends]
      exact Pending.OnlyLists.orderly ⟨rfl, rfl, hpre⟩ (ends_itemFragments pending.lists kinds content)
  · rw [List.foldl_append, hends]
    exact hitem ▸ .none
  · exact ⟨Or.inl rfl, Or.inl rfl, Or.inl rfl, fun hopen => absurd hpre hopen⟩
  · rw [List.flatMap_append, List.flatMap_append, contents_tableEnd, contents_paragraphEnd, contents_itemFragments,
      read_of_kind hpre hkind]
    -- The rows come first here and the paragraph first in what waits: one of the two is empty.
    rcases h.paragraphOrRows with hnil | hnil <;> simp [Pending.held, Mode.readAs, hpre, hnil]
  · rw [read_of_kind hpre hkind]
    rfl

/-- Running text ends the table and the lists, and goes behind the lines of its paragraph only if no table waits. -/
theorem Pending.IsSingle.turns_text (h : pending.IsSingle) (hpre : pending.preformatted = none)
    (hkind : LineKind.of (pending.styles != 0) line = .text) :
    Turns pending line
      ({ pending with rows := [], lists := [], paragraph := pending.paragraph ++ [line] },
        pending.tableEnd ++ closeLists pending.lists) := by
  have hfolded : (pending.tableEnd ++ closeLists pending.lists).foldl Pending.after pending =
      { pending with rows := [], lists := [] } := by
    rw [List.foldl_append, foldl_tableEnd]
    exact foldl_closeLists (List.nil_append _).symm
  refine ⟨h.orderly fun f hf => ?_, ?_, ?_, ?_, ?_⟩
  · rcases List.mem_append.mp hf with hf | hf
    · exact ends_tableEnd pending f hf
    · exact ends_closeLists pending.lists f hf
  · rw [hfolded]
    exact .paragraph
  · exact ⟨Or.inr rfl, Or.inr rfl, Or.inl rfl, fun hopen => absurd hpre hopen⟩
  · rw [List.flatMap_append, contents_tableEnd, contents_closeLists, read_of_kind hpre hkind]
    rcases h.paragraphOrRows with hnil | hnil <;> simp [Pending.held, Mode.readAs, hpre, hnil]
  · rw [read_of_kind hpre hkind]
    rfl

theorem Pending.IsSingle.stepLine (h : pending.IsSingle) (hpre : pending.preformatted = none) (line : List Char) :
    Turns pending line (pending.stepLine line) := by
  unfold Pending.stepLine
  -- The cases are the kinds of lines, in the order of the definition.
  split
  case h_1 hkind => exact h.turns_preformattedOpening hpre hkind
  case h_2 hkind =>
    have hturns := h.turns_block hpre [] (by simp) ((read_of_kind hpre hkind).trans rfl)
    rwa [List.append_nil] at hturns
  case h_3 hkind => exact h.turns_row hpre hkind
  case h_4 style hkind =>
    exact h.turns_block hpre [.styleOpening style] (by simp [Fragment.endsBlocks])
      ((read_of_kind hpre hkind).trans rfl)
  case h_5 hkind =>
    exact h.turns_block hpre [.styleClosing] (by simp [Fragment.endsBlocks])
      ((read_of_kind hpre hkind).trans rfl)
  case h_6 hkind =>
    exact h.turns_block hpre [.rule] (by simp [Fragment.endsBlocks]) ((read_of_kind hpre hkind).trans rfl)
  case h_7 level title hkind =>
    exact h.turns_block hpre [.heading level title] (by simp [Fragment.endsBlocks])
      ((read_of_kind hpre hkind).trans rfl)
  case h_8 term meaning hkind =>
    exact h.turns_block hpre [.definition term meaning] (by simp [Fragment.endsBlocks])
      ((read_of_kind hpre hkind).trans rfl)
  case h_9 kinds content hkind => exact h.turns_item hpre hkind
  case h_10 hkind => exact h.turns_text hpre hkind

/-- A line of preformatted text waits with the lines before it, or ends them; no block waits with them. -/
theorem Pending.IsSingle.stepPreformatted (h : pending.IsSingle) {read : List (List Char)}
    (hpre : pending.preformatted = some read) (line : List Char) :
    Turns pending line (pending.stepPreformatted read line) := by
  have hclear : pending.IsClear := h.preformatted (by simp [hpre])
  have hheld : pending.held = .preformattedOpening :: read.map .preformatted := by
    simp [Pending.held, hclear.paragraph, hclear.rows, hpre]
  unfold Pending.stepPreformatted
  split
  next hcut =>
    have hread : pending.mode.read line = (pending.mode, [.preformatted line]) := by
      simp [Mode.read, Pending.mode, hpre, hcut]
    refine ⟨orderly_nil pending, .preformatted _,
      Pending.IsClear.isSingle ⟨hclear.paragraph, hclear.rows, hclear.lists⟩, ?_, ?_⟩
    · rw [hread, hheld]
      simp [Pending.held, hclear.paragraph, hclear.rows]
    · rw [hread]
      simp [Pending.mode, hpre]
  next before rest hcut =>
    have hread : pending.mode.read line = ({ pending.mode with preformatted := false },
        if isBlankText before then [] else [.preformatted before]) := by
      simp [Mode.read, Pending.mode, hpre, hcut]
    refine ⟨hclear.orderly (by simp [Fragment.endsBlocks]), .none,
      Pending.IsClear.isSingle ⟨hclear.paragraph, hclear.rows, hclear.lists⟩, ?_, ?_⟩
    · rw [hread, hheld]
      split <;> simp [Pending.held, Fragment.contents, hclear.paragraph, hclear.rows]
    · rw [hread]
      rfl

/-- **What a line does.** -/
theorem Pending.IsSingle.step (h : pending.IsSingle) (line : List Char) : Turns pending line (pending.step line) := by
  unfold Pending.step
  split
  next read hpre => exact h.stepPreformatted hpre line
  next hpre => exact h.stepLine hpre line

/-! ### Pages -/

theorem Pending.IsClear.blocksEnd (h : pending.IsClear) : pending.blocksEnd = [] := by
  simp [Pending.blocksEnd, Pending.paragraphEnd, Pending.tableEnd, closeLists, h.paragraph, h.rows, h.lists]

theorem Pending.IsSingle.orderly_finish (h : pending.IsSingle) : Orderly pending pending.finish := by
  have hclosings : ∀ f ∈ List.replicate pending.styles Fragment.styleClosing, f.endsBlocks = true := by
    intro f hf
    rw [List.eq_of_mem_replicate hf]
    rfl
  unfold Pending.finish
  split
  next read hpre =>
    have hclear : pending.IsClear := h.preformatted (by simp [hpre])
    rw [hclear.blocksEnd, List.append_nil]
    refine hclear.orderly fun f hf => ?_
    rcases List.mem_append.mp hf with hf | hf
    · rw [List.mem_singleton.mp hf]
      rfl
    · exact hclosings f hf
  next =>
    refine (h.orderly (ends_blocksEnd pending)).append ?_
    rw [foldl_blocksEnd]
    exact (withoutBlocks_isClear pending).orderly hclosings

/-- The end of a page writes what waits, and then closes the style blocks. -/
theorem Pending.IsSingle.contents_finish (h : pending.IsSingle) :
    pending.finish.flatMap Fragment.contents = pending.held ++ List.replicate pending.styles .styleClosing := by
  have hclosings : (List.replicate pending.styles Fragment.styleClosing).flatMap Fragment.contents =
      List.replicate pending.styles LineContent.styleClosing := by
    rw [List.flatMap_replicate]
    exact List.flatten_replicate_singleton
  unfold Pending.finish
  rw [List.flatMap_append, hclosings, List.flatMap_append]
  refine congrArg (· ++ _) ?_
  split
  next read hpre =>
    have hclear : pending.IsClear := h.preformatted (by simp [hpre])
    simp [hclear.blocksEnd, Pending.held, hclear.paragraph, hclear.rows, hpre, Fragment.contents]
  next hpre => exact contents_blocksEnd hpre

/-- Behind any lines at most one block waits, and what has been written and what waits are what the lines hold. -/
theorem Pending.IsSingle.readLines (h : pending.IsSingle) (lines : List (List Char)) :
    (Wiki.readLines pending lines).1.IsSingle ∧
      (Wiki.readLines pending lines).2.flatMap Fragment.contents ++ (Wiki.readLines pending lines).1.held =
        pending.held ++ (lineContents pending.mode lines).flatten := by
  induction lines generalizing pending with
  | nil => exact ⟨h, (List.append_nil _).symm⟩
  | cons line rest ih =>
    have hturns := h.step line
    obtain ⟨hsingle, hrest⟩ := ih hturns.single
    refine ⟨hsingle, ?_⟩
    calc ((pending.step line).2 ++ (Wiki.readLines (pending.step line).1 rest).2).flatMap Fragment.contents ++
          (Wiki.readLines (pending.step line).1 rest).1.held
        = (pending.step line).2.flatMap Fragment.contents ++ ((pending.step line).1.held ++
            (lineContents (pending.step line).1.mode rest).flatten) := by
          rw [List.flatMap_append, List.append_assoc, hrest]
      _ = pending.held ++ ((pending.mode.read line).2 ++
            (lineContents (pending.mode.read line).1 rest).flatten) := by
          rw [← List.append_assoc, hturns.contents, hturns.mode, List.append_assoc]
      _ = pending.held ++ (lineContents pending.mode (line :: rest)).flatten := rfl

theorem Pending.IsSingle.momentsFrom (h : pending.IsSingle) (lines : List (List Char)) :
    ∀ moment ∈ Wiki.momentsFrom pending lines,
      moment.1.IsSingle ∧ (moment.2.endsBlocks = true → moment.1.IsClear) := by
  induction lines generalizing pending with
  | nil => exact h.orderly_finish
  | cons line rest ih =>
    intro moment hmem
    have hturns := h.step line
    rcases List.mem_append.mp hmem with hmem | hmem
    · exact hturns.orderly moment hmem
    · exact ih hturns.single moment hmem

/-- Nothing is open in front of the first line. -/
def Mode.start : Mode := ⟨0, false⟩

theorem empty_isSingle : Pending.empty.IsSingle := Pending.IsClear.isSingle ⟨rfl, rfl, rfl⟩

/-- **At most one block waits, and the page keeps the order of its lines.**  Behind every front of the lines of a page
at most one of the paragraph, the table and the lists waits; what has been written and, behind it, what waits are what
these lines hold, line by line.  The next line writes its fragments and leaves what they leave waiting, or that with
itself in one further place.  Whenever a fragment is written at most one block waits, and none does when a style block
is opened or closed or a rule, a heading, a definition or preformatted text is written.  The page is these fragments
one below the other, and together they hold what the lines hold, in the order of the lines and nothing twice; style
blocks that no line closes are closed behind the last one. -/
theorem one_block_waits (context : Context) (text : List Char) :
    (∀ front behind, pageLines text = front ++ behind →
      (readLines .empty front).1.IsSingle ∧
        (written front).flatMap Fragment.contents ++ (readLines .empty front).1.held =
          (lineContents .start front).flatten ∧
        ∀ line ∈ behind.head?,
          Joins line (((readLines .empty front).1.step line).2.foldl Pending.after (readLines .empty front).1)
            (readLines .empty (front ++ [line])).1) ∧
      (∀ moment ∈ momentsOf text, moment.1.IsSingle ∧ (moment.2.endsBlocks = true → moment.1.IsClear)) ∧
      renderPage context text = unlines ((momentsOf text).map fun moment => moment.2.render context) ∧
      (fragmentsOf text).flatMap Fragment.contents =
        (lineContents .start (pageLines text)).flatten ++
          List.replicate (readLines .empty (pageLines text)).1.styles .styleClosing := by
  refine ⟨fun front behind _ => ?_, empty_isSingle.momentsFrom _, ?_, ?_⟩
  · obtain ⟨hsingle, hcontents⟩ := empty_isSingle.readLines front
    refine ⟨hsingle, hcontents, fun line _ => ?_⟩
    rw [readLines_append]
    exact (hsingle.step line).joins
  · rw [renderPage, fragmentsOf, ← map_momentsFrom, List.map_map]
    rfl
  · obtain ⟨hsingle, hcontents⟩ := empty_isSingle.readLines (pageLines text)
    rw [fragmentsOf_eq (List.append_nil (pageLines text)).symm, List.flatMap_append, fragmentsFrom,
      hsingle.contents_finish, ← List.append_assoc]
    exact congrArg (· ++ _) hcontents

/-- The row has ended the paragraph in front of it, and waits alone. -/
theorem row_waits_alone :
    pageLines "a\n|b\n%%note".toList = ["a".toList, "|b".toList] ++ ["%%note".toList] ∧
      (readLines .empty ["a".toList, "|b".toList]).1.IsSingle ∧
      (written ["a".toList, "|b".toList]).flatMap Fragment.contents = [.text "a".toList] ∧
      (readLines .empty ["a".toList, "|b".toList]).1.held = [.row "|b".toList] ∧
      (momentsOf "a\n|b\n%%note".toList)[2]? =
        some (⟨[], [], [], 0, none⟩, .styleOpening "note".toList) ∧
      (fragmentsOf "a\n|b\n%%note".toList).flatMap Fragment.contents =
        [.text "a".toList, .row "|b".toList, .styleOpening "note".toList, .styleClosing] := by
  have hlines : pageLines "a\n|b\n%%note".toList = ["a".toList, "|b".toList] ++ ["%%note".toList] := by decide
  obtain ⟨hfronts, -, -, hcontents⟩ := one_block_waits ⟨"Main".toList, true, false⟩ "a\n|b\n%%note".toList
  exact ⟨hlines, (hfronts _ _ hlines).1, by decide, by decide, by decide, hcontents.trans (by decide)⟩

end WikiMigration.Wiki

/-
Where the paths below a directory lead.

Name by name, a walk passes through directories up to one that it does not go on from; what holds of
walks is shown step by step and for each way that they stop.  A path that leads to a directory can be
gone on with: what a name behind it leads to is what stands in that directory under the name, whatever
links were followed on the way.  Where no links stand within the directory, a path into it leads exactly
to what stands at the place that its names spell.  And a walk is not disturbed by what is done to files:
as long as directories and links stay, it arrives where it did before.
-/
import WikiMigration.Proofs.Files.Tree

namespace WikiMigration

/-- The path that goes on with the names. -/
def Path.into (path : Path) (names : List (List Char)) : Path :=
  { path with names := path.names ++ names }

@[simp] theorem Path.into_nil (path : Path) : path.into [] = path := by simp [Path.into]

theorem Path.into_cons (path : Path) (name : List Char) (names : List (List Char)) :
    path.into (name :: names) = (path.child name).into names := by
  simp [Path.into, Path.child]

theorem Path.child_eq_into (path : Path) (name : List Char) : path.child name = path.into [name] :=
  rfl

theorem Path.into_into (path : Path) (names more : List (List Char)) :
    (path.into names).into more = path.into (names ++ more) := by
  simp [Path.into]

theorem Path.into_child (path : Path) (names : List (List Char)) (name : List Char) :
    (path.into names).child name = path.into (names ++ [name]) := by
  simp [Path.into, Path.child]

namespace Files

namespace Tree

/-! ### Name by name -/

/-- A name that is passed over. -/
theorem walk_cons_self {t : Tree} {followLast : Bool} {here : Location} {name : Name}
    {rest : List Name} (h : name = [] ∨ name = ['.']) :
    t.walk followLast here (name :: rest) = t.walk followLast here rest := by
  rw [walk, if_pos h]

theorem walk_cons_parent (t : Tree) (followLast : Bool) (here : Location) (rest : List Name) :
    t.walk followLast here (['.', '.'] :: rest) = t.walk followLast here.dropLast rest := by
  rw [walk, if_neg (by decide), if_pos rfl]

/-- A name that something may have. -/
theorem walk_cons {t : Tree} {followLast : Bool} {here : Location} {name : Name}
    {rest : List Name} (hself : ¬ (name = [] ∨ name = ['.'])) (hparent : name ≠ ['.', '.']) :
    t.walk followLast here (name :: rest) =
      if isTooLong name then .blocked .nameTooLong
      else match t.at? (here ++ [name]) with
        | none => if rest.isEmpty then .arrived (here ++ [name]) else .blocked .missing
        | some .directory => t.walk followLast (here ++ [name]) rest
        | some (.file _) =>
          if rest.isEmpty then .arrived (here ++ [name]) else .blocked .notDirectory
        | some (.link target) =>
          if rest.isEmpty && !followLast then .arrived (here ++ [name])
          else .diverted here target rest := by
  rw [walk, if_neg hself]
  exact if_neg hparent

/-! ### What a walk goes through -/

/-- One name leads from a directory to another one. -/
inductive Step (t : Tree) (here : Location) : Name → Location → Prop
  | self {name : Name} (hself : name = [] ∨ name = ['.']) : Step t here name here
  | parent : Step t here ['.', '.'] here.dropLast
  | child {name : Name} (hname : Name.CanStand name)
      (hentry : t.at? (here ++ [name]) = some .directory) : Step t here name (here ++ [name])

/-- Names lead from a directory to another one, and those that are left stand behind them. -/
inductive Passes (t : Tree) : Location → List Name → Location → List Name → Prop
  | refl {here : Location} {names : List Name} : Passes t here names here names
  | step {here next place : Location} {name : Name} {rest left : List Name}
      (step : Step t here name next) (passes : Passes t next rest place left) :
      Passes t here (name :: rest) place left

/-- What a walk comes to in a directory that it does not go on from. -/
inductive Stops (t : Tree) (followLast : Bool) (here : Location) : List Name → Walk → Prop
  | done : Stops t followLast here [] (.arrived here)
  | long {name : Name} {rest : List Name} (hname : Name.IsPlain name)
      (hlong : isTooLong name = true) :
      Stops t followLast here (name :: rest) (.blocked .nameTooLong)
  | last {name : Name} (hname : Name.CanStand name)
      (hentry : t.at? (here ++ [name]) ≠ some .directory)
      (hlink : followLast = true → ∀ target, t.at? (here ++ [name]) ≠ some (.link target)) :
      Stops t followLast here [name] (.arrived (here ++ [name]))
  | missing {name : Name} {rest : List Name} (hname : Name.CanStand name)
      (hentry : t.at? (here ++ [name]) = none) (hrest : rest ≠ []) :
      Stops t followLast here (name :: rest) (.blocked .missing)
  | file {name : Name} {rest : List Name} {bytes : Bytes} (hname : Name.CanStand name)
      (hentry : t.at? (here ++ [name]) = some (.file bytes)) (hrest : rest ≠ []) :
      Stops t followLast here (name :: rest) (.blocked .notDirectory)
  | link {name : Name} {rest : List Name} {target : List Char} (hname : Name.CanStand name)
      (hentry : t.at? (here ++ [name]) = some (.link target))
      (hlast : rest = [] → followLast = true) :
      Stops t followLast here (name :: rest) (.diverted here target rest)

theorem Step.walk_eq {t : Tree} {here next : Location} {name : Name} (h : Step t here name next)
    (followLast : Bool) (rest : List Name) :
    t.walk followLast here (name :: rest) = t.walk followLast next rest := by
  cases h with
  | self hself => exact walk_cons_self hself
  | parent => exact walk_cons_parent t followLast here rest
  | child hname hentry =>
    rw [walk_cons hname.plain.not_self hname.plain.notParent, if_neg (by simp [hname.short]), hentry]

theorem Passes.walk_eq {t : Tree} {here place : Location} {names left : List Name}
    (h : Passes t here names place left) (followLast : Bool) :
    t.walk followLast here names = t.walk followLast place left := by
  induction h with
  | refl => rfl
  | step step passes ih => rw [step.walk_eq, ih]

theorem Passes.walk_arrived {t : Tree} {here place : Location} {names : List Name}
    (h : Passes t here names place []) (followLast : Bool) :
    t.walk followLast here names = .arrived place := h.walk_eq followLast

theorem Stops.walk_eq {t : Tree} {followLast : Bool} {here : Location} {names : List Name}
    {result : Walk} (h : Stops t followLast here names result) :
    t.walk followLast here names = result := by
  cases h with
  | done => rfl
  | long hname hlong => rw [walk_cons hname.not_self hname.notParent, if_pos hlong]
  | @last name hname hentry hlink =>
    rw [walk_cons hname.plain.not_self hname.plain.notParent, if_neg (by simp [hname.short])]
    cases hat : t.at? (here ++ [name]) with
    | none => rfl
    | some entry =>
      cases entry with
      | file bytes => rfl
      | directory => exact absurd hat hentry
      | link target =>
        cases followLast with
        | false => rfl
        | true => exact absurd hat (hlink rfl target)
  | missing hname hentry hrest =>
    simp [walk_cons hname.plain.not_self hname.plain.notParent, hname.short, hentry, hrest]
  | file hname hentry hrest =>
    simp [walk_cons hname.plain.not_self hname.plain.notParent, hname.short, hentry, hrest]
  | link hname hentry hlast =>
    simpa [walk_cons hname.plain.not_self hname.plain.notParent, hname.short, hentry] using hlast

/-- A walk passes through directories up to one that it does not go on from. -/
theorem walk_iff {t : Tree} {followLast : Bool} {here : Location} {names : List Name}
    {result : Walk} : t.walk followLast here names = result ↔
      ∃ place left, Passes t here names place left ∧ Stops t followLast place left result := by
  constructor
  · rintro rfl
    -- A name that is neither passed over nor too long is one that something can have.
    have hstand : ∀ {name : Name}, ¬ (name = [] ∨ name = ['.']) → name ≠ ['.', '.'] →
        ¬ isTooLong name = true → Name.CanStand name := fun hself hparent hlong =>
      ⟨.of_not_self hself hparent, by simpa using hlong⟩
    fun_induction Tree.walk t followLast here names with
    | case1 here => exact ⟨here, [], .refl, .done⟩
    | case2 here name rest hself ih =>
      obtain ⟨place, left, passes, stops⟩ := ih
      exact ⟨place, left, .step (.self hself) passes, stops⟩
    | case3 here rest hself ih =>
      obtain ⟨place, left, passes, stops⟩ := ih
      exact ⟨place, left, .step .parent passes, stops⟩
    | case4 here name rest hself hparent hlong =>
      exact ⟨here, _, .refl, .long (.of_not_self hself hparent) hlong⟩
    | case5 here name rest hself hparent hlong next hentry hempty =>
      obtain rfl := List.isEmpty_iff.mp hempty
      exact ⟨here, _, .refl, .last (hstand hself hparent hlong) (by simp [next, hentry])
        fun _ target => by simp [next, hentry]⟩
    | case6 here name rest hself hparent hlong next hentry hrest =>
      exact ⟨here, _, .refl, .missing (hstand hself hparent hlong) hentry (by simpa using hrest)⟩
    | case7 here name rest hself hparent hlong next hentry ih =>
      obtain ⟨place, left, passes, stops⟩ := ih
      exact ⟨place, left, .step (.child (hstand hself hparent hlong) hentry) passes, stops⟩
    | case8 here name rest hself hparent hlong next bytes hentry hempty =>
      obtain rfl := List.isEmpty_iff.mp hempty
      exact ⟨here, _, .refl, .last (hstand hself hparent hlong) (by simp [next, hentry])
        fun _ target => by simp [next, hentry]⟩
    | case9 here name rest hself hparent hlong next bytes hentry hrest =>
      exact ⟨here, _, .refl, .file (hstand hself hparent hlong) hentry (by simpa using hrest)⟩
    | case10 here name rest hself hparent hlong next target hentry hlast =>
      obtain ⟨hempty, hfollow⟩ : rest = [] ∧ followLast = false := by simpa using hlast
      subst hempty
      exact ⟨here, _, .refl, .last (hstand hself hparent hlong) (by simp [next, hentry])
        fun h => by simp [hfollow] at h⟩
    | case11 here name rest hself hparent hlong next target hentry hlast =>
      exact ⟨here, _, .refl, .link (hstand hself hparent hlong) hentry (by simpa using hlast)⟩
  · rintro ⟨place, left, passes, stops⟩
    rw [passes.walk_eq, stops.walk_eq]

theorem Passes.append {t : Tree} {here place : Location} {names left : List Name}
    (h : Passes t here names place left) (more : List Name) :
    Passes t here (names ++ more) place (left ++ more) := by
  induction h with
  | refl => exact .refl
  | step step passes ih => exact .step step ih

theorem Passes.trans {t : Tree} {here place spot : Location} {names left rest : List Name}
    (h : Passes t here names place left) (h' : Passes t place left spot rest) :
    Passes t here names spot rest := by
  induction h with
  | refl => exact h'
  | step step passes ih => exact .step step (ih h')

theorem Step.stands {t : Tree} {here next : Location} {name : Name} (h : Step t here name next)
    (sound : t.Sound) (hhere : t.at? here = some .directory) : t.at? next = some .directory := by
  cases h with
  | self hself => exact hhere
  | parent => exact sound.at?_dropLast hhere
  | child hname hentry => exact hentry

theorem Passes.stands {t : Tree} {here place : Location} {names left : List Name}
    (h : Passes t here names place left) (sound : t.Sound)
    (hhere : t.at? here = some .directory) : t.at? place = some .directory := by
  induction h with
  | refl => exact hhere
  | step step passes ih => exact ih (step.stands sound hhere)

/-- With one more name at the end, either that name is left over, or those before it are used up. -/
theorem Passes.of_snoc {t : Tree} {here place : Location} {all names left : List Name} {name : Name}
    (h : Passes t here all place left) (hall : all = names ++ [name]) :
    (∃ front, left = front ++ [name] ∧ Passes t here names place front) ∨
      ∃ spot, Passes t here names spot [] := by
  induction h generalizing names with
  | refl => exact Or.inl ⟨names, hall, .refl⟩
  | step step passes ih =>
    cases names with
    | nil => exact Or.inr ⟨_, .refl⟩
    | cons first names =>
      obtain ⟨rfl, hrest⟩ := List.cons.inj hall
      rcases ih hrest with ⟨front, hleft, passes'⟩ | ⟨spot, passes'⟩
      · exact Or.inl ⟨front, hleft, .step step passes'⟩
      · exact Or.inr ⟨spot, .step step passes'⟩

/-! ### Going on -/

theorem walk_append_of_arrived {t : Tree} {followLast : Bool} {here place : Location}
    {names rest : List Name} (h : t.walk true here names = .arrived place)
    (hplace : t.at? place = some .directory) :
    t.walk followLast here (names ++ rest) = t.walk followLast place rest := by
  obtain ⟨spot, left, passes, stops⟩ := walk_iff.mp h
  cases stops with
  | done => exact (passes.append rest).walk_eq followLast
  | last hname hentry hlink => exact absurd hplace hentry

theorem walk_append_of_diverted {t : Tree} {followLast : Bool} {here directory : Location}
    {target : List Char} {names left rest : List Name}
    (h : t.walk true here names = .diverted directory target left) (hrest : rest ≠ []) :
    t.walk followLast here (names ++ rest) = .diverted directory target (left ++ rest) := by
  obtain ⟨spot, front, passes, stops⟩ := walk_iff.mp h
  cases stops with
  | link hname hentry hlast =>
    exact walk_iff.mpr ⟨_, _, passes.append rest, .link hname hentry (by simp [hrest])⟩

/-- Where a walk begins again at a link that stands within a directory. -/
def restart (directory : Location) (target : List Char) : Location :=
  if target.head? == some '/' then [] else directory

/-- A walk that arrives, with as many links as given to be followed on the way. -/
inductive Follows (t : Tree) (followLast : Bool) : Nat → Location → List Name → Location → Prop
  | arrived {links : Nat} {here place : Location} {names : List Name}
      (walks : t.walk followLast here names = .arrived place) :
      Follows t followLast links here names place
  | diverted {links : Nat} {here directory place : Location} {names rest : List Name}
      {target : List Char} (walks : t.walk followLast here names = .diverted directory target rest)
      (follows : Follows t followLast links (restart directory target)
        (Text.splitAt '/' target ++ rest) place) :
      Follows t followLast (links + 1) here names place

theorem follow_eq_ok {t : Tree} {followLast : Bool} {links : Nat} {here place : Location}
    {names : List Name} :
    t.follow followLast links here names = .ok place ↔
      Follows t followLast links here names place := by
  constructor
  · intro h
    induction links generalizing here names with
    | zero =>
      rw [follow] at h
      cases hwalk : t.walk followLast here names with
      | arrived spot =>
        simp only [hwalk, Except.ok.injEq] at h
        exact .arrived (h ▸ hwalk)
      | diverted directory target rest => simp [hwalk] at h
      | blocked fault => simp [hwalk] at h
    | succ links ih =>
      rw [follow] at h
      cases hwalk : t.walk followLast here names with
      | arrived spot =>
        simp only [hwalk, Except.ok.injEq] at h
        exact .arrived (h ▸ hwalk)
      | diverted directory target rest =>
        simp only [hwalk] at h
        exact .diverted hwalk (ih h)
      | blocked fault => simp [hwalk] at h
  · intro h
    induction h with
    | arrived walks => rw [follow, walks]
    | diverted walks follows ih =>
      rw [follow, walks]
      exact ih

/-- Going on from where a path leads; some of the links that may be followed are used up. -/
theorem Follows.append {t : Tree} {followLast : Bool} {links : Nat} {here place : Location}
    {names rest : List Name} (h : Follows t true links here names place)
    (hplace : t.at? place = some .directory) (hrest : rest ≠ []) :
    ∃ left, t.follow followLast links here (names ++ rest) = t.follow followLast left place rest := by
  induction h with
  | @arrived links here place names walks =>
    refine ⟨links, ?_⟩
    rw [follow, walk_append_of_arrived walks hplace]
    conv_rhs => rw [follow]
  | @diverted links here directory place names left target walks follows ih =>
    obtain ⟨left', hleft⟩ := ih hplace
    refine ⟨left', ?_⟩
    rw [follow, walk_append_of_diverted walks hrest, ← hleft, List.append_assoc]
    rfl

/-! ### Below a directory -/

/-- The path leads to a directory at the place. -/
structure Standing (t : Tree) (path : Path) (place : Location) : Prop where
  leads : t.locate path = .ok place
  directory : t.at? place = some .directory

variable {t : Tree} {path : Path} {place : Location} {name : Name}

theorem Standing.unique {other : Location} (h : t.Standing path place)
    (h' : t.Standing path other) : place = other :=
  Except.ok.inj (h.leads.symm.trans h'.leads)

/-- Going on from a directory is walking from it, with links to spare or not. -/
theorem Standing.follow_into {names : List Name} (h : t.Standing path place) (hnames : names ≠ [])
    (followLast : Bool) :
    ∃ left, t.follow followLast mostLinks [] (path.into names).names =
      t.follow followLast left place names :=
  (follow_eq_ok.mp h.leads).append h.directory hnames

theorem follow_of_arrived {followLast : Bool} {links : Nat} {here : Location} {names : List Name}
    (h : t.walk followLast here names = .arrived place) :
    t.follow followLast links here names = .ok place := by
  rw [follow, h]

theorem follow_of_blocked {followLast : Bool} {links : Nat} {here : Location} {names : List Name}
    {fault : Fault} (h : t.walk followLast here names = .blocked fault) :
    t.follow followLast links here names = .error fault := by
  rw [follow, h]

theorem walk_child {followLast : Bool} {here : Location} (hname : Name.CanStand name)
    (hlink : followLast = true → ∀ target, t.at? (here ++ [name]) ≠ some (.link target)) :
    t.walk followLast here [name] = .arrived (here ++ [name]) := by
  by_cases hdir : t.at? (here ++ [name]) = some .directory
  · exact (Passes.step (.child hname hdir) .refl).walk_arrived followLast
  · exact (Stops.last hname hdir hlink).walk_eq

theorem Standing.locateSelf_child (h : t.Standing path place) (hname : Name.CanStand name) :
    t.locateSelf (path.child name) = .ok (place ++ [name]) := by
  obtain ⟨left, hleft⟩ := h.follow_into (List.cons_ne_nil name []) false
  exact hleft.trans (follow_of_arrived (walk_child hname (by simp)))

theorem Standing.locate_child (h : t.Standing path place) (hname : Name.CanStand name)
    (hlink : ∀ target, t.at? (place ++ [name]) ≠ some (.link target)) :
    t.locate (path.child name) = .ok (place ++ [name]) := by
  obtain ⟨left, hleft⟩ := h.follow_into (List.cons_ne_nil name []) true
  exact hleft.trans (follow_of_arrived (walk_child hname fun _ => hlink))

theorem Standing.child (h : t.Standing path place) (hname : Name.CanStand name)
    (hentry : t.at? (place ++ [name]) = some .directory) :
    t.Standing (path.child name) (place ++ [name]) :=
  ⟨h.locate_child hname (by simp [hentry]), hentry⟩

/-- A name that is too long leads nowhere. -/
theorem Standing.follow_long (h : t.Standing path place) (hname : Name.IsPlain name)
    (hlong : isTooLong name = true) (followLast : Bool) (rest : List Name) :
    t.follow followLast mostLinks [] (path.into (name :: rest)).names = .error .nameTooLong := by
  obtain ⟨left, hleft⟩ := h.follow_into (List.cons_ne_nil name rest) followLast
  exact hleft.trans (follow_of_blocked (Stops.long hname hlong).walk_eq)

/-- A name in a directory leads, be it to a link, to what has the name. -/
theorem Standing.eq_of_locateSelf_child {spot : Location} (h : t.Standing path place)
    (hname : Name.IsPlain name) (hend : t.locateSelf (path.child name) = .ok spot) :
    spot = place ++ [name] ∧ Name.CanStand name := by
  cases hlong : isTooLong name with
  | true =>
    have hlocate : t.locateSelf (path.child name) = .error .nameTooLong :=
      h.follow_long hname hlong false []
    rw [hlocate] at hend
    cases hend
  | false =>
    rw [h.locateSelf_child ⟨hname, hlong⟩] at hend
    exact ⟨(Except.ok.inj hend).symm, hname, hlong⟩

/-- Behind what is no directory, no name leads anywhere. -/
theorem Standing.follow_beyond (h : t.Standing path place) (hname : Name.CanStand name)
    (hentry : t.at? (place ++ [name]) ≠ some .directory)
    (hlink : ∀ target, t.at? (place ++ [name]) ≠ some (.link target)) {rest : List Name}
    (hrest : rest ≠ []) (followLast : Bool) :
    ∃ fault, t.follow followLast mostLinks [] (path.into (name :: rest)).names = .error fault ∧
      fault ≠ .nameTooLong := by
  obtain ⟨left, hleft⟩ := h.follow_into (List.cons_ne_nil name rest) followLast
  cases hat : t.at? (place ++ [name]) with
  | none =>
    exact ⟨.missing, hleft.trans (follow_of_blocked (Stops.missing hname hat hrest).walk_eq),
      by decide⟩
  | some entry =>
    cases entry with
    | file bytes =>
      exact ⟨.notDirectory, hleft.trans (follow_of_blocked (Stops.file hname hat hrest).walk_eq),
        by decide⟩
    | directory => exact absurd hat hentry
    | link target => exact absurd hat (hlink target)

/-! ### Without links -/

/-- No links stand where the names lead from a place. -/
def Clear (t : Tree) (place : Location) (names : List Name) : Prop :=
  ∀ way, way <+: names → ∀ target, t.at? (place ++ way) ≠ some (.link target)

theorem Clear.head {rest : List Name} (h : t.Clear place (name :: rest)) (target : List Char) :
    t.at? (place ++ [name]) ≠ some (.link target) :=
  h [name] (List.prefix_append [name] rest) target

theorem Clear.child {rest : List Name} (h : t.Clear place (name :: rest)) :
    t.Clear (place ++ [name]) rest := by
  intro way hway target
  rw [← List.append_cons]
  exact h (name :: way) (List.cons_prefix_cons.mpr ⟨rfl, hway⟩) target

theorem Clear.front {names names' : List Name} (h : t.Clear place names)
    (hfront : names' <+: names) : t.Clear place names' :=
  fun way hway => h way (hway.trans hfront)

/-- There are no links at a place or within it. -/
def LinkFree (t : Tree) (place : Location) : Prop :=
  ∀ rest target, t.at? (place ++ rest) ≠ some (.link target)

theorem LinkFree.clear (h : t.LinkFree place) (names : List Name) : t.Clear place names :=
  fun way _ => h way

/-- Whether an entry is a link. -/
def isLink : Entry → Bool
  | .link _ => true
  | _ => false

/-- In a tree without links none stands within any directory. -/
theorem linkFree_of_entries (h : ∀ e ∈ t.entries, isLink e.2 = false) (place : Location) :
    t.LinkFree place := by
  intro rest target hlink
  cases hplace : place ++ rest with
  | nil =>
    rw [hplace] at hlink
    cases hlink
  | cons name names =>
    rw [hplace] at hlink
    have hnot := h _ (mem_of_lookup hlink)
    cases hnot

theorem LinkFree.into (h : t.LinkFree place) (names : List Name) : t.LinkFree (place ++ names) := by
  intro rest target
  rw [List.append_assoc]
  exact h _ target

/-- Where no links stand, a path into a directory leads to what stands at the place that its names
spell. -/
theorem find_into {names : List Name} {entry : Entry} (sound : t.Sound)
    (h : t.Standing path place) (clear : t.Clear place names)
    (hnames : ∀ n ∈ names, Name.IsPlain n) :
    t.find (path.into names) = .ok entry ↔ t.at? (place ++ names) = some entry := by
  induction names generalizing path place with
  | nil =>
    rw [Path.into_nil, List.append_nil, h.directory, find, h.leads]
    simp [h.directory, bind, Except.bind, pure, Except.pure]
  | cons name rest ih =>
    have hplain : Name.IsPlain name := hnames name (by simp)
    by_cases hdir : t.at? (place ++ [name]) = some .directory
    · have hname := sound.named _ _ _ hdir
      rw [Path.into_cons, List.append_cons]
      exact ih (h.child hname hdir) clear.child fun n hn => hnames n (by simp [hn])
    -- What is no directory is not gone on from, and nothing stands within it.
    have hbeyond : rest ≠ [] → t.at? (place ++ name :: rest) = none := fun hrest => by
      rw [List.append_cons]
      exact sound.at?_eq_none hrest hdir
    cases hlong : isTooLong name with
    | true =>
      have hwalk : t.locate (path.into (name :: rest)) = .error .nameTooLong :=
        h.follow_long hplain hlong true rest
      have hnone : t.at? (place ++ name :: rest) = none := by
        by_cases hrest : rest = []
        · subst hrest
          exact sound.at?_long hlong
        · exact hbeyond hrest
      simp [find, hwalk, hnone, bind, Except.bind]
    | false =>
      by_cases hrest : rest = []
      · subst hrest
        have hwalk : t.locate (path.into [name]) = .ok (place ++ [name]) :=
          h.locate_child ⟨hplain, hlong⟩ clear.head
        cases hat : t.at? (place ++ [name]) with
        | none => simp [find, hwalk, hat, bind, Except.bind, throw, throwThe, MonadExceptOf.throw]
        | some e => simp [find, hwalk, hat, bind, Except.bind, pure, Except.pure]
      · obtain ⟨fault, hwalk, -⟩ := h.follow_beyond ⟨hplain, hlong⟩ hdir clear.head hrest true
        have hlocate : t.locate (path.into (name :: rest)) = .error fault := hwalk
        simp [find, hlocate, hbeyond hrest, bind, Except.bind]

theorem find_eq_ok {entry : Entry} :
    t.find path = .ok entry ↔ ∃ place, t.locate path = .ok place ∧ t.at? place = some entry := by
  rw [find]
  cases t.locate path with
  | error fault => simp [bind, Except.bind]
  | ok place =>
    cases hat : t.at? place with
    | none => simp [hat, bind, Except.bind, throw, throwThe, MonadExceptOf.throw]
    | some e => simp [hat, bind, Except.bind, pure, Except.pure]

/-- A directory that names lead to where no links stand. -/
theorem Standing.into {names : List Name} (h : t.Standing path place) (sound : t.Sound)
    (clear : t.Clear place names) (hnames : ∀ n ∈ names, Name.IsPlain n)
    (hdir : t.at? (place ++ names) = some .directory) :
    t.Standing (path.into names) (place ++ names) := by
  induction names generalizing path place with
  | nil => rwa [Path.into_nil, List.append_nil]
  | cons name rest ih =>
    rw [List.append_cons] at hdir ⊢
    have hhere : t.at? (place ++ [name]) = some .directory := by
      by_cases hrest : rest = []
      · rwa [hrest, List.append_nil] at hdir
      · exact sound.directory_of_behind hrest hdir
    rw [Path.into_cons]
    exact ih (h.child (sound.named _ _ _ hhere) hhere) clear.child
      (fun n hn => hnames n (by simp [hn])) hdir

/-! ### Walks that are not disturbed -/

/-- Directories and links stay. -/
def Keeps (t t' : Tree) : Prop :=
  ∀ place entry, t.at? place = some entry → (∀ bytes, entry ≠ .file bytes) →
    t'.at? place = some entry

theorem Keeps.refl (t : Tree) : t.Keeps t := fun _ _ h _ => h

theorem Keeps.trans {t₁ t₂ t₃ : Tree} (h : t₁.Keeps t₂) (h' : t₂.Keeps t₃) : t₁.Keeps t₃ :=
  fun place entry he hfile => h' place entry (h place entry he hfile) hfile

theorem Step.of_keeps {t' : Tree} {here next : Location} (h : Step t here name next)
    (keeps : t.Keeps t') : Step t' here name next := by
  cases h with
  | self hself => exact .self hself
  | parent => exact .parent
  | child hname hentry => exact .child hname (keeps _ _ hentry (by simp))

theorem Passes.of_keeps {t' : Tree} {here : Location} {names left : List Name}
    (h : Passes t here names place left) (keeps : t.Keeps t') : Passes t' here names place left := by
  induction h with
  | refl => exact .refl
  | step step passes ih => exact .step (step.of_keeps keeps) ih

theorem walk_of_keeps {t' : Tree} {followLast : Bool} {here : Location} {names : List Name}
    (keeps : t.Keeps t') (h : t.walk followLast here names = .arrived place)
    (hlink : ∀ target, t'.at? place = some (.link target) → t.at? place = some (.link target)) :
    t'.walk followLast here names = .arrived place := by
  obtain ⟨spot, left, passes, stops⟩ := walk_iff.mp h
  have passes' := passes.of_keeps keeps
  cases stops with
  | done => exact passes'.walk_arrived followLast
  | @last name hname hentry hnot =>
    -- What was no directory may have become one since.
    by_cases hdir : t'.at? (spot ++ [name]) = some .directory
    · exact (passes'.trans (.step (.child hname hdir) .refl)).walk_arrived followLast
    · exact walk_iff.mpr ⟨spot, _, passes', .last hname hdir fun hfollow target hat =>
        hnot hfollow target (hlink target hat)⟩

theorem walk_of_keeps_diverted {t' : Tree} {followLast : Bool} {here directory : Location}
    {target : List Char} {names left : List Name} (keeps : t.Keeps t')
    (h : t.walk followLast here names = .diverted directory target left) :
    t'.walk followLast here names = .diverted directory target left := by
  obtain ⟨spot, front, passes, stops⟩ := walk_iff.mp h
  cases stops with
  | link hname hentry hlast =>
    exact walk_iff.mpr ⟨_, _, passes.of_keeps keeps, .link hname (keeps _ _ hentry (by simp)) hlast⟩

theorem Follows.of_keeps {t' : Tree} {followLast : Bool} {links : Nat} {here : Location}
    {names : List Name} (keeps : t.Keeps t') (h : Follows t followLast links here names place)
    (hlink : ∀ target, t'.at? place = some (.link target) → t.at? place = some (.link target)) :
    Follows t' followLast links here names place := by
  induction h with
  | arrived walks => exact .arrived (walk_of_keeps keeps walks hlink)
  | diverted walks follows ih => exact .diverted (walk_of_keeps_diverted keeps walks) (ih hlink)

/-- A path leads where it did before, unless a link is new there. -/
theorem follow_of_keeps {t' : Tree} {followLast : Bool} {links : Nat} {here : Location}
    {names : List Name} (keeps : t.Keeps t')
    (h : t.follow followLast links here names = .ok place)
    (hlink : ∀ target, t'.at? place = some (.link target) → t.at? place = some (.link target)) :
    t'.follow followLast links here names = .ok place :=
  follow_eq_ok.mpr ((follow_eq_ok.mp h).of_keeps keeps hlink)

theorem Standing.of_keeps {t' : Tree} (h : t.Standing path place) (keeps : t.Keeps t') :
    t'.Standing path place := by
  have hdir : t'.at? place = some .directory := keeps _ _ h.directory (by simp)
  exact ⟨follow_of_keeps keeps h.leads (by simp [hdir]), hdir⟩

end Tree

end Files

end WikiMigration

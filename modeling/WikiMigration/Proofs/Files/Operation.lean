/-
What an operation on files makes of a tree.

An operation that succeeds changes what stands at one place, or at two, and the place is the one that
its path leads to: that of a directory, or one within a directory that exists.  What a path leads to
behind a name stands in a directory that the path before it leads to.
-/
import WikiMigration.Files.Operation
import WikiMigration.Proofs.Action
import WikiMigration.Proofs.Files.Walk

namespace WikiMigration.Files

@[simp] theorem about_eq_ok {α : Type} {path : Path} {result : Except Fault α} {a : α} :
    about path result = .ok a ↔ result = .ok a := by
  cases result <;> simp [about]

namespace Tree

variable {t t' : Tree} {path : Path} {place : Location}

/-! ### Looking -/

theorem read_eq_ok {bytes : Bytes} :
    t.read path = .ok bytes ↔ ∃ place, t.locate path = .ok place ∧
      t.at? place = some (.file bytes) := by
  rw [← find_eq_ok, read, about_eq_ok]
  cases t.find path with
  | error fault => simp [bind, Except.bind]
  | ok entry =>
    cases entry <;> simp [bind, Except.bind, pure, Except.pure, throw, throwThe, MonadExceptOf.throw]

theorem isDirectory_eq_true : t.isDirectory path = .ok true ↔ ∃ place, t.Standing path place := by
  have hfind : t.isDirectory path = .ok true ↔ t.find path = .ok .directory := by
    rw [isDirectory, about_eq_ok, find?]
    cases t.find path with
    | ok entry => cases entry <;> simp [Except.map]
    | error fault => cases fault <;> simp [Except.map]
  rw [hfind, find_eq_ok]
  constructor
  · rintro ⟨place, hleads, hdir⟩
    exact ⟨place, hleads, hdir⟩
  · rintro ⟨place, hleads, hdir⟩
    exact ⟨place, hleads, hdir⟩

theorem isDirectory_eq_ok {b : Bool} (h : t.isDirectory path = .ok b) :
    b = true ∧ (∃ place, t.Standing path place) ∨ b = false ∧ ¬ ∃ place, t.Standing path place := by
  cases b with
  | true => exact Or.inl ⟨rfl, isDirectory_eq_true.mp h⟩
  | false =>
    refine Or.inr ⟨rfl, fun hstands => ?_⟩
    rw [isDirectory_eq_true.mpr hstands] at h
    cases h

/-- A path is refused for its names only if one of them is too long. -/
theorem Standing.not_long {names : List Name} (h : t.Standing path place) (clear : t.Clear place names)
    (hnames : ∀ n ∈ names, Name.CanStand n) :
    t.locate (path.into names) ≠ .error .nameTooLong := by
  induction names generalizing path place with
  | nil =>
    rw [Path.into_nil, h.leads]
    simp
  | cons name rest ih =>
    have hname : Name.CanStand name := hnames name (by simp)
    by_cases hdir : t.at? (place ++ [name]) = some .directory
    · rw [Path.into_cons]
      exact ih (h.child hname hdir) clear.child fun n hn => hnames n (by simp [hn])
    · by_cases hrest : rest = []
      · subst hrest
        have hlocate : t.locate (path.into [name]) = .ok (place ++ [name]) :=
          h.locate_child hname clear.head
        rw [hlocate]
        simp
      · obtain ⟨fault, hfault, hne⟩ := h.follow_beyond hname hdir clear.head hrest true
        have hlocate : t.locate (path.into (name :: rest)) = .error fault := hfault
        rw [hlocate]
        simpa using hne

/-- What a path leads to can be looked for unless a name is too long. -/
theorem find?_ok_iff : (∃ found, t.find? path = .ok found) ↔ t.locate path ≠ .error .nameTooLong := by
  have hfind : t.find path = .error .nameTooLong ↔ t.locate path = .error .nameTooLong := by
    rw [find]
    cases t.locate path with
    | error fault => simp [bind, Except.bind]
    | ok place =>
      cases hat : t.at? place <;> simp [bind, Except.bind, hat, pure, Except.pure, throw, throwThe,
        MonadExceptOf.throw]
  rw [ne_eq, ← hfind, find?]
  cases t.find path with
  | ok entry => simp
  | error fault => cases fault <;> simp

theorem isDirectory_of_not_long (h : t.locate path ≠ .error .nameTooLong) :
    ∃ b, t.isDirectory path = .ok b := by
  obtain ⟨found, hfound⟩ := find?_ok_iff.mpr h
  exact ⟨_, by rw [isDirectory, hfound]; rfl⟩

theorem isThere_ok_iff : (∃ b, t.isThere path = .ok b) ↔ t.locate path ≠ .error .nameTooLong := by
  rw [← find?_ok_iff, isThere]
  cases t.find? path <;> simp [about, Except.map]

theorem list_of_standing (h : t.Standing path place) : t.list path = .ok (t.names place) := by
  simp [list, h.leads, h.directory, bind, Except.bind, pure, Except.pure]

/-! ### Changing -/

theorem write_eq_ok {bytes : Bytes} :
    t.write path bytes = .ok t' ↔ ∃ place, t.locate path = .ok place ∧
      t.at? place ≠ some .directory ∧ t' = t.put place (.file bytes) := by
  rw [write, about_eq_ok]
  cases t.locate path with
  | error fault => simp [bind, Except.bind]
  | ok place =>
    cases hat : t.at? place with
    | none => simp [hat, bind, Except.bind, pure, Except.pure, eq_comm]
    | some entry =>
      cases entry <;> simp [hat, bind, Except.bind, pure, Except.pure, throw, throwThe,
        MonadExceptOf.throw, eq_comm]

theorem append_eq_ok {bytes : Bytes} :
    t.append path bytes = .ok t' ↔ ∃ place, t.locate path = .ok place ∧
      t.at? place ≠ some .directory ∧
      t' = t.put place (.file ((match t.at? place with
        | some (.file old) => old
        | _ => []) ++ bytes)) := by
  rw [append, about_eq_ok]
  cases t.locate path with
  | error fault => simp [bind, Except.bind]
  | ok place =>
    cases hat : t.at? place with
    | none => simp [hat, bind, Except.bind, pure, Except.pure, eq_comm]
    | some entry =>
      cases entry <;> simp [hat, bind, Except.bind, pure, Except.pure, throw, throwThe,
        MonadExceptOf.throw, eq_comm]

theorem makeDirectory_eq_ok :
    t.makeDirectory path = .ok t' ↔ ∃ place, t.locateSelf path = .ok place ∧
      t.at? place = none ∧ t' = t.put place .directory := by
  rw [makeDirectory, about_eq_ok]
  cases t.locateSelf path with
  | error fault => simp [bind, Except.bind]
  | ok place =>
    cases hat : t.at? place <;> simp [hat, bind, Except.bind, pure, Except.pure, throw, throwThe,
      MonadExceptOf.throw, eq_comm]

theorem remove_eq_ok :
    t.remove path = .ok t' ↔ ∃ place entry, t.locateSelf path = .ok place ∧
      t.at? place = some entry ∧ entry ≠ .directory ∧ t' = t.cut place := by
  rw [remove, about_eq_ok]
  cases t.locateSelf path with
  | error fault => simp [bind, Except.bind]
  | ok place =>
    cases hat : t.at? place with
    | none => simp [hat, bind, Except.bind, throw, throwThe, MonadExceptOf.throw]
    | some entry =>
      cases entry <;> simp [hat, bind, Except.bind, pure, Except.pure, throw, throwThe,
        MonadExceptOf.throw, eq_comm]

theorem replace_eq_ok {source target : Path} :
    t.replace source target = .ok t' ↔ ∃ here entry there,
      t.locateSelf source = .ok here ∧ t.at? here = some entry ∧
      t.locateSelf target = .ok there ∧
      (here = there ∧ t' = t ∨ here ≠ there ∧ t.at? there ≠ some .directory ∧
        t' = (t.cut here).put there entry) := by
  simp only [replace]
  cases t.locateSelf source with
  | error fault => simp [bind, Except.bind]
  | ok here =>
    cases hat : t.at? here with
    | none => simp [hat, bind, Except.bind, throw, throwThe, MonadExceptOf.throw]
    | some entry =>
      cases t.locateSelf target with
      | error fault => simp [hat, bind, Except.bind]
      | ok there =>
        by_cases hsame : here = there
        · subst hsame
          simp [hat, bind, Except.bind, pure, Except.pure, eq_comm]
        · by_cases hdir : t.at? there = some .directory
          · simp [hat, hsame, hdir, bind, Except.bind, throw, throwThe,
              MonadExceptOf.throw]
          · have hdir' : ¬ some Entry.directory = t.at? there := fun h => hdir h.symm
            simp [hat, hsame, hdir, hdir', bind, Except.bind, pure, Except.pure,
              eq_comm]

/-! ### Where a walk ends -/

/-- The place is that of a directory, or one within a directory under a name that something can have.
If links are followed it is not that of a link. -/
def EndsWell (t : Tree) (followLast : Bool) (place : Location) : Prop :=
  t.at? place = some .directory ∨ ∃ directory name, place = directory ++ [name] ∧
    t.at? directory = some .directory ∧ Name.CanStand name ∧
    (followLast = true → ∀ target, t.at? place ≠ some (.link target))

theorem walk_ends {followLast : Bool} {here : Location} {names : List Name} (sound : t.Sound)
    (hhere : t.at? here = some .directory) (h : t.walk followLast here names = .arrived place) :
    t.EndsWell followLast place := by
  obtain ⟨spot, left, passes, stops⟩ := walk_iff.mp h
  have hspot : t.at? spot = some .directory := passes.stands sound hhere
  cases stops with
  | done => exact Or.inl hspot
  | @last name hname hentry hlink => exact Or.inr ⟨spot, name, rfl, hspot, hname, hlink⟩

theorem walk_diverts {followLast : Bool} {here directory : Location} {names rest : List Name}
    {target : List Char} (sound : t.Sound) (hhere : t.at? here = some .directory)
    (h : t.walk followLast here names = .diverted directory target rest) :
    t.at? directory = some .directory := by
  obtain ⟨spot, left, passes, stops⟩ := walk_iff.mp h
  cases stops with
  | link hname hentry hlast => exact passes.stands sound hhere

theorem Follows.ends {followLast : Bool} {links : Nat} {here : Location} {names : List Name}
    (sound : t.Sound) (hhere : t.at? here = some .directory)
    (h : Follows t followLast links here names place) : t.EndsWell followLast place := by
  induction h with
  | arrived walks => exact walk_ends sound hhere walks
  | diverted walks follows ih =>
    refine ih ?_
    rw [restart]
    split
    · rfl
    · exact walk_diverts sound hhere walks

theorem locate_ends (sound : t.Sound) (h : t.locate path = .ok place) : t.EndsWell true place :=
  (follow_eq_ok.mp h).ends sound t.at?_nil

theorem locateSelf_ends (sound : t.Sound) (h : t.locateSelf path = .ok place) :
    t.EndsWell false place := (follow_eq_ok.mp h).ends sound t.at?_nil

/-- Where there is no link, it makes no difference whether one would be followed. -/
theorem walk_followLast {here : Location} {names : List Name}
    (h : t.walk false here names = .arrived place)
    (hlink : ∀ target, t.at? place ≠ some (.link target)) :
    t.walk true here names = .arrived place := by
  obtain ⟨spot, left, passes, stops⟩ := walk_iff.mp h
  cases stops with
  | done => exact passes.walk_arrived true
  | last hname hentry _ => exact walk_iff.mpr ⟨spot, _, passes, .last hname hentry fun _ => hlink⟩

theorem walk_diverts_followLast {here directory : Location} {names rest : List Name}
    {target : List Char} (h : t.walk false here names = .diverted directory target rest) :
    t.walk true here names = .diverted directory target rest := by
  obtain ⟨spot, left, passes, stops⟩ := walk_iff.mp h
  cases stops with
  | link hname hentry _ => exact walk_iff.mpr ⟨_, _, passes, .link hname hentry fun _ => rfl⟩

theorem Follows.followLast {links : Nat} {here : Location} {names : List Name}
    (h : Follows t false links here names place)
    (hlink : ∀ target, t.at? place ≠ some (.link target)) :
    Follows t true links here names place := by
  induction h with
  | arrived walks => exact .arrived (walk_followLast walks hlink)
  | diverted walks follows ih => exact .diverted (walk_diverts_followLast walks) (ih hlink)

theorem locate_of_locateSelf (h : t.locateSelf path = .ok place)
    (hlink : ∀ target, t.at? place ≠ some (.link target)) : t.locate path = .ok place :=
  follow_eq_ok.mpr ((follow_eq_ok.mp h).followLast hlink)

theorem walk_stops {here : Location} {names : List Name}
    (h : t.walk true here names = .arrived place) :
    t.walk false here names = .arrived place := by
  obtain ⟨spot, left, passes, stops⟩ := walk_iff.mp h
  cases stops with
  | done => exact passes.walk_arrived false
  | last hname hentry _ => exact walk_iff.mpr ⟨spot, _, passes, .last hname hentry (by simp)⟩

theorem walk_stops_diverted {here directory : Location} {names rest : List Name}
    {target : List Char} (h : t.walk true here names = .diverted directory target rest) :
    t.walk false here names = .diverted directory target rest ∨
      ∃ spot, t.walk false here names = .arrived spot ∧ t.at? spot = some (.link target) := by
  obtain ⟨spot, left, passes, stops⟩ := walk_iff.mp h
  cases stops with
  | link hname hentry _ =>
    by_cases hrest : rest = []
    · subst hrest
      exact Or.inr ⟨_, walk_iff.mpr ⟨_, _, passes, .last hname (by simp [hentry]) (by simp)⟩, hentry⟩
    · exact Or.inl (walk_iff.mpr ⟨_, _, passes, .link hname hentry fun h => absurd h hrest⟩)

/-- Something stands where a path to a directory ends, be it the directory or a link to it. -/
theorem Standing.locateSelf (h : t.Standing path place) :
    ∃ spot entry, t.locateSelf path = .ok spot ∧ t.at? spot = some entry := by
  have hfollows : ∀ {links here names place}, Follows t true links here names place →
      t.at? place = some .directory →
      ∃ spot entry, Follows t false links here names spot ∧ t.at? spot = some entry := by
    intro links here names place h hdir
    induction h with
    | arrived walks => exact ⟨_, _, .arrived (walk_stops walks), hdir⟩
    | diverted walks follows ih =>
      rcases walk_stops_diverted walks with walks' | ⟨spot, walks', hlink⟩
      · obtain ⟨spot, entry, follows', hentry⟩ := ih hdir
        exact ⟨spot, entry, .diverted walks' follows', hentry⟩
      · exact ⟨spot, _, .arrived walks', hlink⟩
  obtain ⟨spot, entry, follows, hentry⟩ := hfollows (follow_eq_ok.mp h.leads) h.directory
  exact ⟨spot, entry, follow_eq_ok.mpr follows, hentry⟩

/-! ### What a path goes through -/

theorem walk_snoc {followLast : Bool} {here : Location} {names : List Name} {name : Name}
    (sound : t.Sound) (hhere : t.at? here = some .directory)
    (h : t.walk followLast here (names ++ [name]) = .arrived place) :
    ∃ directory, t.walk true here names = .arrived directory ∧
      t.at? directory = some .directory := by
  obtain ⟨spot, left, passes, stops⟩ := walk_iff.mp h
  rcases passes.of_snoc rfl with ⟨front, rfl, passes'⟩ | ⟨directory, passes'⟩
  · -- A walk that arrives leaves over one name at most.
    obtain rfl : front = [] := by
      generalize hall : front ++ [name] = all at stops
      cases stops with
      | done => simp at hall
      | last hname hentry hlink => simpa using congrArg List.length hall
    exact ⟨spot, passes'.walk_arrived true, passes'.stands sound hhere⟩
  · exact ⟨directory, passes'.walk_arrived true, passes'.stands sound hhere⟩

theorem walk_snoc_diverted {followLast : Bool} {here directory : Location} {names rest : List Name}
    {name : Name} {target : List Char} (sound : t.Sound) (hhere : t.at? here = some .directory)
    (h : t.walk followLast here (names ++ [name]) = .diverted directory target rest) :
    (∃ left, rest = left ++ [name] ∧
        t.walk true here names = .diverted directory target left) ∨
      ∃ spot, t.walk true here names = .arrived spot ∧ t.at? spot = some .directory := by
  obtain ⟨place, all, passes, stops⟩ := walk_iff.mp h
  rcases passes.of_snoc rfl with ⟨front, rfl, passes'⟩ | ⟨spot, passes'⟩
  · generalize hall : front ++ [name] = all at stops
    cases stops with
    | link hname hentry _ =>
      cases front with
      | nil => exact Or.inr ⟨_, passes'.walk_arrived true, passes'.stands sound hhere⟩
      | cons first front =>
        obtain ⟨rfl, rfl⟩ := List.cons.inj hall
        exact Or.inl ⟨front, rfl, walk_iff.mpr ⟨_, _, passes', .link hname hentry fun _ => rfl⟩⟩
  · exact Or.inr ⟨spot, passes'.walk_arrived true, passes'.stands sound hhere⟩

theorem Follows.snoc {followLast : Bool} {links : Nat} {here : Location} {all names : List Name}
    {name : Name} (sound : t.Sound) (hhere : t.at? here = some .directory)
    (h : Follows t followLast links here all place) (hall : all = names ++ [name]) :
    ∃ directory, Follows t true links here names directory ∧
      t.at? directory = some .directory := by
  induction h generalizing names with
  | arrived walks =>
    subst hall
    obtain ⟨directory, walks', hdir⟩ := walk_snoc sound hhere walks
    exact ⟨directory, .arrived walks', hdir⟩
  | @diverted links here directory place all rest target walks follows ih =>
    subst hall
    rcases walk_snoc_diverted sound hhere walks with ⟨left, rfl, walks'⟩ | ⟨spot, walks', hdir⟩
    · have hrestart : t.at? (restart directory target) = some .directory := by
        rw [restart]
        split
        · rfl
        · exact walk_diverts sound hhere walks
      obtain ⟨spot, follows', hdir⟩ := ih hrestart (List.append_assoc _ _ _).symm
      exact ⟨spot, .diverted walks' follows', hdir⟩
    · exact ⟨spot, .arrived walks', hdir⟩

/-- What a path leads to behind another one stands in a directory there. -/
theorem standing_of_locateSelf_child {name : Name} (sound : t.Sound)
    (h : t.locateSelf (path.child name) = .ok place) : ∃ directory, t.Standing path directory := by
  obtain ⟨directory, follows, hdir⟩ := (follow_eq_ok.mp h).snoc sound t.at?_nil rfl
  exact ⟨directory, follow_eq_ok.mpr follows, hdir⟩

theorem standing_of_locate_child {name : Name} (sound : t.Sound)
    (h : t.locate (path.child name) = .ok place) : ∃ directory, t.Standing path directory := by
  obtain ⟨directory, follows, hdir⟩ := (follow_eq_ok.mp h).snoc sound t.at?_nil rfl
  exact ⟨directory, follow_eq_ok.mpr follows, hdir⟩

theorem standing_of_locate_into {names : List Name} (sound : t.Sound) (hnames : names ≠ [])
    (h : t.locate (path.into names) = .ok place) : ∃ directory, t.Standing path directory := by
  induction names generalizing path with
  | nil => exact absurd rfl hnames
  | cons name rest ih =>
    rw [Path.into_cons] at h
    by_cases hrest : rest = []
    · subst hrest
      rw [Path.into_nil] at h
      exact standing_of_locate_child sound h
    · obtain ⟨directory, stands⟩ := ih hrest h
      exact standing_of_locate_child sound stands.leads

/-- Where no link is in the way, a name in a directory leads to what has the name. -/
theorem Standing.eq_of_locate_child {other name : Name} (h : t.Standing path place)
    (hlink : ∀ target, t.at? (place ++ [other]) ≠ some (.link target))
    (hend : t.locate (path.child other) = .ok (place ++ [name])) : other = name := by
  obtain ⟨left, hleft⟩ := h.follow_into (List.cons_ne_nil other []) true
  rw [locate, Path.child_eq_into, hleft] at hend
  have hlength : ∀ {spot : Location}, spot = place ++ [name] →
      spot.length = place.length + 1 := by
    rintro _ rfl
    simp
  by_cases hself : other = [] ∨ other = ['.']
  · rw [follow_of_arrived (by rw [walk_cons_self hself, walk])] at hend
    have hsame := hlength (Except.ok.inj hend)
    omega
  · by_cases hparent : other = ['.', '.']
    · subst hparent
      rw [follow_of_arrived (by rw [walk_cons_parent, walk])] at hend
      have hsame := hlength (Except.ok.inj hend)
      rw [List.length_dropLast] at hsame
      omega
    · cases hlong : isTooLong other with
      | true =>
        rw [follow_of_blocked (by rw [walk_cons hself hparent, if_pos hlong])] at hend
        cases hend
      | false =>
        have hchild := h.locate_child ⟨.of_not_self hself hparent, hlong⟩ hlink
        rw [locate, Path.child_eq_into, hleft, hend] at hchild
        simpa using (List.append_inj' (Except.ok.inj hchild) rfl).2.symm

end Tree

end WikiMigration.Files

/-
Openings of lines that Markdown would take for blocks.

Which lines open a block is told by a grammar: an indentation, a marker, and behind it a blank or the end of the
line.  A marker is found by the run of its first character, and no shorter part of the run would do, because the
character behind it would be one of the run and no blank.  So a line opens a block exactly if a marker is found
behind its indentation.

A line that opens a block gets a backslash.  Before it stand only the indentation and, if the marker is a number's,
its digits; no marker goes on with a backslash, so the line opens no block any more, and nothing is left to do for
it the next time.  All other lines stay as they are.
-/
import Mathlib.Data.List.Forall2
import WikiMigration.Proofs.Text.Lines
import WikiMigration.Writing.Escape

namespace WikiMigration.Writing

open Text

variable {line marker rest indent digits more : List Char} {c d : Char} {n : Nat}

/-! ### Which lines open a block -/

/-- A marker of a block: a dash of an item or several of a rule, the equals signs under a heading, the plus sign of
an item, the sign of a quotation, the signs of a heading, or the number of an item with the sign behind it. -/
inductive IsMarker : List Char → Prop
  | dashes (n : Nat) (filled : 1 ≤ n) : IsMarker (List.replicate n '-')
  | underline (n : Nat) (filled : 1 ≤ n) : IsMarker (List.replicate n '=')
  | plus : IsMarker ['+']
  | quotation : IsMarker ['>']
  | heading (n : Nat) (filled : 1 ≤ n) (short : n ≤ 6) : IsMarker (List.replicate n '#')
  | numbered (digits : List Char) (final : Char) (decimal : ∀ d ∈ digits, isDecimal d = true)
      (filled : 1 ≤ digits.length) (short : digits.length ≤ 9) (ends : final = '.' ∨ final = ')') :
      IsMarker (digits ++ [final])

/-- The line starts with a marker and ends, or goes on with a blank. -/
def StartsMarked (marker line : List Char) : Prop :=
  IsMarker marker ∧ ∃ rest, line = marker ++ rest ∧ ∀ c ∈ rest.head?, isIndent c = true

/-- The line opens a block: it starts with a marker behind its indentation. -/
def OpensBlock (line : List Char) : Prop :=
  ∃ indent marker rest, line = indent ++ rest ∧ (∀ c ∈ indent, isIndent c = true) ∧ StartsMarked marker rest

/-- The second line is the first one with a backslash put in somewhere. -/
def InsertsBackslash (line escaped : List Char) : Prop :=
  ∃ front behind, line = front ++ behind ∧ escaped = front ++ '\\' :: behind

/-! ### Finding a marker -/

theorem isIndent_iff : isIndent c = true ↔ c = ' ' ∨ c = '\t' := by simp [isIndent]

theorem not_isIndent_of_isDecimal (h : isDecimal c = true) : isIndent c = false := by
  rw [Bool.eq_false_iff, Ne, isIndent_iff]
  rintro (rfl | rfl) <;> exact absurd h (by decide)

/-- A marker starts with a character that does not indent. -/
theorem IsMarker.exists_cons (h : IsMarker marker) : ∃ c more, marker = c :: more ∧ isIndent c = false := by
  have hrun : ∀ {sign : Char} {n : Nat}, 1 ≤ n → isIndent sign = false →
      ∃ c more, List.replicate n sign = c :: more ∧ isIndent c = false := by
    intro sign n filled hsign
    obtain ⟨m, rfl⟩ := Nat.exists_eq_add_of_le' filled
    exact ⟨sign, _, List.replicate_succ, hsign⟩
  cases h with
  | dashes n filled => exact hrun filled (by decide)
  | underline n filled => exact hrun filled (by decide)
  | plus => exact ⟨_, _, rfl, by decide⟩
  | quotation => exact ⟨_, _, rfl, by decide⟩
  | heading n filled short => exact hrun filled (by decide)
  | numbered digits final decimal filled short ends =>
    obtain ⟨first, others, rfl⟩ := List.exists_cons_of_ne_nil (List.length_pos_iff.mp filled)
    exact ⟨first, _, rfl, not_isIndent_of_isDecimal (decimal first List.mem_cons_self)⟩

theorem endsMarker_iff : endsMarker rest = true ↔ ∀ c ∈ rest.head?, isIndent c = true := by
  cases rest <;> simp [endsMarker]

theorem ne_of_isDecimal (h : isDecimal c = true) (hd : isDecimal d = false) : c ≠ d := fun heq =>
  Bool.false_ne_true (hd.symm.trans (heq ▸ h))

/-- A run of characters ends before a blank that is none of them. -/
theorem takeWhile_marked {p : Char → Bool} (hspace : p ' ' = false) (htab : p '\t' = false)
    (hmarker : ∀ c ∈ marker, p c = true) (hrest : ∀ c ∈ rest.head?, isIndent c = true) :
    (marker ++ rest).takeWhile p = marker :=
  takeWhile_front hmarker fun c hc => by
    rcases isIndent_iff.mp (hrest c hc) with rfl | rfl <;> assumption

theorem takeWhile_replicate {sign : Char} (hspace : ' ' ≠ sign) (htab : '\t' ≠ sign) (n : Nat)
    (hrest : ∀ c ∈ rest.head?, isIndent c = true) :
    (List.replicate n sign ++ rest).takeWhile (· == sign) = List.replicate n sign :=
  takeWhile_marked (by simpa using hspace) (by simpa using htab)
    (fun c hc => by simpa using List.eq_of_mem_replicate hc) hrest

/-- **The marker that a line starts with is found.** -/
theorem markerLength?_of_startsMarked (h : StartsMarked marker line) : markerLength? line = some marker.length := by
  obtain ⟨hmarker, rest, rfl, hrest⟩ := h
  have hclosed := endsMarker_iff.mpr hrest
  cases hmarker with
  | dashes n filled =>
    obtain ⟨m, rfl⟩ := Nat.exists_eq_add_of_le' filled
    have hrun := takeWhile_replicate (by decide : ' ' ≠ '-') (by decide) m hrest
    simp [markerLength?, List.replicate_succ, hrun, hclosed]
  | underline n filled =>
    obtain ⟨m, rfl⟩ := Nat.exists_eq_add_of_le' filled
    have hrun := takeWhile_replicate (by decide : ' ' ≠ '=') (by decide) m hrest
    simp [markerLength?, List.replicate_succ, hrun, hclosed]
  | plus => simp [markerLength?, hclosed]
  | quotation => simp [markerLength?, hclosed]
  | heading n filled short =>
    obtain ⟨m, rfl⟩ := Nat.exists_eq_add_of_le' filled
    have hrun := takeWhile_replicate (by decide : ' ' ≠ '#') (by decide) m hrest
    simp [markerLength?, List.replicate_succ, hrun, hclosed]
    omega
  | numbered digits final decimal filled short ends =>
    obtain ⟨first, others, rfl⟩ := List.exists_cons_of_ne_nil (List.length_pos_iff.mp filled)
    have hfirst : isDecimal first = true := decimal first List.mem_cons_self
    have hfinal : isDecimal final = false := by rcases ends with rfl | rfl <;> decide
    have hrun : (first :: (others ++ final :: rest)).takeWhile isDecimal = first :: others :=
      takeWhile_front decimal (by simpa using hfinal)
    have hne : ∀ {d}, isDecimal d = false → first ≠ d := ne_of_isDecimal hfirst
    simp [markerLength?, hrun, hclosed, ends, hne (by decide : isDecimal '-' = false),
      hne (by decide : isDecimal '=' = false), hne (by decide : isDecimal '+' = false),
      hne (by decide : isDecimal '>' = false), hne (by decide : isDecimal '#' = false)]
    rw [List.length_cons] at short
    omega

/-- The line starts with what is found, if it is a marker with an end behind it. -/
theorem startsMarked_take (hmarker : IsMarker (line.take n)) (hclosed : endsMarker (line.drop n) = true) :
    StartsMarked (line.take n) line :=
  ⟨hmarker, line.drop n, (List.take_append_drop n line).symm, endsMarker_iff.mp hclosed⟩

theorem takeWhile_eq_replicate (sign : Char) (line : List Char) :
    line.takeWhile (· == sign) = List.replicate (line.takeWhile (· == sign)).length sign :=
  List.eq_replicate_of_mem fun c hc => by simpa using List.mem_takeWhile_imp hc

/-- So it does with a run of one sign, if that is a marker. -/
theorem startsMarked_run (sign : Char)
    (hmarker : IsMarker (List.replicate (line.takeWhile (· == sign)).length sign))
    (hclosed : endsMarker (line.drop (line.takeWhile (· == sign)).length) = true) :
    StartsMarked (line.take (line.takeWhile (· == sign)).length) line ∧
      (line.takeWhile (· == sign)).length ≤ line.length := by
  refine ⟨startsMarked_take ?_ hclosed, (List.takeWhile_prefix _).length_le⟩
  rwa [take_takeWhile, takeWhile_eq_replicate]

/-- And with digits and the sign that ends them. -/
theorem startsMarked_numbered {final : Char} {behind : List Char} (hfilled : 1 ≤ (line.takeWhile isDecimal).length)
    (hshort : (line.takeWhile isDecimal).length ≤ 9) (hends : final = '.' ∨ final = ')')
    (hbehind : line.drop (line.takeWhile isDecimal).length = final :: behind)
    (hclosed : endsMarker (line.drop ((line.takeWhile isDecimal).length + 1)) = true) :
    StartsMarked (line.take ((line.takeWhile isDecimal).length + 1)) line ∧
      (line.takeWhile isDecimal).length + 1 ≤ line.length := by
  have hline : line = line.takeWhile isDecimal ++ final :: behind := by
    rw [← hbehind, drop_takeWhile, List.takeWhile_append_dropWhile]
  have htake : line.take ((line.takeWhile isDecimal).length + 1) = line.takeWhile isDecimal ++ [final] := by
    rw [List.take_add_one, take_takeWhile, ← List.head?_drop, hbehind]
    rfl
  refine ⟨startsMarked_take ?_ hclosed, ?_⟩
  · rw [htake]
    exact .numbered _ final (fun d => List.mem_takeWhile_imp) hfilled hshort hends
  · rw [congrArg List.length hline]
    simp

/-- **A marker that is found stands at the start of the line.** -/
theorem exists_startsMarked (h : markerLength? line = some n) : StartsMarked (line.take n) line ∧ n ≤ line.length := by
  cases line with
  | nil => cases h
  | cons c rest =>
    simp only [markerLength?, beq_iff_eq, Bool.or_eq_true, Bool.and_eq_true, decide_eq_true_eq] at h
    split at h
    next hc =>
      obtain ⟨hclosed, heq⟩ := Option.ite_none_right_eq_some.mp h
      obtain rfl := Option.some.inj heq
      exact startsMarked_run '-' (.dashes _ (by simp [hc])) hclosed
    split at h
    next hc =>
      obtain ⟨hclosed, heq⟩ := Option.ite_none_right_eq_some.mp h
      obtain rfl := Option.some.inj heq
      exact startsMarked_run '=' (.underline _ (by simp [hc])) hclosed
    split at h
    next hc =>
      obtain ⟨hclosed, heq⟩ := Option.ite_none_right_eq_some.mp h
      obtain rfl := Option.some.inj heq
      refine ⟨startsMarked_take ?_ hclosed, by simp⟩
      rcases hc with rfl | rfl
      · exact .plus
      · exact .quotation
    split at h
    next hc =>
      obtain ⟨hshort, hend⟩ := Option.ite_none_right_eq_some.mp h
      obtain ⟨hclosed, heq⟩ := Option.ite_none_right_eq_some.mp hend
      obtain rfl := Option.some.inj heq
      exact startsMarked_run '#' (.heading _ (by simp [hc]) hshort) hclosed
    next =>
      obtain ⟨⟨⟨hfilled, hshort⟩, hfinal⟩, hend⟩ := Option.ite_none_right_eq_some.mp h
      obtain ⟨hclosed, heq⟩ := Option.ite_none_right_eq_some.mp hend
      obtain rfl := Option.some.inj heq
      generalize c :: rest = line at hfilled hshort hfinal hclosed ⊢
      cases hdrop : line.drop (line.takeWhile isDecimal).length with
      | nil =>
        rw [hdrop] at hfinal
        cases hfinal
      | cons final behind =>
        exact startsMarked_numbered hfilled hshort (by simpa [hdrop] using hfinal) hdrop hclosed

/-- A line opens a block exactly if a marker is found behind its indentation. -/
theorem opensBlock_iff : OpensBlock line ↔ (markerLength? (line.dropWhile isIndent)).isSome = true := by
  constructor
  · rintro ⟨indent, marker, rest, rfl, hindent, hstarts⟩
    have hfound := markerLength?_of_startsMarked hstarts
    obtain ⟨c, more, rfl, hc⟩ := hstarts.1.exists_cons
    obtain ⟨behind, rfl, -⟩ := hstarts.2
    rw [dropWhile_front hindent (by simpa using hc), hfound]
    rfl
  · intro h
    obtain ⟨n, hn⟩ := Option.isSome_iff_exists.mp h
    exact ⟨line.takeWhile isIndent, _, _, (List.takeWhile_append_dropWhile).symm, fun c => List.mem_takeWhile_imp,
      (exists_startsMarked hn).1⟩

/-! ### Escaping a line -/

/-- Behind a number with a backslash there is no marker, and behind nothing with one neither. -/
theorem markerLength?_shielded (decimal : ∀ d ∈ digits, isDecimal d = true) (more : List Char) :
    markerLength? (digits ++ '\\' :: more) = none := by
  have hrun : (digits ++ '\\' :: more).takeWhile isDecimal = digits :=
    takeWhile_front decimal (by simp [show isDecimal '\\' = false by decide])
  cases digits with
  | nil => simp [markerLength?, show isDecimal '\\' = false by decide]
  | cons first others =>
    have hne : ∀ {d}, isDecimal d = false → first ≠ d := ne_of_isDecimal (decimal first List.mem_cons_self)
    rw [List.cons_append] at hrun ⊢
    simp [markerLength?, hrun, hne (by decide : isDecimal '-' = false),
      hne (by decide : isDecimal '=' = false), hne (by decide : isDecimal '+' = false),
      hne (by decide : isDecimal '>' = false), hne (by decide : isDecimal '#' = false)]

theorem escapeMarkdownLine_of_not_opens (h : ¬OpensBlock line) : escapeMarkdownLine line = line := by
  rw [opensBlock_iff, Bool.not_eq_true, Option.isSome_eq_false_iff, Option.isNone_iff_eq_none] at h
  rw [escapeMarkdownLine]
  simp only [drop_takeWhile, h]

/-- Of a marker only the digits come before the backslash. -/
theorem decimal_before (h : StartsMarked (rest.take n) rest) (hn : n ≤ rest.length) :
    ∀ d ∈ rest.take (if rest.head?.any isDecimal then n - 1 else 0), isDecimal d = true := by
  obtain ⟨hmarker, behind, hrest, -⟩ := h
  generalize htake : rest.take n = marker at hmarker hrest
  -- Of the signs none is a digit, so only behind the digits of a number there is something to see.
  have hsign : ∀ {sign : Char} {m : Nat}, 1 ≤ m → isDecimal sign = false → marker = List.replicate m sign →
      rest.head?.any isDecimal = false := by
    rintro sign m filled hsign rfl
    obtain ⟨k, rfl⟩ := Nat.exists_eq_add_of_le' filled
    rw [hrest, List.replicate_succ]
    exact hsign
  cases hmarker with
  | dashes m filled => simp [hsign filled (by decide) rfl]
  | underline m filled => simp [hsign filled (by decide) rfl]
  | plus => simp [@hsign '+' 1 (by decide) (by decide) rfl]
  | quotation => simp [@hsign '>' 1 (by decide) (by decide) rfl]
  | heading m filled short => simp [hsign filled (by decide) rfl]
  | numbered digits final decimal filled short ends =>
    have hlength : n = digits.length + 1 := by
      rw [← List.length_take_of_le hn, htake, List.length_append, List.length_singleton]
    subst hlength
    intro d hd
    split at hd
    · rw [hrest, Nat.add_sub_cancel, List.append_assoc, List.take_left] at hd
      exact decimal d hd
    · cases hd

/-- Only digits stand between the indentation and the backslash of a line. -/
theorem escapeMarkdownLine_of_opens (h : OpensBlock line) : ∃ indent digits more,
    line = indent ++ (digits ++ more) ∧ escapeMarkdownLine line = indent ++ (digits ++ '\\' :: more) ∧
      (∀ c ∈ indent, isIndent c = true) ∧ ∀ d ∈ digits, isDecimal d = true := by
  obtain ⟨n, hn⟩ := Option.isSome_iff_exists.mp (opensBlock_iff.mp h)
  have hbefore := decimal_before (exists_startsMarked hn).1 (exists_startsMarked hn).2
  rw [escapeMarkdownLine]
  simp only [drop_takeWhile, hn]
  generalize (if (line.dropWhile isIndent).head?.any isDecimal then n - 1 else 0) = before at hbefore ⊢
  exact ⟨line.takeWhile isIndent, _, (line.dropWhile isIndent).drop before,
    by rw [List.take_append_drop, List.takeWhile_append_dropWhile], List.append_assoc _ _ _,
    fun c => List.mem_takeWhile_imp, hbefore⟩

/-- An escaped line opens no block. -/
theorem not_opensBlock_escapeMarkdownLine (line : List Char) : ¬OpensBlock (escapeMarkdownLine line) := by
  by_cases h : OpensBlock line
  · obtain ⟨indent, digits, more, -, hescaped, hindent, hdigits⟩ := escapeMarkdownLine_of_opens h
    have hhead : ∀ c ∈ (digits ++ '\\' :: more).head?, isIndent c = false := by
      cases digits with
      | nil => simp [isIndent]
      | cons first others => simpa using not_isIndent_of_isDecimal (hdigits first List.mem_cons_self)
    rw [opensBlock_iff, hescaped, dropWhile_front hindent hhead, markerLength?_shielded hdigits]
    simp
  · rwa [escapeMarkdownLine_of_not_opens h]

/-- A line is escaped by one backslash if it opens a block, and left alone if not. -/
structure IsEscapedLine (line escaped : List Char) : Prop where
  shielded : OpensBlock line → InsertsBackslash line escaped
  kept : ¬OpensBlock line → escaped = line

theorem isEscapedLine_escapeMarkdownLine (line : List Char) : IsEscapedLine line (escapeMarkdownLine line) where
  shielded := by
    intro h
    obtain ⟨indent, digits, more, hline, hescaped, -⟩ := escapeMarkdownLine_of_opens h
    exact ⟨indent ++ digits, more, by rw [hline, List.append_assoc], by rw [hescaped, List.append_assoc]⟩
  kept := escapeMarkdownLine_of_not_opens

/-- A backslash makes no further line of one. -/
theorem feed_not_mem_escapeMarkdownLine (h : '\n' ∉ line) : '\n' ∉ escapeMarkdownLine line := by
  by_cases hopens : OpensBlock line
  · obtain ⟨front, behind, rfl, hescaped⟩ := (isEscapedLine_escapeMarkdownLine line).shielded hopens
    rw [hescaped]
    simpa using h
  · rwa [escapeMarkdownLine_of_not_opens hopens]

/-! ### Escaping a text -/

theorem lines_escapeLineStarts (text : List Char) :
    lines (escapeLineStarts .markdown text) = (lines text).map escapeMarkdownLine := by
  refine lines_unlines (by rw [Ne, List.map_eq_nil_iff]; exact splitAt_ne_nil '\n' text) fun line hline => ?_
  obtain ⟨raw, hraw, rfl⟩ := List.mem_map.mp hline
  exact feed_not_mem_escapeMarkdownLine (not_mem_of_mem_splitAt hraw)

theorem escapeLineStarts_twice (text : List Char) :
    escapeLineStarts .markdown (escapeLineStarts .markdown text) = escapeLineStarts .markdown text := by
  have htwice : ∀ line, escapeMarkdownLine (escapeMarkdownLine line) = escapeMarkdownLine line := fun line =>
    escapeMarkdownLine_of_not_opens (not_opensBlock_escapeMarkdownLine line)
  rw [escapeLineStarts, lines_escapeLineStarts, List.map_map]
  exact congrArg unlines (List.map_congr_left fun line _ => htwice line)

/-- **Line by line, what would open a block is made literal, and nothing else is changed.** -/
theorem openings_escaped (text : List Char) :
    (∀ line ∈ lines (escapeLineStarts .markdown text), ¬OpensBlock line) ∧
      escapeLineStarts .markdown (escapeLineStarts .markdown text) = escapeLineStarts .markdown text ∧
      (lines (escapeLineStarts .markdown text)).length = (lines text).length ∧
      List.Forall₂ IsEscapedLine (lines text) (lines (escapeLineStarts .markdown text)) := by
  rw [escapeLineStarts_twice, lines_escapeLineStarts]
  refine ⟨fun line hline => ?_, rfl, List.length_map _, ?_⟩
  · obtain ⟨raw, -, rfl⟩ := List.mem_map.mp hline
    exact not_opensBlock_escapeMarkdownLine raw
  · rw [List.forall₂_map_right_iff, List.forall₂_same]
    exact fun line _ => isEscapedLine_escapeMarkdownLine line

theorem number_escaped :
    escapeLineStarts .markdown "- a\n 12. b\nc".toList = "\\- a\n 12\\. b\nc".toList ∧
      ¬OpensBlock " 12\\. b".toList :=
  ⟨by decide, (openings_escaped "- a\n 12. b\nc".toList).1 _ (by decide)⟩

end WikiMigration.Writing

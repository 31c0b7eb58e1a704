import CallableKinds.Proofs.Spacing
import CallableKinds.Source.Normalizer

/-!
# Indentation

A block of lines that is moved to the left margin does not tell how far it was indented: a margin in
front of all lines with something on them takes part in every indentation, so it comes off with the
margin of the block. Of a source nothing else is read, so a routine has the same text at every level
at which its source may stand.
-/

namespace CallableKinds

variable {s line margin : List Char} {ls : List (List Char)}

/-! ### Lines -/

theorem lines_eq_splitOn (s : List Char) : lines s = s.splitOn '\n' := by
  induction s with
  | nil => rfl
  | cons c rest ih =>
      rw [List.splitOn, List.splitOnP_cons_eq_if_modifyHead, lines, ih, List.splitOn]
      by_cases hc : c = '\n'
      · rw [if_pos hc, if_pos (beq_iff_eq.mpr hc)]
      · rw [if_neg hc, if_neg (mt beq_iff_eq.mp hc)]
        split
        next hnil => exact absurd (ih.trans hnil) (lines_ne_nil rest)
        next hcons => rw [hcons, List.modifyHead_cons]

/-- Joining the lines of a text gives the text. -/
@[simp] theorem unlines_lines (s : List Char) : unlines (lines s) = s := by
  rw [lines_eq_splitOn, unlines, List.intercalate_splitOn]

/-- A list of lines is that of its joined text. -/
theorem lines_unlines (some : ls ≠ []) (free : ∀ line ∈ ls, '\n' ∉ line) :
    lines (unlines ls) = ls := by
  rw [lines_eq_splitOn, unlines, List.splitOn_intercalate '\n' free some]

theorem lines_append_newline (front back : List Char) :
    lines (front ++ '\n' :: back) = lines front ++ lines back := by
  simp only [lines_eq_splitOn, List.splitOn]
  exact List.splitOnP_append_cons front back (beq_self_eq_true '\n')

theorem lines_of_not_mem (free : '\n' ∉ line) : lines line = [line] := by
  rw [lines_eq_splitOn]
  exact List.splitOnP_eq_singleton fun c member =>
    beq_eq_false_iff_ne.mpr fun hc => free (hc ▸ member)

/-- A text is a line, or a line in front of a newline and a text. -/
theorem induction_lines {P : List Char → Prop} (last : ∀ line, '\n' ∉ line → P line)
    (more : ∀ line rest, '\n' ∉ line → P rest → P (line ++ '\n' :: rest)) (s : List Char) : P s := by
  by_cases ends : '\n' ∈ s
  · obtain ⟨line, rest, hs, free⟩ := List.eq_append_cons_of_mem ends
    rw [hs]
    exact more line rest free (induction_lines last more rest)
  · exact last s ends
termination_by s.length
decreasing_by
  rw [hs, List.length_append, List.length_cons]
  omega

theorem newline_not_mem_of_mem_lines (member : line ∈ lines s) : '\n' ∉ line := by
  induction s using induction_lines with
  | last only free =>
      rw [lines_of_not_mem free, List.mem_singleton] at member
      rwa [member]
  | more first rest free ih =>
      rw [lines_append_newline, lines_of_not_mem free, List.singleton_append] at member
      rcases List.mem_cons.mp member with rfl | member
      · exact free
      · exact ih member

/-! ### Blank lines -/

theorem trimRight_eq_nil_iff : trimRight line = [] ↔ line.all isBlank = true := by
  rw [trimRight_eq_rdropWhile, List.rdropWhile_eq_nil_iff, List.all_eq_true]

@[simp] theorem trimRight_trimRight (line : List Char) :
    trimRight (trimRight line) = trimRight line :=
  List.rdropWhile_idempotent ..

/-- A line without the blanks at its end is empty, or something stands on it. -/
theorem all_isBlank_trimRight (line : List Char) :
    (trimRight line).all isBlank = line.all isBlank := by
  rw [Bool.eq_iff_iff, ← trimRight_eq_nil_iff, ← trimRight_eq_nil_iff, trimRight_trimRight]

/-! ### Indented texts -/

/-- A margin is made of spaces and tabs. -/
def IsIndent (margin : List Char) : Prop := ∀ c ∈ margin, c = ' ' ∨ c = '\t'

instance (margin : List Char) : Decidable (IsIndent margin) :=
  List.decidableBAll (fun c => c = ' ' ∨ c = '\t') margin

/-- A line behind a margin, unless there is nothing on it. -/
def indentLine (margin line : List Char) : List Char :=
  if line.all isBlank then line else margin ++ line

/-- A text with a margin in front of every line on which there is something. -/
def indent (margin s : List Char) : List Char := unlines ((lines s).map (indentLine margin))

theorem indentLine_of_blank (blank : line.all isBlank = true) : indentLine margin line = line :=
  if_pos blank

theorem indentLine_of_solid (solid : line.all isBlank = false) :
    indentLine margin line = margin ++ line := by
  rw [indentLine, solid]
  rfl

theorem indent_of_not_mem (free : '\n' ∉ line) : indent margin line = indentLine margin line := by
  rw [indent, lines_of_not_mem free]
  exact List.intercalate_singleton

section Indent

variable (hmargin : IsIndent margin)

include hmargin

theorem IsIndent.isBlank {c : Char} (member : c ∈ margin) : isBlank c = true := by
  rcases hmargin c member with rfl | rfl <;> decide

theorem IsIndent.newline_not_mem : '\n' ∉ margin := by
  intro member
  rcases hmargin _ member with h | h <;> cases h

theorem newline_not_mem_indentLine (free : '\n' ∉ line) : '\n' ∉ indentLine margin line := by
  rw [indentLine]
  split
  · exact free
  · rw [List.mem_append, not_or]
    exact ⟨hmargin.newline_not_mem, free⟩

theorem lines_indent (s : List Char) :
    lines (indent margin s) = (lines s).map (indentLine margin) := by
  refine lines_unlines (List.map_eq_nil_iff.not.mpr (lines_ne_nil s)) fun line member => ?_
  obtain ⟨own, hown, rfl⟩ := List.mem_map.mp member
  exact newline_not_mem_indentLine hmargin (newline_not_mem_of_mem_lines hown)

theorem indent_append_newline (front back : List Char) :
    indent margin (front ++ '\n' :: back) = indent margin front ++ '\n' :: indent margin back := by
  rw [indent, lines_append_newline, List.map_append, ← lines_indent hmargin, ← lines_indent hmargin,
    ← lines_append_newline, unlines_lines]

/-- A blank at the end of a text stands at the end of the indented text. -/
theorem indent_concat_of_blank {c : Char} (blank : isBlank c = true) (s : List Char) :
    indent margin (s ++ [c]) = indent margin s ++ [c] := by
  by_cases hc : c = '\n'
  · rw [hc]
    exact indent_append_newline hmargin s []
  · induction s using induction_lines with
    | last line free =>
        have hfree : '\n' ∉ line ++ [c] := by
          rw [List.mem_append, List.mem_singleton, not_or]
          exact ⟨free, Ne.symm hc⟩
        have hall : (line ++ [c]).all isBlank = line.all isBlank := by
          rw [List.all_append, List.all_cons, blank, List.all_nil, Bool.and_self, Bool.and_true]
        rw [indent_of_not_mem hfree, indent_of_not_mem free, indentLine, indentLine, hall]
        split
        · rfl
        · exact (List.append_assoc ..).symm
    | more line rest _ ih =>
        rw [List.append_assoc, List.cons_append, indent_append_newline hmargin, ih,
          indent_append_newline hmargin, List.append_assoc, List.cons_append]

/-- A text and the indented text end with the same character. -/
theorem exists_indent_concat (s : List Char) (c : Char) :
    ∃ front, indent margin (s ++ [c]) = front ++ [c] := by
  cases blank : isBlank c with
  | true => exact ⟨_, indent_concat_of_blank hmargin blank s⟩
  | false =>
      have hc : '\n' ≠ c := ne_of_isBlank isBlank_newline blank
      induction s using induction_lines with
      | last line free =>
          have hfree : '\n' ∉ line ++ [c] := by
            rw [List.mem_append, List.mem_singleton, not_or]
            exact ⟨free, hc⟩
          have hsolid : (line ++ [c]).all isBlank = false := by
            rw [List.all_append, List.all_cons, blank, Bool.false_and, Bool.and_false]
          refine ⟨margin ++ line, ?_⟩
          rw [indent_of_not_mem hfree, indentLine, hsolid, List.append_assoc]
          rfl
      | more line rest _ ih =>
          obtain ⟨front, hfront⟩ := ih
          refine ⟨indent margin line ++ '\n' :: front, ?_⟩
          rw [List.append_assoc, List.cons_append, indent_append_newline hmargin, hfront,
            List.append_assoc, List.cons_append]

/-- Blanks at the end of a text may be dropped before or after it is indented. -/
theorem dropRightWhile_indent {p : Char → Bool} (blank : ∀ c, p c = true → isBlank c = true)
    (s : List Char) :
    dropRightWhile p (indent margin s) = indent margin (dropRightWhile p s) := by
  change (indent margin s).rdropWhile p = indent margin (s.rdropWhile p)
  induction s using List.reverseRecOn with
  | nil => rfl
  | append_singleton s c ih =>
      cases hp : p c with
      | true =>
          rw [indent_concat_of_blank hmargin (blank c hp), List.rdropWhile_concat_pos p _ c hp,
            List.rdropWhile_concat_pos p s c hp, ih]
      | false =>
          have hkept : ¬p c = true := Bool.not_eq_true _ ▸ hp
          obtain ⟨front, hfront⟩ := exists_indent_concat hmargin s c
          rw [hfront, List.rdropWhile_concat_neg p front c hkept,
            List.rdropWhile_concat_neg p s c hkept, hfront]

/-- A text that does not begin with a newline does not do so when it is indented. -/
theorem head?_indent_ne_newline (begins : s.head? ≠ some '\n') :
    (indent margin s).head? ≠ some '\n' := by
  have hline {line : List Char} (free : '\n' ∉ line) :
      (indentLine margin line).head? ≠ some '\n' := fun head =>
    newline_not_mem_indentLine hmargin free (List.mem_of_head? head)
  induction s using induction_lines with
  | last line free =>
      rw [indent_of_not_mem free]
      exact hline free
  | more line rest free ih =>
      cases line with
      | nil => exact absurd rfl begins
      | cons c line =>
          have hsome : indentLine margin (c :: line) ≠ [] := by
            rw [indentLine]
            split
            · exact List.cons_ne_nil c line
            · exact List.append_ne_nil_of_right_ne_nil margin (List.cons_ne_nil c line)
          rw [indent_append_newline hmargin, indent_of_not_mem free,
            List.head?_append_of_ne_nil _ hsome]
          exact hline free

/-- Newlines at the start of a text may be dropped before or after it is indented. -/
theorem dropWhile_newline_indent (s : List Char) :
    (indent margin s).dropWhile (· == '\n') = indent margin (s.dropWhile (· == '\n')) := by
  have hkept {s : List Char} (begins : s.head? ≠ some '\n') :
      s.dropWhile (· == '\n') = s := by
    cases s with
    | nil => rfl
    | cons c rest =>
        exact List.dropWhile_cons_of_neg fun hc => begins (congrArg some (beq_iff_eq.mp hc))
  induction s with
  | nil => rfl
  | cons c rest ih =>
      by_cases hc : c = '\n'
      · subst hc
        have hfirst : indent margin ('\n' :: rest) = '\n' :: indent margin rest :=
          indent_append_newline hmargin [] rest
        rw [hfirst, List.dropWhile_cons_of_pos rfl, List.dropWhile_cons_of_pos rfl, ih]
      · have hbegins : (c :: rest).head? ≠ some '\n' := fun h => hc (Option.some.inj h)
        rw [hkept hbegins, hkept (head?_indent_ne_newline hmargin hbegins)]

/-- The block that a text consists of is indented with it. -/
theorem trimBlock_indent (s : List Char) :
    trimBlock (indent margin s) = indent margin (trimBlock s) := by
  have hblank (c : Char) (stripped : (c == '\n' || c == ' ') = true) : isBlank c = true := by
    rw [Bool.or_eq_true, beq_iff_eq, beq_iff_eq] at stripped
    rcases stripped with rfl | rfl <;> decide
  rw [trimBlock, dropRightWhile_indent hmargin hblank, dropWhile_newline_indent hmargin]
  rfl

end Indent

/-! ### Margins -/

/-- Blanks at the end of a line may be dropped before or after it is indented. -/
theorem trimRight_indentLine (line : List Char) :
    trimRight (indentLine margin line) = indentLine margin (trimRight line) := by
  cases blank : line.all isBlank with
  | true =>
      rw [indentLine_of_blank blank, trimRight_eq_nil_iff.mpr blank]
      rfl
  | false =>
      have hsome : trimRight line ≠ [] := fun hnil =>
        Bool.false_ne_true (blank.symm.trans (trimRight_eq_nil_iff.mp hnil))
      rw [indentLine_of_solid blank, indentLine_of_solid ((all_isBlank_trimRight line).trans blank),
        trimRight_append, if_neg hsome]

theorem indentOf_append (hmargin : IsIndent margin) (line : List Char) :
    indentOf (margin ++ line) = margin ++ indentOf line := by
  refine List.takeWhile_append_of_pos fun c member => ?_
  rw [Bool.or_eq_true, beq_iff_eq, beq_iff_eq]
  exact hmargin c member

theorem shortest_map_append (some : ls ≠ []) :
    shortest (ls.map (margin ++ ·)) = margin ++ shortest ls := by
  induction ls with
  | nil => exact absurd rfl some
  | cons s rest ih =>
      cases rest with
      | nil => rfl
      | cons t rest =>
          have hrest := ih (List.cons_ne_nil t rest)
          rw [List.map_cons] at hrest
          rw [List.map_cons, List.map_cons, shortest, hrest, shortest, List.length_append,
            List.length_append]
          simp only [Nat.add_lt_add_iff_left]
          split <;> rfl

/-- Lines without blanks at their ends are empty, or something stands on them. -/
def Stripped (ls : List (List Char)) : Prop := ∀ line ∈ ls, line = [] ∨ line.all isBlank = false

theorem stripped_map_trimRight (ls : List (List Char)) : Stripped (ls.map trimRight) := by
  intro line member
  obtain ⟨own, -, rfl⟩ := List.mem_map.mp member
  cases blank : own.all isBlank with
  | true => exact Or.inl (trimRight_eq_nil_iff.mpr blank)
  | false => exact Or.inr ((all_isBlank_trimRight own).trans blank)

/-- The lines with something on them are those that a margin comes in front of. -/
theorem filter_map_indentLine (stripped : Stripped ls) :
    (ls.map (indentLine margin)).filter (fun line => !line.isEmpty) =
      (ls.filter fun line => !line.isEmpty).map (margin ++ ·) := by
  induction ls with
  | nil => rfl
  | cons line rest ih =>
      obtain ⟨hline, hrest⟩ := List.forall_mem_cons.mp stripped
      rw [List.map_cons]
      rcases hline with rfl | solid
      · exact ih hrest
      · have hsome : line ≠ [] := by
          rintro rfl
          cases solid
        have hkept : (!line.isEmpty) = true := by simp [hsome]
        have hkept' : (!(margin ++ line).isEmpty) = true := by simp [hsome]
        rw [indentLine_of_solid solid, List.filter_cons, if_pos hkept', List.filter_cons, if_pos hkept,
          List.map_cons, ih hrest]

/-- A margin in front of the lines of a block is a part of the margin of the block. -/
theorem marginOf_map_indentLine (hmargin : IsIndent margin) (stripped : Stripped ls)
    (some : (ls.filter fun line => !line.isEmpty) ≠ []) :
    marginOf (ls.map (indentLine margin)) = margin ++ marginOf ls := by
  have hindents : (ls.filter fun line => !line.isEmpty).map (indentOf ∘ (margin ++ ·)) =
      ((ls.filter fun line => !line.isEmpty).map indentOf).map (margin ++ ·) := by
    rw [List.map_map]
    exact List.map_congr_left fun line _ => indentOf_append hmargin line
  rw [marginOf, filter_map_indentLine stripped, List.map_map, hindents,
    shortest_map_append (List.map_eq_nil_iff.not.mpr some), marginOf]

/-- What comes in front of a line and of the margin comes off with the margin. -/
theorem shiftLeft_append (hmargin : IsIndent margin) (m line : List Char) :
    shiftLeft (margin ++ m) (margin ++ line) = shiftLeft m line := by
  have hprefix : (margin ++ m).isPrefixOf (margin ++ line) = m.isPrefixOf line := by
    rw [Bool.eq_iff_iff, List.isPrefixOf_iff_prefix, List.isPrefixOf_iff_prefix,
      List.prefix_append_right_inj]
  have htrim : trimLeft (margin ++ line) = trimLeft line :=
    List.dropWhile_append_of_pos fun c member => hmargin.isBlank member
  have hdrop : (margin ++ line).drop (margin ++ m).length = line.drop m.length := by
    rw [List.length_append, ← List.drop_drop, List.drop_left]
  rw [shiftLeft, hprefix, htrim, hdrop, shiftLeft]

@[simp] theorem shiftLeft_nil (m : List Char) : shiftLeft m [] = [] := by
  rw [shiftLeft, List.drop_nil]
  split <;> rfl

/-- Lines behind a margin are moved to where they are moved without it. -/
theorem map_shiftLeft_indentLine (hmargin : IsIndent margin) (stripped : Stripped ls) :
    (ls.map (indentLine margin)).map (shiftLeft (marginOf (ls.map (indentLine margin)))) =
      ls.map (shiftLeft (marginOf ls)) := by
  rw [List.map_map]
  refine List.map_congr_left fun line member => ?_
  rw [Function.comp_apply]
  rcases stripped line member with rfl | solid
  · rw [indentLine_of_blank rfl, shiftLeft_nil, shiftLeft_nil]
  · have hsome : (ls.filter fun line => !line.isEmpty) ≠ [] := by
      refine List.ne_nil_of_mem (List.mem_filter.mpr ⟨member, ?_⟩)
      cases line with
      | nil => cases solid
      | cons c line => rfl
    rw [marginOf_map_indentLine hmargin stripped hsome, indentLine_of_solid solid,
      shiftLeft_append hmargin]

/-- A margin in front of all lines with something on them makes no difference to a block that is
moved to the left. -/
theorem dedent_of_indent (hmargin : IsIndent margin) (s : List Char) :
    dedent (indent margin s) = dedent s := by
  have hstripped : (lines (indent margin (trimBlock s))).map trimRight =
      ((lines (trimBlock s)).map trimRight).map (indentLine margin) := by
    rw [lines_indent hmargin, List.map_map, List.map_map]
    exact List.map_congr_left fun line _ => trimRight_indentLine line
  rw [dedent, dedent, trimBlock_indent hmargin, hstripped,
    map_shiftLeft_indentLine hmargin (stripped_map_trimRight _)]

/-! ### Sources at other levels -/

theorem SourceText.ofSource_indent (hmargin : IsIndent margin)
    (isolate : List Char → Except Fault (List Char)) (source : List Char) :
    ofSource isolate (indent margin source) = ofSource isolate source := by
  rw [ofSource, dedent_of_indent hmargin, ofSource]

/-- An archive in which the source of every routine stands behind a margin of its own. -/
def Archive.indented (margins : Ref → List Char) : Archive → Archive
  | listed sources => listed (sources.map fun p => (p.1, p.2.map (indent (margins p.1))))
  | files => files

theorem Archive.lookup_indented (margins : Ref → List Char) (a : Archive) (h : Heap)
    (subject : Ref) :
    (a.indented margins).lookup h subject =
      (a.lookup h subject).map (indent (margins subject)) := by
  cases a with
  | files =>
      simp only [indented, lookup]
      cases h.unwrap (fun _ => false) subject <;> rfl
  | listed sources =>
      have hfind : Keyed.find? subject (sources.map fun p => (p.1, p.2.map (indent (margins p.1)))) =
          (Keyed.find? subject sources).map fun source => source.map (indent (margins subject)) := by
        induction sources with
        | nil => rfl
        | cons p rest ih =>
            rw [List.map_cons, Keyed.find?, Keyed.find?]
            split
            next hp => rw [hp]; rfl
            next => exact ih
      rw [indented, lookup, hfind, lookup]
      rcases Keyed.find? subject sources with _ | (e | source) <;> rfl

namespace Normalizer

/-- A normalizer whose archive has all sources at other levels. -/
def indented (margins : Ref → List Char) (n : Normalizer) : Normalizer :=
  match n.origin with
  | .archive a => { n with origin := .archive (a.indented margins) }
  | .given _ => n

variable {margins : Ref → List Char}

theorem ofRoutine_indented (indents : ∀ r, IsIndent (margins r)) (h : Heap) (a : Archive)
    (subject : Ref) : ofRoutine h (a.indented margins) subject = ofRoutine h a subject := by
  rw [ofRoutine, Archive.lookup_indented, ofRoutine]
  cases a.lookup h subject with
  | error f => rfl
  | ok source => exact SourceText.ofSource_indent (indents subject) _ source

theorem find_indented (indents : ∀ r, IsIndent (margins r)) (n : Normalizer) (h : Heap) (r : Ref) :
    (n.indented margins).find h r = n.find h r := by
  obtain ⟨a | texts, cache⟩ := n
  · have hasked (subject : Ref) : (a.indented margins).asked subject = a.asked subject := by
      cases a <;> rfl
    simp only [indented, find, ofRoutine_indented indents, hasked]
  · rfl

theorem remember_indented (n : Normalizer) (h : Heap) (r : Ref) (t : SourceText) :
    (n.indented margins).remember h r t = (n.remember h r t).indented margins := by
  obtain ⟨a | texts, cache⟩ := n
  · simp only [indented, remember, keeps, Bool.true_and]
    split <;> rfl
  · rfl

/-- A block that is moved to the left does not tell how far it was indented. So a request for a text
is answered alike, and after it the same routines have been asked for and the same texts are kept, at
whatever levels the sources stand. -/
theorem request_indented (indents : ∀ r, IsIndent (margins r)) :
    (∀ r s, dedent (indent (margins r) s) = dedent s) ∧
      ∀ (n : Normalizer) (h : Heap) (r : Ref),
        (n.indented margins).request h r =
          { n.request h r with normalizer := (n.request h r).normalizer.indented margins } := by
  refine ⟨fun r s => dedent_of_indent (indents r) s, fun n h r => ?_⟩
  have hcache : (n.indented margins).cache = n.cache := by
    obtain ⟨a | texts, cache⟩ := n <;> rfl
  rw [request, hcache, request]
  split
  · rfl
  · rw [find_indented indents]
    split
    next t asked _ => rw [remember_indented]
    next => rfl

/-- A definition with an empty line in it, in a class in a function. -/
theorem request_indented_nested :
    let source := "def f(x):\n\n\treturn x\n".toList
    let n := ofOrigin (.archive (.listed [(Catalog.updateWrapper, .ok source)]))
    (∀ _ : Ref, IsIndent ['\t', ' ']) ∧
      dedent (indent ['\t', ' '] source) = "def f(x):\n\n\treturn x".toList ∧
      ((n.indented fun _ => ['\t', ' ']).request .initial Catalog.updateWrapper).result.toOption =
        some ⟨"def f(x):\n\n\treturn x".toList, "def f(x): return x".toList, [], false⟩ := by
  intro source n
  have hindents : ∀ _ : Ref, IsIndent ['\t', ' '] := fun _ => by decide
  obtain ⟨hdedent, hrequest⟩ := request_indented hindents
  refine ⟨hindents, (hdedent 0 source).trans (by decide), ?_⟩
  rw [hrequest]
  decide +kernel

end Normalizer

end CallableKinds

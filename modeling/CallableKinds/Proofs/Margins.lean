import CallableKinds.Proofs.Indentation
import Mathlib.Data.List.Forall2

/-!
# Margins

The margin of a block is the shortest indentation of a line with something on it, and it comes off the
lines that start with it. A line that is indented otherwise should stand as it did, but it loses its
own indentation.
-/

namespace CallableKinds

/-- A text is the shortest indentation of a line with something on it, of several ones the first. -/
inductive IsMarginOf : List (List Char) → List Char → Prop where
  | none {ls : List (List Char)} (blank : ∀ line ∈ ls, line.all isBlank = true) : IsMarginOf ls []
  | least {front back : List (List Char)} {line : List Char} (solid : line.all isBlank = false)
      (before : ∀ other ∈ front, other.all isBlank = false →
        (indentOf line).length < (indentOf other).length)
      (behind : ∀ other ∈ back, other.all isBlank = false →
        (indentOf line).length ≤ (indentOf other).length) :
      IsMarginOf (front ++ line :: back) (indentOf line)

variable {line margin : List Char} {ls rest : List (List Char)}

namespace IsMarginOf

/-- The indentation of the first line is the margin if no line is indented less. -/
theorem head (solid : line.all isBlank = false)
    (behind : ∀ other ∈ rest, other.all isBlank = false →
      (indentOf line).length ≤ (indentOf other).length) :
    IsMarginOf (line :: rest) (indentOf line) :=
  @least [] rest line solid nofun behind

/-- A line in front of a block that is blank, or indented further, leaves the margin as it is. -/
theorem cons (margins : IsMarginOf rest margin)
    (further : line.all isBlank = false →
      margin.length < (indentOf line).length ∧ ∃ other ∈ rest, other.all isBlank = false) :
    IsMarginOf (line :: rest) margin := by
  cases margins with
  | none blank =>
      refine .none (List.forall_mem_cons.mpr ⟨?_, blank⟩)
      by_contra solid
      obtain ⟨-, other, member, solid'⟩ := further (Bool.not_eq_true _ ▸ solid)
      exact Bool.false_ne_true (solid'.symm.trans (blank other member))
  | @least front back first solid before behind =>
      have hbefore := List.forall_mem_cons.mpr ⟨fun solid' => (further solid').1, before⟩
      exact @least (_ :: front) back first solid hbefore behind

/-- No line with something on it is indented less than by the margin. -/
theorem length_le (margins : IsMarginOf ls margin) (member : line ∈ ls)
    (solid : line.all isBlank = false) : margin.length ≤ (indentOf line).length := by
  cases margins with
  | none blank => exact Nat.zero_le _
  | least _ before behind =>
      rcases List.mem_append.mp member with member | member
      · exact Nat.le_of_lt (before line member solid)
      · rcases List.mem_cons.mp member with rfl | member
        · exact Nat.le_refl _
        · exact behind line member solid

end IsMarginOf

/-! ### The margin that is found -/

/-- Spaces and tabs are blanks. -/
theorem isBlank_of_mem_indentOf {c : Char} (member : c ∈ indentOf line) : isBlank c = true := by
  have hc := List.mem_takeWhile_imp member
  rw [Bool.or_eq_true, beq_iff_eq, beq_iff_eq] at hc
  rcases hc with rfl | rfl <;> decide

/-- The blanks at the end of a line are not part of its indentation, if something stands on it. -/
theorem indentOf_trimRight (solid : line.all isBlank = false) :
    indentOf (trimRight line) = indentOf line := by
  have hpart : (indentOf (trimRight line)).length ≠ (trimRight line).length := by
    intro whole
    have hself : indentOf (trimRight line) = trimRight line :=
      (List.takeWhile_prefix _).eq_of_length whole
    have hblank : (trimRight line).all isBlank = true := by
      rw [← hself, List.all_eq_true]
      exact fun c member => isBlank_of_mem_indentOf member
    rw [all_isBlank_trimRight, solid] at hblank
    cases hblank
  have hline : trimRight line ++ line.rtakeWhile isBlank = line := List.rdropWhile_append_rtakeWhile
  conv_rhs => rw [← hline, indentOf, List.takeWhile_append]
  exact (if_neg hpart).symm

/-- A line with something on it has the margin of a block in which it stands alone. -/
theorem marginOf_cons_of_nil (some : line ≠ [])
    (alone : (rest.filter fun line => !line.isEmpty) = []) :
    marginOf (line :: rest) = indentOf line := by
  have hkept : (!line.isEmpty) = true := by simp [some]
  rw [marginOf, List.filter_cons, if_pos hkept, alone]
  rfl

/-- A line with something on it gives way to a line further down that is indented less. -/
theorem marginOf_cons_of_ne_nil (some : line ≠ [])
    (more : (rest.filter fun line => !line.isEmpty) ≠ []) :
    marginOf (line :: rest) =
      if (marginOf rest).length < (indentOf line).length then marginOf rest else indentOf line := by
  have hkept : (!line.isEmpty) = true := by simp [some]
  obtain ⟨other, later, hrest⟩ := List.exists_cons_of_ne_nil more
  rw [marginOf, marginOf, List.filter_cons, if_pos hkept, hrest, List.map_cons, List.map_cons,
    shortest]

theorem filter_map_trimRight_eq_nil_iff :
    ((ls.map trimRight).filter fun line => !line.isEmpty) = [] ↔
      ∀ line ∈ ls, line.all isBlank = true := by
  simp only [List.filter_eq_nil_iff, List.forall_mem_map, Bool.not_eq_true', Bool.not_eq_false,
    List.isEmpty_iff, trimRight_eq_nil_iff]

/-- The margin of a block is that of its lines. -/
theorem isMarginOf_marginOf (ls : List (List Char)) :
    IsMarginOf ls (marginOf (ls.map trimRight)) := by
  induction ls with
  | nil => exact .none nofun
  | cons line rest ih =>
      rw [List.map_cons]
      cases blank : line.all isBlank with
      | true =>
          rw [trimRight_eq_nil_iff.mpr blank]
          exact ih.cons fun solid => absurd (solid.symm.trans blank) Bool.false_ne_true
      | false =>
          have hsome : trimRight line ≠ [] := fun hnil =>
            Bool.false_ne_true (blank.symm.trans (trimRight_eq_nil_iff.mp hnil))
          by_cases alone : ∀ other ∈ rest, other.all isBlank = true
          · rw [marginOf_cons_of_nil hsome (filter_map_trimRight_eq_nil_iff.mpr alone),
              indentOf_trimRight blank]
            exact .head blank fun other member solid =>
              absurd (solid.symm.trans (alone other member)) Bool.false_ne_true
          · rw [marginOf_cons_of_ne_nil hsome (mt filter_map_trimRight_eq_nil_iff.mp alone),
              indentOf_trimRight blank]
            split
            next less =>
                refine ih.cons fun _ => ⟨less, ?_⟩
                simpa using alone
            next least =>
                exact .head blank fun other member solid =>
                  Nat.le_trans (Nat.le_of_not_lt least) (ih.length_le member solid)

/-! ### What comes off a line -/

/-- A line without a margin that it starts with. Any other line is left as it is. -/
def withoutMargin (margin line : List Char) : List Char :=
  if margin.isPrefixOf line then line.drop margin.length else line

/-- Exactly the lines that start with the margin, and empty ones, are moved as they should be: any
other line loses its own indentation. -/
theorem shiftLeft_eq_withoutMargin_iff (further : line ≠ [] → margin.length ≤ (indentOf line).length) :
    shiftLeft margin line = withoutMargin margin line ↔ line = [] ∨ margin <+: line := by
  rw [shiftLeft, withoutMargin]
  by_cases begins : margin <+: line
  · simp [List.isPrefixOf_iff_prefix.mpr begins, begins]
  · rw [if_neg (mt List.isPrefixOf_iff_prefix.mp begins),
      if_neg (mt List.isPrefixOf_iff_prefix.mp begins)]
    cases line with
    | nil => simp [trimLeft]
    | cons c line =>
        have hmargin : margin ≠ [] := fun hnil => begins (hnil ▸ List.nil_prefix)
        have hpos : 0 < (indentOf (c :: line)).length :=
          Nat.lt_of_lt_of_le (List.length_pos_of_ne_nil hmargin) (further (List.cons_ne_nil c line))
        have hblank : isBlank c = true := by
          obtain ⟨d, more, hindent⟩ := List.exists_cons_of_length_pos hpos
          have hprefix : indentOf (c :: line) <+: c :: line := List.takeWhile_prefix _
          rw [hindent, List.cons_prefix_cons] at hprefix
          refine @isBlank_of_mem_indentOf (c :: line) _ ?_
          rw [hindent, hprefix.1]
          exact List.mem_cons_self
        have hshorter : (trimLeft (c :: line)).length < (c :: line).length := by
          rw [trimLeft, List.dropWhile_cons_of_pos hblank, List.length_cons]
          exact Nat.lt_succ_of_le (List.dropWhile_sublist _).length_le
        have hchanged : trimLeft (c :: line) ≠ c :: line := fun same =>
          Nat.lt_irrefl _ (same ▸ hshorter)
        simp [hchanged, begins]

theorem newline_not_mem_shiftLeft (margin : List Char) (free : '\n' ∉ line) :
    '\n' ∉ shiftLeft margin line := by
  rw [shiftLeft]
  split
  · exact fun member => free (List.mem_of_mem_drop member)
  · exact fun member => free ((List.dropWhile_sublist _).subset member)

/-- The lines of a block. -/
def blockLines (s : List Char) : List (List Char) := lines (trimBlock s)

/-- The indentation that a block is moved to the left by. -/
def blockMargin (s : List Char) : List Char := marginOf ((blockLines s).map trimRight)

theorem lines_dedent (s : List Char) :
    lines (dedent s) = (blockLines s).map fun line =>
      shiftLeft (blockMargin s) (trimRight line) := by
  rw [dedent, List.map_map, lines_unlines]
  · rfl
  · exact List.map_eq_nil_iff.not.mpr (lines_ne_nil _)
  · intro moved member
    obtain ⟨line, hline, rfl⟩ := List.mem_map.mp member
    refine newline_not_mem_shiftLeft _ fun hnewline => newline_not_mem_of_mem_lines hline ?_
    exact (List.rdropWhile_prefix isBlank line).subset hnewline

/-- A block is moved to the left by the shortest indentation of its lines. A line of the result is the
line of the block without the blanks at its end and without that margin, exactly if it starts with the
margin or nothing stands on it. -/
theorem forall_lines_dedent (s : List Char) :
    IsMarginOf (blockLines s) (blockMargin s) ∧
      List.Forall₂ (fun line moved => moved = withoutMargin (blockMargin s) (trimRight line) ↔
        line.all isBlank = true ∨ blockMargin s <+: trimRight line)
        (blockLines s) (lines (dedent s)) := by
  have hmargin : IsMarginOf (blockLines s) (blockMargin s) := isMarginOf_marginOf (blockLines s)
  refine ⟨hmargin, ?_⟩
  rw [lines_dedent, List.forall₂_map_right_iff, List.forall₂_same]
  intro line member
  rw [← trimRight_eq_nil_iff]
  refine shiftLeft_eq_withoutMargin_iff fun hsome => ?_
  have solid : line.all isBlank = false :=
    Bool.not_eq_true _ ▸ fun blank => hsome (trimRight_eq_nil_iff.mpr blank)
  rw [indentOf_trimRight solid]
  exact hmargin.length_le member solid

/-- A line that does not start with the margin loses the blanks at both of its ends instead. -/
theorem forall_other_lines_dedent (s : List Char) :
    List.Forall₂ (fun line moved => ¬ blockMargin s <+: trimRight line → moved = trimLeft (trimRight line))
      (blockLines s) (lines (dedent s)) := by
  rw [lines_dedent, List.forall₂_map_right_iff, List.forall₂_same]
  intro line _ other
  rw [shiftLeft, if_neg (mt List.isPrefixOf_iff_prefix.mp other)]

/-- Behind a line that is indented by a tab, a line that is indented by two spaces loses them. -/
theorem not_dedent_keeps_indentation :
    ¬∀ s, dedent s = unlines ((blockLines s).map fun line =>
      withoutMargin (blockMargin s) (trimRight line)) := by
  intro keeps
  exact absurd (keeps "\ta\n  b".toList) (by decide)

end CallableKinds

import CallableKinds.Proofs.Nested
import CallableKinds.Proofs.Splitting

/-!
# The parts of a text

Splitting a text at its separators is exact. The parts with the separators between them are the text, and
none of them is split again: what was lexed as a part of the text is lexed alike on its own. Behind a text
with balanced brackets a separator ends a part whatever comes next, unless it belongs to a comment.
-/

namespace CallableKinds

variable {text a b : List Char} {c : Char} {separator : List Char} {parts : List (List Char)}

/-- A character that may be a separator: it is code and no bracket. -/
structure Separates (c : Char) : Prop where
  code : isQuote c = false ∧ c ≠ '#'
  flat : isOpening c = false ∧ isClosing c = false

instance (c : Char) : Decidable (Separates c) :=
  decidable_of_iff ((isQuote c = false ∧ c ≠ '#') ∧ isOpening c = false ∧ isClosing c = false)
    ⟨fun h => ⟨h.1, h.2⟩, fun h => ⟨h.code, h.flat⟩⟩

theorem Separates.bracketTurn_eq (separates : Separates c) : bracketTurn c = 0 := by
  rw [bracketTurn, separates.flat.1, separates.flat.2]
  rfl

theorem splitTopLevel_eq_ok_iff :
    splitTopLevel text separator = .ok parts ↔
      (lex text).unclosed = none ∧ topParts separator text = parts := by
  rw [splitTopLevel_eq, Lexed.finish]
  cases (lex text).unclosed <;> simp

theorem undivided_of_cuts (none : cuts separator 0 (lex text).spots = []) : Undivided separator text := by
  rw [Undivided, topParts, none, partsBetween_nil, List.drop_zero]

/-- In front of one of its code characters a text is lexed as that part is on its own. -/
theorem precedes_of_mem_spots {s : Spot} (member : s ∈ (lex text).spots) :
    text = text.take s.pos ++ s.char :: s.after ∧
      Precedes (text.take s.pos) (s.char :: s.after) := by
  have hmember : s ∈ (lexAt text 0).spots := member
  have hstands := (standsIn_of_mem_lexAt hmember).2
  have hparts : text.take s.pos ++ s.char :: s.after = text := by
    rw [← hstands.drop, List.take_append_drop]
  refine ⟨hparts.symm, .of_beginsAt ?_⟩
  rw [hparts, List.length_take_of_le
    (Nat.le_of_lt (List.getElem?_eq_some_iff.mp hstands.getElem?).1)]
  exact beginsAt_of_mem_spots hmember

/-- A text that is not a single part is its first part, a separator and a text that is split on its
own. -/
theorem undivided_or_exists (separates : Separates c) (closed : (lex text).unclosed = none) :
    Undivided [c] text ∨ ∃ a b, text = a ++ c :: b ∧ topParts [c] text = a :: topParts [c] b ∧
      ((lex a).unclosed = none ∧ Undivided [c] a) ∧ (lex b).unclosed = none := by
  cases hcuts : cuts [c] 0 (lex text).spots with
  | nil => exact .inl (undivided_of_cuts hcuts)
  | cons cut more =>
      right
      obtain ⟨before, s, after, hspots, rfl, hdepth, hchar, hnone⟩ := exists_of_cuts hcuts
      obtain ⟨hparts, hprecedes⟩ := precedes_of_mem_spots
        (hspots ▸ List.mem_append_right before List.mem_cons_self)
      obtain ⟨hitems, hfront⟩ := items_take hspots
      obtain rfl : s.char = c := List.singleton_inj.mp hchar
      generalize text.take s.pos = a, s.after = b at hparts hprecedes hitems hfront
      subst hparts
      -- The part in front of the separator has the code characters that were read up to there.
      have hsame : (lex a).spots.map Spot.item = before.map fun t => (t.pos + 0, t.char) := hitems
      obtain ⟨hnesting, hcuts'⟩ : nesting (lex a).spots = nesting before ∧
          cuts [s.char] 0 (lex a).spots = (cuts [s.char] 0 before).map (· + 0) := cuts_congr hsame 0
      rw [hnone] at hcuts'
      have hundivided : Undivided [s.char] a := undivided_of_cuts hcuts'
      refine ⟨a, b, rfl, ?_, ⟨hfront, hundivided⟩, ?_⟩
      · rw [topParts_append_cons hprecedes (by omega) separates.code separates.bracketTurn_eq,
          hundivided]
        rfl
      · have hseparator : Precedes [s.char] b := .of_code separates.code b
        exact hseparator.unclosed.symm.trans (hprecedes.unclosed.symm.trans closed)

/-- The parts of a text with the separators between them are the text, and none of them is split
again. -/
theorem intercalate_topParts (separates : Separates c) (closed : (lex text).unclosed = none) :
    [c].intercalate (topParts [c] text) = text ∧
      ∀ part ∈ topParts [c] text, (lex part).unclosed = none ∧ Undivided [c] part := by
  induction hlength : text.length using Nat.strongRecOn generalizing text with
  | ind length ih =>
      rcases undivided_or_exists separates closed with
        hwhole | ⟨a, b, rfl, hparts, hfirst, hclosed⟩
      · rw [hwhole, List.intercalate_singleton]
        exact ⟨rfl, List.forall_mem_singleton.mpr ⟨closed, hwhole⟩⟩
      · have hlt : b.length < length := by
          rw [← hlength, List.length_append, List.length_cons]
          omega
        obtain ⟨hjoin, hlater⟩ := ih b.length hlt hclosed rfl
        rw [hparts]
        refine ⟨?_, List.forall_mem_cons.mpr ⟨hfirst, hlater⟩⟩
        obtain ⟨next, more, hmore⟩ := List.exists_cons_of_ne_nil (topParts_ne_nil [c] b)
        rw [hmore, List.intercalate_cons_cons, ← hmore, hjoin, List.append_assoc,
          List.singleton_append]

/-- Splitting a text at its separators loses nothing, and the parts are not split again. Behind a text
whose brackets balance and that does not end in a comment (or if the separator is the newline that ends
it), a separator and another text add the parts of the other text, or its error. -/
theorem splitTopLevel_exact (separates : Separates c) :
    (∀ text parts, splitTopLevel text [c] = .ok parts →
      [c].intercalate parts = text ∧ ∀ part ∈ parts, splitTopLevel part [c] = .ok [part]) ∧
    ∀ a b parts, splitTopLevel a [c] = .ok parts → nesting (lex a).spots = 0 →
      ((lex a).pieces.getLast?.bind Piece.comment? = none ∨ c = '\n') →
      splitTopLevel (a ++ c :: b) [c] = (splitTopLevel b [c]).map (parts ++ ·) := by
  constructor
  · intro text parts split
    obtain ⟨hclosed, rfl⟩ := splitTopLevel_eq_ok_iff.mp split
    obtain ⟨hjoin, hparts⟩ := intercalate_topParts separates hclosed
    exact ⟨hjoin, fun part member => splitTopLevel_eq_ok_iff.mpr (hparts part member)⟩
  · intro a b parts split balanced ends
    obtain ⟨hclosed, rfl⟩ := splitTopLevel_eq_ok_iff.mp split
    have hprecedes : Precedes a (c :: b) :=
      .of_closed hclosed (ends.imp_right (congrArg some)) (head?_ne_of_code separates.code.1 b)
    have hseparator : Precedes [c] b := .of_code separates.code b
    have hunclosed : (lex (a ++ c :: b)).unclosed = (lex b).unclosed :=
      hprecedes.unclosed.trans hseparator.unclosed
    rw [splitTopLevel_eq, splitTopLevel_eq, Lexed.finish, Lexed.finish, hunclosed,
      topParts_append_cons hprecedes balanced separates.code separates.bracketTurn_eq]
    cases (lex b).unclosed <;> rfl

/-- Parameters with separators in brackets, in a literal and in a comment, and lines of which the first one
ends in a comment. -/
theorem splitTopLevel_exact_mixed :
    let params := "a=(1, 2), b=',', *c  # d, e\n".toList
    let line := "a # (\",".toList
    (splitTopLevel params [','] = .ok ["a=(1, 2)".toList, " b=','".toList, " *c  # d, e\n".toList] ∧
      [','].intercalate ["a=(1, 2)".toList, " b=','".toList, " *c  # d, e\n".toList] = params ∧
      splitTopLevel " b=','".toList [','] = .ok [" b=','".toList]) ∧
    splitTopLevel line ['\n'] = .ok [line] ∧ nesting (lex line).spots = 0 ∧
      splitTopLevel (line ++ '\n' :: "b\n'c".toList) ['\n'] = .error (.unmatchedDelimiter ['\'']) := by
  intro params line
  have hparams : splitTopLevel params [','] =
      .ok ["a=(1, 2)".toList, " b=','".toList, " *c  # d, e\n".toList] := rfl
  have hline : splitTopLevel line ['\n'] = .ok [line] := rfl
  obtain ⟨hjoin, hparts⟩ := (splitTopLevel_exact (by decide : Separates ',')).1 params _ hparams
  have hlater := (splitTopLevel_exact (by decide : Separates '\n')).2 line "b\n'c".toList _ hline rfl
    (.inr rfl)
  exact ⟨⟨hparams, hjoin, hparts _ (by simp)⟩, hline, rfl, hlater⟩

end CallableKinds

import CallableKinds.Proofs.Excerpts

/-!
# Logical lines

A logical line ends at the first newline that stands outside of brackets and that no backslash joins to
the next line. The code characters of a part are read one after the other, so a line is read part by
part. A comment has no code characters: a line that reaches one goes on to the newline that ends it, and
whether it goes on from there is told by the last character of the comment.
-/

namespace CallableKinds

variable {text : List Char} {start stop i length : Nat} {depth : Int} {front back spots : List Spot}

/-! ### Reading a line -/

theorem lineStop_cons (depth : Int) (s : Spot) (rest : List Spot) :
    lineStop depth (s :: rest) =
      if s.endsLine = true ∧ depth ≤ 0 then some s.pos
      else lineStop (depth + bracketTurn s.char) rest := by
  rw [lineStop, bracketTurn]
  by_cases hends : s.endsLine = true
  · rw [char_of_endsLine hends, hends]
    simp [isOpening, isClosing]
  · simp only [hends, Bool.false_and, false_and, if_false, Bool.false_eq_true]
    split
    · rfl
    · split
      · rfl
      · rw [Int.add_zero]

/-- A line that does not end in the first part goes on in the second one, with the brackets that are
open there. -/
theorem lineStop_append (depth : Int) (front back : List Spot) :
    lineStop depth (front ++ back) =
      (lineStop depth front).or (lineStop (depth + nesting front) back) := by
  induction front generalizing depth with
  | nil => simp [lineStop]
  | cons s front ih =>
      rw [List.cons_append, lineStop_cons, lineStop_cons, nesting_cons]
      split
      · rfl
      · rw [ih, Int.add_assoc]

theorem exists_of_lineStop (found : lineStop depth spots = some stop) :
    ∃ s ∈ spots, s.pos = stop ∧ s.char = '\n' := by
  induction spots generalizing depth with
  | nil => cases found
  | cons s rest ih =>
      rw [lineStop_cons] at found
      split at found
      next hends =>
          exact ⟨s, List.mem_cons_self, Option.some.inj found, char_of_endsLine hends.1⟩
      next =>
          obtain ⟨t, member, hstop⟩ := ih found
          exact ⟨t, List.mem_cons_of_mem s member, hstop⟩

/-- A line ends behind some code characters if no newline ends it where all brackets are closed. -/
theorem lineStop_eq_none_iff :
    lineStop depth spots = none ↔ ∀ n (lt : n < spots.length),
      depth + nesting (spots.take n) ≤ 0 → spots[n].endsLine = false := by
  induction spots generalizing depth with
  | nil => simp [lineStop]
  | cons s rest ih =>
      rw [lineStop_cons]
      constructor
      · intro goes n lt closed
        split at goes
        next => cases goes
        next hgoes =>
            cases n with
            | zero =>
                rw [List.take_zero, nesting_nil, Int.add_zero] at closed
                exact Bool.eq_false_iff.mpr fun hends => hgoes ⟨hends, closed⟩
            | succ n =>
                rw [List.take_succ_cons, nesting_cons, ← Int.add_assoc] at closed
                exact ih.mp goes n (Nat.lt_of_succ_lt_succ lt) closed
      · intro goes
        rw [if_neg, ih]
        · intro n lt closed
          refine goes (n + 1) (Nat.succ_lt_succ lt) ?_
          rw [List.take_succ_cons, nesting_cons, ← Int.add_assoc]
          exact closed
        · rintro ⟨hends, closed⟩
          have hfirst := goes 0 (Nat.zero_lt_succ _) (by simpa using closed)
          rw [List.getElem_cons_zero, hends] at hfirst
          cases hfirst

/-- In a text a part is read as it is on its own. -/
theorem lineStop_excerpt {distance : Nat} {spots spots' : List Spot}
    (same : List.Forall₂ (Spot.ReadsAs distance) spots spots') (depth : Int) :
    nesting spots = nesting spots' ∧
      lineStop depth spots = (lineStop depth spots').map (· + distance) := by
  induction same generalizing depth with
  | nil => exact ⟨rfl, rfl⟩
  | @cons s t spots spots' hst _ ih =>
      rw [nesting_cons, nesting_cons, lineStop_cons, lineStop_cons, hst.char, hst.endsLine, (ih 0).1]
      refine ⟨rfl, ?_⟩
      split
      · exact congrArg some hst.pos
      · exact (ih _).2

/-! ### The end of a line -/

theorem logicalLineEnd_eq_ok_iff :
    logicalLineEnd text start = .ok stop ↔
      ((lineStop 0 (lexAt text start).spots).isSome = true ∨ (lexAt text start).unclosed = none) ∧
        stop = (lineStop 0 (lexAt text start).spots).getD text.length :=
  Lexed.found_eq_ok_iff

/-- A line ends at a newline behind its start, or at the end of the text. -/
theorem of_logicalLineEnd (ends : logicalLineEnd text start = .ok stop) :
    text[stop]? = some '\n' ∨ stop = text.length := by
  obtain ⟨-, rfl⟩ := logicalLineEnd_eq_ok_iff.mp ends
  cases hstop : lineStop 0 (lexAt text start).spots with
  | none => exact .inr rfl
  | some k =>
      obtain ⟨s, member, rfl, hchar⟩ := exists_of_lineStop hstop
      rw [Option.getD_some, ← hchar]
      exact .inl (standsIn_of_mem_lexAt member).2.getElem?

theorem logicalLineEnd_le_length (ends : logicalLineEnd text start = .ok stop) :
    stop ≤ text.length := by
  rcases of_logicalLineEnd ends with hnewline | rfl
  · exact Nat.le_of_lt (List.getElem?_eq_some_iff.mp hnewline).1
  · exact Nat.le_refl _

/-- A line ends at a newline unless a backslash joins it to the next one. -/
theorem logicalLineEnd_of_newline (newline : text[start]? = some '\n')
    (single : charBefore text start ≠ some '\\') : logicalLineEnd text start = .ok start := by
  obtain ⟨hlt, hchar⟩ := List.getElem?_eq_some_iff.mp newline
  have hdrop : text.drop start = '\n' :: text.drop (start + 1) := by
    rw [List.drop_eq_getElem_cons hlt, hchar]
  have hends : ('\n' == '\n' && charBefore text start != some '\\') = true := by
    simpa using single
  rw [logicalLineEnd, lexAt_of_character hdrop (by decide), Lexed.spots_cons_code, lineStop_cons,
    Spot.endsLine, if_pos ⟨hends, Int.le_refl 0⟩]
  rfl

theorem start_le_logicalLineEnd (ends : logicalLineEnd text start = .ok stop)
    (fits : start ≤ text.length) : start ≤ stop := by
  obtain ⟨-, rfl⟩ := logicalLineEnd_eq_ok_iff.mp ends
  cases hstop : lineStop 0 (lexAt text start).spots with
  | none => exact fits
  | some k =>
      obtain ⟨s, member, rfl, -⟩ := exists_of_lineStop hstop
      exact (standsIn_of_mem_lexAt member).1

/-- The newline behind a comment is a code character, unless the comment is at the end of the text. -/
theorem exists_newline_of_lt (comment : .comment i length ∈ (lexAt text start).pieces)
    (lt : i + length < text.length) :
    ∃ front newline back, (lexAt text start).spots = front ++ newline :: back ∧
      (∀ t ∈ front, t.pos < i) ∧ (∀ t ∈ newline :: back, i + length ≤ t.pos) ∧
      newline.pos = i + length ∧ newline.char = '\n' ∧
      newline.before = charBefore text (i + length) := by
  obtain ⟨⟨earlier, hlex⟩, hhash, hnewline⟩ := exists_of_comment comment
  have hchar : text[i + length] = '\n' := by
    simpa [List.getElem?_eq_getElem lt] using hnewline
  have hdrop : text.drop (i + length) = '\n' :: text.drop (i + length + 1) := by
    rw [List.drop_eq_getElem_cons lt, hchar]
  have hlength : length ≠ 0 := by
    rintro rfl
    simp only [Nat.add_zero] at lt hchar
    rw [List.getElem?_eq_getElem lt, hchar] at hhash
    cases hhash
  have member : (⟨i + length, charBefore text (i + length), '\n', text.drop (i + length + 1)⟩ : Spot) ∈
      (lexAt text start).spots := by
    rw [hlex, Lexed.spots_prepend, Lexed.spots_cons_comment, lexAt_of_character hdrop (by decide)]
    exact List.mem_append_right _ List.mem_cons_self
  exact exists_newline comment member (by dsimp only; omega)

/-- A line that goes on behind a code character ends behind it. -/
theorem lt_of_lineStop {s : Spot} (parts : (lexAt text start).spots = front ++ s :: back) (depth : Int) :
    s.pos < (lineStop depth back).getD text.length := by
  cases hstop : lineStop depth back with
  | none =>
      have hs : s ∈ (lexAt text start).spots := parts ▸ List.mem_append_right front List.mem_cons_self
      exact (List.getElem?_eq_some_iff.mp (standsIn_of_mem_lexAt hs).2.getElem?).1
  | some k =>
      obtain ⟨t, ht, rfl, -⟩ := exists_of_lineStop hstop
      have hsorted := pairwise_lexAt text start
      rw [parts, List.pairwise_append, List.pairwise_cons] at hsorted
      exact hsorted.2.1.1 t ht

/-- A line goes on behind the newline of a comment outside of brackets exactly if it reaches the
comment and the comment ends with a backslash. -/
theorem comment_lt_logicalLineEnd_iff (ends : logicalLineEnd text start = .ok stop)
    (comment : .comment i length ∈ (lexAt text start).pieces) (closed : openAt text start i ≤ 0) :
    i + length < stop ↔
      i < stop ∧ i + length < text.length ∧ charBefore text (i + length) = some '\\' := by
  have hle := logicalLineEnd_le_length ends
  by_cases hlt : i + length < text.length
  swap
  · exact ⟨fun h => by omega, fun h => by omega⟩
  obtain ⟨front, newline, back, hspots, hfront, hback, hpos, hline, hescape⟩ :=
    exists_newline_of_lt comment hlt
  have hopen := openAt_eq_nesting hspots hfront fun t ht => Nat.le_of_add_right_le (hback t ht)
  obtain ⟨-, rfl⟩ := logicalLineEnd_eq_ok_iff.mp ends
  rw [hspots, lineStop_append, lineStop_cons, Int.zero_add, ← hopen, Spot.endsLine, hline, hescape]
  cases hstop : lineStop 0 front with
  | some k =>
      -- The line ends in front of the comment.
      obtain ⟨s, hs, rfl, -⟩ := exists_of_lineStop hstop
      have := hfront s hs
      rw [Option.some_or, Option.getD_some]
      exact ⟨fun h => by omega, fun h => by omega⟩
  | none =>
      rw [Option.none_or]
      by_cases hbackslash : charBefore text (i + length) = some '\\'
      · have hgoes : ¬ (('\n' == '\n' && charBefore text (i + length) != some '\\') = true ∧
            openAt text start i ≤ 0) := by
          simp [hbackslash]
        rw [if_neg hgoes]
        have hlater := lt_of_lineStop hspots (openAt text start i + bracketTurn '\n')
        rw [hpos] at hlater
        exact ⟨fun h => ⟨by omega, hlt, hbackslash⟩, fun _ => hlater⟩
      · have hends : ('\n' == '\n' && charBefore text (i + length) != some '\\') = true := by
          simpa using hbackslash
        rw [if_pos ⟨hends, closed⟩, Option.getD_some, hpos]
        exact ⟨fun h => absurd h (Nat.lt_irrefl _), fun h => absurd h.2.2 hbackslash⟩

end CallableKinds

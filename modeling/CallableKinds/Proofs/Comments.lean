import CallableKinds.Proofs.Reading

/-!
# Comments in expressions

An expression ends where it stops, or at the first comment in front of that, and without the blanks
there. A comment behind the last character of an expression is left out in this way. But a comment may
also stand between the characters of an expression: inside brackets that the expression opened, or at
the end of a line that is joined to the next one. Then the expression is cut there.
-/

namespace CallableKinds

variable {text : List Char} {start stop i length : Nat} {headers : Int}

/-! ### The first comment -/

/-- Behind a comment the text is lexed on at the newline that ends it. -/
theorem exists_of_comment (member : .comment i length ∈ (lexAt text start).pieces) :
    (∃ earlier, lexAt text start =
      ((lexAt text (i + length)).cons (.comment i length)).prepend earlier) ∧
      text[i]? = some '#' ∧ text[i + length]?.all (· == '\n') = true := by
  obtain ⟨earlier, c, rest, hdrop, hp, hlex⟩ := exists_of_mem_lexAt member
  rw [show (Piece.comment i length).start = i from rfl] at hdrop hp hlex
  have hlexeme : lexeme c rest = .comment length := by
    cases hc : lexeme c rest <;> rw [hc] at hp <;> cases hp
    rfl
  obtain ⟨rfl, rfl⟩ := lexeme_eq_comment_iff.mp hlexeme
  rw [hlexeme, Lexeme.taken, Nat.add_sub_cancel, Nat.add_assoc, Nat.add_comm 1] at hlex
  refine ⟨⟨earlier, hlex⟩, getElem?_of_drop_eq_cons hdrop, ?_⟩
  rw [← List.getElem?_drop, hdrop, List.getElem?_cons_succ]
  exact getElem?_lineLength rest

/-- The first comment of a text is one of its pieces, and no other one begins in front of it. -/
theorem of_firstComment? {comment : Nat} (first : (lexAt text start).firstComment? = some comment) :
    (∃ length, .comment comment length ∈ (lexAt text start).pieces) ∧
      ∀ i length, .comment i length ∈ (lexAt text start).pieces → comment ≤ i := by
  obtain ⟨front, p, back, hpieces, hp, hfront⟩ := List.findSome?_eq_some_iff.mp first
  cases p with
  | comment i length =>
      obtain rfl : i = comment := Option.some.inj hp
      refine ⟨⟨length, by simp [hpieces]⟩, fun j m member => ?_⟩
      have hsorted := pairwise_start_lexFrom 0 start (charBefore text start) (text.drop start)
      change (lexAt text start).pieces.Pairwise _ at hsorted
      rw [hpieces, List.mem_append, List.mem_cons] at member
      rw [hpieces, List.pairwise_append, List.pairwise_cons] at hsorted
      rcases member with member | member | member
      · cases hfront _ member
      · cases member
        exact Nat.le_refl i
      · exact Nat.le_of_lt (hsorted.2.1.1 _ member)
  | _ => cases hp

/-! ### The end of an expression -/

/-- The code character before which an expression stops, or the end of the text. -/
def terminator (text : List Char) (start : Nat) (headers : Int) : Nat :=
  (expressionStop 0 headers (lexAt text start).spots).getD text.length

/-- Where the text of an expression is cut: where it stops, or at the first comment in front of that. -/
def expressionLimit (text : List Char) (start : Nat) (headers : Int) : Nat :=
  ((lexAt text start).firstComment?.filter (· < terminator text start headers)).getD
    (terminator text start headers)

theorem lt_expressionLimit_iff {k : Nat} :
    k < expressionLimit text start headers ↔
      k < terminator text start headers ∧
        ∀ i length, .comment i length ∈ (lexAt text start).pieces → k < i := by
  unfold expressionLimit
  cases hfirst : (lexAt text start).firstComment? with
  | none =>
      have hfree := Lexed.firstComment?_eq_none_iff.mp hfirst
      refine ⟨fun hlt => ⟨hlt, fun i length member => ?_⟩, fun h => h.1⟩
      cases hfree _ member
  | some comment =>
      obtain ⟨⟨length, member⟩, hle⟩ := of_firstComment? hfirst
      rw [Option.filter_some]
      split
      next hlt =>
          have hlt := of_decide_eq_true hlt
          rw [Option.getD_some]
          refine ⟨fun hk => ⟨by omega, fun i length hi => ?_⟩, fun h => h.2 _ _ member⟩
          have := hle i length hi
          omega
      next hnot =>
          have hnot : ¬ comment < terminator text start headers := by simpa using hnot
          rw [Option.getD_none]
          refine ⟨fun hk => ⟨hk, fun i length hi => ?_⟩, fun h => h.1⟩
          have := hle i length hi
          omega

theorem le_expressionLimit_iff {k : Nat} :
    k ≤ expressionLimit text start headers ↔
      k ≤ terminator text start headers ∧
        ∀ i length, .comment i length ∈ (lexAt text start).pieces → k ≤ i := by
  cases k with
  | zero => simp
  | succ k => exact lt_expressionLimit_iff

/-- Without a comment in front of its terminator an expression is cut there. -/
theorem expressionLimit_eq_terminator
    (free : ∀ i length, .comment i length ∈ (lexAt text start).pieces →
      terminator text start headers ≤ i) :
    expressionLimit text start headers = terminator text start headers := by
  exact Nat.le_antisymm (le_expressionLimit_iff.mp (Nat.le_refl _)).1
    (le_expressionLimit_iff.mpr ⟨Nat.le_refl _, free⟩)

theorem Lexed.found_eq_ok_iff {α : Type} {l : Lexed} {result : Option α} {default a : α} :
    l.found result default = .ok a ↔
      (result.isSome = true ∨ l.unclosed = none) ∧ a = result.getD default := by
  unfold Lexed.found Lexed.finish
  cases result with
  | some b => simp [eq_comm]
  | none => cases l.unclosed <;> simp [eq_comm]

/-- An expression has an end if it stops somewhere or all literals behind it are closed. -/
def HasEnd (text : List Char) (start : Nat) (headers : Int) : Prop :=
  (expressionStop 0 headers (lexAt text start).spots).isSome = true ∨ (lexAt text start).unclosed = none

theorem expressionEnd_eq_ok_iff :
    expressionEnd text start headers = .ok stop ↔
      HasEnd text start headers ∧
        stop = trimmedEnd text start (expressionLimit text start headers) := by
  constructor
  · intro ends
    obtain ⟨k, found, hstop⟩ := ok_of_bind ends
    obtain ⟨hfound, rfl⟩ := Lexed.found_eq_ok_iff.mp found
    exact ⟨hfound, (Except.ok.inj hstop).symm⟩
  · rintro ⟨hfound, rfl⟩
    have found : (lexAt text start).found (expressionStop 0 headers (lexAt text start).spots)
        text.length = .ok (terminator text start headers) :=
      Lexed.found_eq_ok_iff.mpr ⟨hfound, rfl⟩
    rw [expressionEnd]
    dsimp only
    rw [found]
    rfl

/-- A character that is no blank is in front of the trimmed end. -/
theorem lt_trimmedEnd {k : Nat} {c : Char} (there : text[k]? = some c) (solid : isBlank c = false)
    (le : start ≤ k) (lt : k < stop) : k < trimmedEnd text start stop := by
  obtain ⟨hlength, rfl⟩ := List.getElem?_eq_some_iff.mp there
  have hslice : trimRight (slice text k stop) ≠ [] := by
    rw [slice_eq_cons lt there, trimRight_eq_rdropWhile, Ne, List.rdropWhile_eq_nil_iff]
    simp [solid]
  rw [trimmedEnd, if_pos (Nat.lt_of_le_of_lt le lt), ← take_append_slice text (Nat.le_of_lt lt),
    trimRight_append, if_neg hslice, List.length_append, List.length_take_of_le (by omega)]
  exact Nat.lt_add_of_pos_right (List.length_pos_iff.mpr hslice)

/-! ### Comments between the characters of an expression -/

/-- A comment interrupts an expression if a character of the expression that is no blank stands behind
it. -/
structure Interrupts (text : List Char) (start : Nat) (headers : Int) (i length : Nat) : Prop where
  comment : .comment i length ∈ (lexAt text start).pieces
  continued : ∃ s ∈ (lexAt text start).spots, i < s.pos ∧ s.pos < terminator text start headers ∧
    isBlank s.char = false

/-- How many brackets that an expression opened are open at a position. -/
def openAt (text : List Char) (start i : Nat) : Int :=
  nesting ((lexAt text start).spots.filter (·.pos < i))

/-- What is open at a position is what the code characters in front of it opened. -/
theorem openAt_eq_nesting {front back : List Spot} (spots : (lexAt text start).spots = front ++ back)
    (before : ∀ t ∈ front, t.pos < i) (behind : ∀ t ∈ back, i ≤ t.pos) :
    openAt text start i = nesting front := by
  have hfront : front.filter (·.pos < i) = front := by
    simpa [List.filter_eq_self] using before
  have hback : back.filter (·.pos < i) = [] := by
    rw [List.filter_eq_nil_iff]
    intro t ht
    simpa using behind t ht
  rw [openAt, spots, List.filter_append, hfront, hback, List.append_nil]

/-- If a code character stands behind a comment, the first one there is the newline that ends the
comment. -/
theorem exists_newline {s : Spot} (comment : .comment i length ∈ (lexAt text start).pieces)
    (member : s ∈ (lexAt text start).spots) (behind : i < s.pos) :
    ∃ front newline back, (lexAt text start).spots = front ++ newline :: back ∧
      (∀ t ∈ front, t.pos < i) ∧ (∀ t ∈ newline :: back, i + length ≤ t.pos) ∧
      newline.pos = i + length ∧ newline.char = '\n' ∧
      newline.before = charBefore text (i + length) := by
  obtain ⟨⟨earlier, hlex⟩, -, hnewline⟩ := exists_of_comment comment
  have hsorted := pairwise_start_lexFrom 0 start (charBefore text start) (text.drop start)
  rw [← lexAt, hlex, Lexed.prepend, Lexed.pieces_cons, List.pairwise_append] at hsorted
  have hspots : (lexAt text start).spots =
      earlier.filterMap Piece.spot? ++ (lexAt text (i + length)).spots := by
    rw [hlex, Lexed.spots_prepend, Lexed.spots_cons_comment]
  have hfront : ∀ t ∈ earlier.filterMap Piece.spot?, t.pos < i := by
    intro t ht
    obtain ⟨p, hp, hpt⟩ := List.mem_filterMap.mp ht
    have hlt := hsorted.2.2 p hp _ List.mem_cons_self
    cases p with
    | code spot =>
        cases hpt
        exact hlt
    | _ => cases hpt
  have hback : ∀ t ∈ (lexAt text (i + length)).spots, i + length ≤ t.pos := fun t ht =>
    (standsIn_of_mem_lexAt ht).1
  have hs : s ∈ (lexAt text (i + length)).spots := by
    rw [hspots, List.mem_append] at member
    refine member.resolve_left fun hs => ?_
    have := hfront s hs
    omega
  have hlength : i + length < text.length := by
    obtain ⟨hle, hstands⟩ := standsIn_of_mem_lexAt hs
    have := (List.getElem?_eq_some_iff.mp hstands.getElem?).1
    omega
  have hchar : text[i + length] = '\n' := by
    simpa [List.getElem?_eq_getElem hlength] using hnewline
  have hdrop : text.drop (i + length) = '\n' :: text.drop (i + length + 1) := by
    rw [List.drop_eq_getElem_cons hlength, hchar]
  have hnext := lexAt_of_character hdrop (by decide)
  rw [hnext, Lexed.spots_cons_code] at hspots hback
  exact ⟨_, _, _, hspots, hfront, hback, rfl, rfl, rfl⟩

/-- The expression goes on behind a comment that interrupts it because a bracket is open, or because a
backslash joins the lines. -/
theorem Interrupts.open_or_joined (interrupts : Interrupts text start headers i length) :
    0 < openAt text start i ∨ charBefore text (i + length) = some '\\' := by
  obtain ⟨s, member, hlt, hbefore, -⟩ := interrupts.continued
  obtain ⟨front, newline, back, hspots, hfront, hback, hpos, hchar, hescape⟩ :=
    exists_newline interrupts.comment member hlt
  have hle : newline.pos ≤ s.pos := by
    rw [hspots, List.mem_append] at member
    rcases member with hs | hs
    · have := hfront s hs
      omega
    · rw [hpos]
      exact hback s hs
  have hgoes : ∀ t ∈ front ++ [newline],
      expressionStop 0 headers (front ++ newline :: back) ≠ some t.pos := by
    intro t ht hstop
    rw [terminator, hspots, hstop, Option.getD_some] at hbefore
    rw [List.mem_append, List.mem_singleton] at ht
    rcases ht with ht | rfl
    · have := hfront t ht
      omega
    · omega
  obtain ⟨depth, headers', hread, hstops⟩ := exists_readExpression hgoes
  have hopen : openAt text start i = depth := by
    rw [openAt_eq_nesting hspots hfront fun t ht => Nat.le_of_add_right_le (hback t ht),
      (of_readExpression hread).1]
    exact (Int.zero_add _).symm
  rw [hopen, ← hescape]
  by_cases hdepth : depth = 0
  · right
    by_contra hne
    exact hstops ⟨hdepth, .inr (.inl (by simp [Spot.endsLine, hchar, hne]))⟩
  · left
    omega

/-- All characters of an expression are kept unless a comment interrupts it. The characters that are no
blanks and stand in front of the terminator of an expression are in front of its end if and only if no
comment interrupts the expression; and a comment that does stands inside brackets that the expression
opened, or ends with a backslash. -/
theorem expressionEnd_keeps_code_iff (ends : expressionEnd text start headers = .ok stop) :
    ((∀ s ∈ (lexAt text start).spots, s.pos < terminator text start headers →
        isBlank s.char = false → s.pos < stop) ↔
      ∀ i length, ¬ Interrupts text start headers i length) ∧
    ∀ i length, Interrupts text start headers i length →
      0 < openAt text start i ∨ charBefore text (i + length) = some '\\' := by
  obtain ⟨-, rfl⟩ := expressionEnd_eq_ok_iff.mp ends
  refine ⟨⟨?_, ?_⟩, fun i length => Interrupts.open_or_joined⟩
  · rintro keeps i length ⟨comment, s, member, hlt, hbefore, hsolid⟩
    have hkept := Nat.lt_of_lt_of_le (keeps s member hbefore hsolid) (trimmedEnd_le ..)
    exact Nat.lt_asymm hlt ((lt_expressionLimit_iff.mp hkept).2 i length comment)
  · intro whole s member hbefore hsolid
    obtain ⟨hle, hstands⟩ := standsIn_of_mem_lexAt member
    refine lt_trimmedEnd hstands.getElem? hsolid hle ?_
    refine lt_expressionLimit_iff.mpr ⟨hbefore, fun i length comment => ?_⟩
    have hne : i ≠ s.pos := by
      rintro rfl
      obtain ⟨p, hp, hps⟩ := List.mem_filterMap.mp member
      cases p with
      | code t =>
          cases hps
          cases eq_of_start_eq hp comment rfl
      | _ => cases hps
    by_contra hnot
    exact whole i length ⟨comment, s, member, by omega, hbefore, hsolid⟩

/-- A comment behind an expression is left out, and all of the expression is kept. -/
theorem expressionEnd_keeps_code_iff_behind :
    let text := "lambda: (1, 2)  # two\nb".toList
    expressionEnd text 0 0 = .ok 14 ∧
    ((∀ s ∈ (lexAt text 0).spots, s.pos < terminator text 0 0 → isBlank s.char = false → s.pos < 14) ↔
      ∀ i length, ¬ Interrupts text 0 0 i length) ∧
    ∀ i length, Interrupts text 0 0 i length →
      0 < openAt text 0 i ∨ charBefore text (i + length) = some '\\' := by
  intro text
  have ends : expressionEnd text 0 0 = .ok 14 := eq_ok_of_toOption (by decide +kernel)
  exact ⟨ends, expressionEnd_keeps_code_iff ends⟩

/-- A comment inside the brackets of an expression cuts it there, and what stands behind the comment is
lost. -/
theorem not_expressionEnd_keeps_code :
    ¬ ∀ (text : List Char) (start stop : Nat), text[start]?.all (!isBlank ·) = true →
      expressionEnd text start 0 = .ok stop →
      ∀ s ∈ (lexAt text start).spots, s.pos < terminator text start 0 → isBlank s.char = false →
        s.pos < stop := by
  intro keeps
  have ends : expressionEnd "(1, # c\n2)".toList 0 0 = .ok 3 := eq_ok_of_toOption (by decide +kernel)
  have member : (⟨8, some '\n', '2', [')']⟩ : Spot) ∈ (lexAt "(1, # c\n2)".toList 0).spots := by
    decide +kernel
  have hlt := keeps "(1, # c\n2)".toList 0 3 (by decide) ends _ member (by decide +kernel) (by decide)
  exact absurd hlt (by decide)

end CallableKinds

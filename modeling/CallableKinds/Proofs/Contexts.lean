import CallableKinds.Proofs.Excerpts

/-!
# Expressions in context

A complete expression is cut exactly, whatever stands around it: in front of it anything that does not
run into its first word, and behind it, after some spaces and tabs, what cannot go on with it.
-/

namespace CallableKinds

variable {text expression before behind : List Char}

/-! ### Complete expressions -/

/-- What may stand at the own level of an expression while so many headers are open there: no semicolon,
no end of a line, and only in a header a comma, a colon or the word of a clause. -/
structure Continues (headers : Int) (s : Spot) : Prop where
  semicolon : s.char ≠ ';'
  line : s.endsLine = false
  header : s.char = ',' ∨ s.char = ':' ∨ s.startsWord forWord = true → 0 < headers

instance (headers : Int) (s : Spot) : Decidable (Continues headers s) :=
  decidable_of_iff (s.char ≠ ';' ∧ s.endsLine = false ∧
      (s.char = ',' ∨ s.char = ':' ∨ s.startsWord forWord = true → 0 < headers))
    ⟨fun h => ⟨h.1, h.2.1, h.2.2⟩, fun h => ⟨h.semicolon, h.line, h.header⟩⟩

/-- A text is a complete expression if its literals are closed, it has no comments, it begins and ends
with characters that are no blanks and does not end with a backslash, its brackets balance, nothing at
its own level ends it and no header is left open. -/
structure IsExpression (text : List Char) : Prop where
  closed : (lex text).unclosed = none
  commentFree : (lex text).firstComment? = none
  first : text.head?.any (!isBlank ·) = true
  last : text.getLast?.any (fun c => !isBlank c && c != '\\') = true
  opened : ∀ n ≤ (lex text).spots.length, 0 ≤ nesting ((lex text).spots.take n)
  balanced : nesting (lex text).spots = 0
  continues : ∀ n (lt : n < (lex text).spots.length), nesting ((lex text).spots.take n) = 0 →
    Continues (openHeaders 0 ((lex text).spots.take n)) (lex text).spots[n]
  headers : openHeaders 0 (lex text).spots = 0

instance (text : List Char) : Decidable (IsExpression text) :=
  decidable_of_iff ((lex text).unclosed = none ∧ (lex text).firstComment? = none ∧
      text.head?.any (!isBlank ·) = true ∧ text.getLast?.any (fun c => !isBlank c && c != '\\') = true ∧
      (∀ n ≤ (lex text).spots.length, 0 ≤ nesting ((lex text).spots.take n)) ∧
      nesting (lex text).spots = 0 ∧
      (∀ n (lt : n < (lex text).spots.length), nesting ((lex text).spots.take n) = 0 →
        Continues (openHeaders 0 ((lex text).spots.take n)) (lex text).spots[n]) ∧
      openHeaders 0 (lex text).spots = 0)
    ⟨fun h => ⟨h.1, h.2.1, h.2.2.1, h.2.2.2.1, h.2.2.2.2.1, h.2.2.2.2.2.1, h.2.2.2.2.2.2.1,
        h.2.2.2.2.2.2.2⟩,
      fun h => ⟨h.closed, h.commentFree, h.first, h.last, h.opened, h.balanced, h.continues, h.headers⟩⟩

namespace IsExpression

/-- A complete expression is read up to its end. What is open behind each of its characters is what the
characters up to there have opened. -/
theorem readExpression (h : IsExpression text) :
    readExpression 0 0 (lex text).spots = some (0, 0) := by
  have hread (n : Nat) (le : n ≤ (lex text).spots.length) :
      CallableKinds.readExpression 0 0 ((lex text).spots.take n) =
        some ((nesting ((lex text).spots.take n)).toNat, openHeaders 0 ((lex text).spots.take n)) := by
    induction n with
    | zero => rfl
    | succ n ih =>
        have hopened := h.opened n (Nat.le_of_succ_le le)
        have hnext := h.opened (n + 1) le
        have hcontinues := h.continues n le
        rw [List.take_succ_eq_append_getElem le] at hnext ⊢
        rw [nesting_append, nesting_cons, nesting_nil, Int.add_zero] at hnext ⊢
        rw [readExpression_append, ih (Nat.le_of_succ_le le), openHeaders_append, openHeaders,
          openHeaders_nil, Int.zero_add, Int.add_zero]
        generalize (lex text).spots[n] = s at *
        have hdepth := Int.toNat_of_nonneg hopened
        have hgoes : ¬ StopsAt (nesting ((lex text).spots.take n)).toNat
            (openHeaders 0 ((lex text).spots.take n)) s := by
          rintro ⟨hlevel, hstops⟩
          have hzero : nesting ((lex text).spots.take n) = 0 := by omega
          obtain ⟨hsemicolon, hline, hheader⟩ := hcontinues hzero
          rcases hstops with hclosing | hends | hchar | ⟨hheaders, hchar⟩
          · rw [hzero, bracketTurn_of_isClosing hclosing] at hnext
            exact absurd hnext (by decide)
          · rw [hline] at hends
            cases hends
          · exact hsemicolon hchar
          · have := hheader hchar
            omega
        rw [Option.bind_some, CallableKinds.readExpression, expressionStep_eq, if_neg hgoes, hdepth]
        rfl
  have hwhole := hread _ (Nat.le_refl _)
  rw [List.take_length, h.balanced, h.headers] at hwhole
  exact hwhole

end IsExpression

/-- A text that is read to its end as an expression, where nothing is left open. -/
structure ReadsToEnd (text : List Char) : Prop where
  closed : (lex text).unclosed = none
  commentFree : (lex text).CommentFree
  first : text.head?.any (!isBlank ·) = true
  last : text.getLast?.any (fun c => !isBlank c && c != '\\') = true
  read : readExpression 0 0 (lex text).spots = some (0, 0)

theorem IsExpression.readsToEnd (h : IsExpression text) : ReadsToEnd text where
  closed := h.closed
  commentFree := Lexed.firstComment?_eq_none_iff.mp h.commentFree
  first := h.first
  last := h.last
  read := h.readExpression

/-! ### What may follow an expression -/

/-- A text terminates the expression in front of it if after some spaces and tabs it is at its end, has
a comma, a semicolon, a colon, a closing bracket or a newline, or after at least one of them the word
of a clause. -/
def Terminates (text : List Char) : Prop :=
  ∃ gap rest, text = gap ++ rest ∧ (∀ c ∈ gap, c = ' ' ∨ c = '\t') ∧
    (rest = [] ∨ rest.head?.any ([',', ';', ':', ')', ']', '\x7d', '\n'].contains ·) = true ∨
      gap ≠ [] ∧ startsWord forWord none rest = true)

theorem mark_cases {c : Char} (mark : [',', ';', ':', ')', ']', '\x7d', '\n'].contains c = true) :
    c = ',' ∨ c = ';' ∨ c = ':' ∨ c = ')' ∨ c = ']' ∨ c = '\x7d' ∨ c = '\n' := by
  simpa using mark

/-- What terminates an expression begins with neither a word nor a quote. -/
theorem Terminates.of_head? {c : Char} (terminates : Terminates text) (first : text.head? = some c) :
    isWord c = false ∧ isQuote c = false := by
  obtain ⟨gap, rest, rfl, hgap, hends⟩ := terminates
  cases gap with
  | cons d gap =>
      obtain rfl : d = c := Option.some.inj first
      rcases hgap d List.mem_cons_self with rfl | rfl <;> decide
  | nil =>
      rw [List.nil_append] at first
      rcases hends with rfl | hchar | ⟨hgap, -⟩
      · cases first
      · rw [first] at hchar
        rcases mark_cases hchar with rfl | rfl | rfl | rfl | rfl | rfl | rfl <;> decide
      · exact absurd rfl hgap

/-- Spaces and tabs are read over. -/
theorem exists_lexAt_gap {gap rest : List Char} {start : Nat}
    (spaces : ∀ c ∈ gap, c = ' ' ∨ c = '\t') (hdrop : text.drop start = gap ++ rest) :
    ∃ pieces, lexAt text start = (lexAt text (start + gap.length)).prepend pieces ∧
      (∀ p ∈ pieces, p.comment? = none) ∧
      ∀ depth headers, readExpression depth headers (pieces.filterMap Piece.spot?) =
        some (depth, headers) := by
  induction gap generalizing start with
  | nil => exact ⟨[], rfl, nofun, fun _ _ => rfl⟩
  | cons c gap ih =>
      obtain ⟨hc, hgap⟩ := List.forall_mem_cons.mp spaces
      have hcode : isQuote c = false ∧ c ≠ '#' := by
        rcases hc with rfl | rfl <;> decide
      obtain ⟨pieces, hlex, hplain, hread⟩ := ih hgap (drop_succ_of_drop_eq_cons hdrop)
      rw [lexAt_of_character hdrop hcode, hlex, List.length_cons, Nat.add_comm gap.length,
        ← Nat.add_assoc]
      refine ⟨.code ⟨start, charBefore text start, c, gap ++ rest⟩ :: pieces, rfl,
        List.forall_mem_cons.mpr ⟨rfl, hplain⟩, fun depth headers => ?_⟩
      change (expressionStep depth headers _).bind _ = _
      rw [expressionStep_of_space hc]
      exact hread depth headers

/-- An expression that has nothing open stops at what terminates it. -/
theorem expressionStop_of_terminates {rest : List Char} {k : Nat} (hdrop : text.drop k = rest)
    (le : k ≤ text.length) (escape : charBefore text k ≠ some '\\')
    (ends : rest = [] ∨
      rest.head?.any ([',', ';', ':', ')', ']', '\x7d', '\n'].contains ·) = true ∨
      (charBefore text k).any isWord = false ∧ startsWord forWord none rest = true) :
    expressionStop 0 0 (lexAt text k).spots = some k ∨
      expressionStop 0 0 (lexAt text k).spots = none ∧ (lexAt text k).unclosed = none ∧
        k = text.length := by
  cases rest with
  | nil =>
      right
      rw [lexAt, hdrop]
      exact ⟨rfl, rfl, Nat.le_antisymm le (List.drop_eq_nil_iff.mp hdrop)⟩
  | cons c rest =>
      left
      have hspot : (isQuote c = false ∧ c ≠ '#') ∧ StopsAt 0 0 ⟨k, charBefore text k, c, rest⟩ := by
        rcases ends with hnil | hchar | ⟨hbefore, hfor⟩
        · cases hnil
        · rcases mark_cases hchar with rfl | rfl | rfl | rfl | rfl | rfl | rfl <;>
            simp [StopsAt, isClosing, isQuote, Spot.endsLine, escape]
        · have hword : (⟨k, charBefore text k, c, rest⟩ : Spot).startsWord forWord = true := by
            simpa [Spot.startsWord, startsWord, hbefore] using hfor
          have hc : c = 'f' := char_of_startsWord hword
          subst hc
          exact ⟨by decide, rfl, .inr (.inr (.inr ⟨rfl, .inr (.inr hword)⟩))⟩
      rw [lexAt_of_character hdrop hspot.1, Lexed.spots_cons_code, expressionStop_cons,
        expressionStep_eq_none_iff.mpr hspot.2]
      rfl

/-- An expression that has nothing open stops behind the spaces and tabs of what terminates it, and no
comment stands in front of that. -/
theorem Terminates.exists_stop {k : Nat} {c : Char} (terminates : Terminates behind)
    (hdrop : text.drop k = behind) (le : k ≤ text.length) (last : charBefore text k = some c)
    (plain : c ≠ '\\') :
    ∃ gap rest, behind = gap ++ rest ∧ (∀ d ∈ gap, isBlank d = true) ∧
      (expressionStop 0 0 (lexAt text k).spots = some (k + gap.length) ∨
        expressionStop 0 0 (lexAt text k).spots = none ∧ (lexAt text k).unclosed = none ∧
          k + gap.length = text.length) ∧
      ∀ i length, .comment i length ∈ (lexAt text k).pieces → k + gap.length ≤ i := by
  obtain ⟨gap, rest, rfl, hgap, hends⟩ := terminates
  obtain ⟨pieces, hlex, hplain, hread⟩ := exists_lexAt_gap hgap hdrop
  have hrest : text.drop (k + gap.length) = rest := by
    rw [← List.drop_drop, hdrop, List.drop_left]
  have hfits : k + gap.length ≤ text.length := by
    have := congrArg List.length hdrop
    rw [List.length_drop, List.length_append] at this
    omega
  have hbefore : charBefore text (k + gap.length) = gap.getLast?.or (some c) := by
    rw [← getLast?_or_charBefore (Nat.le_add_right ..) hfits, hdrop, Nat.add_sub_cancel_left,
      List.take_left, last]
  have hgap' : ∀ d, gap.getLast? = some d → d ≠ '\\' ∧ isWord d = false := by
    intro d hd
    rcases hgap d (List.mem_of_getLast? hd) with rfl | rfl <;> decide
  refine ⟨gap, rest, rfl, fun d hd => ?_, ?_, fun i length member => ?_⟩
  · rcases hgap d hd with rfl | rfl <;> decide
  · rw [hlex, Lexed.spots_prepend, expressionStop_append (hread 0 0)]
    refine expressionStop_of_terminates hrest hfits ?_ ?_
    · rw [hbefore]
      cases hd : gap.getLast? with
      | none => simpa using plain
      | some d => simpa using (hgap' d hd).1
    · refine hends.imp_right (Or.imp_right fun ⟨hne, hfor⟩ => ⟨?_, hfor⟩)
      have hlast := List.getLast?_eq_getLast_of_ne_nil hne
      rw [hbefore, hlast, Option.some_or]
      exact (hgap' _ hlast).2
  · rw [hlex, Lexed.prepend, List.mem_append] at member
    rcases member with member | member
    · cases hplain _ member
    · exact (start_of_mem_lexFrom member).1

/-! ### Any context -/

/-- Blanks behind a character that is none are cut off. -/
theorem trimmedEnd_of_blanks {front gap rest : List Char} {start : Nat} {c : Char}
    (last : front.getLast? = some c) (solid : isBlank c = false) (blank : ∀ d ∈ gap, isBlank d = true)
    (lt : start < front.length) :
    trimmedEnd (front ++ gap ++ rest) start (front.length + gap.length) = front.length := by
  have htake : (front ++ gap ++ rest).take (front.length + gap.length) = front ++ gap := by
    rw [← List.length_append, List.take_left]
  have hgap : trimRight gap = [] := by
    rw [trimRight_eq_rdropWhile, List.rdropWhile_eq_nil_iff]
    exact blank
  have hfront : trimRight front = front := by
    rw [trimRight_eq_rdropWhile, List.rdropWhile_eq_self_iff]
    intro nonempty
    rw [List.getLast?_eq_getLast_of_ne_nil nonempty, Option.some.injEq] at last
    simp [last, solid]
  rw [trimmedEnd, if_pos (by omega), htake, trimRight_append, if_pos hgap, hfront]

namespace ReadsToEnd

theorem exists_last (h : ReadsToEnd text) :
    ∃ c, text.getLast? = some c ∧ isBlank c = false ∧ c ≠ '\\' := by
  have hlast := h.last
  cases hc : text.getLast? with
  | none =>
      rw [hc] at hlast
      cases hlast
  | some c =>
      rw [hc] at hlast
      exact ⟨c, rfl, by simpa using hlast⟩

theorem length_pos (h : ReadsToEnd text) : 0 < text.length := by
  obtain ⟨c, hlast, -⟩ := h.exists_last
  exact List.length_pos_of_mem (List.mem_of_getLast? hlast)

/-- What is read to its end stands apart from what does not run into its first word and what terminates
it. -/
theorem standsApart (h : ReadsToEnd expression) (apart : before.getLast?.any isWord = false)
    (terminates : Terminates behind) : StandsApart before expression behind where
  left := by
    rw [SplitsNoWord, apart]
    simp
  right := by
    rintro ⟨-, hword⟩
    cases hc : behind.head? with
    | none =>
        rw [hc] at hword
        cases hword
    | some c =>
        rw [hc, Option.any_some, (terminates.of_head? hc).1] at hword
        cases hword
  newline := by
    intro hnewline
    have hfirst := h.first
    rw [hnewline] at hfirst
    cases hfirst
  quote := by
    intro q hq hc
    rw [(terminates.of_head? hc).2] at hq
    cases hq

/-- What is read to its end ends there in any context that terminates it. -/
theorem expressionEnd_between (complete : ReadsToEnd expression)
    (apart : before.getLast?.any isWord = false) (terminates : Terminates behind) :
    expressionEnd (before ++ expression ++ behind) before.length 0 =
      .ok (before.length + expression.length) := by
  obtain ⟨earlier, hlex, hplain, hsame⟩ := (complete.standsApart apart terminates).exists_lexAt
    (Nat.zero_le _) complete.closed complete.commentFree
  obtain ⟨c, hlast, hsolid, hescape⟩ := complete.exists_last
  have hfront : (before ++ expression).getLast? = some c := by
    rw [List.getLast?_append, hlast, Option.some_or]
  have hlength := complete.length_pos
  rw [Nat.add_zero, ← List.length_append] at hlex
  rw [← List.length_append]
  have hbehind : (before ++ expression ++ behind).drop (before ++ expression).length = behind :=
    List.drop_left
  obtain ⟨gap, rest, rfl, hgap, hends, hcomments⟩ := terminates.exists_stop hbehind (by simp)
    ((charBefore_append_length _ _).trans hfront) hescape
  have htrimmed : trimmedEnd (before ++ expression ++ (gap ++ rest)) before.length
      ((before ++ expression).length + gap.length) = (before ++ expression).length := by
    rw [← List.append_assoc]
    exact trimmedEnd_of_blanks hfront hsolid hgap (by rw [List.length_append]; omega)
  generalize before ++ expression ++ (gap ++ rest) = text at *
  generalize (before ++ expression).length = k at *
  -- Behind the expression nothing is open, so it stops where an expression would that begins there.
  have hstop : expressionStop 0 0 (lexAt text before.length).spots =
      expressionStop 0 0 (lexAt text k).spots := by
    rw [hlex, Lexed.spots_prepend, expressionStop_excerpt hsame, lexAt_zero,
      complete.read, Option.elim_some]
  have hterminator : terminator text before.length 0 = k + gap.length := by
    rw [terminator, hstop]
    rcases hends with hsome | ⟨hnone, -, hlength⟩
    · rw [hsome, Option.getD_some]
    · rw [hnone, Option.getD_none, hlength]
  have hlimit : expressionLimit text before.length 0 = k + gap.length := by
    rw [← hterminator]
    refine expressionLimit_eq_terminator fun i length member => ?_
    rw [hlex, Lexed.prepend, List.mem_append] at member
    rcases member with member | member
    · cases hplain _ member
    · rw [hterminator]
      exact hcomments i length member
  refine expressionEnd_eq_ok_iff.mpr ⟨?_, by rw [hlimit, htrimmed]⟩
  rw [HasEnd, hstop]
  rcases hends with hsome | ⟨-, hclosed, -⟩
  · exact .inl (by rw [hsome]; rfl)
  · right
    rw [hlex]
    exact hclosed

end ReadsToEnd

/-- A complete expression is cut exactly in any context: behind any text that does not run into its
first word, and in front of any text that terminates it. -/
theorem expressionEnd_in_context (complete : IsExpression expression)
    (apart : before.getLast?.any isWord = false) (terminates : Terminates behind) :
    expressionEnd (before ++ expression ++ behind) before.length 0 =
      .ok (before.length + expression.length) :=
  complete.readsToEnd.expressionEnd_between apart terminates

/-- An anonymous function with a comma in its header, brackets, a literal and a clause inside them, behind
a quote that is not closed and in front of a clause. -/
theorem expressionEnd_in_context_clause :
    let expression := "lambda x, y=',': (x, [y for y in x])".toList
    (IsExpression expression ∧ "'[".toList.getLast?.any isWord = false ∧
      Terminates "  for z in ''' ".toList) ∧
    expressionEnd ("'[".toList ++ expression ++ "  for z in ''' ".toList) 2 0 = .ok 38 := by
  intro expression
  have complete : IsExpression expression := {
    closed := by decide +kernel
    commentFree := by decide +kernel
    first := by decide +kernel
    last := by decide +kernel
    opened := by decide +kernel
    balanced := by decide +kernel
    continues := by decide +kernel
    headers := by decide +kernel }
  have apart : "'[".toList.getLast?.any isWord = false := by decide +kernel
  have terminates : Terminates "  for z in ''' ".toList :=
    ⟨"  ".toList, "for z in ''' ".toList, rfl, by simp,
      .inr (.inr ⟨by decide, by decide +kernel⟩)⟩
  exact ⟨⟨complete, apart, terminates⟩, expressionEnd_in_context complete apart terminates⟩

end CallableKinds

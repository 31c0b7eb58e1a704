import CallableKinds.Proofs.Expressions

/-!
# Anonymous functions over several lines

The line breaks in a statement without comments do not matter to the anonymous functions in it, unless
they sever one. But a newline may sever an anonymous function inside brackets, where it ends no logical
line.
-/

namespace CallableKinds

variable {lines : Nat → Bool} {text : List Char}

/-! ### The anonymous functions of a text -/

/-- The positions at which anonymous functions begin. -/
def lambdaStarts (spots : List Spot) : List Nat :=
  (spots.filter fun s => s.startsWord lambdaWord).map Spot.pos

theorem lambdaStarts_cons (s : Spot) (rest : List Spot) :
    lambdaStarts (s :: rest) =
      if s.startsWord lambdaWord then s.pos :: lambdaStarts rest else lambdaStarts rest := by
  unfold lambdaStarts
  rw [List.filter_cons]
  split <;> rfl

theorem lambdaStarts_unbroken (spots : List Spot) :
    lambdaStarts (spots.map Spot.unbroken) = lambdaStarts spots := by
  induction spots with
  | nil => rfl
  | cons s rest ih =>
      rw [List.map_cons, lambdaStarts_cons, lambdaStarts_cons, ih,
        Spot.startsWord_unbroken (by decide)]
      rfl

/-- The expressions of a text are known if their ends are. -/
theorem starting_of_ends {spots : List Spot} {stop : Nat → Nat}
    (ends : ∀ k ∈ lambdaStarts spots, expressionEnd text k 0 = .ok (stop k)) :
    LambdaExpressions.starting text none spots =
      ⟨(lambdaStarts spots).map fun k => slice text k (stop k), none⟩ := by
  induction spots with
  | nil => rfl
  | cons s rest ih =>
      rw [LambdaExpressions.starting]
      rw [lambdaStarts_cons] at ends ⊢
      by_cases hword : s.startsWord lambdaWord = true
      · rw [if_pos hword] at ends ⊢
        obtain ⟨hs, hrest⟩ := List.forall_mem_cons.mp ends
        rw [hs, ih hrest, if_pos hword]
        rfl
      · rw [if_neg hword] at ends ⊢
        rw [ih ends, if_neg hword]

/-- What is taken of a text whose anonymous functions are known. -/
theorem isolateLambda_of_ofText {found : List (List Char)}
    (known : LambdaExpressions.ofText text = ⟨found, none⟩) (names : Option (List (List Char))) :
    isolateLambda text names =
      (names.elim (.ok none) (withNames · found)).map (·.getD (found.headD text)) := by
  unfold isolateLambda
  rw [known]
  cases names with
  | none => cases found <;> rfl
  | some names =>
      change (withNames names found >>= _) = (withNames names found).map _
      rcases withNames names found with fault | (_ | expression) <;> rfl

/-- An anonymous function begins with its word, and the text behind that has no comments. -/
theorem commentFree_behind_lambda {k : Nat} (free : (lexAt text k).CommentFree)
    (word : lambdaWord <+: text.drop k) (stop : Nat) :
    CommentFree ((slice text k stop).drop lambdaWord.length) := by
  obtain ⟨rest, hrest⟩ := word
  have hword : CommentFree (lambdaWord ++ rest) := by
    rw [hrest]
    exact commentFree_lexFrom_iff.mp free
  have hdrop : (slice text k stop).drop lambdaWord.length =
      rest.take (stop - k - lambdaWord.length) := by
    rw [slice, List.drop_take, ← hrest, List.drop_left]
  rw [hdrop]
  exact (hword.drop_word (by simp [lambdaWord, isQuote])).take _

theorem code_of_lambdaWord {k : Nat} (word : lambdaWord <+: text.drop k) :
    text[k]?.all (!isBlank ·) = true := by
  obtain ⟨rest, hrest⟩ := word
  rw [← List.head?_drop, ← hrest]
  rfl

/-- The pieces from an anonymous function on. -/
theorem of_mem_lambdaStarts {k : Nat} (free : CommentFree text)
    (member : k ∈ lambdaStarts (lex text).spots) :
    (lexAt text k).CommentFree ∧ (lexAt text k).unclosed = (lex text).unclosed ∧
      lambdaWord <+: text.drop k := by
  obtain ⟨s, hs, rfl⟩ := List.mem_map.mp member
  obtain ⟨hspot, hword⟩ := List.mem_filter.mp hs
  have hitem : s.item ∈ (lexAt text 0).items := List.mem_map_of_mem hspot
  obtain ⟨earlier, hwhole, -⟩ := lexAt_cut (beginsAt_of_mem_items hitem)
  rw [lexAt_zero] at hwhole
  refine ⟨?_, (congrArg Lexed.unclosed hwhole).symm, ?_⟩
  · intro p hp
    refine free p ?_
    rw [hwhole]
    exact List.mem_append_right earlier hp
  · have hstands : s.StandsIn text := (standsIn_of_mem_lexFrom rfl rfl hspot).2
    rw [hstands.drop]
    simp only [Spot.startsWord, startsWord, Bool.and_eq_true] at hword
    exact List.isPrefixOf_iff_prefix.mp hword.1.1

/-- What is taken of a text without comments is known on one line from the ends of its expressions. -/
theorem isolateLambda_of_ends {names : Option (List (List Char))} {stop : Nat → Nat}
    (free : CommentFree text) (complete : (lex text).unclosed = none)
    (solid : ∀ expected ∈ names, ∀ name ∈ expected, Solid name)
    (ends : ∀ k ∈ lambdaStarts (lex text).spots, expressionEnd text k 0 = .ok (stop k)) :
    let found := (lambdaStarts (lex text).spots).map fun k => slice (unbroken text) k (stop k)
    (isolateLambda text names).map unbroken =
      (names.elim (.ok none) (withNames · found)).map (·.getD (found.headD (unbroken text))) := by
  intro found
  have hfound : found =
      ((lambdaStarts (lex text).spots).map fun k => slice text k (stop k)).map unbroken := by
    rw [List.map_map]
    exact List.map_congr_left fun k _ => (unbroken_slice text k (stop k)).symm
  have hheaders : ∀ e ∈ (lambdaStarts (lex text).spots).map fun k => slice text k (stop k),
      CommentFree (e.drop lambdaWord.length) := by
    intro e he
    obtain ⟨k, hk, rfl⟩ := List.mem_map.mp he
    obtain ⟨hfree, -, hword⟩ := of_mem_lambdaStarts free hk
    exact commentFree_behind_lambda hfree hword (stop k)
  have hknown : LambdaExpressions.ofText text =
      ⟨(lambdaStarts (lex text).spots).map fun k => slice text k (stop k), none⟩ := by
    rw [LambdaExpressions.ofText, complete]
    exact starting_of_ends ends
  generalize (lambdaStarts (lex text).spots).map (fun k => slice text k (stop k)) = expressions at *
  have hhead : found.headD (unbroken text) = unbroken (expressions.headD text) := by
    rw [hfound]
    cases expressions <;> rfl
  rw [isolateLambda_of_ofText hknown, hhead, hfound]
  cases names with
  | none => rfl
  | some names =>
      rw [Option.elim_some, Option.elim_some, withNames_unbroken (solid names rfl) hheaders]
      rcases withNames names expressions with fault | (_ | expression) <;> rfl

/-- Anonymous functions begin at the same places if lines are joined. -/
theorem lambdaStarts_joinLines (lines : Nat → Bool) (free : CommentFree text) :
    lambdaStarts (lex (joinLines lines text)).spots = lambdaStarts (lex text).spots := by
  rw [← lambdaStarts_unbroken, (lex_joinLines lines free).2.1, lambdaStarts_unbroken]

/-- On one line an outcome is the same up to spacing. -/
theorem map_squeeze_unbroken (outcome : Except Fault (List Char)) :
    (outcome.map unbroken).map squeeze = outcome.map squeeze := by
  cases outcome with
  | error fault => rfl
  | ok s => exact congrArg Except.ok (squeeze_unbroken s)

/-- Line breaks do not matter to an anonymous function unless they sever it. In a text without
comments the expressions that are severed by the ends of some lines are those that change if the lines
are joined. If there is none, then joining the lines does not change what is taken of the text for any
names of parameters, which hold no spaces and no newlines. -/
theorem isolateLambda_joinLines {names : Option (List (List Char))}
    (free : (lex text).firstComment? = none) (complete : (lex text).unclosed = none)
    (solid : ∀ expected ∈ names, ∀ name ∈ expected, Solid name) :
    (∀ start ∈ lambdaStarts (lex text).spots,
      (expressionAt (joinLines lines text) start).map squeeze =
          (expressionAt text start).map squeeze ↔ ¬ Severed lines text start) ∧
    ((∀ start ∈ lambdaStarts (lex text).spots, ¬ Severed lines text start) →
      (isolateLambda (joinLines lines text) names).map squeeze =
        (isolateLambda text names).map squeeze) := by
  have hfree : CommentFree text := Lexed.firstComment?_eq_none_iff.mp free
  constructor
  · intro start member
    obtain ⟨hstart, hunclosed, hword⟩ := of_mem_lambdaStarts hfree member
    exact expressionAt_joinLines_iff hstart (hunclosed.trans complete) (code_of_lambdaWord hword)
  · intro whole
    obtain ⟨hjoined, -, hunclosed⟩ := lex_joinLines lines hfree
    -- Each expression has one end for both texts.
    have hends (k : Nat) (member : k ∈ lambdaStarts (lex text).spots) :
        ∃ stop, expressionEnd text k 0 = .ok stop ∧
          expressionEnd (joinLines lines text) k 0 = .ok stop := by
      obtain ⟨hstart, hunclosed, hword⟩ := of_mem_lambdaStarts hfree member
      have hcomplete := hunclosed.trans complete
      have hend := expressionEnd_of_commentFree hstart hcomplete 0
      have hsame := expressionEnd_joinLines hstart hcomplete (code_of_lambdaWord hword)
        (whole k member)
      exact ⟨_, hend, hsame.trans hend⟩
    choose! stop hend hend' using hends
    have hstarts := lambdaStarts_joinLines lines hfree
    rw [← hstarts] at hend'
    have hline := isolateLambda_of_ends hfree complete solid hend
    have hline' := isolateLambda_of_ends hjoined (hunclosed.trans complete) solid hend'
    rw [hstarts, unbroken_joinLines] at hline'
    rw [← map_squeeze_unbroken, hline', ← hline, map_squeeze_unbroken]

/-- A call with two anonymous functions over three lines. The first one is broken inside its own
parentheses; the second one stops at a newline, but nothing follows there. -/
theorem isolateLambda_joinLines_call :
    let text := "f(lambda x: (x +\n1), lambda y: y\n)".toList
    let lines := fun _ => true
    ((lex text).firstComment? = none ∧ (lex text).unclosed = none ∧
      (∀ expected ∈ some [['y']], ∀ name ∈ expected, Solid name) ∧
      ∀ start ∈ lambdaStarts (lex text).spots, ¬ Severed lines text start) ∧
    (isolateLambda (joinLines lines text) (some [['y']])).map squeeze =
      (isolateLambda text (some [['y']])).map squeeze := by
  intro text lines
  have hsolid : ∀ expected ∈ some [['y']], ∀ name ∈ expected, Solid name := by
    rintro expected ⟨⟩
    decide
  have hwhole : ∀ start ∈ lambdaStarts (lex text).spots, ¬ Severed lines text start := by
    have hstarts : lambdaStarts (lex text).spots = [2, 21] := rfl
    rw [hstarts]
    refine List.forall_mem_cons.mpr ⟨?_, List.forall_mem_cons.mpr ⟨?_, nofun⟩⟩
    · rintro ⟨newline, stop, hstop, hnewline, -⟩
      have hcomma : expressionStop 0 0 (lexAt text 2).spots = some 19 := rfl
      rw [hcomma] at hstop
      cases hstop
      cases hnewline
    · rintro ⟨newline, stop, hstop, -, -, hend, hlt⟩
      have hbreak : expressionStop 0 0 (lexAt text 21).spots = some 32 := rfl
      have hclose : (expressionEnd (joinLines lines text) 21 0).toOption = some 32 := by
        decide +kernel
      rw [hbreak] at hstop
      rw [hend] at hclose
      cases hstop
      cases hclose
      exact Nat.lt_irrefl _ hlt
  exact ⟨⟨rfl, rfl, hsolid, hwhole⟩, (isolateLambda_joinLines rfl rfl hsolid).2 hwhole⟩

/-! ### Newlines inside brackets -/

/-- The bracket that closes a group. -/
def closerOf (opener : Char) : Char :=
  if opener = '(' then ')' else if opener = '[' then ']' else '\x7d'

/-- The brackets that are open behind some code characters, the last one first, unless one of them
closes a group that is not the last one. -/
def openBrackets (opened : List Char) : List Spot → Option (List Char)
  | [] => some opened
  | s :: rest =>
    if isOpening s.char then openBrackets (s.char :: opened) rest
    else if isClosing s.char then
      match opened with
      | c :: opened => if closerOf c = s.char then openBrackets opened rest else none
      | [] => none
    else openBrackets opened rest

/-- At a position there is a newline in code, inside brackets. -/
def BreaksInside (text : List Char) (i : Nat) : Prop :=
  ∃ before s behind, (lex text).spots = before ++ s :: behind ∧ s.pos = i ∧ s.char = '\n' ∧
    openBrackets [] before ≠ some []

/-- An anonymous function whose body begins on a new line inside the parentheses of a call is
severed: its body is lost, but not if the lines are joined. -/
theorem not_isolateLambda_joinLines :
    ¬ ∀ (lines : Nat → Bool) (text : List Char) (names : Option (List (List Char))),
      (lex text).firstComment? = none → (lex text).unclosed = none →
      openBrackets [] (lex text).spots = some [] →
      (∀ i, lines i = true → BreaksInside text i) →
      (isolateLambda (joinLines lines text) names).map squeeze =
        (isolateLambda text names).map squeeze := by
  intro same
  have hinside : ∀ i, (i == 11) = true → BreaksInside "f(lambda x:\n1)".toList i := by
    intro i hi
    obtain rfl : i = 11 := by simpa using hi
    exact ⟨(lex "f(lambda x:\n1)".toList).spots.take 11, ⟨11, some ':', '\n', ['1', ')']⟩,
      (lex "f(lambda x:\n1)".toList).spots.drop 12, rfl, rfl, rfl, by decide⟩
  have h := same (· == 11) "f(lambda x:\n1)".toList (some [['x']]) rfl rfl rfl hinside
  have hjoined : (isolateLambda (joinLines (· == 11) "f(lambda x:\n1)".toList) (some [['x']])).map
      squeeze = .ok "lambda x: 1".toList := rfl
  have htext : (isolateLambda "f(lambda x:\n1)".toList (some [['x']])).map squeeze =
      .ok "lambda x:".toList := rfl
  rw [hjoined, htext] at h
  exact absurd (Except.ok.inj h) (by decide)

end CallableKinds

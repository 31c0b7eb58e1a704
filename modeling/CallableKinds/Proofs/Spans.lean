import CallableKinds.Proofs.Arrows

/-!
# Spans of anonymous functions

The anonymous functions that are found in a text are one for each place where their word stands in code,
and their spans form a family: of two spans one contains the other, or they have nothing in common. Each
end is found on its own. But an anonymous function that begins inside another one is stopped by whatever
stops that one, and a comment that cuts the outer one short cuts the inner one at the same place.
-/

namespace CallableKinds

variable {text : List Char} {start stop : Nat}

/-! ### The ends of what is found -/

namespace Spot

/-- A keyword starts at a code character if it stands there in the text as a whole word. -/
theorem StandsIn.startsWord_eq {s : Spot} (stands : s.StandsIn text) (keyword : List Char) :
    s.startsWord keyword = isWordAt text s.pos keyword := by
  have hle : s.pos ≤ text.length :=
    Nat.le_of_lt (List.getElem?_eq_some_iff.mp stands.getElem?).1
  rw [isWordAt, decide_eq_true hle, Bool.true_and, ← stands.before, stands.drop]
  rfl

end Spot

/-- The code characters of a text that follow one of them are those that are read from it on. -/
theorem mem_lexAt_of_lt {s t : Spot} (hs : s ∈ (lex text).spots) (ht : t ∈ (lex text).spots)
    (lt : s.pos < t.pos) : t ∈ (lexAt text s.pos).spots := by
  obtain ⟨earlier, hlex, -, hbefore⟩ := @exists_cut text 0 _ (beginsAt_of_mem_spots hs)
  rw [lexAt_zero] at hlex
  rw [hlex, Lexed.spots_prepend, List.mem_append] at ht
  exact ht.resolve_left fun member => Nat.lt_asymm lt (hbefore t member)

/-- An end without blanks stands behind a character that is no blank. -/
theorem exists_solid_of_lt_trimmedEnd (lt : start < trimmedEnd text start stop) :
    ∃ c, charBefore text (trimmedEnd text start stop) = some c ∧ isBlank c = false := by
  have hstop : start < stop := Nat.lt_of_lt_of_le lt (trimmedEnd_le ..)
  rw [trimmedEnd, if_pos hstop, trimRight_eq_rdropWhile] at lt ⊢
  have hne : (text.take stop).rdropWhile isBlank ≠ [] := List.ne_nil_of_length_pos (by omega)
  have hsolid := List.rdropWhile_last_not isBlank _ hne
  obtain ⟨back, hback⟩ := (List.rdropWhile_prefix isBlank (text.take stop)).trans
    (List.take_prefix stop text)
  refine ⟨_, ?_, Bool.not_eq_true _ ▸ hsolid⟩
  rw [← List.getLast?_eq_getLast_of_ne_nil hne]
  generalize (text.take stop).rdropWhile isBlank = front at hback ⊢
  rw [← hback]
  exact charBefore_append_length front back

/-- Anonymous functions begin where their word stands in code. -/
theorem mem_lambdaStarts_iff {k : Nat} :
    k ∈ lambdaStarts (lex text).spots ↔
      ∃ s ∈ (lex text).spots, s.pos = k ∧ isWordAt text k lambdaWord = true := by
  unfold lambdaStarts
  rw [List.mem_map]
  refine exists_congr fun s => ?_
  rw [List.mem_filter, and_assoc, and_congr_right_iff]
  intro member
  rw [(standsIn_of_mem_lexFrom rfl rfl member).2.startsWord_eq, and_comm]
  exact and_congr_right fun hpos => by rw [hpos]

theorem pairwise_lambdaStarts (text : List Char) :
    (lambdaStarts (lex text).spots).Pairwise (· < ·) :=
  List.pairwise_map.mpr ((pairwise_lexAt text 0).filter _)

/-! ### Spans -/

/-- An anonymous function spans a part of a text: it begins with its word and ends with a character that
is no blank, and no comment stands in it. -/
structure LambdaSpan (text : List Char) (start stop : Nat) : Prop where
  ends : expressionEnd text start 0 = .ok stop
  word : lambdaWord <+: slice text start stop
  solid : (slice text start stop).getLast?.any (!isBlank ·) = true
  uncommented : ∀ i length, .comment i length ∈ (lex text).pieces → i < start ∨ stop ≤ i
  commentFree : CommentFree (slice text start stop)

theorem lambdaSpan_of_mem {s : Spot} (member : s ∈ (lex text).spots)
    (word : s.startsWord lambdaWord = true) (ends : expressionEnd text s.pos 0 = .ok stop) :
    LambdaSpan text s.pos stop := by
  have cut : CutOut text s.pos stop := cutOut_of_lambda member word ends
  obtain ⟨-, hstop⟩ := expressionEnd_eq_ok_iff.mp ends
  have hlimit : stop ≤ expressionLimit text s.pos 0 := hstop ▸ trimmedEnd_le ..
  refine ⟨ends, (Segments.beginsWith_iff.mp (beginsWith_slice member word ends)).1, ?_,
    fun i length comment => ?_, cut.lex_slice.2⟩
  · obtain ⟨c, hlast, hsolid⟩ := exists_solid_of_lt_trimmedEnd (hstop ▸ cut.lt)
    rw [getLast?_slice cut.lt cut.le_length, hstop, hlast, Option.any_some, hsolid]
    rfl
  · obtain ⟨earlier, hlex, hfront, -⟩ := @exists_cut text 0 _ (beginsAt_of_mem_spots member)
    rw [lexAt_zero] at hlex
    rw [hlex, Lexed.prepend, List.mem_append] at comment
    rcases comment with hbefore | hbehind
    · exact .inl (hfront _ hbefore)
    · exact .inr (Nat.le_trans hlimit (expressionLimit_le_comment hbehind))

/-- An anonymous function that begins inside another one ends inside it. -/
theorem stop_le_or_stop_le {s t : Spot} {stop' : Nat} (hs : s ∈ (lex text).spots)
    (ht : t ∈ (lex text).spots) (lt : s.pos < t.pos) (outer : LambdaSpan text s.pos stop)
    (inner : LambdaSpan text t.pos stop') : stop ≤ t.pos ∨ stop' ≤ stop := by
  obtain ⟨-, rfl⟩ := expressionEnd_eq_ok_iff.mp outer.ends
  obtain ⟨-, rfl⟩ := expressionEnd_eq_ok_iff.mp inner.ends
  rw [or_iff_not_imp_left, Nat.not_le]
  intro inside
  have hbegins := Nat.lt_of_lt_of_le inside (trimmedEnd_le ..)
  have hlimit := expressionLimit_inside (mem_lexAt_of_lt hs ht lt) hbegins (Int.le_refl 0)
  rcases Nat.lt_or_ge t.pos (trimmedEnd text t.pos (expressionLimit text t.pos 0)) with hlt | hge
  · -- The last character of the inner one stands in front of the limit of the outer one.
    obtain ⟨c, hlast, hsolid⟩ := exists_solid_of_lt_trimmedEnd hlt
    have hle := trimmedEnd_le text t.pos (expressionLimit text t.pos 0)
    generalize trimmedEnd text t.pos (expressionLimit text t.pos 0) = stop' at *
    obtain ⟨last, rfl⟩ := Nat.exists_eq_succ_of_ne_zero (Nat.ne_zero_of_lt hlt)
    exact lt_trimmedEnd hlast hsolid (by omega) (by omega)
  · omega

/-- The anonymous functions that are found in a text are a family of nested spans, if none of them fails.
The spans begin where the word of an anonymous function stands in code, and there is one for each such
place, in order; and of two spans that have something in common one contains the other. -/
theorem spans_nested {found : List (List Char)}
    (complete : (LambdaExpressions.ofText text).complete = .ok found) :
    ∃ spans : List (Nat × Nat),
      found = spans.map (fun span => slice text span.1 span.2) ∧
      (∀ k, k ∈ spans.map Prod.fst ↔
        ∃ s ∈ (lex text).spots, s.pos = k ∧ isWordAt text k lambdaWord = true) ∧
      (∀ span ∈ spans, LambdaSpan text span.1 span.2) ∧
      spans.Pairwise fun earlier later => earlier.1 < later.1 ∧
        (earlier.2 ≤ later.1 ∨ later.2 ≤ earlier.2) := by
  obtain ⟨failure, hfound⟩ : (LambdaExpressions.ofText text).failure = none ∧
      (LambdaExpressions.ofText text).found = found := by
    unfold LambdaExpressions.complete at complete
    split at complete
    · exact ⟨‹_›, Except.ok.inj complete⟩
    · cases complete
  obtain ⟨stop, ends, hall⟩ := LambdaExpressions.found_of_complete failure
  have hspan (s : Spot) (hs : s ∈ (lex text).spots) (word : s.startsWord lambdaWord = true) :
      LambdaSpan text s.pos (stop s.pos) := by
    refine lambdaSpan_of_mem hs word (ends s.pos ?_)
    exact List.mem_map_of_mem (List.mem_filter.mpr ⟨hs, word⟩)
  refine ⟨(lambdaStarts (lex text).spots).map fun k => (k, stop k), ?_, fun k => ?_, ?_, ?_⟩
  · rw [← hfound, List.map_map]
    exact hall
  · rw [← mem_lambdaStarts_iff, List.map_map]
    exact iff_of_eq (congrArg (k ∈ ·) (List.map_id _))
  · rw [List.forall_mem_map]
    intro k hk
    obtain ⟨s, hs, rfl⟩ := List.mem_map.mp hk
    obtain ⟨hs, word⟩ := List.mem_filter.mp hs
    exact hspan s hs word
  · rw [List.pairwise_map]
    refine (pairwise_lambdaStarts text).imp_of_mem fun hj hk lt => ⟨lt, ?_⟩
    obtain ⟨s, hs, rfl⟩ := List.mem_map.mp hj
    obtain ⟨t, ht, rfl⟩ := List.mem_map.mp hk
    obtain ⟨hs, word⟩ := List.mem_filter.mp hs
    obtain ⟨ht, word'⟩ := List.mem_filter.mp ht
    exact stop_le_or_stop_le hs ht lt (hspan s hs word) (hspan t ht word')

/-- Two anonymous functions in a call: another one stands in the default value of the first one, and
the second one is cut short by a comment inside its brackets, behind which there is another one. -/
theorem spans_nested_call :
    let text := "f(lambda x=lambda: 0: x, lambda: [1,  # one\n lambda: 2])".toList
    let found := ["lambda x=lambda: 0: x".toList, "lambda: 0".toList, "lambda: [1,".toList,
      "lambda: 2".toList]
    (LambdaExpressions.ofText text).complete = .ok found ∧
    ∃ spans : List (Nat × Nat), found = spans.map (fun span => slice text span.1 span.2) ∧
      (∀ span ∈ spans, LambdaSpan text span.1 span.2) ∧
      spans.Pairwise fun earlier later => earlier.1 < later.1 ∧
        (earlier.2 ≤ later.1 ∨ later.2 ≤ earlier.2) := by
  intro text found
  have complete : (LambdaExpressions.ofText text).complete = .ok found :=
    eq_ok_of_toOption (by decide +kernel)
  obtain ⟨spans, hfound, -, hspans, hnested⟩ := spans_nested complete
  exact ⟨complete, spans, hfound, hspans, hnested⟩

end CallableKinds

import CallableKinds.Proofs.Isolation
import CallableKinds.Proofs.Nested

/-!
# Isolating what was isolated

The expression of an anonymous function that was cut out of a statement is a statement of its own. The
first anonymous function in it is the expression as a whole, and those inside it are among those of the
statement. So what is taken of the expression is the expression.
-/

namespace CallableKinds

variable {text : List Char}

/-! ### Anonymous functions inside one -/

/-- Two spots of a text at one position are the same. -/
theorem Spot.StandsIn.unique {s t : Spot} (hs : s.StandsIn text) (ht : t.StandsIn text)
    (same : s.pos = t.pos) : s = t := by
  have hdrop := hs.drop
  rw [same, ht.drop, List.cons.injEq] at hdrop
  have hbefore := hs.before
  rw [same, ← ht.before] at hbefore
  cases s
  cases t
  simp_all

/-- No expression stops at the word of an anonymous function, so an expression that begins there has an
end behind it. -/
theorem cutOut_of_lambda {s : Spot} {stop : Nat} (member : s ∈ (lex text).spots)
    (word : s.startsWord lambdaWord = true) (ends : expressionEnd text s.pos 0 = .ok stop) :
    CutOut text s.pos stop := by
  have hstands : s.StandsIn text := (standsIn_of_mem_lexFrom rfl rfl member).2
  have hchar : s.char = 'l' := char_of_startsWord word
  have hgoes : ¬ StopsAt 0 0 s := by
    rintro ⟨-, hclosing | hline | hstop | ⟨-, hstop | hstop | hfor⟩⟩
    · rw [hchar] at hclosing
      cases hclosing
    · exact absurd (hchar.symm.trans (char_of_endsLine hline)) (by decide)
    · exact absurd (hchar.symm.trans hstop) (by decide)
    · exact absurd (hchar.symm.trans hstop) (by decide)
    · exact absurd (hchar.symm.trans hstop) (by decide)
    · exact absurd (hchar.symm.trans (char_of_startsWord hfor)) (by decide)
  have hlimit := lt_expressionLimit_of_goes hstands (by rw [hchar]; decide) hgoes
  refine ⟨ends, ?_, ?_, ?_⟩
  · obtain ⟨-, rfl⟩ := expressionEnd_eq_ok_iff.mp ends
    exact lt_trimmedEnd hstands.getElem? (by rw [hchar]; decide) (Nat.le_refl _) hlimit
  · rw [hstands.getElem?, hchar]
    rfl
  · rw [← hstands.before]
    exact before_of_startsWord word

/-- An expression that is cut out at the word of an anonymous function begins with that word. -/
theorem CutOut.exists_spots {s : Spot} {stop : Nat} (cut : CutOut text s.pos stop)
    (member : s ∈ (lex text).spots) (word : s.startsWord lambdaWord = true) :
    ∃ t rest, (lex (slice text s.pos stop)).spots = t :: rest ∧ t.pos = 0 ∧
      t.startsWord lambdaWord = true := by
  have hstands : s.StandsIn text := (standsIn_of_mem_lexFrom rfl rfl member).2
  have hchar : s.char = 'l' := char_of_startsWord word
  have hslice := slice_eq_cons cut.lt hstands.getElem?
  have hlex := @lexAt_of_character (slice text s.pos stop) 0 _ _ hslice (by rw [hchar]; decide)
  have hspots := congrArg Lexed.spots hlex
  rw [lexAt_zero, Lexed.spots_cons_code] at hspots
  refine ⟨_, _, hspots, rfl, ?_⟩
  obtain ⟨s', hs', hsame⟩ := cut.exists_spot (hspots ▸ List.mem_cons_self)
  have heq : s' = s := (standsIn_of_mem_lexAt hs').2.unique hstands (hsame.pos.trans (Nat.zero_add _))
  rw [← hsame.startsWord lambdaWord (by decide) letters_lambdaWord, heq]
  exact word

/-! ### What is found -/

namespace LambdaExpressions

variable {unclosed : Option (List Char)} {spots : List Spot} {expression : List Char}

/-- What is found is the expression of an anonymous function. -/
theorem exists_of_mem_starting (member : expression ∈ (starting text unclosed spots).found) :
    ∃ s ∈ spots, s.startsWord lambdaWord = true ∧
      ∃ stop, expressionEnd text s.pos 0 = .ok stop ∧ expression = slice text s.pos stop := by
  induction spots with
  | nil => cases member
  | cons s rest ih =>
      have hlater (member : expression ∈ (starting text unclosed rest).found) :
          ∃ t ∈ s :: rest, t.startsWord lambdaWord = true ∧
            ∃ stop, expressionEnd text t.pos 0 = .ok stop ∧ expression = slice text t.pos stop := by
        obtain ⟨t, ht, hfound⟩ := ih member
        exact ⟨t, List.mem_cons_of_mem s ht, hfound⟩
      rw [starting] at member
      split at member
      next word =>
          cases hend : expressionEnd text s.pos 0 with
          | error fault =>
              rw [hend] at member
              cases member
          | ok stop =>
              rw [hend] at member
              rcases List.mem_cons.mp member with rfl | member
              · exact ⟨s, List.mem_cons_self, word, stop, hend, rfl⟩
              · exact hlater member
      next => exact hlater member

/-- If nothing fails, each anonymous function has an end. -/
theorem ends_of_complete (complete : (starting text unclosed spots).failure = none) :
    unclosed = none ∧ ∀ k ∈ lambdaStarts spots, ∃ stop, expressionEnd text k 0 = .ok stop := by
  induction spots with
  | nil => exact ⟨Option.map_eq_none_iff.mp complete, List.forall_mem_nil _⟩
  | cons s rest ih =>
      rw [starting] at complete
      rw [lambdaStarts_cons]
      split at complete
      next word =>
          rw [if_pos word]
          cases hend : expressionEnd text s.pos 0 with
          | error fault =>
              rw [hend] at complete
              cases complete
          | ok stop =>
              rw [hend] at complete
              obtain ⟨hclosed, hrest⟩ := ih complete
              exact ⟨hclosed, List.forall_mem_cons.mpr ⟨⟨stop, hend⟩, hrest⟩⟩
      next word =>
          rw [if_neg word]
          exact ih complete

/-- If nothing fails, what is found are the expressions of all anonymous functions. -/
theorem found_of_complete (complete : (starting text unclosed spots).failure = none) :
    ∃ stop : Nat → Nat, (∀ k ∈ lambdaStarts spots, expressionEnd text k 0 = .ok (stop k)) ∧
      (starting text unclosed spots).found =
        (lambdaStarts spots).map fun k => slice text k (stop k) := by
  obtain ⟨hclosed, ends⟩ := ends_of_complete complete
  choose! stop ends using ends
  exact ⟨stop, ends, by rw [hclosed, starting_of_ends ends]⟩

theorem mem_starting {s : Spot} {stop : Nat} (complete : (starting text unclosed spots).failure = none)
    (member : s ∈ spots) (word : s.startsWord lambdaWord = true)
    (ends : expressionEnd text s.pos 0 = .ok stop) :
    slice text s.pos stop ∈ (starting text unclosed spots).found := by
  obtain ⟨stop', hstop', hfound⟩ := found_of_complete complete
  have hstart : s.pos ∈ lambdaStarts spots := List.mem_map_of_mem (List.mem_filter.mpr ⟨member, word⟩)
  obtain rfl : stop' s.pos = stop := Except.ok.inj ((hstop' _ hstart).symm.trans ends)
  exact hfound ▸ List.mem_map_of_mem hstart

end LambdaExpressions

theorem of_withNames_eq_some {names : List (List Char)} {found : List (List Char)}
    {expression : List Char} (some : withNames names found = .ok (some expression)) :
    expression ∈ found ∧ headerNames expression = .ok names := by
  induction found with
  | nil => cases some
  | cons first rest ih =>
      obtain ⟨header, hheader, hnext⟩ := ok_of_bind some
      split at hnext
      next hsame =>
          cases hnext
          exact ⟨List.mem_cons_self, hsame ▸ hheader⟩
      next =>
          obtain ⟨member, hnames⟩ := ih hnext
          exact ⟨List.mem_cons_of_mem first member, hnames⟩

theorem withNames_eq_none_iff {names : List (List Char)} {found : List (List Char)} :
    withNames names found = .ok none ↔
      ∀ expression ∈ found, ∃ header, headerNames expression = .ok header ∧ header ≠ names := by
  induction found with
  | nil => simp [withNames]
  | cons first rest ih =>
      rw [withNames, List.forall_mem_cons, ← ih]
      cases headerNames first with
      | error fault => simp [bind, Except.bind]
      | ok header =>
          by_cases hsame : header = names <;> simp [bind, Except.bind, hsame, pure, Except.pure]

/-- What is taken of a text is the text itself, if it has no anonymous functions; or the expression of
one of them, which has the names, or no expression has them. -/
theorem isolateLambda_cases {names : Option (List (List Char))} {expression : List Char}
    (isolated : isolateLambda text names = .ok expression) :
    expression = text ∧ LambdaExpressions.ofText text = ⟨[], none⟩ ∨
      expression ∈ (LambdaExpressions.ofText text).found ∧
        ∀ expected ∈ names, headerNames expression = .ok expected ∨
          (LambdaExpressions.ofText text).failure = none ∧
            withNames expected (LambdaExpressions.ofText text).found = .ok none := by
  unfold isolateLambda at isolated
  generalize LambdaExpressions.ofText text = es at *
  obtain ⟨found, failure⟩ := es
  have hcomplete (complete :
      (LambdaExpressions.complete ⟨found, failure⟩ >>= fun es => pure (es.headD text)) =
        .ok expression) : failure = none ∧ (expression = text ∧ found = [] ∨ expression ∈ found) := by
    obtain ⟨all, hall, hhead⟩ := ok_of_bind complete
    cases failure with
    | some fault => cases hall
    | none =>
        cases hall
        cases hhead
        cases found with
        | nil => exact ⟨rfl, .inl ⟨rfl, rfl⟩⟩
        | cons first rest => exact ⟨rfl, .inr List.mem_cons_self⟩
  cases names with
  | none =>
      cases found with
      | nil =>
          obtain ⟨rfl, hfound⟩ := hcomplete isolated
          exact hfound.imp (And.imp_right fun _ => rfl) fun member => ⟨member, nofun⟩
      | cons first rest =>
          cases isolated
          exact .inr ⟨List.mem_cons_self, nofun⟩
  | some expected =>
      obtain ⟨result, hwith, hnext⟩ := ok_of_bind isolated
      cases result with
      | some first =>
          cases hnext
          obtain ⟨member, hheader⟩ := of_withNames_eq_some hwith
          refine .inr ⟨member, ?_⟩
          rintro _ ⟨⟩
          exact .inl hheader
      | none =>
          obtain ⟨rfl, hfound⟩ := hcomplete hnext
          refine hfound.imp (And.imp_right ?_) fun member => ⟨member, ?_⟩
          · rintro rfl
            rfl
          · rintro _ ⟨⟩
            exact .inr ⟨rfl, hwith⟩

/-! ### Once more -/

/-- A part of a part of a text is a part of the text. -/
theorem slice_slice {start stop i j : Nat} (le : start + j ≤ stop) :
    slice (slice text start stop) i j = slice text (start + i) (start + j) := by
  rw [slice, slice, slice, List.drop_take, List.drop_drop, List.take_take]
  congr 1
  omega

/-- The code characters behind a code character of a text are code characters of the text. -/
theorem mem_spots_of_mem {s t : Spot} (member : s ∈ (lex text).spots)
    (behind : t ∈ (lexAt text s.pos).spots) : t ∈ (lex text).spots := by
  obtain ⟨p, hp, hspot⟩ := List.mem_filterMap.mp behind
  exact List.mem_filterMap.mpr ⟨p, (@lexAt_of_mem_spots text 0 s member).2 p hp, hspot⟩

/-- An anonymous function in an expression that was cut out is one of the text. -/
theorem CutOut.exists_lambda {s : Spot} {stop k : Nat} (cut : CutOut text s.pos stop)
    (member : s ∈ (lex text).spots) (start : k ∈ lambdaStarts (lex (slice text s.pos stop)).spots) :
    ∃ t ∈ (lex text).spots, t.startsWord lambdaWord = true ∧ t.pos = s.pos + k := by
  obtain ⟨t, ht, rfl⟩ := List.mem_map.mp start
  obtain ⟨hspot, word⟩ := List.mem_filter.mp ht
  obtain ⟨t', ht', hsame⟩ := cut.exists_spot hspot
  refine ⟨t', mem_spots_of_mem member ht', ?_, hsame.pos.trans (Nat.add_comm ..)⟩
  rw [hsame.startsWord lambdaWord (by decide) letters_lambdaWord]
  exact word

/-- The anonymous functions in an expression that was cut out end there where they do in the text. -/
theorem CutOut.exists_ends {start stop : Nat} (cut : CutOut text start stop) :
    ∃ ends : Nat → Nat, ∀ k ∈ lambdaStarts (lex (slice text start stop)).spots,
      expressionEnd (slice text start stop) k 0 = .ok (ends k) ∧
        expressionEnd text (start + k) 0 = .ok (start + ends k) := by
  have hends (k : Nat) (hk : k ∈ lambdaStarts (lex (slice text start stop)).spots) :
      ∃ m, expressionEnd (slice text start stop) k 0 = .ok m ∧
        expressionEnd text (start + k) 0 = .ok (start + m) := by
    obtain ⟨t, ht, rfl⟩ := List.mem_map.mp hk
    obtain ⟨hspot, word⟩ := List.mem_filter.mp ht
    exact cut.expressionEnd_slice hspot (by rw [char_of_startsWord word]; decide)
  choose! ends hends using hends
  exact ⟨ends, hends⟩

/-- The anonymous functions in an expression that was cut out are found there: the first one is the
expression as a whole, and each of them is an expression of the text. -/
theorem CutOut.exists_ofText {s : Spot} {stop : Nat} (cut : CutOut text s.pos stop)
    (member : s ∈ (lex text).spots) (word : s.startsWord lambdaWord = true) :
    ∃ rest, LambdaExpressions.ofText (slice text s.pos stop) =
        ⟨slice text s.pos stop :: rest, none⟩ ∧
      ∀ expression ∈ slice text s.pos stop :: rest, ∃ t ∈ (lex text).spots,
        t.startsWord lambdaWord = true ∧
          ∃ stop', expressionEnd text t.pos 0 = .ok stop' ∧ expression = slice text t.pos stop' := by
  obtain ⟨first, spots, hspots, hfirst, hword⟩ := cut.exists_spots member word
  obtain ⟨hclosed, -⟩ := cut.lex_slice
  obtain ⟨-, -, hlength⟩ := cut.parts
  obtain ⟨ends, hends⟩ := cut.exists_ends
  have hknown : LambdaExpressions.ofText (slice text s.pos stop) =
      ⟨(lambdaStarts (lex (slice text s.pos stop)).spots).map fun k =>
        slice (slice text s.pos stop) k (ends k), none⟩ := by
    rw [LambdaExpressions.ofText, hclosed]
    exact starting_of_ends fun k hk => (hends k hk).1
  have hstarts : lambdaStarts (lex (slice text s.pos stop)).spots = 0 :: lambdaStarts spots := by
    rw [hspots, lambdaStarts_cons, if_pos hword, hfirst]
  -- The expression that begins the one that was cut out is that one.
  have hwhole : slice (slice text s.pos stop) 0 (ends 0) = slice text s.pos stop := by
    have hend := (hends 0 (hstarts ▸ List.mem_cons_self)).2
    rw [Nat.add_zero, cut.ends, Except.ok.injEq] at hend
    have hends0 : ends 0 = (slice text s.pos stop).length := by omega
    rw [hends0, slice, List.drop_zero, Nat.sub_zero, List.take_length]
  have hmap : (lambdaStarts (lex (slice text s.pos stop)).spots).map (fun k =>
      slice (slice text s.pos stop) k (ends k)) = slice text s.pos stop ::
        (lambdaStarts spots).map fun k => slice (slice text s.pos stop) k (ends k) := by
    rw [hstarts, List.map_cons, hwhole]
  refine ⟨_, hmap ▸ hknown, fun expression hexpression => ?_⟩
  rw [← hmap] at hexpression
  obtain ⟨k, hk, rfl⟩ := List.mem_map.mp hexpression
  obtain ⟨hinner, houter⟩ := hends k hk
  obtain ⟨t, ht, hlambda, hpos⟩ := cut.exists_lambda member hk
  have hinside := stop_le_length hinner
  rw [slice_slice (by omega), ← hpos]
  exact ⟨t, ht, hlambda, _, hpos ▸ houter, rfl⟩

/-- Isolation is idempotent: what was taken of a text is taken of it as a whole. -/
theorem isolateLambda_idempotent {names : Option (List (List Char))} {expression : List Char}
    (isolated : isolateLambda text names = .ok expression) :
    isolateLambda expression names = .ok expression := by
  rcases isolateLambda_cases isolated with ⟨rfl, -⟩ | ⟨found, hnames⟩
  · exact isolated
  obtain ⟨s, member, word, stop, ends, rfl⟩ := LambdaExpressions.exists_of_mem_starting found
  obtain ⟨rest, hfound, hinner⟩ := (cutOut_of_lambda member word ends).exists_ofText member word
  rw [isolateLambda_of_ofText hfound]
  cases names with
  | none => rfl
  | some expected =>
      rw [Option.elim_some]
      rcases hnames expected rfl with hheader | ⟨hfailure, hnone⟩
      · rw [withNames, hheader]
        change Except.map _ (if expected = expected then _ else _) = _
        rw [if_pos rfl]
        rfl
      · have hnone' : withNames expected (slice text s.pos stop :: rest) = .ok none := by
          rw [withNames_eq_none_iff] at hnone ⊢
          intro expression hexpression
          obtain ⟨t, ht, hword, stop', hstop', rfl⟩ := hinner expression hexpression
          exact hnone _ (LambdaExpressions.mem_starting hfailure ht hword hstop')
        rw [hnone']
        rfl

/-- The second one of two anonymous functions, with another one inside it, in front of a comment. -/
theorem isolateLambda_idempotent_nested :
    isolateLambda "f(lambda x: 0, lambda y: [lambda x: x, y])  # x".toList (some [['y']]) =
        .ok "lambda y: [lambda x: x, y]".toList ∧
      isolateLambda "lambda y: [lambda x: x, y]".toList (some [['y']]) =
        .ok "lambda y: [lambda x: x, y]".toList := by
  have isolated : isolateLambda "f(lambda x: 0, lambda y: [lambda x: x, y])  # x".toList
      (some [['y']]) = .ok "lambda y: [lambda x: x, y]".toList :=
    eq_ok_of_toOption (by decide +kernel)
  exact ⟨isolated, isolateLambda_idempotent isolated⟩

end CallableKinds

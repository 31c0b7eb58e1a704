import CallableKinds.Proofs.Excerpts

/-!
# Nested expressions

An expression that begins inside another one ends inside it: whatever ends the outer expression ends the
inner one, if that did not end before. Cut out of the text, the outer expression is complete; read on
its own it ends with its last character, and the inner expressions end where they do in the text.
-/

namespace CallableKinds

variable {text : List Char} {start stop k : Nat} {headers : Int}

/-! ### An expression inside another one -/

/-- An inner expression has no more brackets open than the outer one, and if it has as many, then no
more headers. -/
structure Inside (inner outer : Nat × Int) : Prop where
  depth : inner.1 ≤ outer.1
  nonneg : 0 ≤ inner.2
  headers : inner.1 = outer.1 → inner.2 ≤ outer.2

namespace Inside

variable {inner inner' outer outer' : Nat × Int}

/-- What stops the outer expression stops the inner one. -/
theorem stopsAt {s : Spot} (inside : Inside inner outer) (stops : StopsAt outer.1 outer.2 s) :
    StopsAt inner.1 inner.2 s := by
  obtain ⟨hlevel, hstops⟩ := stops
  have hdepth : inner.1 = 0 := by
    have := inside.depth
    omega
  have hheaders := inside.headers (hdepth.trans hlevel.symm)
  have hnonneg := inside.nonneg
  refine ⟨hdepth, hstops.imp_right (Or.imp_right (Or.imp_right fun h => ⟨?_, h.2⟩))⟩
  omega

/-- A character that is read by both expressions leaves the inner one inside the outer one. -/
theorem step {s : Spot} (inside : Inside inner outer)
    (hinner : expressionStep inner.1 inner.2 s = some inner')
    (houter : expressionStep outer.1 outer.2 s = some outer') : Inside inner' outer' := by
  obtain ⟨hdepth, hheaders, -⟩ := of_expressionStep hinner
  obtain ⟨hdepth', hheaders', -⟩ := of_expressionStep houter
  have hle := inside.depth
  refine ⟨by omega, headers_nonneg_of_expressionStep inside.nonneg hinner, fun same => ?_⟩
  have hsame : inner.1 = outer.1 := by omega
  have := inside.headers hsame
  rw [hheaders, hheaders', hsame]
  omega

/-- The inner expression stops where the outer one does, or in front of that. -/
theorem exists_expressionStop {spots : List Spot} {limit : Nat} (inside : Inside inner outer)
    (sorted : spots.Pairwise fun s t => s.pos < t.pos)
    (found : expressionStop outer.1 outer.2 spots = some limit) :
    ∃ stop ≤ limit, expressionStop inner.1 inner.2 spots = some stop := by
  induction spots generalizing inner outer with
  | nil => cases found
  | cons s rest ih =>
      obtain ⟨hfirst, hrest⟩ := List.pairwise_cons.mp sorted
      rw [expressionStop_cons] at found ⊢
      cases hinner : expressionStep inner.1 inner.2 s with
      | none =>
          refine ⟨s.pos, ?_, rfl⟩
          cases houter : expressionStep outer.1 outer.2 s with
          | none =>
              rw [houter] at found
              exact Nat.le_of_eq (Option.some.inj found)
          | some outer' =>
              rw [houter] at found
              obtain ⟨t, member, rfl⟩ := exists_of_expressionStop found
              exact Nat.le_of_lt (hfirst t member)
      | some inner' =>
          cases houter : expressionStep outer.1 outer.2 s with
          | none =>
              have hstops := inside.stopsAt (expressionStep_eq_none_iff.mp houter)
              rw [expressionStep_eq_none_iff.mpr hstops] at hinner
              cases hinner
          | some outer' =>
              rw [houter] at found
              exact ih (inside.step hinner houter) hrest found

end Inside

/-- A text that is cut where a piece of it begins has the pieces behind the cut, and others that begin in
front of it. -/
theorem exists_cut (begins : (lexAt text start).BeginsAt k) :
    ∃ earlier, lexAt text start = (lexAt text k).prepend earlier ∧
      (∀ p ∈ earlier, p.start < k) ∧ ∀ s ∈ earlier.filterMap Piece.spot?, s.pos < k := by
  obtain ⟨earlier, hlex, houtline, -⟩ := lexAt_cut begins
  obtain ⟨p, member, rfl⟩ := begins
  have hle := (start_of_mem_lexFrom member).1
  have hstart : ∀ q ∈ earlier, q.start < p.start := by
    intro q hq
    have hbare : q.bare ∈ (lexAt (text.take p.start) start).outline := by
      rw [houtline]
      exact List.mem_map_of_mem hq
    obtain ⟨r, hr, hsame⟩ := List.mem_map.mp hbare
    have hlt := (start_of_mem_lexFrom hr).2
    have hstarts : r.start = q.start := by
      rw [← Piece.start_bare, hsame, Piece.start_bare]
    rw [hstarts, List.length_drop, List.length_take] at hlt
    omega
  refine ⟨earlier, hlex, hstart, fun s hs => ?_⟩
  obtain ⟨q, hq, hspot⟩ := List.mem_filterMap.mp hs
  cases q with
  | code t =>
      cases hspot
      exact hstart _ hq
  | _ => cases hspot

theorem beginsAt_of_mem_spots {s : Spot} (member : s ∈ (lexAt text start).spots) :
    (lexAt text start).BeginsAt s.pos :=
  beginsAt_of_mem_items (List.mem_map_of_mem (f := Spot.item) member)

/-- From one of its code characters on a text is lexed as it was lexed up to there. -/
theorem lexAt_of_mem_spots {s : Spot} (member : s ∈ (lexAt text start).spots) :
    (lexAt text s.pos).unclosed = (lexAt text start).unclosed ∧
      ∀ p ∈ (lexAt text s.pos).pieces, p ∈ (lexAt text start).pieces := by
  obtain ⟨earlier, hlex, -⟩ := exists_cut (beginsAt_of_mem_spots member)
  rw [hlex]
  exact ⟨rfl, fun p hp => List.mem_append_right earlier hp⟩

theorem terminator_le_length (text : List Char) (start : Nat) (headers : Int) :
    terminator text start headers ≤ text.length := by
  rw [terminator]
  cases hstop : expressionStop 0 headers (lexAt text start).spots with
  | none => exact Nat.le_refl _
  | some k =>
      obtain ⟨s, member, rfl⟩ := exists_of_expressionStop hstop
      exact Nat.le_of_lt (List.getElem?_eq_some_iff.mp (standsIn_of_mem_lexAt member).2.getElem?).1

/-- The terminator of an expression is that of an inner one at the latest. -/
theorem terminator_inside {s : Spot} (member : s ∈ (lexAt text start).spots)
    (lt : s.pos < terminator text start headers) (nonneg : 0 ≤ headers) :
    terminator text s.pos 0 ≤ terminator text start headers ∧
      (HasEnd text start headers → HasEnd text s.pos 0) := by
  obtain ⟨earlier, hlex, -, hfront⟩ := exists_cut (beginsAt_of_mem_spots member)
  have hspots := congrArg Lexed.spots hlex
  rw [Lexed.spots_prepend] at hspots
  rw [terminator] at lt
  cases hread : readExpression 0 headers (earlier.filterMap Piece.spot?) with
  | none =>
      obtain ⟨t, ht, hstop⟩ := exists_of_readExpression_eq_none hread
      rw [hspots, hstop, Option.getD_some] at lt
      exact absurd (hfront t ht) (Nat.lt_asymm lt)
  | some outer =>
      have hstop : expressionStop 0 headers (lexAt text start).spots =
          expressionStop outer.1 outer.2 (lexAt text s.pos).spots := by
        rw [hspots, expressionStop_append hread]
      have inside : Inside (0, 0) outer :=
        ⟨Nat.zero_le _, Int.le_refl 0, fun _ => headers_nonneg_of_readExpression nonneg hread⟩
      cases hlimit : expressionStop outer.1 outer.2 (lexAt text s.pos).spots with
      | none =>
          rw [hlimit] at hstop
          have hterminator : terminator text start headers = text.length := by
            rw [terminator, hstop, Option.getD_none]
          refine ⟨hterminator ▸ terminator_le_length .., fun ends => .inr ?_⟩
          rw [HasEnd, hstop, hlex] at ends
          exact ends.resolve_left Bool.false_ne_true
      | some limit =>
          obtain ⟨stop, hle, hinner⟩ := inside.exists_expressionStop (pairwise_lexAt ..) hlimit
          rw [hlimit] at hstop
          have hterminator : terminator text start headers = limit := by
            rw [terminator, hstop, Option.getD_some]
          have hterminator' : terminator text s.pos 0 = stop := by
            rw [terminator, hinner, Option.getD_some]
          rw [hterminator, hterminator']
          exact ⟨hle, fun _ => .inl (by rw [hinner]; rfl)⟩

/-- An inner expression is cut where the outer one is at the latest. -/
theorem expressionLimit_inside {s : Spot} (member : s ∈ (lexAt text start).spots)
    (lt : s.pos < expressionLimit text start headers) (nonneg : 0 ≤ headers) :
    expressionLimit text s.pos 0 ≤ expressionLimit text start headers := by
  obtain ⟨hbefore, hcomments⟩ := lt_expressionLimit_iff.mp lt
  obtain ⟨earlier, hlex, hfront, -⟩ := exists_cut (beginsAt_of_mem_spots member)
  refine Nat.le_of_not_lt fun hlt => ?_
  obtain ⟨hinner, hplain⟩ := lt_expressionLimit_iff.mp hlt
  refine Nat.lt_irrefl _ (lt_expressionLimit_iff.mpr
    ⟨Nat.lt_of_lt_of_le hinner (terminator_inside member hbefore nonneg).1, fun i length hi => ?_⟩)
  have hi' := hi
  rw [hlex, Lexed.prepend, List.mem_append] at hi'
  rcases hi' with hi' | hi'
  · exact absurd (hcomments i length hi) (Nat.lt_asymm (hfront _ hi'))
  · exact hplain i length hi'

/-! ### What is cut out -/

theorem expressionLimit_le_comment {i length : Nat}
    (member : .comment i length ∈ (lexAt text start).pieces) :
    expressionLimit text start headers ≤ i :=
  (le_expressionLimit_iff.mp (Nat.le_refl _)).2 i length member

/-- An expression is cut at a comment, at a character that stops it, or at the end of the text. -/
theorem expressionLimit_cases (ends : HasEnd text start headers) :
    (∃ length, .comment (expressionLimit text start headers) length ∈ (lexAt text start).pieces) ∨
      (∃ s ∈ (lexAt text start).spots, s.pos = expressionLimit text start headers ∧
        ∃ headers', StopsAt 0 headers' s) ∨
      expressionLimit text start headers = text.length ∧ (lexAt text start).unclosed = none := by
  unfold expressionLimit
  cases hcomment : (lexAt text start).firstComment?.filter (· < terminator text start headers) with
  | some comment => exact .inl (of_firstComment? (Option.filter_eq_some_iff.mp hcomment).1).1
  | none =>
      right
      rw [Option.getD_none, terminator]
      cases hstop : expressionStop 0 headers (lexAt text start).spots with
      | some k => exact .inl (exists_stopsAt hstop)
      | none =>
          rw [HasEnd, hstop] at ends
          exact .inr ⟨rfl, ends.resolve_left Bool.false_ne_true⟩

theorem beginsAt_expressionLimit (ends : HasEnd text start headers) :
    (lexAt text start).BeginsAt (expressionLimit text start headers) ∨
      expressionLimit text start headers = text.length ∧ (lexAt text start).unclosed = none := by
  rcases expressionLimit_cases ends with ⟨length, member⟩ | ⟨s, member, hpos, -⟩ | hlimit
  · exact .inl ⟨_, member, rfl⟩
  · exact .inl (hpos ▸ beginsAt_of_mem_spots member)
  · exact .inr hlimit

/-- Up to where an expression is cut the literals are closed and there are no comments. -/
theorem lexAt_take_expressionLimit (ends : HasEnd text start headers) :
    (lexAt (text.take (expressionLimit text start headers)) start).unclosed = none ∧
      (lexAt (text.take (expressionLimit text start headers)) start).CommentFree := by
  have hfree (member : ∀ i length,
      .comment i length ∈ (lexAt (text.take (expressionLimit text start headers)) start).pieces →
        .comment i length ∈ (lexAt text start).pieces) :
      (lexAt (text.take (expressionLimit text start headers)) start).CommentFree := by
    intro p hp
    cases p with
    | comment i length =>
        have hle : expressionLimit text start headers ≤ i :=
          expressionLimit_le_comment (member i length hp)
        obtain ⟨hge, hlt⟩ := start_of_mem_lexFrom hp
        change i < _ at hlt
        change _ ≤ i at hge
        rw [List.length_drop, List.length_take] at hlt
        omega
    | _ => rfl
  rcases beginsAt_expressionLimit ends with hbegins | ⟨hlimit, hclosed⟩
  · obtain ⟨earlier, hlex, houtline, hclosed⟩ := lexAt_cut hbegins
    refine ⟨hclosed, hfree fun i length hp => ?_⟩
    have hbare : .comment i length ∈ earlier.map Piece.bare := by
      rw [← houtline]
      exact List.mem_map_of_mem (f := Piece.bare) hp
    obtain ⟨q, hq, hsame⟩ := List.mem_map.mp hbare
    rw [hlex]
    refine List.mem_append_left _ ?_
    cases q <;> cases hsame
    exact hq
  · have htake : text.take (expressionLimit text start headers) = text := by
      rw [hlimit, List.take_length]
    rw [htake] at hfree ⊢
    exact ⟨hclosed, hfree fun _ _ => id⟩

/-- The code points of the blanks. -/
def blankCodes : List Nat := [9, 10, 11, 12, 13, 28, 29, 30, 31, 32, 0x85, 0xA0, 0x1680, 0x2000, 0x2001,
  0x2002, 0x2003, 0x2004, 0x2005, 0x2006, 0x2007, 0x2008, 0x2009, 0x200A, 0x2028, 0x2029, 0x202F, 0x205F,
  0x3000]

theorem exists_of_isBlank {c : Char} (blank : isBlank c = true) :
    ∃ n ∈ blankCodes, Char.ofNat n = c := by
  refine ⟨c.toNat, ?_, Char.ofNat_toNat c⟩
  simp only [isBlank, Bool.or_eq_true, Bool.and_eq_true, decide_eq_true_eq, beq_iff_eq] at blank
  simp only [blankCodes, List.mem_cons, List.not_mem_nil, or_false]
  omega

/-- A blank is neither part of a word nor a quote. -/
theorem of_isBlank {c : Char} (blank : isBlank c = true) : isWord c = false ∧ isQuote c = false := by
  have hblanks : ∀ n ∈ blankCodes, isWord (Char.ofNat n) = false ∧ isQuote (Char.ofNat n) = false := by
    decide +kernel
  obtain ⟨n, hn, rfl⟩ := exists_of_isBlank blank
  exact hblanks n hn

theorem solid_of_isWord {c : Char} (word : isWord c = true) : isBlank c = false :=
  Bool.eq_false_iff.mpr fun blank => Bool.false_ne_true ((of_isBlank blank).1.symm.trans word)

theorem code_of_isBlank {c : Char} (blank : isBlank c = true) : isQuote c = false ∧ c ≠ '#' :=
  ⟨(of_isBlank blank).2, ne_of_isBlank blank (by decide)⟩

/-- A blank opens and closes no bracket. -/
theorem bracketTurn_of_isBlank {c : Char} (blank : isBlank c = true) : bracketTurn c = 0 := by
  have hblanks : ∀ n ∈ blankCodes, bracketTurn (Char.ofNat n) = 0 := by decide +kernel
  obtain ⟨n, hn, rfl⟩ := exists_of_isBlank blank
  exact hblanks n hn

/-- Blanks open and close no brackets. -/
theorem nesting_of_blank {spots : List Spot} (blank : ∀ s ∈ spots, isBlank s.char = true) :
    nesting spots = 0 := by
  induction spots with
  | nil => rfl
  | cons s rest ih =>
      obtain ⟨hs, hrest⟩ := List.forall_mem_cons.mp blank
      rw [nesting_cons, bracketTurn_of_isBlank hs, ih hrest, Int.add_zero]

theorem getElem?_slice {i j n : Nat} {c : Char} (there : (slice text i j)[n]? = some c) :
    text[i + n]? = some c ∧ i + n < j := by
  rw [slice, List.getElem?_take] at there
  split at there
  next hlt => exact ⟨by rw [← List.getElem?_drop]; exact there, by omega⟩
  next => cases there

/-- What is cut off at the end of an expression is blank. -/
theorem isBlank_of_mem_slice_trimmedEnd {limit : Nat} {c : Char}
    (le : start ≤ trimmedEnd text start limit)
    (member : c ∈ slice text (trimmedEnd text start limit) limit) : isBlank c = true := by
  obtain ⟨n, hn⟩ := List.mem_iff_getElem?.mp member
  obtain ⟨there, hlt⟩ := getElem?_slice hn
  by_contra hsolid
  have hkept : trimmedEnd text start limit + n < trimmedEnd text start limit :=
    lt_trimmedEnd there (by simpa using hsolid) (by omega) hlt
  omega

/-- In an expression that is cut out of a text all literals are closed, and there are no comments. -/
theorem lexAt_take_stop (ends : expressionEnd text start headers = .ok stop) (le : start ≤ stop) :
    (lexAt (text.take stop) start).unclosed = none ∧ (lexAt (text.take stop) start).CommentFree := by
  obtain ⟨hend, hstop⟩ := expressionEnd_eq_ok_iff.mp ends
  obtain ⟨hclosed, hfree⟩ := lexAt_take_expressionLimit hend
  generalize expressionLimit text start headers = limit at *
  have hle : stop ≤ limit := hstop ▸ trimmedEnd_le ..
  have hblank : ∀ c ∈ slice text stop limit, isBlank c = true := by
    intro c member
    subst hstop
    exact isBlank_of_mem_slice_trimmedEnd le member
  have htake {k : Nat} (le : start ≤ k) : lexAt (text.take k) start =
      lexFrom 0 start (charBefore text start) (slice text start k) := by
    rw [lexAt, charBefore_take le, List.drop_take, slice]
  rw [htake (Nat.le_trans le hle), ← slice_append_slice text le hle] at hclosed hfree
  rw [htake le]
  refine ⟨?_, commentFree_front hfree⟩
  rw [Option.eq_none_iff_forall_ne_some]
  intro delimiter hunclosed
  have hquoteless : ∀ q, isQuote q = true → q ∉ slice text stop limit := by
    intro q hq member
    rw [(of_isBlank (hblank q member)).2] at hq
    cases hq
  have hunclosed' := unclosed_lexFrom_append (Nat.zero_le _) hunclosed hquoteless
  rw [hclosed] at hunclosed'
  cases hunclosed'

/-- An expression is stopped by no letter but that of the word of a clause, and by no quote. -/
theorem of_stopsAt {s : Spot} (stops : StopsAt 0 headers s) :
    (isWord s.char = true → s.before.any isWord = false) ∧ isQuote s.char = false := by
  have hplain {c : Char} (hchar : s.char = c) (other : isWord c = false ∧ isQuote c = false) :
      (isWord s.char = true → s.before.any isWord = false) ∧ isQuote s.char = false := by
    rw [hchar]
    refine ⟨fun letter => ?_, other.2⟩
    rw [other.1] at letter
    cases letter
  obtain ⟨-, hclosing | hline | hchar | ⟨-, hchar | hchar | hfor⟩⟩ := stops
  · have hchar : s.char = ')' ∨ s.char = ']' ∨ s.char = '\x7d' := by
      simpa [isClosing, or_assoc] using hclosing
    rcases hchar with hchar | hchar | hchar <;> exact hplain hchar (by decide)
  · exact hplain (char_of_endsLine hline) (by decide)
  · exact hplain hchar (by decide)
  · exact hplain hchar (by decide)
  · exact hplain hchar (by decide)
  · refine ⟨fun _ => before_of_startsWord hfor, ?_⟩
    rw [char_of_startsWord hfor]
    decide

/-- Behind an expression no word goes on and no literal begins. -/
theorem of_getElem?_stop {c : Char} (ends : expressionEnd text start headers = .ok stop)
    (le : start ≤ stop) (there : text[stop]? = some c) :
    (isWord c = true → (charBefore text stop).any isWord = false) ∧ isQuote c = false := by
  obtain ⟨hend, hstop⟩ := expressionEnd_eq_ok_iff.mp ends
  have hlimit : stop ≤ expressionLimit text start headers := hstop ▸ trimmedEnd_le ..
  rcases Nat.eq_or_lt_of_le hlimit with heq | hlt
  · rcases expressionLimit_cases hend with ⟨length, member⟩ | ⟨s, member, hpos, headers', hstops⟩ |
      ⟨hlength, -⟩
    · have hhash := (exists_of_comment member).2.1
      rw [← heq, there, Option.some.injEq] at hhash
      subst hhash
      exact ⟨fun letter => absurd letter (by decide), by decide⟩
    · have hstands := (standsIn_of_mem_lexAt member).2
      have hchar := hstands.getElem?
      rw [hpos, ← heq, there, Option.some.injEq] at hchar
      rw [heq, ← hpos, ← hstands.before, hchar]
      exact of_stopsAt hstops
    · rw [heq, hlength, List.getElem?_eq_none (Nat.le_refl _)] at there
      cases there
  · have hblank : isBlank c = true := by
      by_contra hsolid
      have hkept : stop < trimmedEnd text start (expressionLimit text start headers) :=
        lt_trimmedEnd there (by simpa using hsolid) le hlt
      omega
    obtain ⟨hword, hquote⟩ := of_isBlank hblank
    refine ⟨fun h => ?_, hquote⟩
    rw [hword] at h
    cases h

theorem stop_le_length (ends : expressionEnd text start headers = .ok stop) : stop ≤ text.length := by
  obtain ⟨-, rfl⟩ := expressionEnd_eq_ok_iff.mp ends
  refine Nat.le_trans (trimmedEnd_le ..) (Nat.le_trans ?_ (terminator_le_length text start headers))
  exact (le_expressionLimit_iff.mp (Nat.le_refl _)).1

theorem getLast?_slice (lt : start < stop) (le : stop ≤ text.length) :
    (slice text start stop).getLast? = charBefore text stop := by
  rw [← getLast?_or_charBefore (Nat.le_of_lt lt) le, ← slice]
  have hne : slice text start stop ≠ [] := by
    refine List.ne_nil_of_length_pos ?_
    rw [slice, List.length_take, List.length_drop]
    omega
  rw [List.getLast?_eq_getLast_of_ne_nil hne, Option.some_or]

/-- Blanks are cut off in a part of a text as in the text. -/
theorem trimmedEnd_append {front middle back : List Char} {j n : Nat} {c : Char}
    (there : middle[j]? = some c) (solid : isBlank c = false) (le : n ≤ middle.length) :
    trimmedEnd (front ++ middle ++ back) (front.length + j) (front.length + n) =
      front.length + trimmedEnd middle j n := by
  unfold trimmedEnd
  by_cases hlt : j < n
  · have htake : (front ++ middle ++ back).take (front.length + n) = front ++ middle.take n := by
      rw [List.append_assoc, List.take_length_add_append, List.take_append_of_le_length le]
    have hne : trimRight (middle.take n) ≠ [] := by
      rw [trimRight_eq_rdropWhile, Ne, List.rdropWhile_eq_nil_iff]
      intro blank
      have hc : c ∈ middle.take n := by
        refine List.mem_iff_getElem?.mpr ⟨j, ?_⟩
        rw [List.getElem?_take_of_lt hlt, there]
      rw [blank c hc] at solid
      cases solid
    rw [if_pos hlt, if_pos (by omega), htake, trimRight_append, if_neg hne, List.length_append]
  · rw [if_neg hlt, if_neg (by omega)]

/-- An expression that does not stop at its first character ends behind it. -/
theorem lt_expressionLimit_of_goes {s : Spot} (stands : s.StandsIn text)
    (code : isQuote s.char = false ∧ s.char ≠ '#') (goes : ¬ StopsAt 0 headers s) :
    s.pos < expressionLimit text s.pos headers := by
  have hs : (⟨s.pos, charBefore text s.pos, s.char, s.after⟩ : Spot) = s := by
    rw [← stands.before]
  have hlex := lexAt_of_character stands.drop code
  rw [hs] at hlex
  refine lt_expressionLimit_iff.mpr ⟨?_, fun i length member => ?_⟩
  · rw [terminator, hlex, Lexed.spots_cons_code, expressionStop_cons]
    cases hstep : expressionStep 0 headers s with
    | none => exact absurd (expressionStep_eq_none_iff.mp hstep) goes
    | some next =>
        rw [Option.elim_some]
        cases hfound : expressionStop next.1 next.2 (lexAt text (s.pos + 1)).spots with
        | none => exact (List.getElem?_eq_some_iff.mp stands.getElem?).1
        | some k =>
            obtain ⟨t, member, rfl⟩ := exists_of_expressionStop hfound
            exact (standsIn_of_mem_lexAt member).1
  · rw [hlex, Lexed.pieces_cons, List.mem_cons] at member
    rcases member with hcode | later
    · cases hcode
    · exact (start_of_mem_lexFrom later).1

/-- An expression is cut out of a text between two positions: it ends at the second one if it begins at
the first one, and there it begins with a character that is no blank and does not go on with a word. -/
structure CutOut (text : List Char) (start stop : Nat) : Prop where
  ends : expressionEnd text start 0 = .ok stop
  lt : start < stop
  solid : text[start]?.all (!isBlank ·) = true
  left : (charBefore text start).any isWord = false

namespace CutOut

theorem le_length (cut : CutOut text start stop) : stop ≤ text.length := stop_le_length cut.ends

theorem exists_first (cut : CutOut text start stop) :
    ∃ c, text[start]? = some c ∧ isBlank c = false := by
  have hlt := Nat.lt_of_lt_of_le cut.lt cut.le_length
  have hsolid := cut.solid
  rw [List.getElem?_eq_getElem hlt] at hsolid ⊢
  exact ⟨_, rfl, by simpa using hsolid⟩

/-- The text in front of an expression, the expression and the text behind it. -/
theorem parts (cut : CutOut text start stop) :
    text.take start ++ slice text start stop ++ text.drop stop = text ∧
      (text.take start).length = start ∧ start + (slice text start stop).length = stop := by
  have hlt := cut.lt
  have hle := cut.le_length
  refine ⟨?_, List.length_take_of_le (by omega), ?_⟩
  · rw [take_append_slice text (Nat.le_of_lt hlt), List.take_append_drop]
  · rw [slice, List.length_take, List.length_drop]
    omega

/-- An expression that is cut out of a text stands apart from what is around it. -/
theorem standsApart (cut : CutOut text start stop) :
    StandsApart (text.take start) (slice text start stop) (text.drop stop) where
  left := by
    have hlast : (text.take start).getLast? = charBefore text start := by
      have hbefore := charBefore_append_length (text.take start) (text.drop start)
      rw [List.take_append_drop, cut.parts.2.1] at hbefore
      exact hbefore.symm
    rw [SplitsNoWord, hlast, cut.left]
    simp
  right := by
    rw [SplitsNoWord, getLast?_slice cut.lt cut.le_length, List.head?_drop]
    rintro ⟨hbefore, hword⟩
    cases hc : text[stop]? with
    | none =>
        rw [hc] at hword
        cases hword
    | some c =>
        rw [hc, Option.any_some] at hword
        rw [(of_getElem?_stop cut.ends (Nat.le_of_lt cut.lt) hc).1 hword] at hbefore
        cases hbefore
  newline := by
    obtain ⟨c, first, solid⟩ := cut.exists_first
    rw [slice_eq_cons cut.lt first, List.head?_cons]
    rintro ⟨⟩
    cases solid
  quote := by
    intro q hq hc
    rw [List.head?_drop] at hc
    rw [(of_getElem?_stop cut.ends (Nat.le_of_lt cut.lt) hc).2] at hq
    cases hq

/-- An expression that is cut out of a text has no comments, and its literals are closed. -/
theorem lex_slice (cut : CutOut text start stop) :
    (lex (slice text start stop)).unclosed = none ∧ CommentFree (slice text start stop) := by
  have hle := Nat.le_of_lt cut.lt
  obtain ⟨hclosed, hfree⟩ := lexAt_take_stop cut.ends hle
  have hmoved := (lexAt_append_length (text.take start) (slice text start stop) 0).2
  rw [take_append_slice text hle, cut.parts.2.1, Nat.add_zero, lexAt_zero] at hmoved
  refine ⟨hmoved ▸ hclosed, ?_⟩
  have hslice : (text.take stop).drop start = slice text start stop := by
    rw [List.drop_take, slice]
  rw [lexAt, hslice] at hfree
  exact commentFree_lexFrom_iff.mp hfree

/-- Each code character of an expression is read in the text as in the expression alone. -/
theorem exists_spot {t : Spot} (cut : CutOut text start stop)
    (member : t ∈ (lex (slice text start stop)).spots) :
    ∃ s ∈ (lexAt text start).spots, s.ReadsAs start t := by
  obtain ⟨hclosed, hfree⟩ := cut.lex_slice
  obtain ⟨hparts, hfront, -⟩ := cut.parts
  obtain ⟨earlier, hlex, -, hsame⟩ := cut.standsApart.exists_lexAt (Nat.zero_le _) hclosed hfree
  obtain ⟨s, hs, hst⟩ := exists_of_forall₂ hsame member
  rw [hparts, hfront, Nat.add_zero] at hlex
  rw [hfront] at hst
  refine ⟨s, ?_, hst⟩
  rw [hlex, Lexed.spots_prepend]
  exact List.mem_append_left _ hs

/-- What is cut off behind an inner expression that reaches the end of the outer one is cut off there as
well. -/
theorem trimmedEnd_inner {s : Spot} (cut : CutOut text start stop)
    (member : s ∈ (lexAt text start).spots) (lt : s.pos < stop)
    (le : stop ≤ expressionLimit text s.pos 0) :
    trimmedEnd text s.pos (expressionLimit text s.pos 0) = trimmedEnd text s.pos stop := by
  obtain ⟨-, hstop⟩ := expressionEnd_eq_ok_iff.mp cut.ends
  have hlimit : stop ≤ expressionLimit text start 0 := hstop ▸ trimmedEnd_le ..
  have hinner := expressionLimit_inside member (by omega) (Int.le_refl 0)
  have hstart := (standsIn_of_mem_lexAt member).1
  have hsame : trimmedEnd text s.pos (expressionLimit text start 0) = stop := by
    rw [hstop, trimmedEnd, trimmedEnd, if_pos (by omega), if_pos (by omega)]
  rw [← trimmedEnd_of_le (by omega) hinner (by omega), trimmedEnd_of_le lt hlimit (by omega)]

/-- An expression that begins in another one ends in it, and it ends at the same place if the outer
expression is cut out of the text. -/
theorem expressionEnd_slice {t : Spot} (cut : CutOut text start stop)
    (member : t ∈ (lex (slice text start stop)).spots) (code : isBlank t.char = false) :
    ∃ k, expressionEnd (slice text start stop) t.pos 0 = .ok k ∧
      expressionEnd text (start + t.pos) 0 = .ok (start + k) := by
  obtain ⟨hclosed, hfree⟩ := cut.lex_slice
  obtain ⟨hparts, hfront, hmiddle⟩ := cut.parts
  obtain ⟨s, hs, hst⟩ := cut.exists_spot member
  have hpos : s.pos = start + t.pos := hst.pos.trans (Nat.add_comm ..)
  have hstands := cut.standsApart
  obtain ⟨hend, hstop⟩ := expressionEnd_eq_ok_iff.mp cut.ends
  have hlimit : stop ≤ expressionLimit text start 0 := hstop ▸ trimmedEnd_le ..
  have hinner := @trimmedEnd_inner text start stop s cut hs
  generalize slice text start stop = e at *
  have ht := (standsIn_of_mem_lexAt member).2.getElem?
  have hlt : t.pos < e.length := (List.getElem?_eq_some_iff.mp ht).1
  obtain ⟨hunclosed, hpieces⟩ := lexAt_of_mem_spots member
  have hclosed' := hunclosed.trans hclosed
  have hfree' : (lexAt e t.pos).CommentFree := fun p hp => hfree p (hpieces p hp)
  have hcomments : ∀ i length, .comment i length ∈ (lexAt text s.pos).pieces → stop ≤ i :=
    fun i length hi => Nat.le_trans hlimit
      (expressionLimit_le_comment ((lexAt_of_mem_spots hs).2 _ hi))
  have hbefore : s.pos < terminator text start 0 :=
    (lt_expressionLimit_iff.mp (show s.pos < expressionLimit text start 0 by omega)).1
  have hcut := @trimmedEnd_append (text.take start) e (text.drop stop) _ _ _ ht code
    (terminator_le_length e t.pos 0)
  have hcases := hstands.terminator_cases (Nat.le_of_lt hlt) hclosed' hfree' 0
  rw [hparts, hfront, ← hpos] at hcut hcases
  refine ⟨_, expressionEnd_of_commentFree hfree' hclosed' 0, ?_⟩
  rw [← hpos, ← terminator, ← hcut]
  refine expressionEnd_eq_ok_iff.mpr ⟨(terminator_inside hs hbefore (Int.le_refl 0)).2 hend, ?_⟩
  rcases hcases with hsame | ⟨hwhole, hle⟩
  · -- The inner expression stops inside the outer one.
    rw [← hsame, expressionLimit_eq_terminator fun i length hi => ?_]
    have := hcomments i length hi
    have := terminator_le_length e t.pos 0
    omega
  · -- The inner expression goes on up to the end of the outer one.
    rw [hwhole, hmiddle]
    rw [hmiddle] at hle
    exact (hinner (by omega) (le_expressionLimit_iff.mpr ⟨hle, hcomments⟩)).symm

end CutOut

end CallableKinds

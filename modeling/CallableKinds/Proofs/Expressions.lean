import CallableKinds.Proofs.LineBreaks
import CallableKinds.Proofs.Scanning

/-!
# Expressions over several lines

An expression is read up to a newline at its own level, also where that newline stands inside brackets
that were opened in front of it and so ends no logical line. An expression that goes on behind such a
newline is severed there. In a text without comments this is all that line breaks do: an expression
that is not severed by a newline is the same up to spacing if a space stands in its place.
-/

namespace CallableKinds

/-- A text with spaces for the newlines of the given lines. -/
def joinLines (lines : Nat → Bool) (text : List Char) : List Char :=
  text.mapIdx fun i c => if c = '\n' ∧ lines i then ' ' else c

variable {lines : Nat → Bool} {text : List Char}

theorem getElem?_joinLines (i : Nat) :
    (joinLines lines text)[i]? = text[i]?.map fun c => if c = '\n' ∧ lines i then ' ' else c :=
  List.getElem?_mapIdx

theorem unbroken_joinLines (lines : Nat → Bool) (text : List Char) :
    unbroken (joinLines lines text) = unbroken text := by
  refine List.ext_getElem? fun i => ?_
  rw [getElem?_unbroken, getElem?_unbroken, getElem?_joinLines, Option.map_map]
  congr 1
  funext c
  dsimp only [Function.comp_apply]
  split
  next hc => rw [hc.1]; rfl
  next => rfl

theorem length_joinLines (lines : Nat → Bool) (text : List Char) :
    (joinLines lines text).length = text.length := List.length_mapIdx

/-! ### The ends of expressions -/

/-- The expression at a position. -/
def expressionAt (text : List Char) (start : Nat) : Except Fault (List Char) :=
  (expressionEnd text start 0).map (slice text start)

/-- The expression at a position is severed by the end of one of the given lines: it stops at the
newline, but goes on behind it where the line is joined to the next. -/
def Severed (lines : Nat → Bool) (text : List Char) (start : Nat) : Prop :=
  ∃ newline stop, expressionStop 0 0 (lexAt text start).spots = some newline ∧
    text[newline]? = some '\n' ∧ lines newline = true ∧
    expressionEnd (joinLines lines text) start 0 = .ok stop ∧ newline < stop

/-- What an expression has open behind a code character, or nothing if it stops there. -/
def expressionStep (depth : Nat) (headers : Int) (s : Spot) : Option (Nat × Int) :=
  if isOpening s.char then some (depth + 1, headers)
  else if isClosing s.char then if depth = 0 then none else some (depth - 1, headers)
  else if 0 < depth then some (depth, headers)
  else if s.endsLine || s.char == ';' then none
  else if s.char == ',' then if headers = 0 then none else some (depth, headers)
  else if s.char == ':' then if headers = 0 then none else some (depth, headers - 1)
  else if s.startsWord lambdaWord then some (depth, headers + 1)
  else if headers = 0 && s.startsWord forWord then none
  else some (depth, headers)

theorem expressionStop_cons (depth : Nat) (headers : Int) (s : Spot) (rest : List Spot) :
    expressionStop depth headers (s :: rest) =
      (expressionStep depth headers s).elim (some s.pos) fun next =>
        expressionStop next.1 next.2 rest := by
  rw [expressionStop.eq_def, expressionStep]
  simp only [apply_ite (Option.elim · (some s.pos) fun next : Nat × Int =>
    expressionStop next.1 next.2 rest), Option.elim_some, Option.elim_none]
  cases depth <;> rfl

/-- An expression stops at a code character. -/
theorem exists_of_expressionStop {depth stop : Nat} {headers : Int} {spots : List Spot}
    (found : expressionStop depth headers spots = some stop) : ∃ s ∈ spots, s.pos = stop := by
  induction spots generalizing depth headers with
  | nil => cases found
  | cons s rest ih =>
      rw [expressionStop_cons] at found
      cases hstep : expressionStep depth headers s with
      | none =>
          rw [hstep] at found
          exact ⟨s, List.mem_cons_self, Option.some.inj found⟩
      | some next =>
          rw [hstep] at found
          obtain ⟨t, member, ht⟩ := ih found
          exact ⟨t, List.mem_cons_of_mem s member, ht⟩

/-! ### Reading over a newline -/

/-- Apart from the ends of lines an expression does not tell a newline from a space. -/
theorem expressionStep_congr {s s' : Spot} (same : s'.unbroken = s.unbroken)
    (ends : s'.endsLine = s.endsLine) (depth : Nat) (headers : Int) :
    expressionStep depth headers s' = expressionStep depth headers s := by
  have hchar : unbreak s'.char = unbreak s.char := congrArg Spot.char same
  have htest (f : Char → Bool) (h : f ' ' = f '\n') : f s'.char = f s.char := by
    rw [← apply_unbreak h s'.char, ← apply_unbreak h s.char, hchar]
  have hword (keyword : List Char) (solid : Solid keyword) :
      s'.startsWord keyword = s.startsWord keyword := by
    rw [← Spot.startsWord_unbroken solid s', ← Spot.startsWord_unbroken solid s, same]
  unfold expressionStep
  rw [htest isOpening (by decide), htest isClosing (by decide), ends,
    htest (· == ';') (by decide), htest (· == ',') (by decide), htest (· == ':') (by decide),
    hword lambdaWord (by decide), hword forWord (by decide)]

/-- A newline that ends a line stops an expression at its own level. -/
theorem expressionStep_of_endsLine {s : Spot} (ends : s.endsLine = true) (depth : Nat)
    (headers : Int) :
    expressionStep depth headers s = if 0 < depth then some (depth, headers) else none := by
  obtain ⟨hchar, -⟩ : s.char = '\n' ∧ s.before ≠ some '\\' := by
    simpa [Spot.endsLine] using ends
  simp [expressionStep, hchar, ends, isOpening, isClosing]

/-- A space or a tab is read over. -/
theorem expressionStep_of_space {s : Spot} (char : s.char = ' ' ∨ s.char = '\t') (depth : Nat)
    (headers : Int) : expressionStep depth headers s = some (depth, headers) := by
  rcases char with char | char <;>
    simp [expressionStep, char, isOpening, isClosing, Spot.endsLine, Spot.startsWord, startsWord,
      lambdaWord, forWord]

/-- A spot of a text whose lines are joined ends a line like that of the text, unless its own line is
one of those. -/
theorem endsLine_joinLines {s s' : Spot} (same : s'.unbroken = s.unbroken)
    (stands : s.StandsIn text) (stands' : s'.StandsIn (joinLines lines text)) :
    s'.endsLine = s.endsLine ∨
      s.endsLine = true ∧ text[s.pos]? = some '\n' ∧ lines s.pos = true ∧ s'.char = ' ' := by
  have hpos : s'.pos = s.pos := Spot.pos_eq_of_unbroken_eq same
  have hbefore : s'.before = some '\\' ↔ s.before = some '\\' := by
    have hiff (o : Option Char) : o.map unbreak = some '\\' ↔ o = some '\\' := by
      cases o with
      | none => simp
      | some c => simpa using unbreak_eq_iff (d := '\\') (by decide)
    rw [← hiff, ← hiff s.before]
    exact iff_of_eq (congrArg (· = some '\\') (congrArg Spot.before same))
  have hchar := stands'.getElem?
  rw [hpos, getElem?_joinLines, stands.getElem?, Option.map_some, Option.some.injEq] at hchar
  by_cases hjoined : s.char = '\n' ∧ lines s.pos = true
  · rw [if_pos hjoined] at hchar
    by_cases hescape : s.before = some '\\'
    · left
      simp [Spot.endsLine, hescape, hbefore.mpr hescape]
    · right
      exact ⟨by simp [Spot.endsLine, hjoined.1, hescape], hjoined.1 ▸ stands.getElem?, hjoined.2,
        hchar.symm⟩
  · rw [if_neg hjoined] at hchar
    left
    have hescape : (s'.before != some '\\') = (s.before != some '\\') := by
      rw [Bool.eq_iff_iff, bne_iff_ne, bne_iff_ne]
      exact not_congr hbefore
    rw [Spot.endsLine, Spot.endsLine, ← hchar, hescape]

/-- An expression of a text whose lines are joined stops where it does in the text, unless it stops
there at the end of one of those lines; then it stops later. -/
theorem expressionStop_joinLines {depth : Nat} {headers : Int} {spots spots' : List Spot}
    {limit limit' : Nat} (same : spots'.map Spot.unbroken = spots.map Spot.unbroken)
    (readable : Segments.Readable text limit spots)
    (readable' : Segments.Readable (joinLines lines text) limit' spots') :
    expressionStop depth headers spots' = expressionStop depth headers spots ∨
      ∃ newline, expressionStop depth headers spots = some newline ∧
        text[newline]? = some '\n' ∧ lines newline = true ∧
        ∀ stop, expressionStop depth headers spots' = some stop → newline < stop := by
  induction spots generalizing depth headers spots' limit limit' with
  | nil =>
      obtain rfl : spots' = [] := by simpa using same
      exact .inl rfl
  | cons s rest ih =>
      obtain ⟨s', rest', rfl, hs, hrest⟩ := List.map_eq_cons_iff.mp same
      have hpos : s'.pos = s.pos := Spot.pos_eq_of_unbroken_eq hs
      rw [expressionStop_cons, expressionStop_cons, hpos]
      rcases endsLine_joinLines hs readable.head.2 readable'.head.2 with hends |
        ⟨hends, hnewline, hline, hspace⟩
      · rw [expressionStep_congr hs hends]
        cases expressionStep depth headers s with
        | none => exact .inl rfl
        | some next => exact ih hrest readable.tail readable'.tail
      · rw [expressionStep_of_endsLine hends, expressionStep_of_space (.inl hspace)]
        by_cases hdepth : 0 < depth
        · rw [if_pos hdepth]
          exact ih hrest readable.tail readable'.tail
        · rw [if_neg hdepth]
          refine .inr ⟨s.pos, rfl, hnewline, hline, ?_⟩
          intro stop found
          obtain ⟨t, member, rfl⟩ := exists_of_expressionStop found
          rw [← hpos]
          exact (readable'.tail.stands t member).1

/-! ### The end without the blanks -/

/-- The position behind the last character between two positions that is no blank. -/
def trimmedEnd (text : List Char) (start stop : Nat) : Nat :=
  if start < stop then (trimRight (text.take stop)).length else stop

/-- Where no comment follows, an expression ends where it stops, without the blanks there. -/
theorem expressionEnd_of_commentFree {start : Nat} (free : (lexAt text start).CommentFree)
    (complete : (lexAt text start).unclosed = none) (headers : Int) :
    expressionEnd text start headers =
      .ok (trimmedEnd text start
        ((expressionStop 0 headers (lexAt text start).spots).getD text.length)) := by
  rw [expressionEnd, Lexed.firstComment?_eq_none_iff.mpr free]
  cases expressionStop 0 headers (lexAt text start).spots with
  | none =>
      rw [Lexed.found, Lexed.finish, complete]
      rfl
  | some stop => rfl

theorem trimmedEnd_joinLines (start stop : Nat) :
    trimmedEnd (joinLines lines text) start stop = trimmedEnd text start stop := by
  have hlength (s : List Char) : (trimRight s).length = (trimRight (unbroken s)).length := by
    rw [trimRight_unbroken, length_unbroken]
  rw [trimmedEnd, trimmedEnd, hlength, hlength (text.take stop), unbroken_take, unbroken_take,
    unbroken_joinLines]

theorem trimmedEnd_le (text : List Char) (start stop : Nat) : trimmedEnd text start stop ≤ stop := by
  unfold trimmedEnd
  split
  · exact Nat.le_trans (List.rdropWhile_prefix isBlank _).length_le (List.length_take_le stop text)
  · exact Nat.le_refl stop

/-- What is behind the end of a text is blank. -/
theorem trimmedEnd_of_le {start stop stop' : Nat} (lt : start < stop) (le : stop ≤ stop')
    (short : trimmedEnd text start stop' ≤ stop) :
    trimmedEnd text start stop' = trimmedEnd text start stop := by
  rw [trimmedEnd, if_pos (Nat.lt_of_lt_of_le lt le), ← take_append_slice text le,
    trimRight_append] at short ⊢
  rw [trimmedEnd, if_pos lt]
  split at short
  next hblank => rw [if_pos hblank]
  next hcode =>
    have hpos := List.length_pos_iff.mpr hcode
    by_cases hlength : stop ≤ text.length
    · rw [List.length_append, List.length_take_of_le hlength] at short
      omega
    · have hempty : slice text stop stop' = [] := by
        rw [slice, List.drop_eq_nil_of_le (by omega), List.take_nil]
      rw [hempty] at hcode
      exact absurd rfl hcode

/-- A newline at which the expression of a code character stops is behind that character. -/
theorem start_lt_of_expressionStop {start newline : Nat} {headers : Int}
    (code : text[start]?.all (!isBlank ·) = true)
    (found : expressionStop 0 headers (lexAt text start).spots = some newline)
    (char : text[newline]? = some '\n') : start < newline := by
  obtain ⟨s, member, rfl⟩ := exists_of_expressionStop found
  have hle := (standsIn_of_mem_lexAt member).1
  have hne : start ≠ s.pos := by
    rintro rfl
    simp [char] at code
  omega

/-! ### Joined lines -/

/-- Joining the lines of a text without comments leaves its pieces where they are. -/
theorem lexAt_joinLines (lines : Nat → Bool) {start : Nat} (free : (lexAt text start).CommentFree) :
    (lexAt (joinLines lines text) start).CommentFree ∧
      (lexAt (joinLines lines text) start).spots.map Spot.unbroken =
        (lexAt text start).spots.map Spot.unbroken ∧
      (lexAt (joinLines lines text) start).unclosed = (lexAt text start).unclosed := by
  have hfree (s : List Char) :
      (lexAt (unbroken s) start).CommentFree ↔ (lexAt s start).CommentFree := by
    rw [lexAt, ← unbroken_drop]
    exact commentFree_unbroken_iff
  have hjoined : (lexAt (joinLines lines text) start).CommentFree := by
    rw [← hfree, unbroken_joinLines, hfree]
    exact free
  have hline := onOneLine_lexAt free
  have hline' := onOneLine_lexAt hjoined
  rw [unbroken_joinLines] at hline'
  exact ⟨hjoined, hline'.spots.symm.trans hline.spots, hline'.unclosed.symm.trans hline.unclosed⟩

theorem lex_joinLines (lines : Nat → Bool) (free : CommentFree text) :
    CommentFree (joinLines lines text) ∧
      (lex (joinLines lines text)).spots.map Spot.unbroken = (lex text).spots.map Spot.unbroken ∧
      (lex (joinLines lines text)).unclosed = (lex text).unclosed := by
  have hfree : (lexAt text 0).CommentFree := free
  exact lexAt_joinLines lines hfree

/-- The expression of a code character is severed, or it ends at the same place if lines are
joined. -/
theorem expressionEnd_joinLines {start : Nat} (free : (lexAt text start).CommentFree)
    (complete : (lexAt text start).unclosed = none) (code : text[start]?.all (!isBlank ·) = true)
    (whole : ¬ Severed lines text start) :
    expressionEnd (joinLines lines text) start 0 = expressionEnd text start 0 := by
  obtain ⟨hfree, hspots, hunclosed⟩ := lexAt_joinLines lines free
  have hend := expressionEnd_of_commentFree hfree (hunclosed.trans complete) 0
  rw [length_joinLines, trimmedEnd_joinLines] at hend
  rw [hend, expressionEnd_of_commentFree free complete]
  rcases expressionStop_joinLines hspots (.ofLexAt text start) (.ofLexAt _ start) with
    hsame | ⟨newline, hstop, hnewline, hline, hlater⟩
  · rw [hsame]
  · have hlt := start_lt_of_expressionStop code hstop hnewline
    have hshort := fun h => whole ⟨newline, _, hstop, hnewline, hline, hend, h⟩
    rw [hstop, Option.getD_some, trimmedEnd_of_le hlt ?_ (Nat.le_of_not_lt hshort)]
    cases hstop' : expressionStop 0 0 (lexAt (joinLines lines text) start).spots with
    | none => exact Nat.le_of_lt (List.getElem?_eq_some_iff.mp hnewline).1
    | some stop => exact Nat.le_of_lt (hlater stop hstop')

/-! ### What a severed expression lacks -/

/-- How many characters of a text are no blanks. -/
def inked (text : List Char) : Nat := text.countP (!isBlank ·)

theorem inked_collapse (text : List Char) : inked (collapse text) = inked text := by
  induction text with
  | nil => rfl
  | cons c rest ih =>
      by_cases hc : isBlank c = true
      · rw [collapse_cons_of_blank _ hc]
        split <;> simp_all [inked]
      · have hc : isBlank c = false := by simpa using hc
        rw [collapse_cons_of_not_blank _ hc]
        simpa [inked, hc] using ih

theorem inked_trim (text : List Char) : inked (trim text) = inked text := by
  have hleft (s : List Char) : inked (trimLeft s) = inked s := by
    induction s with
    | nil => rfl
    | cons c rest ih =>
        by_cases hc : isBlank c = true
        · simpa [trimLeft, inked, hc] using ih
        · simp [trimLeft, inked, hc]
  have hreverse (s : List Char) : inked s.reverse = inked s := List.countP_reverse
  rw [trim, trimRight_eq_reverse, hreverse, hleft, hreverse, hleft]

theorem inked_squeeze (text : List Char) : inked (squeeze text) = inked text := by
  rw [squeeze, inked_trim, inked_collapse]

/-- In front of the trimmed end stands a character that is no blank. -/
theorem inked_slice_trimmedEnd {start stop k : Nat} (lt : start < stop)
    (before : k < trimmedEnd text start stop) :
    0 < inked (slice text k (trimmedEnd text start stop)) := by
  rw [trimmedEnd, if_pos lt] at before ⊢
  have hprefix := (List.rdropWhile_prefix isBlank (text.take stop)).trans (List.take_prefix stop text)
  have htake : text.take (trimRight (text.take stop)).length = trimRight (text.take stop) :=
    (List.prefix_iff_eq_take.mp hprefix).symm
  refine Nat.pos_of_ne_zero fun hblank => ?_
  have hnil : trimRight (slice text k (trimRight (text.take stop)).length) = [] := by
    rw [inked, List.countP_eq_zero] at hblank
    rw [trimRight_eq_rdropWhile, List.rdropWhile_eq_nil_iff]
    simpa using hblank
  have htrimmed : trimRight (trimRight (text.take stop)) = trimRight (text.take k) := by
    rw [← htake, ← take_append_slice text (Nat.le_of_lt before), trimRight_append, if_pos hnil]
  have hidem : trimRight (trimRight (text.take stop)) = trimRight (text.take stop) :=
    List.rdropWhile_idempotent isBlank _
  have hle : (trimRight (text.take k)).length ≤ (text.take k).length :=
    (List.rdropWhile_prefix isBlank _).length_le
  rw [← htrimmed, hidem, List.length_take] at hle
  omega

theorem squeeze_slice_joinLines (start stop : Nat) :
    squeeze (slice (joinLines lines text) start stop) = squeeze (slice text start stop) := by
  rw [← squeeze_unbroken, unbroken_slice, unbroken_joinLines, ← unbroken_slice, squeeze_unbroken]

/-- The expression of a code character is the same up to spacing if lines are joined, unless it is
severed. -/
theorem expressionAt_joinLines_iff {start : Nat} (free : (lexAt text start).CommentFree)
    (complete : (lexAt text start).unclosed = none)
    (code : text[start]?.all (!isBlank ·) = true) :
    (expressionAt (joinLines lines text) start).map squeeze = (expressionAt text start).map squeeze ↔
      ¬ Severed lines text start := by
  constructor
  · rintro same ⟨newline, stop, hstop, hnewline, hline, hend, hlt⟩
    have hstart := start_lt_of_expressionStop code hstop hnewline
    rw [expressionAt, expressionAt, hend, expressionEnd_of_commentFree free complete, hstop] at same
    have hsqueeze : squeeze (slice text start stop) =
        squeeze (slice text start (trimmedEnd text start newline)) := by
      rw [← squeeze_slice_joinLines]
      exact Except.ok.inj same
    have hinked := congrArg inked hsqueeze
    rw [inked_squeeze, inked_squeeze,
      ← slice_append_slice text (Nat.le_of_lt hstart) (Nat.le_of_lt hlt)] at hinked
    -- What stands behind the newline is more than what the expression of the text has.
    have hbehind : 0 < inked (slice text newline stop) := by
      obtain ⟨hfree, -, hunclosed⟩ := lexAt_joinLines lines free
      rw [expressionEnd_of_commentFree hfree (hunclosed.trans complete), trimmedEnd_joinLines] at hend
      generalize Option.getD _ _ = stop' at hend
      obtain rfl := Except.ok.inj hend
      have hstop' : start < stop' := by
        have := trimmedEnd_le text start stop'
        omega
      exact inked_slice_trimmedEnd hstop' hlt
    have hfront : inked (slice text start (trimmedEnd text start newline)) ≤
        inked (slice text start newline) := by
      have hle := trimmedEnd_le text start newline
      exact (List.take_prefix_take_left (by omega)).sublist.countP_le
    have happend : inked (slice text start newline ++ slice text newline stop) =
        inked (slice text start newline) + inked (slice text newline stop) := List.countP_append
    omega
  · intro whole
    rw [expressionAt, expressionAt, expressionEnd_joinLines free complete code whole]
    cases expressionEnd text start 0 with
    | error fault => rfl
    | ok stop => exact congrArg Except.ok (squeeze_slice_joinLines start stop)

end CallableKinds

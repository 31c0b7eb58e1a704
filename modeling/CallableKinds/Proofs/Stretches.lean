import CallableKinds.Proofs.Contexts
import CallableKinds.Proofs.FunctionStubs
import CallableKinds.Proofs.Reisolation

/-!
# Stretches of a text

A text is read stretch by stretch: each one is lexed into code characters, an expression goes on over it,
and anonymous functions begin in it. What is known of the stretches is put together for the text. A
stretch that is a complete expression adds the anonymous functions that it has on its own.
-/

namespace CallableKinds

variable {text expression behind part rest : List Char} {i j k : Nat} {spots spots' : List Spot}
  {expressions expressions' : List (List Char)}

/-- Between two positions a text is lexed into some code characters, and there are no comments. -/
def Stretch (text : List Char) (i j : Nat) (spots : List Spot) : Prop :=
  ∃ pieces, lexAt text i = (lexAt text j).prepend pieces ∧ (∀ p ∈ pieces, p.comment? = none) ∧
    pieces.filterMap Piece.spot? = spots

namespace Stretch

theorem refl (text : List Char) (i : Nat) : Stretch text i i [] := ⟨[], rfl, List.forall_mem_nil _, rfl⟩

theorem trans (first : Stretch text i j spots) (second : Stretch text j k spots') :
    Stretch text i k (spots ++ spots') := by
  obtain ⟨pieces, hlex, hplain, rfl⟩ := first
  obtain ⟨pieces', hlex', hplain', rfl⟩ := second
  refine ⟨pieces ++ pieces', by rw [hlex, hlex', Lexed.prepend_prepend], fun p hp => ?_,
    List.filterMap_append⟩
  exact (List.mem_append.mp hp).elim (hplain p) (hplain' p)

/-- A stretch over a whole text has all its code characters. -/
theorem whole (stretch : Stretch text 0 text.length spots) :
    (lex text).unclosed = none ∧ (lex text).CommentFree ∧ (lex text).spots = spots := by
  obtain ⟨pieces, hlex, hplain, rfl⟩ := stretch
  have hend : lexAt text text.length = ⟨[], none⟩ := by rw [lexAt, List.drop_length, lexFrom]
  rw [hend, lexAt_zero] at hlex
  refine ⟨by rw [hlex]; rfl, fun p hp => hplain p ?_, ?_⟩
  · rwa [hlex, Lexed.prepend, List.append_nil] at hp
  · rw [hlex, Lexed.spots_prepend]
    exact List.append_nil _

theorem spots_eq (stretch : Stretch text i j spots) :
    (lexAt text i).spots = spots ++ (lexAt text j).spots := by
  obtain ⟨pieces, hlex, -, rfl⟩ := stretch
  rw [hlex, Lexed.spots_prepend]

/-- The first code character of a stretch is the character that stands where it begins. -/
theorem first {s : Spot} {c : Char} (stretch : Stretch text i j (s :: spots))
    (hdrop : text.drop i = c :: rest) (plain : isQuote c = false ∧ c ≠ '#') :
    s = ⟨i, charBefore text i, c, rest⟩ := by
  obtain ⟨pieces, hlex, -, hspots⟩ := stretch
  rw [lexAt_of_character hdrop plain] at hlex
  cases pieces with
  | nil => cases hspots
  | cons p pieces =>
      obtain ⟨rfl, -⟩ := List.cons.inj (congrArg Lexed.pieces hlex)
      exact (List.cons.inj hspots).1.symm

end Stretch

/-! ### Anonymous functions in a stretch -/

/-- The anonymous functions that begin at some code characters. -/
def Finds (text : List Char) (spots : List Spot) (expressions : List (List Char)) : Prop :=
  ∀ rest, LambdaExpressions.starting text none (spots ++ rest) =
    ⟨expressions ++ (LambdaExpressions.starting text none rest).found,
      (LambdaExpressions.starting text none rest).failure⟩

namespace Finds

theorem append (first : Finds text spots expressions) (second : Finds text spots' expressions') :
    Finds text (spots ++ spots') (expressions ++ expressions') := by
  intro rest
  rw [List.append_assoc, first, second, List.append_assoc]

theorem of_quiet (quiet : ∀ s ∈ spots, s.startsWord lambdaWord = false) : Finds text spots [] := by
  intro rest
  induction spots with
  | nil => rfl
  | cons s spots ih =>
      obtain ⟨hs, hspots⟩ := List.forall_mem_cons.mp quiet
      rw [List.cons_append, LambdaExpressions.starting, if_neg (Bool.eq_false_iff.mp hs)]
      exact ih hspots

theorem cons {s : Spot} {stop : Nat} (word : s.startsWord lambdaWord = true)
    (ends : expressionEnd text s.pos 0 = .ok stop) (later : Finds text spots expressions) :
    Finds text (s :: spots) (slice text s.pos stop :: expressions) := by
  intro rest
  rw [List.cons_append, LambdaExpressions.starting, if_pos word, ends, later]
  rfl

/-- What is found in a stretch over a whole text are the anonymous functions of the text. -/
theorem ofText (finds : Finds text spots expressions) (stretch : Stretch text 0 text.length spots) :
    LambdaExpressions.ofText text = ⟨expressions, none⟩ := by
  obtain ⟨hclosed, -, hspots⟩ := stretch.whole
  have hfinds := finds []
  rw [List.append_nil] at hfinds
  rw [LambdaExpressions.ofText, hclosed, hspots, hfinds]
  exact congrArg (LambdaExpressions.mk · none) (List.append_nil _)

end Finds

/-! ### Stretches without anonymous functions -/

/-- A stretch without quotes and comments is read as it is written. The word of an anonymous function
does not begin in it if it is not contained in it. -/
theorem exists_stretch_of_plain (plain : ∀ c ∈ part, isQuote c = false ∧ c ≠ '#')
    (cut : SplitsNoWord part rest) (hdrop : text.drop i = part ++ rest) :
    ∃ spots, Stretch text i (i + part.length) spots ∧ spots.map Spot.char = part ∧
      (Segments.containsWord lambdaWord (charBefore text i) part = false →
        ∀ s ∈ spots, s.startsWord lambdaWord = false) := by
  induction part generalizing i with
  | nil => exact ⟨[], .refl text i, rfl, fun _ => List.forall_mem_nil _⟩
  | cons c part ih =>
      obtain ⟨hc, hpart⟩ := List.forall_mem_cons.mp plain
      have hlater : SplitsNoWord part rest := by
        cases part with
        | nil => exact fun ends => Bool.false_ne_true ends.1
        | cons d part => exact cut
      obtain ⟨spots, hstretch, hchars, hquiet⟩ := ih hpart hlater (drop_succ_of_drop_eq_cons hdrop)
      let s : Spot := ⟨i, charBefore text i, c, part ++ rest⟩
      have hs : Stretch text i (i + 1) [s] :=
        ⟨[.code s], lexAt_of_character hdrop hc, by simp [Piece.comment?], rfl⟩
      have hword : s.startsWord lambdaWord = startsWord lambdaWord (charBefore text i) (c :: part) :=
        startsWord_append (List.cons_ne_nil _ _) letters_lambdaWord cut fun _ => rfl
      refine ⟨s :: spots, ?_, congrArg _ hchars, fun absent => ?_⟩
      · have hwhole := hs.trans hstretch
        rwa [Nat.add_right_comm] at hwhole
      · rw [Segments.containsWord, Bool.or_eq_false_iff] at absent
        rw [← charBefore_succ_of_drop_eq_cons hdrop] at hquiet
        exact List.forall_mem_cons.mpr ⟨hword.trans absent.1, hquiet absent.2⟩

/-- In a stretch of marks there is no word. -/
theorem exists_stretch_of_marks (nonempty : part ≠ [])
    (marks : ∀ c ∈ part, (isQuote c = false ∧ c ≠ '#') ∧ isWord c = false)
    (hdrop : text.drop i = part ++ rest) :
    ∃ spots, Stretch text i (i + part.length) spots ∧ spots.map Spot.char = part ∧
      ∀ s ∈ spots, s.startsWord lambdaWord = false := by
  have hcut : SplitsNoWord part rest := by
    rintro ⟨hword, -⟩
    rw [List.getLast?_eq_getLast_of_ne_nil nonempty, Option.any_some,
      (marks _ (List.getLast_mem nonempty)).2] at hword
    cases hword
  obtain ⟨spots, hstretch, hchars, hquiet⟩ :=
    exists_stretch_of_plain (fun c member => (marks c member).1) hcut hdrop
  refine ⟨spots, hstretch, hchars, hquiet ?_⟩
  rw [← List.append_nil part, Segments.containsWord_marks_append letters_lambdaWord (by decide) nonempty
    fun c member => (marks c member).2]
  rfl

/-- While a header is open, an expression goes on over what neither opens nor closes anything there and
does not end a line. -/
theorem readExpression_of_quiet {headers : Int} (isOpen : 0 < headers)
    (plain : ∀ s ∈ spots, s.char ∉ ['(', '[', '\x7b', ')', ']', '\x7d', ':', ';', '\n'])
    (quiet : ∀ s ∈ spots, s.startsWord lambdaWord = false) :
    readExpression 0 headers spots = some (0, headers) := by
  induction spots with
  | nil => rfl
  | cons s spots ih =>
      obtain ⟨hs, hspots⟩ := List.forall_mem_cons.mp plain
      obtain ⟨hword, hquiet⟩ := List.forall_mem_cons.mp quiet
      have hflat : isOpening s.char = false ∧ isClosing s.char = false := by
        simp_all [isOpening, isClosing]
      have hgoes : ¬ StopsAt 0 headers s := by
        rintro ⟨-, hclosing | hline | hchar | ⟨hheaders, -⟩⟩
        · rw [hflat.2] at hclosing
          cases hclosing
        · exact hs (by simp [char_of_endsLine hline])
        · exact hs (by simp [hchar])
        · omega
      have hturn : headerTurn 0 s = 0 := by
        have hcolon : s.char ≠ ':' := fun h => hs (by simp [h])
        rw [headerTurn, if_neg (by decide), if_neg hcolon, if_neg (Bool.eq_false_iff.mp hword)]
      have hdepth : ((0 : Nat) + bracketTurn s.char : Int).toNat = 0 := by
        rw [bracketTurn, hflat.1, hflat.2]
        rfl
      have hstep : expressionStep 0 headers s = some (0, headers) := by
        rw [expressionStep_eq, if_neg hgoes, hdepth, Int.ofNat_zero, hturn, Int.add_zero]
      rw [readExpression, hstep]
      exact ih hspots hquiet

/-- The word of an anonymous function opens a header. -/
theorem expressionStep_of_lambdaWord {s : Spot} (word : s.startsWord lambdaWord = true) :
    expressionStep 0 0 s = some (0, 1) := by
  have hletter : s.char = 'l' := char_of_startsWord word
  simp [expressionStep, hletter, word, isOpening, isClosing, Spot.endsLine]

/-! ### Complete expressions in a text -/

/-- With more headers open in front of it, a part that is read is read in the same way. -/
theorem readExpression_add {depth depth' : Nat} {headers headers' more : Int} (nonneg : 0 ≤ headers)
    (outer : 0 ≤ more) (read : readExpression depth headers spots = some (depth', headers')) :
    readExpression depth (headers + more) spots = some (depth', headers' + more) := by
  induction spots generalizing depth headers with
  | nil =>
      cases read
      rfl
  | cons s spots ih =>
      obtain ⟨⟨depth₁, headers₁⟩, hstep, hread⟩ := Option.bind_eq_some_iff.mp read
      have hgoes : ¬ StopsAt depth (headers + more) s := by
        obtain ⟨-, -, hgoes⟩ := of_expressionStep hstep
        rintro ⟨hlevel, hstops⟩
        refine hgoes ⟨hlevel, hstops.imp_right (Or.imp_right (Or.imp_right fun h => ⟨?_, h.2⟩))⟩
        omega
      have hstep' : expressionStep depth (headers + more) s = some (depth₁, headers₁ + more) := by
        rw [expressionStep_eq] at hstep ⊢
        split at hstep
        · cases hstep
        · cases hstep
          rw [if_neg hgoes, Int.add_right_comm]
      rw [readExpression, hstep']
      exact ih (headers_nonneg_of_expressionStep nonneg hstep) hread

theorem readExpression_excerpt {distance : Nat}
    (same : List.Forall₂ (Spot.ReadsAs distance) spots spots') (depth : Nat) (headers : Int) :
    readExpression depth headers spots = readExpression depth headers spots' := by
  induction same generalizing depth headers with
  | nil => rfl
  | @cons s t spots spots' hst _ ih =>
      rw [readExpression, readExpression, hst.expressionStep]
      congr 1
      funext next
      exact ih next.1 next.2

/-- The anonymous functions of a part that end in the text where they do in the part are found in the
text. -/
theorem finds_excerpt {distance : Nat} (same : List.Forall₂ (Spot.ReadsAs distance) spots spots')
    (ends : ∀ t ∈ spots', t.startsWord lambdaWord = true → ∃ stop,
      expressionEnd part t.pos 0 = .ok stop ∧
        expressionEnd text (t.pos + distance) 0 = .ok (stop + distance) ∧
        slice text (t.pos + distance) (stop + distance) = slice part t.pos stop) :
    Finds text spots (LambdaExpressions.starting part none spots').found := by
  induction same with
  | nil => exact .of_quiet (List.forall_mem_nil _)
  | @cons s t spots spots' hst _ ih =>
      obtain ⟨ht, hspots⟩ := List.forall_mem_cons.mp ends
      have hword := hst.startsWord lambdaWord (by decide) letters_lambdaWord
      rw [LambdaExpressions.starting]
      split
      next starts =>
          obtain ⟨stop, hstop, hstop', hslice⟩ := ht starts
          rw [← hst.pos] at hstop' hslice
          rw [hstop]
          dsimp only [LambdaExpressions.cons]
          rw [← hslice]
          exact (ih hspots).cons (hword.trans starts) hstop'
      next quiet =>
          have hs : Finds text [s] [] := .of_quiet (by simpa [hword] using quiet)
          exact hs.append (ih hspots)

namespace ReadsToEnd

section InText

variable (complete : ReadsToEnd expression) (hdrop : text.drop i = expression ++ behind)
  (apart : (charBefore text i).any isWord = false) (terminates : Terminates behind)
include complete hdrop

/-- What stands around a complete expression in a text. -/
theorem parts_of_drop :
    text.take i ++ expression ++ behind = text ∧ (text.take i).length = i ∧
      (text.take i).getLast? = charBefore text i := by
  have hlength := complete.length_pos
  have hlengths := congrArg List.length hdrop
  rw [List.length_drop, List.length_append] at hlengths
  have hi : (text.take i).length = i := List.length_take_of_le (by omega)
  have hlast := charBefore_append_length (text.take i) (text.drop i)
  rw [List.take_append_drop, hi] at hlast
  refine ⟨?_, hi, hlast.symm⟩
  rw [List.append_assoc, ← hdrop, List.take_append_drop]

include apart terminates

/-- A complete expression is cut out of a text where it stands apart. -/
theorem cutOut : CutOut text i (i + expression.length) := by
  have hlength := complete.length_pos
  obtain ⟨hparts, hi, hbefore⟩ := complete.parts_of_drop hdrop
  have hends := complete.expressionEnd_between (hbefore ▸ apart) terminates
  rw [hparts, hi] at hends
  refine ⟨hends, by omega, ?_, apart⟩
  obtain ⟨c, front, hexpression⟩ := List.exists_cons_of_ne_nil (List.ne_nil_of_length_pos hlength)
  have hfirst := complete.first
  rw [← List.head?_drop, hdrop, hexpression]
  rwa [hexpression] at hfirst

/-- The anonymous functions of a complete expression end in the text where they do in the expression. -/
theorem ends_of_mem {t : Spot} (ht : t ∈ (lex expression).spots)
    (word : t.startsWord lambdaWord = true) :
    ∃ stop, expressionEnd expression t.pos 0 = .ok stop ∧
      expressionEnd text (t.pos + i) 0 = .ok (stop + i) ∧
      slice text (t.pos + i) (stop + i) = slice expression t.pos stop := by
  have hslice := slice_add_length hdrop
  have hsolid : isBlank t.char = false := by rw [char_of_startsWord word]; decide
  obtain ⟨stop, hstop, hstop'⟩ :=
    (complete.cutOut hdrop apart terminates).expressionEnd_slice (by rwa [hslice]) hsolid
  rw [hslice] at hstop
  have hwithin : i + stop ≤ i + expression.length := Nat.add_le_add_left (stop_le_length hstop) i
  refine ⟨stop, hstop, by rw [Nat.add_comm t.pos, hstop', Nat.add_comm], ?_⟩
  rw [Nat.add_comm t.pos, Nat.add_comm stop, ← slice_slice hwithin, hslice]

/-- A complete expression in a text is read over with what is open in front of it, and its anonymous
functions are found in the text. -/
theorem exists_stretch :
    ∃ spots, Stretch text i (i + expression.length) spots ∧
      Finds text spots (LambdaExpressions.ofText expression).found ∧
      ∀ headers, 0 ≤ headers → readExpression 0 headers spots = some (0, headers) := by
  obtain ⟨hparts, hi, hbefore⟩ := complete.parts_of_drop hdrop
  obtain ⟨pieces, hlex, hplain, hsame⟩ :=
    (complete.standsApart (hbefore ▸ apart) terminates).exists_lexAt (Nat.zero_le _) complete.closed
      complete.commentFree
  rw [hparts, hi] at hlex
  rw [hi, lexAt_zero] at hsame
  refine ⟨pieces.filterMap Piece.spot?, ⟨pieces, hlex, hplain, rfl⟩, ?_, fun headers nonneg => ?_⟩
  · rw [LambdaExpressions.ofText, complete.closed]
    exact finds_excerpt hsame fun t ht => complete.ends_of_mem hdrop apart terminates ht
  · have hread := readExpression_add (Int.le_refl 0) nonneg complete.read
    rw [Int.zero_add] at hread
    rw [readExpression_excerpt hsame, hread]

end InText

end ReadsToEnd

end CallableKinds

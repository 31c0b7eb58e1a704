import CallableKinds.Proofs.Locality
import Mathlib.Data.List.TakeWhile

/-!
# Lexing texts that are put together

The code characters of two texts that stand one behind the other. They are those of the one and those
of the other, unless the first text does not lead on: it ends in a comment, or in a literal that is
not closed. Then whatever is put behind it and cannot end the comment or the literal is swallowed.
-/

namespace CallableKinds

/-! ### Code characters without their places -/

namespace Piece

/-- The code character of a piece. -/
def char? (p : Piece) : Option Char := p.spot?.map Spot.char

@[simp] theorem char?_bare (p : Piece) : p.bare.char? = p.char? := by
  cases p <;> rfl

@[simp] theorem char?_later (distance : Nat) (p : Piece) : (p.later distance).char? = p.char? := by
  cases p <;> rfl

end Piece

namespace Lexed

/-- The code characters without their places. -/
def chars (l : Lexed) : List Char := l.pieces.filterMap Piece.char?

theorem chars_eq_map (l : Lexed) : l.chars = l.spots.map Spot.char :=
  (List.map_filterMap ..).symm

theorem chars_eq_outline (l : Lexed) : l.chars = l.outline.filterMap Piece.char? := by
  simp only [chars, outline, List.filterMap_map, Function.comp_def, Piece.char?_bare]

@[simp] theorem chars_cons (p : Piece) (l : Lexed) :
    (l.cons p).chars = p.char?.toList ++ l.chars := by
  rw [chars, pieces_cons, List.filterMap_cons]
  cases p.char? <;> rfl

/-- What is put behind a text is code: all literals are closed and the last piece is no comment. -/
structure LeadsOn (l : Lexed) : Prop where
  closed : l.unclosed = none
  uncommented : l.pieces.getLast?.bind Piece.comment? = none

instance (l : Lexed) : Decidable l.LeadsOn :=
  decidable_of_iff (l.unclosed = none ∧ l.pieces.getLast?.bind Piece.comment? = none)
    ⟨fun h => ⟨h.1, h.2⟩, fun h => ⟨h.closed, h.uncommented⟩⟩

theorem leadsOn_cons {p : Piece} {l : Lexed}
    (more : l.unclosed = none → l.pieces = [] → p.comment? = none) :
    (l.cons p).LeadsOn ↔ l.LeadsOn := by
  have hlast (closed : l.unclosed = none) : (p :: l.pieces).getLast?.bind Piece.comment? =
      l.pieces.getLast?.bind Piece.comment? := by
    cases hpieces : l.pieces with
    | nil => exact more closed hpieces
    | cons next rest => rw [List.getLast?_cons_cons]
  constructor
  · intro leads
    exact ⟨leads.closed, hlast leads.closed ▸ leads.uncommented⟩
  · intro leads
    refine ⟨leads.closed, ?_⟩
    rw [pieces_cons, hlast leads.closed]
    exact leads.uncommented

end Lexed

/-- The code characters of a text. -/
def codeChars (text : List Char) : List Char := (lex text).chars

/-- Where a text stands makes no difference to its code characters. -/
theorem chars_lexFrom (pos : Nat) (before : Option Char) (text : List Char) :
    (lexFrom 0 pos before text).chars = codeChars text ∧
    (lexFrom 0 pos before text).unclosed = (lex text).unclosed := by
  obtain ⟨houtline, hunclosed⟩ := lexFrom_later 0 0 pos none before text
  rw [Nat.zero_add] at houtline hunclosed
  refine ⟨?_, hunclosed⟩
  rw [Lexed.chars_eq_outline, houtline, codeChars, lex, Lexed.chars_eq_outline]
  simp only [List.filterMap_map, Function.comp_def, Piece.char?_later]

/-! ### Lexemes of texts that are put together -/

variable {c : Char} {front back : List Char} {skip pos : Nat} {before : Option Char}

theorem lineLength_append_of_lt (lt : lineLength front < front.length) (back : List Char) :
    lineLength (front ++ back) = lineLength front := by
  induction front with
  | nil =>
      cases lt
  | cons d front ih =>
      by_cases hd : d = '\n'
      · simp [lineLength, hd]
      · rw [lineLength_cons_of_ne hd, List.length_cons] at lt
        rw [List.cons_append, lineLength_cons_of_ne hd, lineLength_cons_of_ne hd, ih (by omega)]

theorem lineLength_append_of_eq (eq : lineLength front = front.length) (back : List Char) :
    lineLength (front ++ back) = front.length + lineLength back := by
  induction front with
  | nil =>
      simp
  | cons d front ih =>
      by_cases hd : d = '\n'
      · simp [lineLength, hd] at eq
      · rw [lineLength_cons_of_ne hd, List.length_cons] at eq
        rw [List.cons_append, lineLength_cons_of_ne hd, ih (by omega), List.length_cons]
        omega

/-- A literal is the same in front of anything but a quote. -/
theorem literalLength_append_of_apart {q : Char} {n : Nat} (found : literalLength q front = .ok n)
    (apart : back.head? ≠ some q) : literalLength q (front ++ back) = .ok n := by
  obtain rfl | hsame := literalLength_append back found
  · obtain rfl := length_of_literalLength_self found
    refine literalLength_eq_ok_iff.mpr (Or.inr ⟨?_, 1, ?_, rfl⟩)
    · cases back with
      | nil =>
          simp
      | cons d back =>
          have hd : q ≠ d := by
            rintro rfl
            exact apart rfl
          rw [List.singleton_append, List.isPrefixOf, List.isPrefixOf, beq_false_of_ne hd,
            Bool.false_and, Bool.and_false]
    · obtain ⟨inner, m, hrest, -⟩ | ⟨-, m, hm, hn⟩ := literalLength_eq_ok_iff.mp found
      · cases hrest
      · obtain rfl : m = 1 := by omega
        exact closing_append back hm
  · exact hsame

/-- A delimiter does not reach over the end of a text in front of characters other than quotes. -/
theorem isPrefixOf_append_of_quoteless {q : Char} {delimiter : List Char}
    (uniform : ∀ d ∈ delimiter, d = q) (quoteless : q ∉ back) (front : List Char) :
    delimiter.isPrefixOf (front ++ back) = delimiter.isPrefixOf front := by
  induction delimiter generalizing front with
  | nil =>
      simp
  | cons d delimiter ih =>
      obtain ⟨rfl, huniform⟩ := List.forall_mem_cons.mp uniform
      cases front with
      | nil =>
          cases back with
          | nil =>
              rfl
          | cons c back =>
              exact isPrefixOf_of_ne (List.ne_of_not_mem_cons quoteless).symm back
      | cons c front =>
          rw [List.cons_append, List.isPrefixOf, List.isPrefixOf, ih huniform]

theorem closing_of_quoteless {q : Char} {delimiter text : List Char} (quoteless : q ∉ text) :
    closing (q :: delimiter) text = none := by
  fun_induction closing (q :: delimiter) text with
  | case1 => rfl
  | case2 => rfl
  | case3 d rest ih =>
      have hrest : q ∉ rest := fun member =>
        quoteless (List.mem_cons_of_mem _ (List.mem_cons_of_mem d member))
      rw [ih hrest]
      rfl
  | case4 c rest _ _ here =>
      rw [isPrefixOf_of_ne (List.ne_of_not_mem_cons quoteless).symm] at here
      cases here
  | case5 c rest _ _ _ ih =>
      rw [ih (List.not_mem_of_not_mem_cons quoteless)]
      rfl

/-- A delimiter that does not occur in a text does not occur further on where there are no quotes. -/
theorem closing_append_of_quoteless {q : Char} {delimiter : List Char}
    (uniform : ∀ d ∈ q :: delimiter, d = q) (quoteless : q ∉ back)
    (missing : closing (q :: delimiter) front = none) :
    closing (q :: delimiter) (front ++ back) = none := by
  fun_induction closing (q :: delimiter) front with
  | case1 =>
      exact closing_of_quoteless quoteless
  | case2 =>
      cases back with
      | nil =>
          rfl
      | cons d back =>
          have hback : closing (q :: delimiter) back = none :=
            closing_of_quoteless (List.not_mem_of_not_mem_cons quoteless)
          rw [List.singleton_append, closing, hback]
          rfl
  | case3 d rest ih =>
      rw [List.cons_append, List.cons_append, closing, ih (Option.map_eq_none_iff.mp missing)]
      rfl
  | case4 =>
      cases missing
  | case5 c rest hlast hescape hnot ih =>
      have hthere : ¬ (q :: delimiter).isPrefixOf (c :: rest ++ back) = true := by
        rw [isPrefixOf_append_of_quoteless uniform quoteless]
        exact hnot
      rw [List.cons_append, closing_cons (ne_backslash hlast hescape), ← List.cons_append,
        if_neg hthere, ih (Option.map_eq_none_iff.mp missing)]
      rfl

/-- A literal that is not closed in a text is not closed further on where there are no quotes. -/
theorem literalLength_append_of_quoteless {q : Char} {delimiter : List Char}
    (unclosed : literalLength q front = .error delimiter) (quoteless : q ∉ back) :
    literalLength q (front ++ back) = .error delimiter := by
  have hsame : delimiterOf q (front ++ back) = delimiterOf q front := by
    rw [delimiterOf, delimiterOf, isPrefixOf_append_of_quoteless (by simp) quoteless]
  have hdrop : (front ++ back).drop ((delimiterOf q front).length - 1) =
      front.drop ((delimiterOf q front).length - 1) ++ back := by
    apply List.drop_append_of_le_length
    rw [delimiterOf]
    split
    next here => exact (List.isPrefixOf_iff_prefix.mp here).length_le
    next => exact Nat.zero_le _
  obtain ⟨more, hmore, huniform⟩ := exists_delimiterOf q front
  unfold literalLength at unclosed ⊢
  dsimp only at unclosed ⊢
  rw [hsame, hdrop]
  rw [hmore] at unclosed ⊢
  cases hclosing : closing (q :: more) (front.drop ((q :: more).length - 1)) with
  | some n =>
      rw [hclosing] at unclosed
      cases unclosed
  | none =>
      rw [hclosing] at unclosed
      rw [closing_append_of_quoteless huniform quoteless hclosing]
      exact unclosed

/-- What stands at the beginning of a text is the same in front of anything but a quote, unless it is
a comment that goes up to the end. -/
theorem lexeme_append_of_apart (apart : ∀ q, isQuote q = true → back.head? ≠ some q)
    (closed : ∀ delimiter, lexeme c front ≠ .unclosed delimiter)
    (inside : ∀ n, lexeme c front = .comment n → lineLength front < front.length) :
    lexeme c (front ++ back) = lexeme c front := by
  cases hlexeme : lexeme c front with
  | character =>
      exact lexeme_eq_character_iff.mpr (lexeme_eq_character_iff.mp hlexeme)
  | literal n =>
      obtain ⟨hquote, hlength⟩ := lexeme_eq_literal_iff.mp hlexeme
      exact lexeme_eq_literal_iff.mpr
        ⟨hquote, literalLength_append_of_apart hlength (apart c hquote)⟩
  | comment n =>
      obtain ⟨hhash, hlength⟩ := lexeme_eq_comment_iff.mp hlexeme
      have hline := lineLength_append_of_lt (inside n hlexeme) back
      exact lexeme_eq_comment_iff.mpr ⟨hhash, by rw [hline, hlength]⟩
  | unclosed delimiter =>
      exact absurd hlexeme (closed delimiter)

/-! ### Texts that are put together -/

theorem lexFrom_length (text : List Char) (pos : Nat) (before : Option Char) :
    lexFrom text.length pos before text = ⟨[], none⟩ := by
  induction text generalizing pos before with
  | nil => rfl
  | cons c text ih => exact ih (pos + 1) (some c)

/-- A text with something left in it has a piece. -/
theorem pieces_lexFrom_ne_nil {text : List Char} (left : skip < text.length)
    (closed : (lexFrom skip pos before text).unclosed = none) :
    (lexFrom skip pos before text).pieces ≠ [] := by
  induction text generalizing skip pos before with
  | nil =>
      cases left
  | cons c rest ih =>
      cases skip with
      | succ skip =>
          exact ih (Nat.lt_of_succ_lt_succ left) closed
      | zero =>
          obtain hclosed | ⟨delimiter, hunclosed⟩ := (lexeme c rest).closed_or_unclosed
          · rw [lexFrom_zero_cons hclosed]
            exact List.cons_ne_nil _ _
          · rw [lexFrom_of_unclosed hunclosed] at closed
            cases closed

/-- A text leads on if what is behind its first lexeme does, unless that is a comment that goes up to
the end. -/
theorem leadsOn_cons_ofLexeme {spot : Spot}
    (inside : ∀ n, lexeme c front = .comment n → lineLength front < front.length) :
    ((lexFrom (lexeme c front).taken pos before front).cons
        (.ofLexeme spot (lexeme c front))).LeadsOn ↔
      (lexFrom (lexeme c front).taken pos before front).LeadsOn := by
  apply Lexed.leadsOn_cons
  intro closed empty
  cases hlexeme : lexeme c front with
  | comment n =>
      have hline := inside n hlexeme
      have htaken : (lexeme c front).taken = lineLength front := by
        rw [hlexeme, (lexeme_eq_comment_iff.mp hlexeme).2]
        rfl
      rw [htaken] at closed empty
      exact absurd empty (pieces_lexFrom_ne_nil hline closed)
  | _ => rfl

/-- Behind a text with all literals closed another one is lexed in its place, unless it is swallowed by a
comment that goes up to the end of the first one. -/
theorem exists_lexFrom_append_of_closed (fits : skip ≤ front.length)
    (closed : (lexFrom skip pos before front).unclosed = none)
    (ends : (lexFrom skip pos before front).pieces.getLast?.bind Piece.comment? = none ∨
      back.head? = some '\n')
    (apart : ∀ q, isQuote q = true → back.head? ≠ some q) :
    ∃ earlier,
      lexFrom skip pos before (front ++ back) =
        (lexFrom 0 (pos + front.length) (front.getLast?.or before) back).prepend earlier ∧
      (lexFrom skip pos before front).outline = earlier.map Piece.bare := by
  induction front generalizing skip pos before with
  | nil =>
      obtain rfl : skip = 0 := Nat.le_zero.mp fits
      exact ⟨[], rfl, rfl⟩
  | cons c front ih =>
      have hbefore : (c :: front).getLast?.or before = front.getLast?.or (some c) := by
        cases front <;> simp [List.getLast?_cons]
      have hpos : pos + (c :: front).length = pos + 1 + front.length := by
        simp only [List.length_cons]
        omega
      rw [hbefore, hpos]
      cases skip with
      | succ skip =>
          exact ih (Nat.le_of_succ_le_succ fits) closed ends
      | zero =>
          obtain hclosed | ⟨delimiter, hunclosed⟩ := (lexeme c front).closed_or_unclosed
          · rw [lexFrom_zero_cons hclosed] at closed ends ⊢
            obtain ⟨hlexeme, hlater⟩ : lexeme c (front ++ back) = lexeme c front ∧
                ((lexFrom (lexeme c front).taken (pos + 1) (some c) front).pieces.getLast?.bind
                  Piece.comment? = none ∨ back.head? = some '\n') := by
              by_cases hend : ∃ n, lexeme c front = .comment n ∧ lineLength front = front.length
              · obtain ⟨n, hcomment, hline⟩ := hend
                obtain ⟨rfl, hn⟩ := lexeme_eq_comment_iff.mp hcomment
                have hlast : lexFrom (lexeme '#' front).taken (pos + 1) (some '#') front =
                    ⟨[], none⟩ := by
                  rw [hcomment, Lexeme.taken, hn, Nat.add_sub_cancel, hline]
                  exact lexFrom_length front (pos + 1) (some '#')
                rw [hlast, hcomment] at ends
                have hnewline : back.head? = some '\n' := by
                  refine ends.resolve_left fun hlast => ?_
                  cases hlast
                obtain ⟨back, rfl⟩ := List.head?_eq_some_iff.mp hnewline
                refine ⟨?_, .inr hnewline⟩
                rw [hcomment, lexeme_eq_comment_iff, lineLength_append_of_eq hline, hn, hline]
                exact ⟨rfl, rfl⟩
              · have hinside : ∀ n, lexeme c front = .comment n →
                    lineLength front < front.length := fun n hcomment =>
                  Nat.lt_of_le_of_ne (lineLength_le front) fun heq => hend ⟨n, hcomment, heq⟩
                exact ⟨lexeme_append_of_apart apart hclosed hinside, ends.imp_left fun hlast =>
                  ((leadsOn_cons_ofLexeme hinside).mp ⟨closed, hlast⟩).uncommented⟩
            obtain ⟨earlier, hwhole, houtline⟩ := ih (taken_lexeme_le c front) closed hlater
            refine ⟨.ofLexeme ⟨pos, before, c, front ++ back⟩ (lexeme c front) :: earlier, ?_, ?_⟩
            · rw [List.cons_append, lexFrom_zero_cons (hlexeme ▸ hclosed), hlexeme, hwhole]
              rfl
            · rw [Lexed.outline, Lexed.pieces_cons, List.map_cons, List.map_cons,
                Piece.bare_ofLexeme, Piece.bare_ofLexeme]
              exact congrArg _ houtline
          · rw [lexFrom_of_unclosed hunclosed] at closed
            cases closed

/-- Behind a text that leads on, another one is lexed in its place. -/
theorem exists_lexFrom_append (fits : skip ≤ front.length)
    (leads : (lexFrom skip pos before front).LeadsOn)
    (apart : ∀ q, isQuote q = true → back.head? ≠ some q) :
    ∃ earlier,
      lexFrom skip pos before (front ++ back) =
        (lexFrom 0 (pos + front.length) (front.getLast?.or before) back).prepend earlier ∧
      (lexFrom skip pos before front).outline = earlier.map Piece.bare :=
  exists_lexFrom_append_of_closed fits leads.closed (.inl leads.uncommented) apart

/-- If the front of a text leads on, the text is lexed part by part, each in its place. -/
theorem lexAt_join {text : List Char} {start k : Nat} (le : start ≤ k) (fits : k ≤ text.length)
    (leads : (lexAt (text.take k) start).LeadsOn)
    (apart : ∀ q, isQuote q = true → text[k]? ≠ some q) :
    ∃ earlier,
      lexAt text start = (lexAt text k).prepend earlier ∧
      (lexAt (text.take k) start).outline = earlier.map Piece.bare := by
  have hlength : start + (slice text start k).length = k := by
    rw [slice, List.length_take, List.length_drop]
    omega
  have htake : lexAt (text.take k) start =
      lexFrom 0 start (charBefore text start) (slice text start k) := by
    rw [lexAt, charBefore_take le, List.drop_take, slice]
  rw [htake] at leads ⊢
  obtain ⟨earlier, hwhole, hfront⟩ := exists_lexFrom_append (Nat.zero_le _) leads
    fun q hq => by rw [List.head?_drop]; exact apart q hq
  rw [slice_append_drop text le, hlength, slice, getLast?_or_charBefore le fits] at hwhole
  exact ⟨earlier, hwhole, hfront⟩

/-- Behind a text that leads on, another one is lexed as it is on its own. -/
theorem lexFrom_join (fits : skip ≤ front.length) (leads : (lexFrom skip pos before front).LeadsOn)
    (apart : ∀ q, isQuote q = true → back.head? ≠ some q) :
    (lexFrom skip pos before (front ++ back)).chars =
        (lexFrom skip pos before front).chars ++ codeChars back ∧
      (lexFrom skip pos before (front ++ back)).unclosed = (lex back).unclosed := by
  obtain ⟨earlier, hwhole, houtline⟩ := exists_lexFrom_append fits leads apart
  obtain ⟨hchars, hunclosed⟩ :=
    chars_lexFrom (pos + front.length) (front.getLast?.or before) back
  rw [hwhole]
  refine ⟨?_, hunclosed⟩
  rw [(lexFrom skip pos before front).chars_eq_outline, houtline, ← hchars]
  simp only [Lexed.chars, Lexed.prepend, List.filterMap_append, List.filterMap_map,
    Function.comp_def, Piece.char?_bare]

/-- Behind a text that does not lead on, what could end neither a literal nor a comment is
swallowed. -/
theorem lexFrom_swallow (fits : skip ≤ front.length)
    (stuck : ¬ (lexFrom skip pos before front).LeadsOn)
    (quoteless : ∀ q, isQuote q = true → q ∉ back) (oneLine : '\n' ∉ back) :
    (lexFrom skip pos before (front ++ back)).chars = (lexFrom skip pos before front).chars := by
  have hapart (q : Char) (hq : isQuote q = true) : back.head? ≠ some q := fun first =>
    quoteless q hq (List.mem_of_head? first)
  induction front generalizing skip pos before with
  | nil =>
      refine absurd ⟨?_, ?_⟩ stuck
      · cases skip <;> rfl
      · cases skip <;> rfl
  | cons c front ih =>
      cases skip with
      | succ skip =>
          exact ih (Nat.le_of_succ_le_succ fits) stuck
      | zero =>
          obtain hclosed | ⟨delimiter, hunclosed⟩ := (lexeme c front).closed_or_unclosed
          · by_cases hend : ∃ n, lexeme c front = .comment n ∧ lineLength front = front.length
            · obtain ⟨n, hcomment, hline⟩ := hend
              obtain ⟨rfl, hn⟩ := lexeme_eq_comment_iff.mp hcomment
              have hback : lineLength back = back.length := by
                have hall : ∀ d ∈ back, (d != '\n') = true := by
                  intro d member
                  rw [bne_iff_ne]
                  rintro rfl
                  exact oneLine member
                rw [lineLength, List.takeWhile_eq_self_iff.mpr hall]
              have hwhole : lexeme '#' (front ++ back) = .comment ((front ++ back).length + 1) := by
                rw [lexeme_eq_comment_iff, lineLength_append_of_eq hline, hback, List.length_append]
                exact ⟨rfl, rfl⟩
              rw [List.cons_append, lexFrom, lexFrom, hwhole, hcomment, hn, hline]
              dsimp only
              rw [Nat.add_sub_cancel, Nat.add_sub_cancel, lexFrom_length, lexFrom_length]
              rfl
            · have hinside : ∀ n, lexeme c front = .comment n →
                  lineLength front < front.length := by
                intro n hcomment
                exact Nat.lt_of_le_of_ne (lineLength_le front) fun heq => hend ⟨n, hcomment, heq⟩
              have hlexeme := lexeme_append_of_apart hapart hclosed hinside
              rw [lexFrom_zero_cons hclosed, leadsOn_cons_ofLexeme hinside] at stuck
              rw [List.cons_append, lexFrom_zero_cons (hlexeme ▸ hclosed), hlexeme,
                lexFrom_zero_cons hclosed, Lexed.chars_cons, Lexed.chars_cons,
                ih (taken_lexeme_le c front) stuck]
              cases lexeme c front <;> rfl
          · obtain ⟨hquote, hfound⟩ := lexeme_eq_unclosed_iff.mp hunclosed
            have hlength := literalLength_append_of_quoteless hfound (quoteless c hquote)
            have hwhole := lexeme_eq_unclosed_iff.mpr ⟨hquote, hlength⟩
            rw [List.cons_append, lexFrom_of_unclosed hunclosed, lexFrom_of_unclosed hwhole]

/-- A literal that is not closed in a text is not closed further on where there are no quotes. -/
theorem unclosed_lexFrom_append {delimiter : List Char} (fits : skip ≤ front.length)
    (unclosed : (lexFrom skip pos before front).unclosed = some delimiter)
    (quoteless : ∀ q, isQuote q = true → q ∉ back) :
    (lexFrom skip pos before (front ++ back)).unclosed = some delimiter := by
  have hapart (q : Char) (hq : isQuote q = true) : back.head? ≠ some q := fun first =>
    quoteless q hq (List.mem_of_head? first)
  induction front generalizing skip pos before with
  | nil => cases skip <;> cases unclosed
  | cons c front ih =>
      cases skip with
      | succ skip => exact ih (Nat.le_of_succ_le_succ fits) unclosed
      | zero =>
          obtain hclosed | ⟨delimiter', hunclosed⟩ := (lexeme c front).closed_or_unclosed
          · rw [lexFrom_zero_cons hclosed, Lexed.unclosed_cons] at unclosed
            have hinside : ∀ n, lexeme c front = .comment n →
                lineLength front < front.length := by
              intro n hcomment
              refine Nat.lt_of_le_of_ne (lineLength_le front) fun heq => ?_
              -- Behind a comment that goes up to the end there is no literal.
              rw [hcomment, (lexeme_eq_comment_iff.mp hcomment).2, Lexeme.taken,
                Nat.add_sub_cancel, heq, lexFrom_length] at unclosed
              cases unclosed
            have hlexeme := lexeme_append_of_apart hapart hclosed hinside
            rw [List.cons_append, lexFrom_zero_cons (hlexeme ▸ hclosed), hlexeme]
            exact ih (taken_lexeme_le c front) unclosed
          · obtain ⟨hquote, hfound⟩ := lexeme_eq_unclosed_iff.mp hunclosed
            have hlength := literalLength_append_of_quoteless hfound (quoteless c hquote)
            have hwhole := lexeme_eq_unclosed_iff.mpr ⟨hquote, hlength⟩
            rw [lexFrom_of_unclosed hunclosed] at unclosed
            rw [List.cons_append, lexFrom_of_unclosed hwhole]
            exact unclosed

/-! ### Code characters of texts that are put together -/

theorem codeChars_append {front back : List Char} (leads : (lex front).LeadsOn)
    (apart : ∀ q, isQuote q = true → back.head? ≠ some q) :
    codeChars (front ++ back) = codeChars front ++ codeChars back :=
  (lexFrom_join (Nat.zero_le _) leads apart).1

theorem codeChars_append_of_stuck {front back : List Char} (stuck : ¬ (lex front).LeadsOn)
    (quoteless : ∀ q, isQuote q = true → q ∉ back) (oneLine : '\n' ∉ back) :
    codeChars (front ++ back) = codeChars front :=
  lexFrom_swallow (Nat.zero_le _) stuck quoteless oneLine

/-- Text without quotes and comments is code as a whole. -/
theorem codeChars_plain_append {front : List Char}
    (plain : ∀ c ∈ front, isQuote c = false ∧ c ≠ '#') (back : List Char) :
    codeChars (front ++ back) = front ++ codeChars back := by
  have hgeneral (pos : Nat) (before : Option Char) :
      (lexFrom 0 pos before (front ++ back)).chars = front ++ codeChars back := by
    induction front generalizing pos before with
    | nil =>
        exact (chars_lexFrom pos before back).1
    | cons c front ih =>
        obtain ⟨hc, hfront⟩ := List.forall_mem_cons.mp plain
        have hcode : lexeme c (front ++ back) = .character := lexeme_eq_character_iff.mpr hc
        rw [List.cons_append, lexFrom, hcode]
        dsimp only
        rw [Lexed.chars_cons, ih hfront]
        rfl
  exact hgeneral 0 none

theorem codeChars_of_plain {text : List Char} (plain : ∀ c ∈ text, isQuote c = false ∧ c ≠ '#') :
    codeChars text = text := by
  have happend := codeChars_plain_append plain []
  rwa [List.append_nil, show codeChars [] = [] from rfl, List.append_nil] at happend

/-- Text without quotes, comments and line breaks is code as a whole, unless it is swallowed. -/
theorem codeChars_append_plain (front : List Char) {back : List Char}
    (plain : ∀ c ∈ back, isQuote c = false ∧ c ≠ '#' ∧ c ≠ '\n') :
    codeChars (front ++ back) = codeChars front ++ if (lex front).LeadsOn then back else [] := by
  have hquoteless (q : Char) (hq : isQuote q = true) : q ∉ back := by
    intro member
    rw [(plain q member).1] at hq
    cases hq
  split
  next leads =>
      rw [codeChars_append leads fun q hq first => hquoteless q hq (List.mem_of_head? first),
        codeChars_of_plain fun c member => ⟨(plain c member).1, (plain c member).2.1⟩]
  next stuck =>
      rw [codeChars_append_of_stuck stuck hquoteless fun member => (plain _ member).2.2 rfl,
        List.append_nil]

/-- What belongs to a piece is passed over. -/
theorem chars_lexFrom_skip (front back : List Char) (pos : Nat) (before : Option Char) :
    (lexFrom front.length pos before (front ++ back)).chars = codeChars back := by
  induction front generalizing pos before with
  | nil => exact (chars_lexFrom pos before back).1
  | cons c front ih => exact ih (pos + 1) (some c)

/-- A literal has no code characters. -/
theorem codeChars_literal {inner : List Char} {n : Nat}
    (literal : lexeme c (inner ++ back) = .literal n) (whole : n = inner.length + 1) :
    codeChars (c :: inner ++ back) = codeChars back := by
  change (lexFrom 0 0 none (c :: (inner ++ back))).chars = _
  rw [lexFrom, literal, whole]
  dsimp only
  rw [Lexed.chars_cons, Nat.add_sub_cancel, chars_lexFrom_skip]
  rfl

end CallableKinds

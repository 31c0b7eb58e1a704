import CallableKinds.Proofs.Locality
import CallableKinds.Proofs.Outcome
import CallableKinds.Proofs.Spacing
import CallableKinds.Source.Lambda

/-!
# Texts on one line

A text with a space for every newline. Most of what is done with a text does not tell a newline from
a space: blanks are trimmed and collapsed, words begin and end beside them, and a text without
comments has the same pieces on one line. So the names in the header of an anonymous function do not
depend on its line breaks.
-/

namespace CallableKinds

/-- A space for a newline. -/
def unbreak (c : Char) : Char := if c = '\n' then ' ' else c

/-- A text on one line. -/
def unbroken (text : List Char) : List Char := text.map unbreak

/-- A text without spaces and newlines. -/
def Solid (word : List Char) : Prop := ∀ c ∈ word, c ≠ '\n' ∧ c ≠ ' '

instance (word : List Char) : Decidable (Solid word) :=
  List.decidableBAll (fun c => c ≠ '\n' ∧ c ≠ ' ') word

/-! ### Characters -/

theorem unbreak_of_ne {c : Char} (ne : c ≠ '\n') : unbreak c = c := if_neg ne

/-- What does not tell a newline from a space does not see that it was replaced. -/
theorem apply_unbreak {α : Type} {f : Char → α} (same : f ' ' = f '\n') (c : Char) :
    f (unbreak c) = f c := by
  by_cases hc : c = '\n'
  · rw [hc]
    exact same
  · rw [unbreak_of_ne hc]

@[simp] theorem isBlank_unbreak (c : Char) : isBlank (unbreak c) = isBlank c :=
  apply_unbreak (by decide) c

@[simp] theorem isWord_unbreak (c : Char) : isWord (unbreak c) = isWord c :=
  apply_unbreak (by decide) c

@[simp] theorem isQuote_unbreak (c : Char) : isQuote (unbreak c) = isQuote c :=
  apply_unbreak (by decide) c

@[simp] theorem isOpening_unbreak (c : Char) : isOpening (unbreak c) = isOpening c :=
  apply_unbreak (by decide) c

@[simp] theorem isClosing_unbreak (c : Char) : isClosing (unbreak c) = isClosing c :=
  apply_unbreak (by decide) c

theorem unbreak_eq_iff {c d : Char} (solid : d ≠ '\n' ∧ d ≠ ' ') : unbreak c = d ↔ c = d := by
  have h := apply_unbreak (f := fun c => decide (c = d)) (by simp [solid.1.symm, solid.2.symm]) c
  simpa using h

/-! ### Texts -/

@[simp] theorem unbroken_cons (c : Char) (rest : List Char) :
    unbroken (c :: rest) = unbreak c :: unbroken rest := rfl

@[simp] theorem length_unbroken (text : List Char) : (unbroken text).length = text.length :=
  List.length_map _

theorem unbroken_take (n : Nat) (text : List Char) :
    unbroken (text.take n) = (unbroken text).take n := List.map_take

theorem unbroken_drop (n : Nat) (text : List Char) :
    unbroken (text.drop n) = (unbroken text).drop n := List.map_drop

theorem unbroken_slice (text : List Char) (start stop : Nat) :
    unbroken (slice text start stop) = slice (unbroken text) start stop := by
  rw [slice, slice, unbroken_take, unbroken_drop]

theorem getElem?_unbroken (text : List Char) (i : Nat) :
    (unbroken text)[i]? = text[i]?.map unbreak := List.getElem?_map

theorem charBefore_unbroken (text : List Char) (i : Nat) :
    charBefore (unbroken text) i = (charBefore text i).map unbreak := by
  cases i with
  | zero => rfl
  | succ i => exact getElem?_unbroken text i

theorem head?_any_unbroken {p : Char → Bool} (same : p ' ' = p '\n') (text : List Char) :
    (unbroken text).head?.any p = text.head?.any p := by
  cases text with
  | nil => rfl
  | cons c rest => exact apply_unbreak same c

theorem solid_cons_iff {c : Char} {word : List Char} :
    Solid (c :: word) ↔ (c ≠ '\n' ∧ c ≠ ' ') ∧ Solid word := List.forall_mem_cons

/-- Only a solid text is the same on one line as a solid text. -/
theorem unbroken_eq_iff {text word : List Char} (solid : Solid word) :
    unbroken text = word ↔ text = word := by
  induction text generalizing word with
  | nil => rfl
  | cons c rest ih =>
      cases word with
      | nil => simp
      | cons d word =>
          obtain ⟨hd, hword⟩ := solid_cons_iff.mp solid
          rw [unbroken_cons, List.cons.injEq, List.cons.injEq, unbreak_eq_iff hd, ih hword]

theorem isPrefixOf_unbroken {word : List Char} (solid : Solid word) (text : List Char) :
    word.isPrefixOf (unbroken text) = word.isPrefixOf text := by
  induction text generalizing word with
  | nil => rfl
  | cons c rest ih =>
      cases word with
      | nil => rfl
      | cons d word =>
          obtain ⟨hd, hword⟩ := solid_cons_iff.mp solid
          rw [unbroken_cons, List.isPrefixOf_cons_cons, List.isPrefixOf_cons_cons, ih hword]
          congr 1
          rw [Bool.eq_iff_iff, beq_iff_eq, beq_iff_eq, eq_comm, unbreak_eq_iff hd, eq_comm]

theorem trimLeft_unbroken (text : List Char) :
    trimLeft (unbroken text) = unbroken (trimLeft text) := by
  simp [trimLeft, unbroken, List.dropWhile_map, Function.comp_def]

theorem trimRight_unbroken (text : List Char) :
    trimRight (unbroken text) = unbroken (trimRight text) := by
  have hreverse (s : List Char) : (unbroken s).reverse = unbroken s.reverse := List.map_reverse.symm
  rw [trimRight_eq_reverse, trimRight_eq_reverse, hreverse, trimLeft_unbroken, hreverse]

theorem trim_unbroken (text : List Char) : trim (unbroken text) = unbroken (trim text) := by
  rw [trim, trim, trimLeft_unbroken, trimRight_unbroken]

/-- A newline counts as a space where a text is collapsed. -/
theorem collapse_unbroken (text : List Char) : collapse (unbroken text) = collapse text := by
  induction text with
  | nil => rfl
  | cons c rest ih =>
      by_cases hc : isBlank c = true
      · rw [unbroken_cons, collapse_cons_of_blank _ (by simpa using hc),
          collapse_cons_of_blank _ hc, head?_any_unbroken (by decide), ih]
      · have hne : c ≠ '\n' := by
          rintro rfl
          exact hc isBlank_newline
        have hc : isBlank c = false := by simpa using hc
        rw [unbroken_cons, unbreak_of_ne hne, collapse_cons_of_not_blank _ hc,
          collapse_cons_of_not_blank _ hc, ih]

theorem squeeze_unbroken (text : List Char) : squeeze (unbroken text) = squeeze text := by
  rw [squeeze, squeeze, collapse_unbroken]

/-! ### Lexemes -/

theorem closing_unbroken {delimiter : List Char} (solid : Solid delimiter) (text : List Char) :
    closing delimiter (unbroken text) = closing delimiter text := by
  fun_induction closing delimiter text with
  | case1 => rfl
  | case2 => rfl
  | case3 d rest ih =>
      rw [unbroken_cons, unbroken_cons, unbreak_of_ne (by decide), closing, ih]
  | case4 c rest hlast hescape here =>
      have hplain : unbreak c ≠ '\\' :=
        (unbreak_eq_iff (by decide)).not.mpr (ne_backslash hlast hescape)
      rw [unbroken_cons, closing_cons hplain, ← unbroken_cons, isPrefixOf_unbroken solid, if_pos here]
  | case5 c rest hlast hescape hnot ih =>
      have hplain : unbreak c ≠ '\\' :=
        (unbreak_eq_iff (by decide)).not.mpr (ne_backslash hlast hescape)
      rw [unbroken_cons, closing_cons hplain, ← unbroken_cons, isPrefixOf_unbroken solid,
        if_neg hnot, ih]

theorem literalLength_unbroken {quote : Char} (solid : quote ≠ '\n' ∧ quote ≠ ' ')
    (rest : List Char) : literalLength quote (unbroken rest) = literalLength quote rest := by
  have hquotes (n : Nat) : Solid (List.replicate n quote) := fun c hc => by
    rw [List.eq_of_mem_replicate hc]
    exact solid
  have hdelimiter : delimiterOf quote (unbroken rest) = delimiterOf quote rest := by
    have hpair : Solid [quote, quote] := hquotes 2
    rw [delimiterOf, delimiterOf, isPrefixOf_unbroken hpair]
  have hsolid : Solid (delimiterOf quote rest) := by
    unfold delimiterOf
    split
    · exact hquotes 3
    · exact hquotes 1
  rw [literalLength, literalLength, hdelimiter, ← unbroken_drop, closing_unbroken hsolid]

/-- Only comments end with a line. -/
theorem lexeme_unbroken {c : Char} (plain : c ≠ '#') (rest : List Char) :
    lexeme (unbreak c) (unbroken rest) = lexeme c rest := by
  have hplain : unbreak c ≠ '#' := (unbreak_eq_iff (by decide)).not.mpr plain
  unfold lexeme
  rw [isQuote_unbreak]
  split
  next hquote =>
    have hsolid : c ≠ '\n' ∧ c ≠ ' ' := by
      constructor <;> rintro rfl <;> cases hquote
    rw [unbreak_of_ne hsolid.1, literalLength_unbroken hsolid]
  next => rw [if_neg (by simpa using hplain), if_neg (by simpa using plain)]

/-! ### Pieces -/

namespace Spot

/-- A spot of a text on one line. -/
def unbroken (s : Spot) : Spot :=
  ⟨s.pos, s.before.map unbreak, unbreak s.char, CallableKinds.unbroken s.after⟩

theorem pos_eq_of_unbroken_eq {s s' : Spot} (same : s'.unbroken = s.unbroken) : s'.pos = s.pos := by
  have h : s'.unbroken.pos = s.unbroken.pos := congrArg Spot.pos same
  exact h

theorem startsWord_unbroken {keyword : List Char} (solid : Solid keyword) (s : Spot) :
    s.unbroken.startsWord keyword = s.startsWord keyword := by
  have hbefore : (s.before.map unbreak).any isWord = s.before.any isWord := by
    cases s.before <;> simp
  have hafter : ((CallableKinds.unbroken (s.char :: s.after)).drop keyword.length).head?.any isWord =
      ((s.char :: s.after).drop keyword.length).head?.any isWord := by
    rw [← unbroken_drop, head?_any_unbroken (by decide)]
  unfold startsWord CallableKinds.startsWord unbroken
  rw [← unbroken_cons, isPrefixOf_unbroken solid, hbefore, hafter]

end Spot

namespace Lexed

/-- No piece is a comment. -/
def CommentFree (l : Lexed) : Prop := ∀ p ∈ l.pieces, p.comment? = none

theorem firstComment?_eq_none_iff {l : Lexed} : l.firstComment? = none ↔ l.CommentFree :=
  List.findSome?_eq_none_iff

theorem commentFree_iff_outline {l : Lexed} :
    l.CommentFree ↔ ∀ p ∈ l.outline, p.comment? = none := by
  simp [CommentFree, outline]

theorem commentFree_cons_iff {p : Piece} {l : Lexed} :
    (l.cons p).CommentFree ↔ p.comment? = none ∧ l.CommentFree := List.forall_mem_cons

/-- Only the surroundings of the spots change when a text without comments is put on one line. -/
structure OnOneLine (l l' : Lexed) : Prop where
  spots : l'.spots = l.spots.map Spot.unbroken
  unclosed : l'.unclosed = l.unclosed

/-- A piece in front of two texts stands in both of them at the same place. -/
theorem OnOneLine.cons {l l' : Lexed} (h : l.OnOneLine l') (s : Spot) {x : Lexeme}
    (plain : (Piece.ofLexeme s x).comment? = none) :
    (l.cons (.ofLexeme s x)).OnOneLine (l'.cons (.ofLexeme s.unbroken x)) where
  spots := by
    cases x with
    | character =>
        exact congrArg (List.cons s.unbroken) h.spots
    | unclosed =>
        exact congrArg (List.cons s.unbroken) h.spots
    | literal =>
        exact h.spots
    | comment => cases plain
  unclosed := h.unclosed

end Lexed

/-- A text has comments on one line only if it has some. -/
theorem commentFree_unbroken_iff {skip pos : Nat} {before before' : Option Char} {text : List Char} :
    (lexFrom skip pos before' (unbroken text)).CommentFree ↔
      (lexFrom skip pos before text).CommentFree := by
  induction text generalizing skip pos before before' with
  | nil =>
      cases skip <;> rfl
  | cons c rest ih =>
      cases skip with
      | succ skip =>
          exact ih
      | zero =>
          rw [unbroken_cons]
          by_cases hhash : c = '#'
          · subst hhash
            have hcomment (s : List Char) : lexeme '#' s = .comment (lineLength s + 1) :=
              lexeme_eq_comment_iff.mpr ⟨rfl, rfl⟩
            rw [unbreak_of_ne (by decide), lexFrom_zero_cons (by simp [hcomment]),
              lexFrom_zero_cons (by simp [hcomment]), hcomment, hcomment]
            constructor <;> intro free <;> cases (Lexed.commentFree_cons_iff.mp free).1
          · have hlexeme := lexeme_unbroken hhash rest
            rcases (lexeme c rest).closed_or_unclosed with hclosed | ⟨delimiter, hunclosed⟩
            · rw [lexFrom_zero_cons (hlexeme ▸ hclosed), lexFrom_zero_cons hclosed, hlexeme,
                Lexed.commentFree_cons_iff, Lexed.commentFree_cons_iff, ih]
              cases lexeme c rest <;> rfl
            · rw [lexFrom_of_unclosed (hlexeme.trans hunclosed), lexFrom_of_unclosed hunclosed]

/-- A text without comments has the same pieces on one line. -/
theorem onOneLine_lexFrom {skip pos : Nat} {before : Option Char} {text : List Char}
    (free : (lexFrom skip pos before text).CommentFree) :
    (lexFrom skip pos before text).OnOneLine
      (lexFrom skip pos (before.map unbreak) (unbroken text)) := by
  induction text generalizing skip pos before with
  | nil =>
      cases skip <;> exact ⟨rfl, rfl⟩
  | cons c rest ih =>
      cases skip with
      | succ skip =>
          exact ih free
      | zero =>
          rcases (lexeme c rest).closed_or_unclosed with hclosed | ⟨delimiter, hunclosed⟩
          · rw [lexFrom_zero_cons hclosed] at free ⊢
            obtain ⟨hplain, hrest⟩ := Lexed.commentFree_cons_iff.mp free
            have hhash : c ≠ '#' := by
              rintro rfl
              cases hplain
            have hlexeme := lexeme_unbroken hhash rest
            rw [unbroken_cons, lexFrom_zero_cons (hlexeme ▸ hclosed), hlexeme]
            exact (ih hrest).cons ⟨pos, before, c, rest⟩ hplain
          · have hhash : c ≠ '#' := by
              rintro rfl
              cases hunclosed
            have hunbroken : lexeme (unbreak c) (unbroken rest) = .unclosed delimiter := by
              rw [lexeme_unbroken hhash, hunclosed]
            rw [lexFrom_of_unclosed hunclosed, unbroken_cons, lexFrom_of_unclosed hunbroken]
            exact ⟨rfl, rfl⟩

theorem onOneLine_lexAt {text : List Char} {start : Nat} (free : (lexAt text start).CommentFree) :
    (lexAt text start).OnOneLine (lexAt (unbroken text) start) := by
  rw [lexAt, lexAt, charBefore_unbroken, ← unbroken_drop]
  exact onOneLine_lexFrom free

/-! ### Parts of a text without comments -/

/-- Where a text stands does not matter to its comments. -/
theorem commentFree_lexFrom_iff {skip pos : Nat} {before : Option Char} {text : List Char} :
    (lexFrom skip pos before text).CommentFree ↔ (lexFrom skip 0 none text).CommentFree := by
  have hmoved := (lexFrom_later skip 0 pos none before text).1
  rw [Nat.zero_add] at hmoved
  rw [Lexed.commentFree_iff_outline, Lexed.commentFree_iff_outline, hmoved]
  simp [Piece.comment?_later_eq_none_iff]

/-- There is no comment in the front of a text without comments, even if the front ends inside a
literal. -/
theorem commentFree_front {skip pos : Nat} {before : Option Char} {front back : List Char}
    (free : (lexFrom skip pos before (front ++ back)).CommentFree) :
    (lexFrom skip pos before front).CommentFree := by
  induction front generalizing skip pos before with
  | nil =>
      cases skip <;> exact nofun
  | cons c front ih =>
      cases skip with
      | succ skip =>
          exact ih free
      | zero =>
          -- What the front has here for a lexeme, the text has too.
          have hnext {x : Lexeme} (there : lexeme c (front ++ back) = x)
              (here : lexeme c front = x) (closed : ∀ delimiter, x ≠ .unclosed delimiter) :
              (lexFrom 0 pos before (c :: front)).CommentFree := by
            rw [List.cons_append, lexFrom_zero_cons (there ▸ closed), there] at free
            rw [lexFrom_zero_cons (here ▸ closed), here]
            obtain ⟨hplain, hrest⟩ := Lexed.commentFree_cons_iff.mp free
            refine Lexed.commentFree_cons_iff.mpr ⟨?_, ih hrest⟩
            cases x with
            | comment => cases hplain
            | _ => rfl
          cases hlexeme : lexeme c front with
          | character =>
              exact hnext (lexeme_eq_character_iff.mpr (lexeme_eq_character_iff.mp hlexeme)) hlexeme
                nofun
          | comment n =>
              have hthere : lexeme c (front ++ back) = .comment _ :=
                lexeme_eq_comment_iff.mpr ⟨(lexeme_eq_comment_iff.mp hlexeme).1, rfl⟩
              rw [List.cons_append, lexFrom_zero_cons (by simp [hthere]), hthere] at free
              cases (Lexed.commentFree_cons_iff.mp free).1
          | unclosed delimiter =>
              rw [lexFrom_of_unclosed hlexeme]
              exact nofun
          | literal n =>
              obtain ⟨hquote, hlength⟩ := lexeme_eq_literal_iff.mp hlexeme
              rcases literalLength_append back hlength with rfl | hthere
              · obtain rfl := length_of_literalLength_self hlength
                rw [lexFrom_zero_cons (by simp [hlexeme]), hlexeme]
                exact Lexed.commentFree_cons_iff.mpr ⟨rfl, nofun⟩
              · exact hnext (lexeme_eq_literal_iff.mpr ⟨hquote, hthere⟩) hlexeme nofun

/-- No piece of a text is a comment. -/
def CommentFree (text : List Char) : Prop := (lex text).CommentFree

namespace CommentFree

variable {text : List Char}

theorem take (free : CommentFree text) (n : Nat) : CommentFree (text.take n) := by
  have hparts : (lexFrom 0 0 none (text.take n ++ text.drop n)).CommentFree := by
    rw [List.take_append_drop]
    exact free
  exact commentFree_front hparts

/-- A code character may be taken from the start of a text. -/
theorem tail {c : Char} (free : CommentFree (c :: text)) (code : isQuote c = false ∧ c ≠ '#') :
    CommentFree text := by
  have hlexeme : lexeme c text = .character := lexeme_eq_character_iff.mpr code
  have hparts := free
  rw [CommentFree, lex, lexFrom_zero_cons (by simp [hlexeme]), hlexeme] at hparts
  exact commentFree_lexFrom_iff.mp (Lexed.commentFree_cons_iff.mp hparts).2

theorem drop_word {word : List Char} (free : CommentFree (word ++ text))
    (code : ∀ c ∈ word, isQuote c = false ∧ c ≠ '#') : CommentFree text := by
  induction word with
  | nil => exact free
  | cons c word ih =>
      obtain ⟨hc, hword⟩ := List.forall_mem_cons.mp code
      exact ih (tail free hc) hword

end CommentFree

/-! ### Splitting -/

theorem cuts_unbroken {d : Char} (solid : d ≠ '\n' ∧ d ≠ ' ') (depth : Int) (spots : List Spot) :
    cuts [d] depth (spots.map Spot.unbroken) = cuts [d] depth spots := by
  induction spots generalizing depth with
  | nil => rfl
  | cons s rest ih =>
      have hseparator : ([unbreak s.char] = [d]) ↔ [s.char] = [d] := by
        simpa using unbreak_eq_iff solid
      simp only [List.map_cons, cuts, Spot.unbroken, isOpening_unbreak, isClosing_unbreak,
        hseparator, ih]

theorem partsBetween_unbroken (text : List Char) (start : Nat) (positions : List Nat) :
    partsBetween (unbroken text) start positions =
      (partsBetween text start positions).map unbroken := by
  induction positions generalizing start with
  | nil => simp [unbroken_drop]
  | cons cut rest ih => simp [partsBetween, unbroken_slice, ih]

theorem splitTopLevel_unbroken {text : List Char} (free : CommentFree text) {d : Char}
    (solid : d ≠ '\n' ∧ d ≠ ' ') :
    splitTopLevel (unbroken text) [d] = (splitTopLevel text [d]).map (List.map unbroken) := by
  have hline := onOneLine_lexFrom free
  have hspots : (lex (unbroken text)).spots = (lex text).spots.map Spot.unbroken := hline.spots
  have hunclosed : (lex (unbroken text)).unclosed = (lex text).unclosed := hline.unclosed
  rw [splitTopLevel, splitTopLevel, Lexed.complete, Lexed.complete, Lexed.finish, Lexed.finish,
    hspots, hunclosed]
  cases (lex text).unclosed with
  | none =>
      change Except.ok _ = Except.ok _
      rw [cuts_unbroken solid, partsBetween_unbroken]
  | some delimiter => rfl

/-! ### Headers of anonymous functions -/

theorem parameterName_unbroken (part : List Char) :
    parameterName (unbroken part) = unbroken (parameterName part) := by
  have hstars (s : List Char) : (unbroken s).dropWhile (· == '*') =
      unbroken (s.dropWhile (· == '*')) := by
    have hsame (c : Char) : (unbreak c == '*') = (c == '*') :=
      apply_unbreak (f := (· == '*')) (by decide) c
    simp [unbroken, List.dropWhile_map, Function.comp_def, hsame]
  have hdefault (s : List Char) : (unbroken s).takeWhile (· != '=') =
      unbroken (s.takeWhile (· != '=')) := by
    have hsame (c : Char) : (unbreak c != '=') = (c != '=') :=
      apply_unbreak (f := (· != '=')) (by decide) c
    simp [unbroken, List.takeWhile_map, Function.comp_def, hsame]
  rw [parameterName, parameterName, hstars, hdefault, trim_unbroken]

theorem parameterNames_unbroken {params : List Char} (free : CommentFree params) :
    parameterNames (unbroken params) = (parameterNames params).map (List.map unbroken) := by
  rw [parameterNames, parameterNames, splitTopLevel_unbroken free (by decide)]
  cases splitTopLevel params [','] with
  | error fault => rfl
  | ok parts =>
      have hmark (part : List Char) :
          ([[], ['/'], ['*']] : List (List Char)).contains (unbroken part) =
            ([[], ['/'], ['*']] : List (List Char)).contains part := by
        rw [Bool.eq_iff_iff, List.contains_iff_mem, List.contains_iff_mem]
        simp only [List.mem_cons, List.not_mem_nil, or_false,
          unbroken_eq_iff (show Solid [] by decide), unbroken_eq_iff (show Solid ['/'] by decide),
          unbroken_eq_iff (show Solid ['*'] by decide)]
      change Except.ok _ = Except.ok _
      simp only [List.map_map, List.filter_map, Function.comp_def, trim_unbroken, hmark,
        parameterName_unbroken]

/-- The first part of a text that is split is the front of the text. -/
theorem headD_of_splitTopLevel {text separator : List Char} {parts : List (List Char)}
    (split : splitTopLevel text separator = .ok parts) : ∃ n, parts.headD [] = text.take n := by
  obtain ⟨spots, -, hparts⟩ := ok_of_bind split
  cases hparts
  cases cuts separator 0 spots with
  | nil => exact ⟨text.length, by simp⟩
  | cons cut rest => exact ⟨cut, rfl⟩

theorem headerNames_unbroken {expression : List Char}
    (free : CommentFree (expression.drop lambdaWord.length)) :
    headerNames (unbroken expression) = (headerNames expression).map (List.map unbroken) := by
  rw [headerNames, headerNames, ← unbroken_drop, splitTopLevel_unbroken free (by decide)]
  cases hsplit : splitTopLevel (expression.drop lambdaWord.length) [':'] with
  | error fault => rfl
  | ok parts =>
      obtain ⟨n, hheader⟩ := headD_of_splitTopLevel hsplit
      have hhead : (parts.map unbroken).headD [] = unbroken (parts.headD []) := by
        cases parts <;> rfl
      change parameterNames ((parts.map unbroken).headD []) =
        (parameterNames (parts.headD [])).map (List.map unbroken)
      rw [hhead, hheader, parameterNames_unbroken (free.take n)]

/-- Only solid names are the same on one line as solid names. -/
theorem map_unbroken_eq_iff {names : List (List Char)} (solid : ∀ name ∈ names, Solid name)
    (found : List (List Char)) : found.map unbroken = names ↔ found = names := by
  induction found generalizing names with
  | nil => rfl
  | cons name rest ih =>
      cases names with
      | nil => simp
      | cons expected names =>
          obtain ⟨hname, hnames⟩ := List.forall_mem_cons.mp solid
          rw [List.map_cons, List.cons.injEq, List.cons.injEq, unbroken_eq_iff hname, ih hnames]

/-- The expression with some names is found on one line as well. -/
theorem withNames_unbroken {names : List (List Char)} (solid : ∀ name ∈ names, Solid name)
    {expressions : List (List Char)}
    (free : ∀ e ∈ expressions, CommentFree (e.drop lambdaWord.length)) :
    withNames names (expressions.map unbroken) =
      (withNames names expressions).map (Option.map unbroken) := by
  induction expressions with
  | nil => rfl
  | cons e rest ih =>
      obtain ⟨he, hrest⟩ := List.forall_mem_cons.mp free
      rw [List.map_cons, withNames, withNames, headerNames_unbroken he]
      cases headerNames e with
      | error fault => rfl
      | ok found =>
          change (if found.map unbroken = names then pure (some (unbroken e)) else _) =
            Except.map _ (if found = names then pure (some e) else _)
          simp only [map_unbroken_eq_iff solid, ih hrest]
          split <;> rfl

end CallableKinds

import CallableKinds.Proofs.LogicalLines
import CallableKinds.Proofs.Nested
import CallableKinds.Proofs.Spacing
import CallableKinds.Source.Decorators
import Mathlib.Data.Bool.AllAny

/-!
# Decorated definitions

The decorators in front of a definition are read one after the other, each up to the end of its logical
line. A decorator that is written on a logical line of its own comes off with its expression as a whole
and nothing else, whatever the definition is. A comment behind the expression is part of the line; if it
ends with a backslash, the line goes on behind it, and the lines of the definition may be lost to it.
-/

namespace CallableKinds

/-! ### Decorators -/

/-- Lines with a newline behind each of them. -/
def terminated (lines : List (List Char)) : List Char := lines.flatMap (· ++ ['\n'])

theorem terminated_cons_append (line : List Char) (lines : List (List Char)) (rest : List Char) :
    terminated (line :: lines) ++ rest = line ++ '\n' :: (terminated lines ++ rest) := by
  rw [terminated, List.flatMap_cons, List.append_assoc, List.append_assoc, List.singleton_append,
    terminated]

/-- A line with nothing but blanks and a comment. -/
def IsFiller (line : List Char) : Prop :=
  '\n' ∉ line ∧ (line.dropWhile isBlank).head?.all (· == '#') = true

instance (line : List Char) : Decidable (IsFiller line) := inferInstanceAs (Decidable (_ ∧ _))

/-- A text is the expression of a decorator if its literals are closed, it begins and ends with code
characters that are no blanks and does not end with a backslash, its brackets balance and none is closed
that was not opened, and outside of them no line ends and there is no comment. -/
structure IsDecorator (text : List Char) : Prop where
  closed : (lex text).unclosed = none
  first : (lex text).spots.head?.any (fun s => s.pos == 0 && !isBlank s.char) = true
  last : (lex text).spots.getLast?.any
    (fun s => s.pos + 1 == text.length && !isBlank s.char && s.char != '\\') = true
  opened : ∀ n ≤ (lex text).spots.length, 0 ≤ nesting ((lex text).spots.take n)
  balanced : nesting (lex text).spots = 0
  line : ∀ n (lt : n < (lex text).spots.length), nesting ((lex text).spots.take n) = 0 →
    (lex text).spots[n].endsLine = false
  comments : ∀ p ∈ (lex text).pieces, ∀ i ∈ p.comment?, 0 < openAt text 0 i

/-- A decorator on a logical line of its own, with the blank lines and the lines of comments below. -/
structure DecoratorLine where
  /-- The blanks behind the sign. -/
  lead : List Char
  expression : List Char
  /-- The blanks and the comment behind the expression. -/
  margin : List Char
  below : List (List Char)
  blank : ∀ c ∈ lead, isBlank c = true ∧ c ≠ '\n'
  isDecorator : IsDecorator expression
  isFiller : ∀ line ∈ margin :: below, IsFiller line

namespace DecoratorLine

/-- What stands behind the expression, line by line. -/
def fillers (d : DecoratorLine) : List Char := terminated (d.margin :: d.below)

/-- The text of a decorator with the lines below. -/
def text (d : DecoratorLine) : List Char := '@' :: (d.lead ++ d.expression ++ d.fillers)

/-- The comment behind the expression and the ones below all end with a backslash. -/
def Joins (d : DecoratorLine) : Prop := ∀ line ∈ d.margin :: d.below, line.getLast? = some '\\'

instance (d : DecoratorLine) : Decidable d.Joins := List.decidableBAll _ _

end DecoratorLine

/-- A definition in the form in which it follows its decorators. -/
def IsDefinition (definition : List Char) : Prop :=
  definition.head?.all (fun c => !isBlank c && c != '#' && c != '@') = true

instance (definition : List Char) : Decidable (IsDefinition definition) :=
  inferInstanceAs (Decidable (_ = true))

/-! ### The last code character of a line -/

theorem codeEnd_append (front back : List Spot) :
    codeEnd (front ++ back) = if codeEnd back = 0 then codeEnd front else codeEnd back := by
  induction front with
  | nil => simp [codeEnd]
  | cons s front ih =>
      rw [List.cons_append, codeEnd, codeEnd, ih]
      cases codeEnd back with
      | zero => rfl
      | succ k => rfl

/-- The last code character is told from the positions and the characters alone. -/
theorem codeEnd_congr {spots spots' : List Spot} (same : spots.map Spot.item = spots'.map Spot.item) :
    codeEnd spots = codeEnd spots' := by
  induction spots generalizing spots' with
  | nil =>
      obtain rfl : spots' = [] := by simpa using same.symm
      rfl
  | cons s spots ih =>
      obtain ⟨t, rest, rfl, hitem, hrest⟩ := List.map_eq_cons_iff.mp same.symm
      obtain ⟨hpos, hchar⟩ := Prod.mk.inj hitem
      rw [codeEnd, codeEnd, ih hrest.symm, hpos, hchar]

/-- In a text a part ends with the character that it ends with on its own. -/
theorem codeEnd_excerpt {distance : Nat} {spots spots' : List Spot}
    (same : List.Forall₂ (Spot.ReadsAs distance) spots spots') :
    codeEnd spots = if codeEnd spots' = 0 then 0 else codeEnd spots' + distance := by
  induction same with
  | nil => rfl
  | @cons s t spots spots' hst _ ih =>
      rw [codeEnd, codeEnd, ih, hst.char, hst.pos]
      cases codeEnd spots' with
      | zero =>
          cases isBlank t.char
          · exact Nat.add_right_comm ..
          · rfl
      | succ k => rw [if_neg (Nat.succ_ne_zero k), Nat.add_right_comm]

variable {text rest : List Char} {i j k n : Nat}

/-! ### Reading over a part of a line -/

/-- The text is read from `i` up to `j` on one logical line, its brackets balance there, and the last code
character that is no blank stands in front of `n`; there is none if that is zero. -/
def ReadsOver (text : List Char) (i j n : Nat) : Prop :=
  ∃ pieces, lexAt text i = (lexAt text j).prepend pieces ∧
    lineStop 0 (pieces.filterMap Piece.spot?) = none ∧ nesting (pieces.filterMap Piece.spot?) = 0 ∧
    codeEnd (pieces.filterMap Piece.spot?) = n

namespace ReadsOver

theorem refl (text : List Char) (i : Nat) : ReadsOver text i i 0 := ⟨[], rfl, rfl, rfl, rfl⟩

theorem trans {m : Nat} (first : ReadsOver text i j n) (second : ReadsOver text j k m) :
    ReadsOver text i k (if m = 0 then n else m) := by
  obtain ⟨pieces, hlex, hstop, hnesting, rfl⟩ := first
  obtain ⟨pieces', hlex', hstop', hnesting', rfl⟩ := second
  refine ⟨pieces ++ pieces', ?_, ?_, ?_, ?_⟩
  · rw [hlex, hlex', Lexed.prepend_prepend]
  · rw [List.filterMap_append, lineStop_append, hstop, hnesting]
    exact hstop'
  · rw [List.filterMap_append, nesting_append, hnesting, hnesting']
    rfl
  · rw [List.filterMap_append, codeEnd_append]

/-- A line that is read over ends where a line would that begins behind that. -/
theorem logicalLineEnd_eq (reads : ReadsOver text i j n) :
    logicalLineEnd text i = logicalLineEnd text j := by
  obtain ⟨pieces, hlex, hstop, hnesting, -⟩ := reads
  rw [logicalLineEnd, logicalLineEnd, hlex, Lexed.spots_prepend, lineStop_append, hstop, hnesting]
  rfl

/-- A line that is read over up to a newline is cut behind its last code character. -/
theorem stripComment_take (reads : ReadsOver text 0 k n) (newline : text[k]? = some '\n') :
    stripComment (text.take k) = .ok ((text.take k).take n) := by
  obtain ⟨pieces, hlex, -, -, rfl⟩ := reads
  obtain ⟨hlt, hchar⟩ := List.getElem?_eq_some_iff.mp newline
  have hdrop : text.drop k = '\n' :: text.drop (k + 1) := by
    rw [List.drop_eq_getElem_cons hlt, hchar]
  have begins : (lexAt text 0).BeginsAt k := by
    rw [hlex, lexAt_of_character hdrop (by decide)]
    exact ⟨_, List.mem_append_right _ List.mem_cons_self, rfl⟩
  obtain ⟨earlier, hlex', houtline, hclosed⟩ := lexAt_cut begins
  have hsame : earlier = pieces := by
    have hpieces := congrArg Lexed.pieces (hlex'.symm.trans hlex)
    exact List.append_cancel_right hpieces
  rw [lexAt_zero] at houtline hclosed
  have hcode : codeEnd (lex (text.take k)).spots = codeEnd (pieces.filterMap Piece.spot?) := by
    let l : Lexed := ⟨pieces, none⟩
    have hitems : (lex (text.take k)).items = l.items := by
      rw [Lexed.items_eq_filterMap_outline, Lexed.items_eq_filterMap_outline, houtline, hsame]
      rfl
    exact codeEnd_congr hitems
  rw [stripComment, Lexed.complete, Lexed.finish, hclosed, ← hcode]
  rfl

end ReadsOver

theorem codeEnd_of_blank {spots : List Spot} (blank : ∀ s ∈ spots, isBlank s.char = true) :
    codeEnd spots = 0 := by
  induction spots with
  | nil => rfl
  | cons s rest ih =>
      obtain ⟨hs, hrest⟩ := List.forall_mem_cons.mp blank
      simp [codeEnd, ih hrest, hs]

/-- Pieces without code but blanks are read over, if no line ends at them. -/
theorem readsOver_of_idle {pieces : List Piece}
    (idle : ∀ s ∈ pieces.filterMap Piece.spot?, isBlank s.char = true ∧ s.endsLine = false)
    (hlex : lexAt text i = (lexAt text j).prepend pieces) : ReadsOver text i j 0 :=
  ⟨pieces, hlex, lineStop_eq_none_iff.mpr fun _ lt _ => (idle _ (List.getElem_mem lt)).2,
    nesting_of_blank fun s hs => (idle s hs).1, codeEnd_of_blank fun s hs => (idle s hs).1⟩

theorem readsOver_of_blank {part : List Char} (blank : ∀ c ∈ part, isBlank c = true ∧ c ≠ '\n')
    (hdrop : text.drop i = part ++ rest) : ReadsOver text i (i + part.length) 0 := by
  obtain ⟨spots, hlex, rfl⟩ :=
    exists_lexAt_of_plain (fun c member => code_of_isBlank (blank c member).1) hdrop
  refine readsOver_of_idle (fun s hs => ?_) hlex
  have hs : s ∈ spots := by
    simpa [List.filterMap_map, Function.comp_def, Piece.spot?] using hs
  obtain ⟨hblank, hline⟩ := blank _ (List.mem_map_of_mem hs)
  exact ⟨hblank, Bool.eq_false_iff.mpr fun hends => hline (char_of_endsLine hends)⟩

/-- A newline that is joined to the next line is read over. -/
theorem readsOver_of_joined (newline : text[i]? = some '\n')
    (joined : charBefore text i = some '\\') : ReadsOver text i (i + 1) 0 := by
  obtain ⟨hlt, hchar⟩ := List.getElem?_eq_some_iff.mp newline
  have hdrop : text.drop i = '\n' :: text.drop (i + 1) := by
    rw [List.drop_eq_getElem_cons hlt, hchar]
  have hlex : lexAt text i =
      (lexAt text (i + 1)).prepend [.code ⟨i, charBefore text i, '\n', text.drop (i + 1)⟩] :=
    lexAt_of_character hdrop (by decide)
  refine readsOver_of_idle (fun s hs => ?_) hlex
  obtain rfl := List.mem_singleton.mp hs
  exact ⟨isBlank_newline, by rw [Spot.endsLine, joined]; rfl⟩

/-- The length of a comment up to the end of its line. -/
theorem lineLength_append {line : List Char} (single : '\n' ∉ line)
    (ends : rest.head?.all (· == '\n') = true) : lineLength (line ++ rest) = line.length := by
  have hsingle : ∀ c ∈ line, (c != '\n') = true := by
    intro c member
    rw [bne_iff_ne]
    rintro rfl
    exact single member
  rw [lineLength, List.takeWhile_append_of_pos hsingle]
  cases rest with
  | nil => simp
  | cons c rest =>
      obtain rfl : c = '\n' := by simpa using ends
      simp

theorem IsFiller.blank {line : List Char} (h : IsFiller line) :
    ∀ c ∈ line.takeWhile isBlank, isBlank c = true ∧ c ≠ '\n' := by
  intro c member
  refine ⟨List.mem_takeWhile_imp member, ?_⟩
  rintro rfl
  exact h.1 ((List.takeWhile_sublist _).subset member)

/-- A filler is blanks and then nothing or a comment. -/
theorem IsFiller.dropWhile_cases {line : List Char} (h : IsFiller line) :
    line.dropWhile isBlank = [] ∨
      ∃ comment, line.dropWhile isBlank = '#' :: comment ∧ '\n' ∉ comment := by
  have hsingle : '\n' ∉ line.dropWhile isBlank := fun member =>
    h.1 ((List.dropWhile_sublist _).subset member)
  have hhash := h.2
  cases hcomment : line.dropWhile isBlank with
  | nil => exact .inl rfl
  | cons c comment =>
      rw [hcomment] at hhash hsingle
      obtain rfl : c = '#' := by simpa using hhash
      exact .inr ⟨comment, rfl, List.not_mem_of_not_mem_cons hsingle⟩

/-- A filler is read over up to the end of its line. -/
theorem IsFiller.readsOver {line : List Char} (h : IsFiller line)
    (ends : rest.head?.all (· == '\n') = true) (hdrop : text.drop i = line ++ rest) :
    ReadsOver text i (i + line.length) 0 := by
  have hline := List.takeWhile_append_dropWhile (p := isBlank) (l := line)
  have hlength := congrArg List.length hline
  rw [← hline, List.append_assoc] at hdrop
  have hblank := readsOver_of_blank h.blank hdrop
  rcases h.dropWhile_cases with hnil | ⟨comment, hcomment, hsingle⟩
  · rw [hnil, List.append_nil] at hline
    rwa [hline] at hblank
  · have hbehind : text.drop (i + (line.takeWhile isBlank).length) = '#' :: (comment ++ rest) := by
      rw [← List.drop_drop, hdrop, List.drop_left, hcomment, List.cons_append]
    have hlexeme : lexeme '#' (comment ++ rest) = .comment (comment.length + 1) :=
      lexeme_eq_comment_iff.mpr ⟨rfl, by rw [lineLength_append hsingle ends]⟩
    have hlex := lexAt_of_drop hbehind (by simp [hlexeme])
    rw [hlexeme, Lexeme.taken, Nat.add_sub_cancel] at hlex
    have hidle : ∀ s ∈ [Piece.comment (i + (line.takeWhile isBlank).length)
        (comment.length + 1)].filterMap Piece.spot?, isBlank s.char = true ∧ s.endsLine = false :=
      List.forall_mem_nil _
    have hreads := hblank.trans (readsOver_of_idle hidle hlex)
    rw [List.length_append, hcomment, List.length_cons] at hlength
    rwa [Nat.add_assoc, Nat.add_assoc, Nat.add_comm 1, hlength] at hreads

/-- Lines of fillers that all end with a backslash are read over. -/
theorem readsOver_of_joins {lines : List (List Char)} (fillers : ∀ line ∈ lines, IsFiller line)
    (joins : ∀ line ∈ lines, line.getLast? = some '\\')
    (hdrop : text.drop i = terminated lines ++ rest) :
    ReadsOver text i (i + (terminated lines).length) 0 := by
  induction lines generalizing i with
  | nil => exact .refl text i
  | cons line lines ih =>
      obtain ⟨hfiller, hfillers⟩ := List.forall_mem_cons.mp fillers
      obtain ⟨hjoins, hlines⟩ := List.forall_mem_cons.mp joins
      rw [terminated_cons_append] at hdrop
      have hbehind := drop_add_length hdrop
      have hjoined := charBefore_of_getLast? hdrop hjoins
      have hnewline := readsOver_of_joined (getElem?_of_drop_eq_cons hbehind) hjoined
      have hreads := ((hfiller.readsOver rfl hdrop).trans hnewline).trans
        (ih hfillers hlines (drop_succ_of_drop_eq_cons hbehind))
      have hlength : (terminated (line :: lines)).length =
          line.length + 1 + (terminated lines).length := by
        rw [terminated, List.flatMap_cons, List.length_append, List.length_append, terminated]
        rfl
      rwa [hlength, ← Nat.add_assoc, ← Nat.add_assoc]

/-- Lines of fillers are read over up to the first one that does not end with a backslash. -/
theorem exists_readsOver_of_not_joins {lines : List (List Char)}
    (fillers : ∀ line ∈ lines, IsFiller line) (apart : ¬ ∀ line ∈ lines, line.getLast? = some '\\')
    (single : charBefore text i ≠ some '\\')
    (hdrop : text.drop i = terminated lines ++ rest) :
    ∃ k more, ReadsOver text i k 0 ∧ i ≤ k ∧ charBefore text k ≠ some '\\' ∧
      text.drop k = '\n' :: (terminated more ++ rest) ∧ ∀ line ∈ more, IsFiller line := by
  induction lines generalizing i with
  | nil => exact absurd (List.forall_mem_nil _) apart
  | cons line lines ih =>
      obtain ⟨hfiller, hfillers⟩ := List.forall_mem_cons.mp fillers
      rw [terminated_cons_append] at hdrop
      have hbefore := charBefore_add_length hdrop
      have hreads := hfiller.readsOver rfl hdrop
      have hnext := drop_add_length hdrop
      have hnewline := getElem?_of_drop_eq_cons hnext
      by_cases hjoined : line.getLast? = some '\\'
      · have happart : ¬ ∀ line ∈ lines, line.getLast? = some '\\' := fun h =>
          apart (List.forall_mem_cons.mpr ⟨hjoined, h⟩)
        rw [hjoined, Option.some_or] at hbefore
        obtain ⟨k, more, hmore, hle, hlast, hdrop', hfillers'⟩ := ih hfillers happart
          (by rw [charBefore_succ, hnewline]; decide) (drop_succ_of_drop_eq_cons hnext)
        have hwhole := (hreads.trans (readsOver_of_joined hnewline hbefore)).trans hmore
        exact ⟨k, more, hwhole, by omega, hlast, hdrop', hfillers'⟩
      · refine ⟨i + line.length, lines, hreads, Nat.le_add_right .., ?_, hnext, hfillers⟩
        rw [hbefore]
        cases hlast : line.getLast? with
        | none => exact single
        | some c => rwa [Option.some_or, ← hlast]

/-! ### The line of a decorator -/

namespace IsDecorator

theorem exists_first (h : IsDecorator text) :
    ∃ c, text.head? = some c ∧ isBlank c = false := by
  obtain ⟨s, hs, hfirst⟩ := (Option.any_eq_true ..).mp h.first
  have member : s ∈ (lexAt text 0).spots := List.mem_of_head? hs
  simp only [Bool.and_eq_true, beq_iff_eq, Bool.not_eq_true'] at hfirst
  refine ⟨s.char, ?_, hfirst.2⟩
  rw [← (standsIn_of_mem_lexAt member).2.getElem?, hfirst.1, List.head?_eq_getElem?]

/-- The last code character of the expression is its last character. -/
theorem exists_last (h : IsDecorator text) :
    ∃ front s, (lex text).spots = front ++ [s] ∧ s.pos + 1 = text.length ∧
      text.getLast? = some s.char ∧ isBlank s.char = false ∧ s.char ≠ '\\' := by
  obtain ⟨s, hs, hlast⟩ := (Option.any_eq_true ..).mp h.last
  simp only [Bool.and_eq_true, beq_iff_eq, Bool.not_eq_true', bne_iff_ne] at hlast
  obtain ⟨⟨hpos, hsolid⟩, hescape⟩ := hlast
  obtain ⟨front, hspots⟩ := List.getLast?_eq_some_iff.mp hs
  have member : s ∈ (lexAt text 0).spots := List.mem_of_getLast? hs
  refine ⟨front, s, hspots, hpos, ?_, hsolid, hescape⟩
  rw [List.getLast?_eq_getElem?, ← hpos, Nat.add_sub_cancel,
    (standsIn_of_mem_lexAt member).2.getElem?]

theorem leadsOn (h : IsDecorator text) : (lex text).LeadsOn := by
  refine ⟨h.closed, Option.eq_none_iff_forall_ne_some.mpr fun i hi => ?_⟩
  obtain ⟨front, s, hspots, hpos, -⟩ := h.exists_last
  obtain ⟨p, hp, hcomment⟩ := Option.bind_eq_some_iff.mp hi
  have hs : s ∈ (lex text).spots := by simp [hspots]
  obtain ⟨q, hq, hspot⟩ := List.mem_filterMap.mp hs
  -- A comment at the end would begin behind the last character.
  obtain ⟨earlier, hpieces⟩ := List.getLast?_eq_some_iff.mp hp
  have hsorted := pairwise_start_lexFrom 0 0 none text
  change (lex text).pieces.Pairwise _ at hsorted
  have hplace := (start_of_mem_lexFrom (List.mem_of_getLast? hp)).2
  rw [hpieces, List.pairwise_append] at hsorted
  rw [hpieces, List.mem_append, List.mem_singleton] at hq
  cases q with
  | code t =>
      cases hspot
      rcases hq with hq | rfl
      · have hlt := hsorted.2.2 _ hq p (List.mem_singleton_self p)
        change s.pos < _ at hlt
        omega
      · cases hcomment
  | _ => cases hspot

/-- The expression is on one logical line. -/
theorem lineStop_eq_none (h : IsDecorator text) : lineStop 0 (lex text).spots = none := by
  refine lineStop_eq_none_iff.mpr fun n lt closed => h.line n lt ?_
  have := h.opened n (Nat.le_of_lt lt)
  omega

theorem codeEnd_eq (h : IsDecorator text) : codeEnd (lex text).spots = text.length := by
  obtain ⟨front, s, hspots, hpos, -, hsolid, -⟩ := h.exists_last
  have hlast : codeEnd [s] = s.pos + 1 := by
    simp [codeEnd, hsolid]
  rw [hspots, codeEnd_append, hlast, if_neg (Nat.succ_ne_zero _), hpos]

/-- In a text the expression is read over if it stands apart there. -/
theorem readsOver {front expression back : List Char} (h : IsDecorator expression)
    (apart : StandsApart front expression back) :
    ReadsOver (front ++ expression ++ back) front.length (front.length + expression.length)
      (front.length + expression.length) := by
  obtain ⟨pieces, hlex, -, hsame⟩ := apart.exists_lexAt_of_leadsOn (Nat.zero_le _) h.leadsOn
  obtain ⟨hnesting, hstop⟩ := lineStop_excerpt hsame 0
  have hcode := codeEnd_excerpt hsame
  rw [lexAt_zero] at hnesting hstop hcode
  rw [h.lineStop_eq_none] at hstop
  have hne : expression.length ≠ 0 := by
    obtain ⟨front, s, -, hpos, -⟩ := h.exists_last
    omega
  rw [h.codeEnd_eq, if_neg hne, Nat.add_comm] at hcode
  exact ⟨pieces, hlex, hstop, hnesting.trans h.balanced, hcode⟩

end IsDecorator

namespace DecoratorLine

/-- Behind the expression there is a blank or a comment. -/
theorem head?_fillers (d : DecoratorLine) (rest : List Char) :
    ∃ c, (d.fillers ++ rest).head? = some c ∧ isWord c = false ∧ isQuote c = false := by
  have hfiller := d.isFiller d.margin List.mem_cons_self
  have hblank := hfiller.blank
  rw [fillers, terminated_cons_append,
    ← List.takeWhile_append_dropWhile (p := isBlank) (l := d.margin)]
  cases htake : d.margin.takeWhile isBlank with
  | cons c part =>
      rw [htake] at hblank
      exact ⟨c, rfl, of_isBlank (hblank c List.mem_cons_self).1⟩
  | nil =>
      rcases hfiller.dropWhile_cases with hnil | ⟨comment, hcomment, -⟩
      · rw [hnil]
        exact ⟨'\n', rfl, by decide⟩
      · rw [hcomment]
        exact ⟨'#', rfl, by decide⟩

/-- The expression stands apart from what is around it. -/
theorem standsApart (d : DecoratorLine) (rest : List Char) :
    StandsApart d.lead d.expression (d.fillers ++ rest) := by
  obtain ⟨b, hbehind, hword, hquote⟩ := d.head?_fillers rest
  obtain ⟨c, hfirst, hsolid⟩ := d.isDecorator.exists_first
  refine ⟨?_, ?_, ?_, ?_⟩
  · rintro ⟨hlead, -⟩
    obtain ⟨a, ha, hletter⟩ := (Option.any_eq_true ..).mp hlead
    rw [(of_isBlank (d.blank a (List.mem_of_getLast? ha)).1).1] at hletter
    cases hletter
  · rintro ⟨-, hletter⟩
    rw [hbehind, Option.any_some, hword] at hletter
    cases hletter
  · rw [hfirst]
    rintro ⟨⟩
    cases hsolid
  · intro q hq hsame
    rw [hbehind, Option.some.injEq] at hsame
    rw [← hsame, hquote] at hq
    cases hq

/-- The decorator is read over up to the end of its expression. -/
theorem readsOver (d : DecoratorLine) (rest : List Char) :
    ReadsOver (d.lead ++ d.expression ++ (d.fillers ++ rest)) 0 (d.lead ++ d.expression).length
      (d.lead ++ d.expression).length := by
  have hlead : ReadsOver (d.lead ++ d.expression ++ (d.fillers ++ rest)) 0 (0 + d.lead.length) 0 :=
    readsOver_of_blank d.blank (List.append_assoc ..)
  have hexpression := d.isDecorator.readsOver (d.standsApart rest)
  rw [Nat.zero_add] at hlead
  have hreads := hlead.trans hexpression
  have hne : d.lead.length + d.expression.length ≠ 0 := by
    obtain ⟨front, s, -, hpos, -⟩ := d.isDecorator.exists_last
    omega
  rwa [if_neg hne, ← List.length_append] at hreads

/-- The expression does not end with a backslash. -/
theorem charBefore_fillers (d : DecoratorLine) (rest : List Char) :
    charBefore (d.lead ++ d.expression ++ (d.fillers ++ rest)) (d.lead ++ d.expression).length ≠
      some '\\' := by
  obtain ⟨-, s, -, -, hlast, -, hescape⟩ := d.isDecorator.exists_last
  rw [charBefore_append_length, List.getLast?_append, hlast, Option.some_or]
  simpa using hescape

/-- The line of a decorator ends behind its comment, or behind the first line of a comment below up to
which all comments end with a backslash. What is left of it without comments is its expression. -/
theorem exists_line (d : DecoratorLine) (apart : ¬ d.Joins) (rest : List Char) :
    let text := d.lead ++ d.expression ++ (d.fillers ++ rest)
    ∃ k more, logicalLineEnd text 0 = .ok k ∧
      stripComment (text.take k) = .ok (d.lead ++ d.expression) ∧
      text.drop k = '\n' :: (terminated more ++ rest) ∧ ∀ line ∈ more, IsFiller line := by
  intro text
  obtain ⟨k, more, hreads, hle, hlast, hdrop, hmore⟩ := exists_readsOver_of_not_joins d.isFiller apart
    (d.charBefore_fillers rest) List.drop_left
  have hwhole := (d.readsOver rest).trans hreads
  have hnewline := getElem?_of_drop_eq_cons hdrop
  refine ⟨k, more, ?_, ?_, hdrop, hmore⟩
  · rw [hwhole.logicalLineEnd_eq]
    exact logicalLineEnd_of_newline hnewline hlast
  · rw [hwhole.stripComment_take hnewline, if_pos rfl, List.take_take, Nat.min_eq_left hle,
      List.take_left]

end DecoratorLine

/-! ### Taking the decorators off -/

namespace Decorated

/-- A definition with one more decorator in front. -/
def cons (decorator : List Char) (d : Decorated) : Decorated :=
  { d with decorators := decorator :: d.decorators }

theorem splitFrom_eq_drop (skip : Nat) (source : List Char) :
    splitFrom skip source = splitFrom 0 (source.drop skip) := by
  induction source generalizing skip with
  | nil => cases skip <;> rfl
  | cons c source ih =>
      cases skip with
      | zero => rfl
      | succ skip => exact ih skip

/-- What is left of a text as the definition is not longer than the text. -/
theorem length_definition_le {skip : Nat} {source : List Char} {d : Decorated}
    (split : splitFrom skip source = .ok d) : d.definition.length ≤ source.length - skip := by
  fun_induction splitFrom skip source generalizing d with
  | case1 => cases split; exact Nat.zero_le _
  | case2 skip c rest ih =>
      have := ih split
      rw [List.length_cons]
      omega
  | case3 c rest blank ih =>
      have := ih split
      rw [List.length_cons]
      omega
  | case4 rest _ ih =>
      have := ih split
      rw [List.length_cons]
      omega
  | case5 rest _ _ ih =>
      obtain ⟨length, -, hnext⟩ := ok_of_bind split
      obtain ⟨expression, -, hnext⟩ := ok_of_bind hnext
      obtain ⟨d', hd', hresult⟩ := ok_of_bind hnext
      cases hresult
      have := ih _ hd'
      rw [List.length_cons]
      dsimp only
      omega
  | case6 c rest => cases split; exact Nat.le_refl _

theorem splitFrom_of_blank {part : List Char} (blank : ∀ c ∈ part, isBlank c = true)
    (back : List Char) : splitFrom 0 (part ++ back) = splitFrom 0 back := by
  induction part with
  | nil => rfl
  | cons c part ih =>
      obtain ⟨hc, hpart⟩ := List.forall_mem_cons.mp blank
      rw [List.cons_append, splitFrom, if_pos hc, ih hpart]

theorem splitFrom_newline (back : List Char) : splitFrom 0 ('\n' :: back) = splitFrom 0 back := by
  rw [splitFrom, if_pos isBlank_newline]

theorem splitFrom_filler {line : List Char} (h : IsFiller line) (back : List Char) :
    splitFrom 0 (line ++ '\n' :: back) = splitFrom 0 back := by
  rw [← List.takeWhile_append_dropWhile (p := isBlank) (l := line), List.append_assoc,
    splitFrom_of_blank fun c member => List.mem_takeWhile_imp member]
  rcases h.dropWhile_cases with hnil | ⟨comment, hcomment, hsingle⟩
  · rw [hnil, List.nil_append, splitFrom_newline]
  · rw [hcomment, List.cons_append, splitFrom, if_neg (by decide), if_pos rfl,
      lineLength_append hsingle rfl, splitFrom_eq_drop, List.drop_left, splitFrom_newline]

theorem splitFrom_fillers {lines : List (List Char)} (fillers : ∀ line ∈ lines, IsFiller line)
    (back : List Char) :
    splitFrom 0 (terminated lines ++ back) = splitFrom 0 back := by
  induction lines with
  | nil => rfl
  | cons line lines ih =>
      obtain ⟨hline, hlines⟩ := List.forall_mem_cons.mp fillers
      rw [terminated_cons_append, splitFrom_filler hline, ih hlines]

theorem squeeze_append_of_blank {part : List Char} (blank : ∀ c ∈ part, isBlank c = true)
    (s : List Char) : squeeze (part ++ s) = squeeze s := by
  rw [squeeze_eq_collapse_trim, squeeze_eq_collapse_trim, trim, trim, trimLeft, trimLeft,
    List.dropWhile_append_of_pos blank]

/-- The expression of a decorator is taken off with its line and the lines below. -/
theorem splitFrom_text (d : DecoratorLine) (apart : ¬ d.Joins) (back : List Char) :
    splitFrom 0 (d.text ++ back) = (splitFrom 0 back).map (cons (squeeze d.expression)) := by
  obtain ⟨k, more, hlength, hexpression, hdrop, hmore⟩ := d.exists_line apart back
  rw [DecoratorLine.text, List.cons_append, List.append_assoc, splitFrom, if_neg (by decide),
    if_neg (by decide), if_pos rfl, hlength]
  change (stripComment _ >>= _) = _
  rw [hexpression]
  change (splitFrom k _ >>= _) = _
  rw [splitFrom_eq_drop, hdrop, splitFrom_newline, splitFrom_fillers hmore,
    squeeze_append_of_blank fun c member => (d.blank c member).1]
  cases splitFrom 0 back <;> rfl

/-- Decorators are taken off whatever stands behind them. -/
theorem splitFrom_flatMap (ds : List DecoratorLine) (apart : ∀ d ∈ ds, ¬ d.Joins)
    (back : List Char) :
    splitFrom 0 (ds.flatMap DecoratorLine.text ++ back) = (splitFrom 0 back).map fun d =>
      { d with decorators := ds.map (fun d => squeeze d.expression) ++ d.decorators } := by
  induction ds with
  | nil =>
      change splitFrom 0 back = _
      cases splitFrom 0 back <;> rfl
  | cons d ds ih =>
      obtain ⟨hd, hds⟩ := List.forall_mem_cons.mp apart
      rw [List.flatMap_cons, List.append_assoc, splitFrom_text d hd, ih hds]
      cases splitFrom 0 back <;> rfl

theorem splitFrom_of_isDefinition {definition : List Char} (h : IsDefinition definition) :
    splitFrom 0 definition = .ok ⟨[], definition⟩ := by
  cases definition with
  | nil => rfl
  | cons c rest =>
      have hc : isBlank c = false ∧ c ≠ '#' ∧ c ≠ '@' := by
        simpa [IsDefinition, and_assoc] using h
      rw [splitFrom, if_neg (by simp [hc.1]), if_neg hc.2.1, if_neg hc.2.2]

/-- Unless comments join a decorator to what is behind it, all decorators come off with their expressions
up to spacing, and the definition is left. -/
theorem splitFrom_flatMap_definition (ds : List DecoratorLine) {definition : List Char}
    (apart : ∀ d ∈ ds, ¬ d.Joins) (begins : IsDefinition definition) :
    splitFrom 0 (ds.flatMap DecoratorLine.text ++ definition) =
      .ok ⟨ds.map fun d => squeeze d.expression, definition⟩ := by
  rw [splitFrom_flatMap ds apart, splitFrom_of_isDefinition begins]
  change Except.ok (⟨_ ++ [], _⟩ : Decorated) = _
  rw [List.append_nil]

end Decorated

/-- A decorator over two lines, with a comment and a literal inside its brackets. -/
def spreadDecorator : DecoratorLine where
  lead := [' ']
  expression := "a.b(c, # (\n  ')')".toList
  margin := "  # d".toList
  below := [[], "  # e\\".toList]
  blank := List.all_iff_forall_prop.mp rfl
  isDecorator := {
    closed := by decide +kernel
    first := by decide +kernel
    last := by decide +kernel
    opened := by decide +kernel
    balanced := by decide +kernel
    line := by decide +kernel
    comments := by decide +kernel }
  isFiller := by decide +kernel

theorem isDecorator_name : IsDecorator ['f'] where
  closed := by decide +kernel
  first := by decide +kernel
  last := by decide +kernel
  opened := by decide +kernel
  balanced := by decide +kernel
  line := by decide +kernel
  comments := by decide +kernel

/-- A name as a decorator, with nothing behind it. -/
def plainDecorator : DecoratorLine where
  lead := []
  expression := ['f']
  margin := []
  below := []
  blank := List.forall_mem_nil _
  isDecorator := isDecorator_name
  isFiller := by decide +kernel

/-- A name as a decorator, with a comment behind it that ends with a backslash. -/
def joinedDecorator : DecoratorLine where
  lead := []
  expression := ['f']
  margin := "# c\\".toList
  below := []
  blank := List.forall_mem_nil _
  isDecorator := isDecorator_name
  isFiller := by decide +kernel

namespace Decorated

/-- Decorators come off exactly: each with its expression up to spacing, whatever the definition is, if
no comment behind an expression ends with a backslash. -/
theorem split_decorated (ds : List DecoratorLine) {definition : List Char}
    (plain : ∀ d ∈ ds, d.margin.getLast? ≠ some '\\') (begins : IsDefinition definition) :
    split (ds.flatMap DecoratorLine.text ++ definition) =
      .ok ⟨ds.map fun d => squeeze d.expression, definition⟩ :=
  splitFrom_flatMap_definition ds
    (fun d member joins => plain d member (joins d.margin List.mem_cons_self)) begins

/-- A decorator over two lines with a comment and a literal inside its brackets, a comment behind it and
a blank line and another comment below it, then a decorator on the line above the definition, which is
not closed. -/
theorem split_decorated_spread :
    ((∀ d ∈ [spreadDecorator, plainDecorator], d.margin.getLast? ≠ some '\\') ∧
      IsDefinition "def f(): '".toList) ∧
    split "@ a.b(c, # (\n  ')')  # d\n\n  # e\\\n@f\ndef f(): '".toList =
      .ok ⟨["a.b(c, # ( ')')".toList, ['f']], "def f(): '".toList⟩ := by
  have plain : ∀ d ∈ [spreadDecorator, plainDecorator], d.margin.getLast? ≠ some '\\' := by
    decide +kernel
  have begins : IsDefinition "def f(): '".toList := by decide +kernel
  exact ⟨⟨plain, begins⟩,
    (split_decorated _ plain begins).trans (congrArg Except.ok (by decide +kernel))⟩

/-- If the comments behind and below a decorator all end with a backslash, then at least the first line
of the definition is taken for a part of the decorator. -/
theorem length_definition_lt_of_joins {d : DecoratorLine} {definition : List Char} {r : Decorated}
    (joins : d.Joins) (begins : IsDefinition definition) (nonempty : definition ≠ [])
    (split : splitFrom 0 (d.text ++ definition) = .ok r) :
    r.definition.length < definition.length := by
  obtain ⟨c, rest, rfl⟩ := List.exists_cons_of_ne_nil nonempty
  rw [DecoratorLine.text, List.cons_append, List.append_assoc, splitFrom, if_neg (by decide),
    if_neg (by decide), if_pos rfl] at split
  obtain ⟨stop, hstop, hnext⟩ := ok_of_bind split
  obtain ⟨expression, -, hnext⟩ := ok_of_bind hnext
  obtain ⟨r', hr', hresult⟩ := ok_of_bind hnext
  cases hresult
  have hle := length_definition_le hr'
  have hbehind : (d.lead ++ d.expression ++ (d.fillers ++ c :: rest)).drop
      (d.lead ++ d.expression).length = d.fillers ++ c :: rest := List.drop_left
  have hreads := (d.readsOver (c :: rest)).trans (readsOver_of_joins d.isFiller joins hbehind)
  have hchar := getElem?_of_drop_eq_cons (drop_add_length hbehind)
  have hlength : (d.lead ++ d.expression ++ (d.fillers ++ c :: rest)).length =
      (d.lead ++ d.expression).length + d.fillers.length + (c :: rest).length := by
    simp only [List.length_append]
    omega
  change ReadsOver _ 0 ((d.lead ++ d.expression).length + d.fillers.length) _ at hreads
  generalize d.lead ++ d.expression ++ (d.fillers ++ c :: rest) = text at *
  generalize (d.lead ++ d.expression).length + d.fillers.length = k at *
  -- The line goes on up to the definition, and no line ends at its first character.
  have hends := of_logicalLineEnd hstop
  rw [hreads.logicalLineEnd_eq] at hstop
  have hge := start_le_logicalLineEnd hstop (by omega)
  have hne : stop ≠ k := by
    rintro rfl
    rcases hends with hnewline | hend
    · rw [hchar, Option.some.injEq] at hnewline
      subst hnewline
      cases begins
    · rw [List.length_cons] at hlength
      omega
  rw [List.length_cons] at hlength ⊢
  dsimp only
  omega

/-- A comment continues a line exactly if it ends with a backslash: a logical line goes on behind the
newline of a comment outside of brackets if and only if it reaches the comment and the comment ends with
a backslash. So the comments behind some decorators leave the definition whole unless the one behind the
last decorator ends with a backslash, and all comments below that do as well; and if they do, lines of
the definition are taken into the decorator. -/
theorem comment_continues_line_iff (text : List Char) (start : Nat) :
    (∀ stop i length, logicalLineEnd text start = .ok stop →
      .comment i length ∈ (lexAt text start).pieces → openAt text start i ≤ 0 →
      (i + length < stop ↔
        i < stop ∧ i + length < text.length ∧ charBefore text (i + length) = some '\\')) ∧
    ∀ (ds : List DecoratorLine) (d : DecoratorLine) (definition : List Char),
      (∀ d ∈ ds, ¬ d.Joins) → IsDefinition definition → definition ≠ [] →
      (¬ d.Joins → split ((ds ++ [d]).flatMap DecoratorLine.text ++ definition) =
        .ok ⟨(ds ++ [d]).map fun d => squeeze d.expression, definition⟩) ∧
      (d.Joins → ∀ r, split ((ds ++ [d]).flatMap DecoratorLine.text ++ definition) = .ok r →
        r.definition.length < definition.length) := by
  refine ⟨fun stop i length => comment_lt_logicalLineEnd_iff,
    fun ds d definition apart begins nonempty => ⟨fun hlast => ?_, fun joins r hr => ?_⟩⟩
  · refine splitFrom_flatMap_definition (ds ++ [d]) (fun d' member => ?_) begins
    rcases List.mem_append.mp member with member | member
    · exact apart d' member
    · exact List.mem_singleton.mp member ▸ hlast
  · rw [List.flatMap_append, List.append_assoc, List.flatMap_singleton, split,
      splitFrom_flatMap ds apart] at hr
    cases hlast : splitFrom 0 (d.text ++ definition) with
    | error fault =>
        rw [hlast] at hr
        cases hr
    | ok r' =>
        rw [hlast] at hr
        cases hr
        exact length_definition_lt_of_joins (r := r') joins begins nonempty hlast

/-- A comment that ends with a backslash in the middle of a text, and one behind a decorator. -/
theorem comment_continues_line_iff_joined :
    (logicalLineEnd "a # c\\\nb".toList 0 = .ok 8 ∧
      (2 + 4 < 8 ↔ 2 < 8 ∧ 2 + 4 < "a # c\\\nb".toList.length ∧
        charBefore "a # c\\\nb".toList (2 + 4) = some '\\')) ∧
    ∀ r, split "@f# c\\\ndef f(): pass\n0".toList = .ok r →
      r.definition.length < "def f(): pass\n0".toList.length := by
  have ends : logicalLineEnd "a # c\\\nb".toList 0 = .ok 8 := eq_ok_of_toOption (by decide +kernel)
  obtain ⟨hlines, hdecorators⟩ := comment_continues_line_iff "a # c\\\nb".toList 0
  refine ⟨⟨ends, hlines 8 2 4 ends (by decide +kernel) (by decide +kernel)⟩, ?_⟩
  exact (hdecorators [] joinedDecorator "def f(): pass\n0".toList (List.forall_mem_nil _)
    (by decide +kernel) (by decide +kernel)).2 (by decide +kernel)

/-- The line of a text goes on behind the newline of a comment. -/
theorem not_logicalLineEnd_le_comment :
    ¬ ∀ (text : List Char) (start stop i length : Nat), logicalLineEnd text start = .ok stop →
      .comment i length ∈ (lexAt text start).pieces → openAt text start i ≤ 0 →
      text[i + length]? = some '\n' → stop ≤ i + length := by
  intro stops
  have ends : logicalLineEnd "a # c\\\nb".toList 0 = .ok 8 := eq_ok_of_toOption (by decide +kernel)
  have hle := stops "a # c\\\nb".toList 0 8 2 4 ends (by decide +kernel) (by decide +kernel)
    (by decide +kernel)
  exact absurd hle (by decide)

end Decorated

end CallableKinds

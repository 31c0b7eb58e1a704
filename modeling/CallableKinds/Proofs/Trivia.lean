import CallableKinds.Proofs.Locality
import CallableKinds.Proofs.Outcome
import CallableKinds.Source.Decorators

/-!
# What is stripped off a line

A line is cut behind its last code character that is no blank. No piece of the line is cut in two, and no
code but blanks is lost. But a literal is not code: one that stands behind that character is lost, as the
blanks and comments there are.
-/

namespace CallableKinds

variable {c : Char} {rest line : List Char} {spots : List Spot}

namespace Piece

/-- The position behind a piece. -/
def stop : Piece → Nat
  | code spot => spot.pos + 1
  | literal pos length => pos + length
  | comment pos length => pos + length

/-- A piece without meaning: a blank or a comment. -/
def isTrivial : Piece → Bool
  | code spot => isBlank spot.char
  | literal _ _ => false
  | comment _ _ => true

/-- A piece takes the characters of its lexeme. -/
theorem stop_ofLexeme (c : Char) (rest : List Char) (spot : Spot) :
    (ofLexeme spot (lexeme c rest)).stop = spot.pos + 1 + (lexeme c rest).taken := by
  cases hlexeme : lexeme c rest with
  | literal n =>
      have hpos : 0 < n := by
        rcases literalLength_eq_ok_iff.mp (lexeme_eq_literal_iff.mp hlexeme).2 with
          ⟨_, _, -, -, rfl⟩ | ⟨-, _, -, rfl⟩ <;> omega
      rw [ofLexeme, stop, Lexeme.taken]
      omega
  | comment n =>
      obtain ⟨-, rfl⟩ := lexeme_eq_comment_iff.mp hlexeme
      rw [ofLexeme, stop, Lexeme.taken]
      omega
  | _ => rfl

end Piece

/-- A piece begins where the one in front of it has ended. -/
theorem pairwise_stop_lexFrom (skip pos : Nat) (before : Option Char) (text : List Char) :
    (lexFrom skip pos before text).pieces.Pairwise fun p q => p.stop ≤ q.start := by
  induction text generalizing skip pos before with
  | nil => cases skip <;> exact .nil
  | cons c rest ih =>
      cases skip with
      | succ skip => exact ih ..
      | zero =>
          rcases (lexeme c rest).closed_or_unclosed with hclosed | ⟨delimiter, hunclosed⟩
          · rw [lexFrom_zero_cons hclosed]
            refine .cons (fun q member => ?_) (ih ..)
            rw [Piece.stop_ofLexeme]
            exact (start_of_mem_lexFrom member).1
          · rw [lexFrom_of_unclosed hunclosed]
            exact .nil

theorem start_lt_stop {start : Nat} {p : Piece} (member : p ∈ (lexAt line start).pieces) :
    p.start < p.stop := by
  obtain ⟨-, c, rest, -, hp, -⟩ := exists_of_mem_lexAt member
  rw [hp, Piece.stop_ofLexeme, Piece.start_ofLexeme]
  omega

/-! ### The last code character -/

theorem codeEnd_cases (spots : List Spot) :
    codeEnd spots = 0 ∨ ∃ s ∈ spots, isBlank s.char = false ∧ codeEnd spots = s.pos + 1 := by
  induction spots with
  | nil => exact .inl rfl
  | cons s rest ih =>
      rw [codeEnd]
      cases hlater : codeEnd rest with
      | zero =>
          cases hs : isBlank s.char with
          | true => exact .inl rfl
          | false => exact .inr ⟨s, List.mem_cons_self, hs, rfl⟩
      | succ later =>
          right
          obtain ⟨t, ht, hsolid, hend⟩ := ih.resolve_left (by omega)
          exact ⟨t, List.mem_cons_of_mem s ht, hsolid, hlater.symm.trans hend⟩

theorem lt_codeEnd (sorted : spots.Pairwise fun s t => s.pos < t.pos) {s : Spot} (member : s ∈ spots)
    (solid : isBlank s.char = false) : s.pos < codeEnd spots := by
  induction spots with
  | nil => cases member
  | cons t rest ih =>
      obtain ⟨hfirst, hrest⟩ := List.pairwise_cons.mp sorted
      rw [codeEnd]
      rcases List.mem_cons.mp member with rfl | member
      · cases hlater : codeEnd rest with
        | zero => simp [solid]
        | succ later =>
            obtain ⟨u, hu, -, hend⟩ := (codeEnd_cases rest).resolve_left (by omega)
            have hlt := hfirst u hu
            dsimp only
            omega
      · have hlt := ih hrest member
        cases hlater : codeEnd rest with
        | zero => omega
        | succ later =>
            dsimp only
            omega

/-! ### The stripped line -/

/-- No piece of a line goes over its last code character. -/
theorem stop_le_or_codeEnd_le {p : Piece} (member : p ∈ (lex line).pieces) :
    p.stop ≤ codeEnd (lex line).spots ∨ codeEnd (lex line).spots ≤ p.start := by
  rcases codeEnd_cases (lex line).spots with hzero | ⟨s, hs, -, hend⟩
  · exact .inr (hzero ▸ Nat.zero_le _)
  · obtain ⟨q, hq, hqs⟩ := List.mem_filterMap.mp hs
    obtain rfl : q = .code s := by
      cases q <;> cases hqs
      rfl
    obtain ⟨front, back, hpieces⟩ := List.append_of_mem hq
    have hsorted := pairwise_stop_lexFrom 0 0 none line
    rw [← lex, hpieces, List.pairwise_append, List.pairwise_cons] at hsorted
    rw [hpieces, List.mem_append, List.mem_cons] at member
    rw [hend]
    rcases member with hp | rfl | hp
    · exact .inl (Nat.le_succ_of_le (hsorted.2.2 p hp _ List.mem_cons_self))
    · exact .inl (Nat.le_refl _)
    · exact .inr (hsorted.2.1.1 p hp)

theorem stripComment_of_closed (closed : (lex line).unclosed = none) :
    stripComment line = .ok (line.take (codeEnd (lex line).spots)) := by
  rw [stripComment, Lexed.complete, Lexed.finish, closed]
  rfl

theorem codeEnd_le_length (line : List Char) : codeEnd (lex line).spots ≤ line.length := by
  rcases codeEnd_cases (lex line).spots with hzero | ⟨s, hs, -, hend⟩
  · exact hzero ▸ Nat.zero_le _
  · have hstands := (@standsIn_of_mem_lexAt line 0 s hs).2
    exact hend ▸ (List.getElem?_eq_some_iff.mp hstands.getElem?).1

/-- A line is stripped to a beginning of it in which all code but blanks is kept and no piece is cut in
two. What is removed is without meaning if and only if no literal stands behind the last code character
that is no blank. -/
theorem stripComment_removes_trivia_iff (closed : (lex line).unclosed = none) :
    ∃ kept removed, stripComment line = .ok kept ∧ line = kept ++ removed ∧
      (∀ p ∈ (lex line).pieces, p.stop ≤ kept.length ∨ kept.length ≤ p.start) ∧
      (∀ s ∈ (lex line).spots, isBlank s.char = false → s.pos < kept.length) ∧
      ((∀ p ∈ (lex line).pieces, kept.length ≤ p.start → p.isTrivial = true) ↔
        ∀ pos length, .literal pos length ∈ (lex line).pieces →
          ∃ s ∈ (lex line).spots, pos < s.pos ∧ isBlank s.char = false) := by
  have hlength := List.length_take_of_le (codeEnd_le_length line)
  have hkept : ∀ s ∈ (lex line).spots, isBlank s.char = false → s.pos < codeEnd (lex line).spots :=
    fun s => lt_codeEnd (pairwise_lexAt line 0)
  refine ⟨_, _, stripComment_of_closed closed, (List.take_append_drop _ line).symm, ?_⟩
  rw [hlength]
  refine ⟨fun p => stop_le_or_codeEnd_le, hkept, ?_, ?_⟩
  · intro trivia pos length member
    have hstop := (stop_le_or_codeEnd_le member).resolve_right fun hstart =>
      Bool.false_ne_true (trivia _ member hstart)
    have hlt : pos < codeEnd (lex line).spots :=
      Nat.lt_of_lt_of_le (@start_lt_stop line 0 _ member) hstop
    obtain ⟨s, hs, hsolid, hend⟩ := (codeEnd_cases (lex line).spots).resolve_left (by omega)
    refine ⟨s, hs, Nat.lt_of_le_of_ne (by omega) ?_, hsolid⟩
    -- A literal and a code character do not begin at the same place.
    rintro rfl
    obtain ⟨q, hq, hqs⟩ := List.mem_filterMap.mp hs
    cases q with
    | code t =>
        cases hqs
        cases @eq_of_start_eq line 0 _ _ hq member rfl
    | _ => cases hqs
  · intro followed p member hstart
    cases p with
    | code s =>
        by_contra hsolid
        have hs : s ∈ (lex line).spots := List.mem_filterMap.mpr ⟨_, member, rfl⟩
        exact absurd (hkept s hs (by simpa [Piece.isTrivial] using hsolid)) (Nat.not_lt.mpr hstart)
    | literal pos length =>
        obtain ⟨s, hs, hlt, hsolid⟩ := followed pos length member
        exact absurd (Nat.lt_trans hlt (hkept s hs hsolid)) (Nat.not_lt.mpr hstart)
    | comment => rfl

/-- A comment with a quote in it is removed, and one between the characters of the line is kept. -/
theorem stripComment_removes_trivia_iff_spread :
    let line := "tag('#',  # \"\n x) # y".toList
    let kept := "tag('#',  # \"\n x)".toList
    (lex line).unclosed = none ∧ stripComment line = .ok kept ∧
      ∀ p ∈ (lex line).pieces, kept.length ≤ p.start → p.isTrivial = true := by
  intro line kept
  have closed : (lex line).unclosed = none := rfl
  obtain ⟨kept', removed, hstripped, -, -, -, htrivia⟩ := stripComment_removes_trivia_iff closed
  have stripped : stripComment line = .ok kept := rfl
  obtain rfl : kept' = kept := Except.ok.inj (hstripped.symm.trans stripped)
  refine ⟨closed, stripped, htrivia.mpr fun pos length member => ?_⟩
  have hfirst : ∀ p ∈ (lex line).pieces, p.spot? = none → p.comment? = none → p.start < 15 := by decide
  have hlast : ∃ s ∈ (lex line).spots, s.pos = 15 ∧ isBlank s.char = false := by decide
  obtain ⟨s, hs, hpos, hsolid⟩ := hlast
  exact ⟨s, hs, hpos ▸ hfirst _ member rfl rfl, hsolid⟩

/-- A literal at the end of a line is removed as if it were a comment. -/
theorem not_stripComment_removes_trivia :
    ¬ ∀ line kept, stripComment line = .ok kept →
      ∀ p ∈ (lex line).pieces, kept.length ≤ p.start → p.isTrivial = true := by
  intro trivia
  have stripped : stripComment "a or \"b\"".toList = .ok "a or".toList := rfl
  have member : .literal 5 3 ∈ (lex "a or \"b\"".toList).pieces := by decide
  exact Bool.false_ne_true (trivia _ _ stripped _ member (by decide))

end CallableKinds

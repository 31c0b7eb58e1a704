import CallableKinds.Proofs.Lexemes
import CallableKinds.Text.Quoted

/-!
# Quoted texts are literals

Whatever a text is made of, its written form is a single literal for a lexer, wherever it stands in
front of anything but one more of its quotes: no quote and no backslash in it is taken for the end.
-/

namespace CallableKinds

variable {q c : Char} {s rest : List Char}

/-- The search for a quote passes over any other character that is no backslash. -/
theorem closing_other (plain : c ≠ '\\') (other : c ≠ q) (rest : List Char) :
    closing [q] (c :: rest) = (closing [q] rest).map (· + 1) := by
  rw [closing_cons plain, isPrefixOf_of_ne other, if_neg Bool.false_ne_true]

theorem closing_others {front : List Char} (others : ∀ d ∈ front, d ≠ '\\' ∧ d ≠ q)
    (rest : List Char) :
    closing [q] (front ++ rest) = (closing [q] rest).map (· + front.length) := by
  induction front with
  | nil =>
      simp
  | cons d front ih =>
      obtain ⟨⟨hplain, hother⟩, hrest⟩ := List.forall_mem_cons.mp others
      rw [List.cons_append, closing_other hplain hother, ih hrest, Option.map_map, List.length_cons]
      rfl

/-- It passes over a backslash together with the character behind it. -/
theorem closing_escaped (q c : Char) (rest : List Char) :
    closing [q] ('\\' :: c :: rest) = (closing [q] rest).map (· + 2) := rfl

/-- Hexadecimal digits are neither quotes nor backslashes. -/
theorem plain_of_mem_hexDigits {width n : Nat} (quote : isQuote q = true)
    (member : c ∈ hexDigits width n) : c ≠ '\\' ∧ c ≠ q := by
  have hdigit : ∀ k < 16, Nat.digitChar k ≠ '\\' ∧ isQuote (Nat.digitChar k) = false := by
    decide
  induction width generalizing n with
  | zero =>
      cases member
  | succ width ih =>
      rw [hexDigits, List.mem_append, List.mem_singleton] at member
      obtain hmember | rfl := member
      · exact ih hmember
      · obtain ⟨hplain, hquote⟩ := hdigit (n % 16) (Nat.mod_lt n (by omega))
        refine ⟨hplain, ?_⟩
        rintro hq
        rw [hq, quote] at hquote
        cases hquote

/-- A written character does not begin with the quote, and the search for the quote passes over
it. -/
theorem closing_quoteChar (quote : isQuote q = true) (c : Char) (rest : List Char) :
    closing [q] (quoteChar q c ++ rest) =
        (closing [q] rest).map (· + (quoteChar q c).length) ∧
      ∃ d more, quoteChar q c = d :: more ∧ d ≠ q := by
  have hbackslash : '\\' ≠ q := by
    rintro rfl
    cases quote
  have hhex (d : Char) (width n : Nat) :
      closing [q] ('\\' :: d :: hexDigits width n ++ rest) =
        (closing [q] rest).map (· + ('\\' :: d :: hexDigits width n).length) := by
    rw [List.cons_append, List.cons_append, closing_escaped,
      closing_others (fun _ => plain_of_mem_hexDigits quote), Option.map_map]
    rfl
  unfold quoteChar
  split
  next =>
      exact ⟨closing_escaped q c rest, _, _, rfl, hbackslash⟩
  next hplain =>
      obtain ⟨hother, hunescaped⟩ := not_or.mp hplain
      split
      · exact ⟨closing_escaped q 'n' rest, _, _, rfl, hbackslash⟩
      split
      · exact ⟨closing_escaped q 'r' rest, _, _, rfl, hbackslash⟩
      split
      · exact ⟨closing_escaped q 't' rest, _, _, rfl, hbackslash⟩
      split
      · exact ⟨closing_other hunescaped hother rest, _, _, rfl, hother⟩
      split
      · exact ⟨hhex 'x' 2 c.toNat, _, _, rfl, hbackslash⟩
      split
      · exact ⟨hhex 'u' 4 c.toNat, _, _, rfl, hbackslash⟩
      · exact ⟨hhex 'U' 8 c.toNat, _, _, rfl, hbackslash⟩

theorem closing_flatMap_quoteChar (quote : isQuote q = true) (s rest : List Char) :
    closing [q] (s.flatMap (quoteChar q) ++ rest) =
      (closing [q] rest).map (· + (s.flatMap (quoteChar q)).length) := by
  induction s with
  | nil =>
      simp
  | cons c s ih =>
      rw [List.flatMap_cons, List.append_assoc, (closing_quoteChar quote c _).1, ih,
        Option.map_map, List.length_append]
      congr 1
      funext n
      simp only [Function.comp_apply]
      omega

theorem isQuote_quoteFor (s : List Char) : isQuote (quoteFor s) = true := by
  obtain h | h := quoteFor_eq s
  · rw [h]
    rfl
  · rw [h]
    rfl

/-- The written form of a text in front of anything but one more quote is a literal as a whole. -/
theorem lexeme_quote (s : List Char) (apart : rest.head? ≠ some (quoteFor s)) :
    ∃ inner, quote s = quoteFor s :: inner ∧
      lexeme (quoteFor s) (inner ++ rest) = .literal (quote s).length := by
  have hquote := isQuote_quoteFor s
  refine ⟨_, rfl, ?_⟩
  rw [List.append_assoc, List.singleton_append, lexeme_eq_literal_iff]
  refine ⟨hquote, literalLength_eq_ok_iff.mpr (Or.inr ⟨?_, ?_⟩)⟩
  · -- Three quotes in a row would be another literal.
    cases s with
    | nil =>
        cases rest with
        | nil => simp
        | cons d rest =>
            have hd : d ≠ quoteFor [] := by
              rintro rfl
              exact apart rfl
            rw [List.flatMap_nil, List.nil_append, List.isPrefixOf, isPrefixOf_of_ne hd,
              Bool.and_false]
    | cons c s =>
        obtain ⟨d, more, hfirst, hd⟩ := (closing_quoteChar hquote c []).2
        rw [List.flatMap_cons, hfirst, List.append_assoc, List.cons_append, isPrefixOf_of_ne hd]
  · have hend : closing [quoteFor s] (quoteFor s :: rest) = some 1 := by
      have hplain : quoteFor s ≠ '\\' := by
        intro h
        rw [h] at hquote
        cases hquote
      rw [closing_cons hplain, if_pos (by simp)]
      rfl
    refine ⟨_, by rw [closing_flatMap_quoteChar hquote, hend]; rfl, ?_⟩
    simp only [quote, List.length_cons, List.length_append, List.length_nil]
    omega

/-- A text with both quotes, a backslash and a line break in it. -/
example :
    lexeme '\'' "\\'\"\\\\\\n', 1".toList = .literal 9 ∧
      quote "'\"\\\n".toList = "'\\'\"\\\\\\n'".toList := by
  decide +kernel

end CallableKinds

import CallableKinds.Code.Lexeme
import Mathlib.Data.List.Basic

/-!
# Lexemes in the front of a text

A literal or a comment ends within the text that it stands in. If it ends within the front of a text,
then it is the same in the front alone: whether a literal is opened by one quote or by three, which
quote closes it, and where a comment ends is decided by its own characters only.
-/

namespace CallableKinds

/-- A character that is no backslash either begins the delimiter or is passed over. -/
theorem closing_cons {delimiter : List Char} {c : Char} (plain : c ≠ '\\') (rest : List Char) :
    closing delimiter (c :: rest) =
      if delimiter.isPrefixOf (c :: rest) then some delimiter.length
      else (closing delimiter rest).map (· + 1) := by
  rw [closing]
  · rintro rfl
    exact absurd rfl plain
  · rintro _ _ rfl
    exact absurd rfl plain

/-- A character that is neither an escape nor the last backslash of a text is no backslash. -/
theorem ne_backslash {c : Char} {rest : List Char} (last : c = '\\' → rest = [] → False)
    (escape : ∀ d more, c = '\\' → rest = d :: more → False) : c ≠ '\\' := by
  rintro rfl
  cases rest with
  | nil => exact last rfl rfl
  | cons d more => exact escape d more rfl rfl

theorem closing_le {delimiter s : List Char} {n : Nat} (found : closing delimiter s = some n) :
    n ≤ s.length := by
  fun_induction closing delimiter s generalizing n with
  | case1 => cases found
  | case2 => cases found
  | case3 _ rest ih =>
      obtain ⟨m, hm, rfl⟩ := Option.map_eq_some_iff.mp found
      simpa using ih hm
  | case4 c rest _ _ here =>
      cases found
      exact (List.isPrefixOf_iff_prefix.mp here).length_le
  | case5 c rest _ _ _ ih =>
      obtain ⟨m, hm, rfl⟩ := Option.map_eq_some_iff.mp found
      simpa using ih hm

theorem length_le_closing {delimiter s : List Char} {n : Nat}
    (found : closing delimiter s = some n) : delimiter.length ≤ n := by
  fun_induction closing delimiter s generalizing n with
  | case1 => cases found
  | case2 => cases found
  | case3 _ rest ih =>
      obtain ⟨m, hm, rfl⟩ := Option.map_eq_some_iff.mp found
      exact Nat.le_add_right_of_le (ih hm)
  | case4 =>
      cases found
      exact Nat.le_refl _
  | case5 c rest _ _ _ ih =>
      obtain ⟨m, hm, rfl⟩ := Option.map_eq_some_iff.mp found
      exact Nat.le_add_right_of_le (ih hm)

theorem closing_pos {delimiter s : List Char} {n : Nat} (nonempty : delimiter ≠ [])
    (found : closing delimiter s = some n) : 0 < n :=
  Nat.lt_of_lt_of_le (List.length_pos_iff.mpr nonempty) (length_le_closing found)

/-- What is found ends with the last character of the delimiter. -/
theorem getElem?_closing {delimiter s : List Char} {n : Nat} (nonempty : delimiter ≠ [])
    (found : closing delimiter s = some n) : s[n - 1]? = delimiter.getLast? := by
  fun_induction closing delimiter s generalizing n with
  | case1 => cases found
  | case2 => cases found
  | case3 _ rest ih =>
      obtain ⟨m, hm, rfl⟩ := Option.map_eq_some_iff.mp found
      obtain ⟨k, rfl⟩ := Nat.exists_eq_succ_of_ne_zero (Nat.ne_of_gt (closing_pos nonempty hm))
      exact ih hm
  | case4 c rest _ _ here =>
      cases found
      have hlast : delimiter.length - 1 < delimiter.length :=
        Nat.sub_lt (List.length_pos_iff.mpr nonempty) Nat.one_pos
      rw [List.getLast?_eq_getElem?]
      exact ((List.prefix_iff_getElem?.mp (List.isPrefixOf_iff_prefix.mp here)) _ hlast).trans
        (List.getElem?_eq_getElem hlast).symm
  | case5 c rest _ _ _ ih =>
      obtain ⟨m, hm, rfl⟩ := Option.map_eq_some_iff.mp found
      obtain ⟨k, rfl⟩ := Nat.exists_eq_succ_of_ne_zero (Nat.ne_of_gt (closing_pos nonempty hm))
      exact ih hm

theorem isPrefixOf_of_ne {q c : Char} {delimiter : List Char} (other : c ≠ q) (rest : List Char) :
    (q :: delimiter).isPrefixOf (c :: rest) = false := by
  rw [List.isPrefixOf, beq_false_of_ne other.symm, Bool.false_and]

theorem isPrefixOf_append {delimiter front : List Char} (back : List Char)
    (here : delimiter.isPrefixOf front = true) : delimiter.isPrefixOf (front ++ back) = true :=
  List.isPrefixOf_iff_prefix.mpr
    ((List.isPrefixOf_iff_prefix.mp here).trans (List.prefix_append front back))

theorem isPrefixOf_of_append {delimiter front back : List Char}
    (there : delimiter.isPrefixOf (front ++ back) = true) (le : delimiter.length ≤ front.length) :
    delimiter.isPrefixOf front = true :=
  List.isPrefixOf_iff_prefix.mpr
    (List.prefix_of_prefix_length_le (List.isPrefixOf_iff_prefix.mp there)
      (List.prefix_append front back) le)

/-- A delimiter that is found within the front of a text is found in the front alone. -/
theorem closing_front {delimiter front back : List Char} {n : Nat} (nonempty : delimiter ≠ [])
    (found : closing delimiter (front ++ back) = some n) (le : n ≤ front.length) :
    closing delimiter front = some n := by
  fun_induction closing delimiter front generalizing n with
  | case1 =>
      exact absurd (closing_pos nonempty found) (Nat.not_lt.mpr le)
  | case2 =>
      cases back with
      | nil =>
          cases found
      | cons d back =>
          obtain ⟨m, -, rfl⟩ := Option.map_eq_some_iff.mp found
          simp at le
  | case3 d rest ih =>
      obtain ⟨m, hm, rfl⟩ := Option.map_eq_some_iff.mp found
      rw [ih hm (by simpa using le)]
      rfl
  | case4 c rest hlast hescape here =>
      have hplain := ne_backslash hlast hescape
      rw [List.cons_append, closing_cons hplain, ← List.cons_append,
        if_pos (isPrefixOf_append back here)] at found
      exact found
  | case5 c rest hlast hescape hnot ih =>
      have hplain := ne_backslash hlast hescape
      rw [List.cons_append, closing_cons hplain, ← List.cons_append] at found
      split at found
      next there =>
          cases found
          exact absurd (isPrefixOf_of_append there le) hnot
      next =>
          obtain ⟨m, hm, rfl⟩ := Option.map_eq_some_iff.mp found
          rw [ih hm (by simpa using le)]
          rfl

/-- A delimiter that is found in the front of a text is the first one in the text. -/
theorem closing_append {delimiter front : List Char} {n : Nat} (back : List Char)
    (found : closing delimiter front = some n) : closing delimiter (front ++ back) = some n := by
  fun_induction closing delimiter front generalizing n with
  | case1 => cases found
  | case2 => cases found
  | case3 d rest ih =>
      obtain ⟨m, hm, rfl⟩ := Option.map_eq_some_iff.mp found
      rw [List.cons_append, List.cons_append, closing, ih hm]
      rfl
  | case4 c rest hlast hescape here =>
      rw [List.cons_append, closing_cons (ne_backslash hlast hescape), ← List.cons_append,
        if_pos (isPrefixOf_append back here)]
      exact found
  | case5 c rest hlast hescape hnot ih =>
      obtain ⟨m, hm, rfl⟩ := Option.map_eq_some_iff.mp found
      -- The delimiter fits into the rest of the front, so it does not begin here only to end behind.
      have hle := Nat.le_trans (length_le_closing hm) (closing_le hm)
      have hthere : ¬ delimiter.isPrefixOf (c :: rest ++ back) = true := fun there =>
        hnot (isPrefixOf_of_append there (Nat.le_succ_of_le hle))
      rw [List.cons_append, closing_cons (ne_backslash hlast hescape), ← List.cons_append,
        if_neg hthere, ih hm]
      rfl

/-- A delimiter is made of its quote only. -/
theorem exists_delimiterOf (quote : Char) (rest : List Char) :
    ∃ more, delimiterOf quote rest = quote :: more ∧ ∀ d ∈ quote :: more, d = quote := by
  rw [delimiterOf]
  split
  · exact ⟨[quote, quote], rfl, by simp⟩
  · exact ⟨[], rfl, by simp⟩

/-- A literal is either opened and closed by three quotes or, if it is not opened by three, closed
by one. -/
theorem literalLength_eq_ok_iff {quote : Char} {rest : List Char} {n : Nat} :
    literalLength quote rest = .ok n ↔
      (∃ inner m, rest = quote :: quote :: inner ∧
        closing [quote, quote, quote] inner = some m ∧ n = 3 + m) ∨
      ([quote, quote].isPrefixOf rest = false ∧ ∃ m, closing [quote] rest = some m ∧ n = 1 + m) := by
  have hok : literalLength quote rest = .ok n ↔
      ∃ m, closing (delimiterOf quote rest) (rest.drop ((delimiterOf quote rest).length - 1)) =
        some m ∧ n = (delimiterOf quote rest).length + m := by
    rw [literalLength]
    cases closing (delimiterOf quote rest) (rest.drop ((delimiterOf quote rest).length - 1)) with
    | none => simp
    | some m => simp [eq_comm]
  rw [hok]
  cases htriple : [quote, quote].isPrefixOf rest with
  | true =>
      obtain ⟨inner, rfl⟩ := List.isPrefixOf_iff_prefix.mp htriple
      have hdelimiter : delimiterOf quote ([quote, quote] ++ inner) = [quote, quote, quote] :=
        if_pos htriple
      rw [hdelimiter]
      simp
  | false =>
      have hdelimiter : delimiterOf quote rest = [quote] := if_neg (by simp [htriple])
      have hsingle : ∀ inner, rest ≠ quote :: quote :: inner := by
        rintro inner rfl
        simp at htriple
      rw [hdelimiter]
      simp [hsingle]

/-- A literal ends with its quote. -/
theorem getElem?_literalLength {quote : Char} {rest : List Char} {n : Nat}
    (found : literalLength quote rest = .ok n) : (quote :: rest)[n - 1]? = some quote := by
  rcases literalLength_eq_ok_iff.mp found with ⟨inner, m, rfl, hm, rfl⟩ | ⟨-, m, hm, rfl⟩
  · have hpos := closing_pos (List.cons_ne_nil _ _) hm
    have hlast := getElem?_closing (List.cons_ne_nil _ _) hm
    obtain ⟨k, rfl⟩ := Nat.exists_eq_succ_of_ne_zero (Nat.ne_of_gt hpos)
    rw [show 3 + (k + 1) - 1 = k + 1 + 1 + 1 by omega]
    exact hlast
  · have hpos := closing_pos (List.cons_ne_nil _ _) hm
    have hlast := getElem?_closing (List.cons_ne_nil _ _) hm
    obtain ⟨k, rfl⟩ := Nat.exists_eq_succ_of_ne_zero (Nat.ne_of_gt hpos)
    rw [show 1 + (k + 1) - 1 = k + 1 by omega]
    exact hlast

theorem literalLength_le {quote : Char} {rest : List Char} {n : Nat}
    (found : literalLength quote rest = .ok n) : n ≤ rest.length + 1 := by
  rcases literalLength_eq_ok_iff.mp found with ⟨inner, m, rfl, hm, rfl⟩ | ⟨-, m, hm, rfl⟩
  · have := closing_le hm
    simp only [List.length_cons]
    omega
  · have := closing_le hm
    omega

/-- A literal that fits into the front of a text is the same in the front alone. -/
theorem literalLength_front {quote : Char} {front back : List Char} {n : Nat}
    (found : literalLength quote (front ++ back) = .ok n) (le : n ≤ front.length + 1) :
    literalLength quote front = .ok n := by
  rw [literalLength_eq_ok_iff] at found ⊢
  rcases found with ⟨inner, m, hrest, hm, rfl⟩ | ⟨hsingle, m, hm, rfl⟩
  · -- Three quotes need three more, so the front reaches over the opening ones.
    have hpos := closing_pos (List.cons_ne_nil _ _) hm
    match front, le, hrest with
    | a :: b :: front, le, hrest =>
        obtain ⟨rfl, rfl, rfl⟩ : a = quote ∧ b = quote ∧ front ++ back = inner := by
          simpa using hrest
        refine .inl ⟨front, m, rfl, closing_front (List.cons_ne_nil _ _) hm ?_, rfl⟩
        simp only [List.length_cons] at le
        omega
    | [_], le, _ =>
        simp at le
        omega
    | [], le, _ =>
        simp at le
        omega
  · refine .inr ⟨?_, m, closing_front (List.cons_ne_nil _ _) hm (by omega), rfl⟩
    rw [← Bool.not_eq_true] at hsingle ⊢
    exact fun here => hsingle (isPrefixOf_append back here)

/-- A quote and the same quote behind it are an empty literal. -/
theorem length_of_literalLength_self {quote : Char} {n : Nat}
    (found : literalLength quote [quote] = .ok n) : n = 2 := by
  rcases literalLength_eq_ok_iff.mp found with ⟨inner, m, hrest, -, -⟩ | ⟨-, m, hm, rfl⟩
  · cases hrest
  · have hle : m ≤ 1 := closing_le hm
    have hge : 1 ≤ m := length_le_closing hm
    omega

/-- A literal in the front of a text is the same in the text, but for two quotes at the end of the
front that may be the first of three. -/
theorem literalLength_append {quote : Char} {front : List Char} {n : Nat} (back : List Char)
    (found : literalLength quote front = .ok n) :
    front = [quote] ∨ literalLength quote (front ++ back) = .ok n := by
  rcases literalLength_eq_ok_iff.mp found with ⟨inner, m, rfl, hm, rfl⟩ | ⟨hsingle, m, hm, rfl⟩
  · exact .inr (literalLength_eq_ok_iff.mpr
      (.inl ⟨inner ++ back, m, rfl, closing_append back hm, rfl⟩))
  · by_cases htriple : [quote, quote].isPrefixOf (front ++ back) = true
    · left
      match front with
      | [] => cases hm
      | [a] =>
          obtain ⟨rest, hrest⟩ := List.isPrefixOf_iff_prefix.mp htriple
          simp only [List.cons_append, List.cons.injEq] at hrest
          rw [hrest.1]
      | a :: b :: front =>
          have there := isPrefixOf_of_append htriple (Nat.le_add_left 2 front.length)
          exact absurd there (by simp [hsingle])
    · refine .inr (literalLength_eq_ok_iff.mpr (.inr ⟨?_, m, closing_append back hm, rfl⟩))
      exact Bool.eq_false_iff.mpr htriple

theorem lineLength_le (s : List Char) : lineLength s ≤ s.length :=
  (List.takeWhile_prefix _).length_le

theorem lineLength_cons_of_ne {c : Char} (hc : c ≠ '\n') (s : List Char) :
    lineLength (c :: s) = lineLength s + 1 := by
  simp [lineLength, hc]

theorem getElem?_lineLength (text : List Char) : text[lineLength text]?.all (· == '\n') = true := by
  induction text with
  | nil => rfl
  | cons c rest ih =>
      by_cases hc : c = '\n'
      · simp [lineLength, hc]
      · rw [lineLength_cons_of_ne hc, List.getElem?_cons_succ]
        exact ih

/-- A line that ends within the front of a text ends there in the front alone. -/
theorem lineLength_front {front back : List Char} (le : lineLength (front ++ back) ≤ front.length) :
    lineLength front = lineLength (front ++ back) := by
  induction front with
  | nil =>
      have hzero : lineLength ([] ++ back) = 0 := Nat.le_zero.mp le
      rw [hzero]
      rfl
  | cons c front ih =>
      by_cases hc : c = '\n'
      · simp [lineLength, hc]
      · rw [List.cons_append, lineLength_cons_of_ne hc] at le
        rw [List.cons_append, lineLength_cons_of_ne hc, lineLength_cons_of_ne hc,
          ih (Nat.le_of_succ_le_succ le)]

theorem lexeme_eq_character_iff {c : Char} {rest : List Char} :
    lexeme c rest = .character ↔ isQuote c = false ∧ c ≠ '#' := by
  unfold lexeme
  by_cases hquote : isQuote c = true
  · rw [if_pos hquote]
    split <;> simp [hquote]
  · rw [if_neg hquote]
    split <;> simp_all

theorem lexeme_eq_literal_iff {c : Char} {rest : List Char} {n : Nat} :
    lexeme c rest = .literal n ↔ isQuote c = true ∧ literalLength c rest = .ok n := by
  unfold lexeme
  by_cases hquote : isQuote c = true
  · rw [if_pos hquote]
    split <;> simp_all
  · rw [if_neg hquote]
    split <;> simp_all

theorem lexeme_eq_comment_iff {c : Char} {rest : List Char} {n : Nat} :
    lexeme c rest = .comment n ↔ c = '#' ∧ n = lineLength rest + 1 := by
  unfold lexeme
  by_cases hquote : isQuote c = true
  · have hhash : c ≠ '#' := by
      rintro rfl
      cases hquote
    rw [if_pos hquote]
    split <;> simp [hhash]
  · rw [if_neg hquote]
    by_cases hhash : c = '#'
    · rw [if_pos (by simp [hhash]), Lexeme.comment.injEq]
      exact ⟨fun h => ⟨hhash, h.symm⟩, fun h => h.2.symm⟩
    · rw [if_neg (by simp [hhash])]
      simp [hhash]

theorem lexeme_eq_unclosed_iff {c : Char} {rest delimiter : List Char} :
    lexeme c rest = .unclosed delimiter ↔
      isQuote c = true ∧ literalLength c rest = .error delimiter := by
  unfold lexeme
  by_cases hquote : isQuote c = true
  · rw [if_pos hquote]
    split <;> simp_all
  · rw [if_neg hquote]
    split <;> simp_all

theorem Lexeme.closed_or_unclosed (x : Lexeme) :
    (∀ delimiter, x ≠ .unclosed delimiter) ∨ ∃ delimiter, x = .unclosed delimiter := by
  cases x <;> simp

/-- What a lexeme takes of the text behind its first character. -/
def Lexeme.taken : Lexeme → Nat
  | .literal n => n - 1
  | .comment n => n - 1
  | _ => 0

/-- A lexeme that fits into the front of a text is the same in the front alone. -/
theorem lexeme_front {c : Char} {front back : List Char}
    (closed : ∀ delimiter, lexeme c (front ++ back) ≠ .unclosed delimiter)
    (fits : (lexeme c (front ++ back)).taken ≤ front.length) :
    lexeme c front = lexeme c (front ++ back) := by
  cases hlexeme : lexeme c (front ++ back) with
  | character =>
      exact lexeme_eq_character_iff.mpr (lexeme_eq_character_iff.mp hlexeme)
  | literal n =>
      rw [hlexeme, Lexeme.taken] at fits
      obtain ⟨hquote, hlength⟩ := lexeme_eq_literal_iff.mp hlexeme
      exact lexeme_eq_literal_iff.mpr ⟨hquote, literalLength_front hlength (by omega)⟩
  | comment n =>
      obtain ⟨hhash, rfl⟩ := lexeme_eq_comment_iff.mp hlexeme
      rw [hlexeme, Lexeme.taken] at fits
      exact lexeme_eq_comment_iff.mpr ⟨hhash, by rw [lineLength_front fits]⟩
  | unclosed delimiter =>
      exact absurd hlexeme (closed delimiter)

/-- A lexeme ends with the text at the latest. -/
theorem taken_lexeme_le (c : Char) (rest : List Char) : (lexeme c rest).taken ≤ rest.length := by
  cases hlexeme : lexeme c rest with
  | literal n =>
      have hle := literalLength_le (lexeme_eq_literal_iff.mp hlexeme).2
      rw [Lexeme.taken]
      omega
  | comment n =>
      obtain ⟨-, rfl⟩ := lexeme_eq_comment_iff.mp hlexeme
      exact lineLength_le rest
  | _ => exact Nat.zero_le _

end CallableKinds

import CallableKinds.Code.Split

/-!
# Spots of a lexed text

The code characters of a lexed text are found in the text at their positions, with the surroundings
that they are kept with, and their positions increase. Pieces of the text between two positions begin
and end with the characters that stand there.
-/

namespace CallableKinds

@[simp] theorem charBefore_succ (text : List Char) (i : Nat) :
    charBefore text (i + 1) = text[i]? := rfl

theorem drop_succ_of_drop_eq_cons {text rest : List Char} {pos : Nat} {c : Char}
    (h : text.drop pos = c :: rest) : text.drop (pos + 1) = rest := by
  rw [← List.tail_drop, h, List.tail_cons]

theorem getElem?_of_drop_eq_cons {text rest : List Char} {pos : Nat} {c : Char}
    (h : text.drop pos = c :: rest) : text[pos]? = some c := by
  rw [← List.head?_drop, h, List.head?_cons]

theorem charBefore_succ_of_drop_eq_cons {text rest : List Char} {pos : Nat} {c : Char}
    (h : text.drop pos = c :: rest) : some c = charBefore text (pos + 1) := by
  rw [charBefore_succ, getElem?_of_drop_eq_cons h]

namespace Spot

/-- A spot stands in a text if the text has its character at its position, and around it what the
spot keeps as its surroundings. -/
structure StandsIn (s : Spot) (text : List Char) : Prop where
  before : s.before = charBefore text s.pos
  drop : text.drop s.pos = s.char :: s.after

namespace StandsIn

variable {s : Spot} {text : List Char}

theorem getElem? (h : s.StandsIn text) : text[s.pos]? = some s.char :=
  getElem?_of_drop_eq_cons h.drop

end StandsIn

end Spot

/-- Each spot of a text that is lexed from `pos` on, with `skip` characters done before, stands in
the whole text, behind the characters that are done. -/
theorem standsIn_of_mem_lexFrom {text rest : List Char} {skip pos : Nat} {before : Option Char}
    (hrest : text.drop pos = rest) (hbefore : before = charBefore text pos) {s : Spot}
    (member : s ∈ (lexFrom skip pos before rest).spots) :
    pos + skip ≤ s.pos ∧ s.StandsIn text := by
  fun_induction lexFrom skip pos before rest with
  | case1 => simp [Lexed.spots] at member
  | case2 skip pos before c rest ih =>
    have hnext := ih (drop_succ_of_drop_eq_cons hrest) (charBefore_succ_of_drop_eq_cons hrest) member
    exact ⟨by omega, hnext.2⟩
  | case3 pos before c rest _ ih =>
    rw [Lexed.spots_cons_code, List.mem_cons] at member
    rcases member with rfl | member
    · exact ⟨Nat.le_refl _, hbefore, hrest⟩
    · have hnext := ih (drop_succ_of_drop_eq_cons hrest) (charBefore_succ_of_drop_eq_cons hrest) member
      exact ⟨by omega, hnext.2⟩
  | case4 pos before c rest n _ ih =>
    have hnext := ih (drop_succ_of_drop_eq_cons hrest) (charBefore_succ_of_drop_eq_cons hrest) member
    exact ⟨by omega, hnext.2⟩
  | case5 pos before c rest n _ ih =>
    have hnext := ih (drop_succ_of_drop_eq_cons hrest) (charBefore_succ_of_drop_eq_cons hrest) member
    exact ⟨by omega, hnext.2⟩
  | case6 => simp [Lexed.spots] at member

/-- The positions of the spots increase. -/
theorem pairwise_lexFrom {text rest : List Char} {skip pos : Nat} {before : Option Char}
    (hrest : text.drop pos = rest) (hbefore : before = charBefore text pos) :
    (lexFrom skip pos before rest).spots.Pairwise fun s t => s.pos < t.pos := by
  fun_induction lexFrom skip pos before rest with
  | case1 => exact .nil
  | case2 skip pos before c rest ih =>
    exact ih (drop_succ_of_drop_eq_cons hrest) (charBefore_succ_of_drop_eq_cons hrest)
  | case3 pos before c rest _ ih =>
    have hafter : text.drop (pos + 1) = rest := drop_succ_of_drop_eq_cons hrest
    have hfront := charBefore_succ_of_drop_eq_cons hrest
    rw [Lexed.spots_cons_code]
    refine .cons (fun t ht => ?_) (ih hafter hfront)
    have hle := (standsIn_of_mem_lexFrom hafter hfront ht).1
    change pos < t.pos
    omega
  | case4 pos before c rest n _ ih =>
    exact ih (drop_succ_of_drop_eq_cons hrest) (charBefore_succ_of_drop_eq_cons hrest)
  | case5 pos before c rest n _ ih =>
    exact ih (drop_succ_of_drop_eq_cons hrest) (charBefore_succ_of_drop_eq_cons hrest)
  | case6 => exact .nil

theorem standsIn_of_mem_lexAt {text : List Char} {start : Nat} {s : Spot}
    (member : s ∈ (lexAt text start).spots) : start ≤ s.pos ∧ s.StandsIn text :=
  standsIn_of_mem_lexFrom rfl rfl member

theorem pairwise_lexAt (text : List Char) (start : Nat) :
    (lexAt text start).spots.Pairwise fun s t => s.pos < t.pos :=
  pairwise_lexFrom rfl rfl

theorem take_append_slice (text : List Char) {start stop : Nat} (le : start ≤ stop) :
    text.take start ++ slice text start stop = text.take stop := by
  rw [slice, ← List.take_add, Nat.add_sub_cancel' le]

theorem slice_append_drop (text : List Char) {start stop : Nat} (le : start ≤ stop) :
    slice text start stop ++ text.drop stop = text.drop start := by
  have hback : text.drop stop = (text.drop start).drop (stop - start) := by
    rw [List.drop_drop, Nat.add_sub_cancel' le]
  rw [slice, hback, List.take_append_drop]

theorem slice_append_slice (text : List Char) {i j k : Nat} (hij : i ≤ j) (hjk : j ≤ k) :
    slice text i j ++ slice text j k = slice text i k := by
  obtain ⟨m, rfl⟩ := Nat.exists_eq_add_of_le hij
  obtain ⟨n, rfl⟩ := Nat.exists_eq_add_of_le hjk
  have hmn : i + m + n - i = m + n := by omega
  rw [slice, slice, slice, hmn, Nat.add_sub_cancel_left, Nat.add_sub_cancel_left, List.take_add,
    List.drop_drop]

/-- A piece of a text begins with the character at its start. -/
theorem slice_eq_cons {text : List Char} {start stop : Nat} {c : Char} (lt : start < stop)
    (first : text[start]? = some c) :
    slice text start stop = c :: slice text (start + 1) stop := by
  obtain ⟨hlength, hc⟩ := List.getElem?_eq_some_iff.mp first
  obtain ⟨n, rfl⟩ := Nat.exists_eq_add_of_lt lt
  rw [slice, slice, List.drop_eq_getElem_cons hlength, hc]
  have hn : start + n + 1 - start = n + 1 := by omega
  have hn' : start + n + 1 - (start + 1) = n := by omega
  rw [hn, hn', List.take_succ_cons]

/-- A piece of a text ends with the character before its end. -/
theorem slice_succ {text : List Char} {start stop : Nat} {c : Char} (le : start ≤ stop)
    (last : text[stop]? = some c) :
    slice text start (stop + 1) = slice text start stop ++ [c] := by
  have hn : stop + 1 - start = stop - start + 1 := by omega
  rw [slice, slice, hn, List.take_add_one, List.getElem?_drop, Nat.add_sub_cancel' le, last]
  rfl

end CallableKinds

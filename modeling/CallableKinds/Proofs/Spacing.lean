import CallableKinds.Text.Spacing
import Mathlib.Data.List.Basic
import Mathlib.Data.List.DropRight

/-!
# Collapsing a text in parts

`collapse` works from the left, but it treats both ends of a text alike: it commutes with reversing a
text and therefore with trimming it on either side. A text that is cut beside a character that is no
blank may be collapsed part by part.
-/

namespace CallableKinds

/-- A cut between two parts of a text falls inside a run of blanks only if both characters beside it
are blanks. -/
def SplitsNoRun (front back : List Char) : Prop :=
  front.getLast?.any isBlank = true → back.head?.any isBlank = false

theorem SplitsNoRun.of_head {front back : List Char} {c : Char} (head : back.head? = some c)
    (code : isBlank c = false) : SplitsNoRun front back := by
  intro _
  simp [head, code]

theorem SplitsNoRun.of_last {front back : List Char} {c : Char} (last : front.getLast? = some c)
    (code : isBlank c = false) : SplitsNoRun front back := by
  intro blank
  simp [last, code] at blank

theorem ne_of_isBlank {b c : Char} (blank : isBlank b = true) (solid : isBlank c = false) : b ≠ c := by
  rintro rfl
  exact Bool.false_ne_true (solid.symm.trans blank)

theorem collapse_cons_of_blank {c : Char} (rest : List Char) (h : isBlank c = true) :
    collapse (c :: rest) =
      if rest.head?.any isBlank then collapse rest else ' ' :: collapse rest := by
  rw [collapse, if_pos h]

theorem collapse_append_of_solid {front : List Char} (solid : ∀ c ∈ front, isBlank c = false)
    (back : List Char) : collapse (front ++ back) = front ++ collapse back := by
  induction front with
  | nil => rfl
  | cons c front ih =>
      obtain ⟨hc, hfront⟩ := List.forall_mem_cons.mp solid
      rw [List.cons_append, collapse_cons_of_not_blank _ hc, ih hfront, List.cons_append]

theorem collapse_space_cons {text : List Char} (solid : text.head?.any isBlank = false) :
    collapse (' ' :: text) = ' ' :: collapse text := by
  rw [collapse, if_pos isBlank_space, solid]
  rfl

/-- Collapsing the parts of a text separately is the same as collapsing the whole, as long as the
cut falls inside no run of blanks. -/
theorem collapse_append {front back : List Char} (cut : SplitsNoRun front back) :
    collapse (front ++ back) = collapse front ++ collapse back := by
  induction front with
  | nil => rfl
  | cons c rest ih =>
    -- What follows `c` is the rest of the first part, or the second part if there is no rest.
    have hrest : collapse (rest ++ back) = collapse rest ++ collapse back := by
      cases rest with
      | nil => rfl
      | cons d rest => exact ih (fun blank => cut (by simpa using blank))
    by_cases hc : isBlank c = true
    · have hhead : (rest ++ back).head?.any isBlank = rest.head?.any isBlank := by
        cases rest with
        | nil => simpa using cut (by simp [hc])
        | cons d rest => rfl
      rw [List.cons_append, collapse_cons_of_blank _ hc, collapse_cons_of_blank _ hc, hhead, hrest]
      split <;> rfl
    · have hc : isBlank c = false := by simpa using hc
      rw [List.cons_append, collapse_cons_of_not_blank _ hc, collapse_cons_of_not_blank _ hc,
        hrest, List.cons_append]

/-- A blank that follows a blank is lost. -/
theorem collapse_blank_blank (front : List Char) {c d : Char} (hc : isBlank c = true)
    (hd : isBlank d = true) : collapse (front ++ [d, c]) = collapse (front ++ [d]) := by
  induction front with
  | nil => simp [collapse, hc, hd]
  | cons e front ih =>
    have hhead : (front ++ [d, c]).head? = (front ++ [d]).head? := by cases front <;> rfl
    rw [List.cons_append, List.cons_append, collapse, collapse, ih, hhead]

/-- A further blank at the end of a text matters only if it begins a run. -/
theorem collapse_concat (s : List Char) (c : Char) :
    collapse (s ++ [c]) =
      if isBlank c then
        if s.getLast?.any isBlank then collapse s else collapse s ++ [' ']
      else collapse s ++ [c] := by
  by_cases hc : isBlank c = true
  · rw [if_pos hc]
    by_cases hs : s.getLast?.any isBlank = true
    · rw [if_pos hs]
      rcases List.eq_nil_or_concat s with rfl | ⟨front, d, rfl⟩
      · simp at hs
      · have hd : isBlank d = true := by simpa using hs
        rw [List.concat_eq_append, List.append_assoc]
        exact collapse_blank_blank front hc hd
    · rw [if_neg hs, collapse_append (fun h => absurd h hs)]
      simp [collapse, hc]
  · rw [if_neg hc, collapse_append (.of_head rfl (by simpa using hc))]
    simp [collapse, hc]

@[simp] theorem collapse_reverse (s : List Char) : collapse s.reverse = (collapse s).reverse := by
  induction s with
  | nil => rfl
  | cons c rest ih =>
    rw [List.reverse_cons, collapse_concat, ih, List.getLast?_reverse, collapse]
    split
    · split <;> simp
    · simp

/-- Blanks at the start may be dropped before or after collapsing. -/
theorem collapse_trimLeft (s : List Char) : collapse (trimLeft s) = trimLeft (collapse s) := by
  induction s with
  | nil => rfl
  | cons c rest ih =>
    unfold trimLeft at ih ⊢
    by_cases hc : isBlank c = true
    · rw [List.dropWhile_cons_of_pos hc, ih, collapse, if_pos hc]
      split
      · rfl
      · rw [List.dropWhile_cons_of_pos isBlank_space]
    · have hc : isBlank c = false := by simpa using hc
      rw [List.dropWhile_cons_of_neg (by simp [hc]), collapse_cons_of_not_blank rest hc,
        List.dropWhile_cons_of_neg (by simp [hc])]

theorem trimRight_eq_reverse (s : List Char) : trimRight s = (trimLeft s.reverse).reverse := rfl

theorem trimRight_eq_rdropWhile (s : List Char) : trimRight s = s.rdropWhile isBlank := rfl

theorem trimRight_append (front back : List Char) :
    trimRight (front ++ back) =
      if trimRight back = [] then trimRight front else front ++ trimRight back := by
  rw [trimRight_eq_reverse, trimRight_eq_reverse, trimRight_eq_reverse, trimLeft, trimLeft, trimLeft,
    List.reverse_append, List.dropWhile_append]
  simp only [List.isEmpty_iff, List.reverse_eq_nil_iff]
  split
  · rfl
  · simp

/-- Blanks at the end may be dropped before or after collapsing. -/
theorem collapse_trimRight (s : List Char) : collapse (trimRight s) = trimRight (collapse s) := by
  rw [trimRight_eq_reverse, trimRight_eq_reverse, collapse_reverse, collapse_trimLeft,
    collapse_reverse]

/-- Squeezing a text is collapsing it without the blanks at its ends. -/
theorem squeeze_eq_collapse_trim (s : List Char) : squeeze s = collapse (trim s) := by
  unfold squeeze trim
  rw [collapse_trimRight, collapse_trimLeft]

/-- Only what stands between two characters that are no blanks is collapsed. -/
theorem collapse_between {c d : Char} (inner : List Char) (hc : isBlank c = false)
    (hd : isBlank d = false) :
    collapse (c :: inner ++ [d]) = c :: collapse inner ++ [d] := by
  rw [List.cons_append, collapse_cons_of_not_blank _ hc, collapse_append (.of_head rfl hd),
    collapse_cons_of_not_blank _ hd, collapse_nil, List.cons_append]

/-- A text that begins and ends with characters that are no blanks has no ends to be trimmed. -/
theorem trim_of_ends {s : List Char} {c d : Char} (first : s.head? = some c)
    (last : s.getLast? = some d) (hc : isBlank c = false) (hd : isBlank d = false) :
    trim s = s := by
  have hleft {s : List Char} {c : Char} (first : s.head? = some c) (hc : isBlank c = false) :
      trimLeft s = s := by
    obtain ⟨rest, rfl⟩ := List.head?_eq_some_iff.mp first
    rw [trimLeft, List.dropWhile_cons_of_neg (by rw [hc]; exact Bool.false_ne_true)]
  rw [trim, hleft first hc, trimRight_eq_reverse,
    hleft (by rw [List.head?_reverse, last]) hd, List.reverse_reverse]

/-- Only the inner part of such a text is squeezed. -/
theorem squeeze_between {c d : Char} (inner : List Char) (hc : isBlank c = false)
    (hd : isBlank d = false) :
    squeeze (c :: inner ++ [d]) = c :: collapse inner ++ [d] := by
  have hlast : (c :: inner ++ [d]).getLast? = some d := List.getLast?_concat
  rw [squeeze_eq_collapse_trim, trim_of_ends rfl hlast hc hd, collapse_between inner hc hd]

end CallableKinds

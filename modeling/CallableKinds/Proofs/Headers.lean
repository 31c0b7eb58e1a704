import CallableKinds.Proofs.Joining
import CallableKinds.Segments

/-!
# Headers told by code characters

Whether a definition can be scanned is decided by its code characters alone: how the front of the
definition ends, and whether the parenthesis that opens the parameters is closed. Both are read from
left to right, so the code characters of a text may be read part by part.
-/

namespace CallableKinds

namespace Segments

/-- How the front of a definition ends: with the parenthesis that opens the parameters, with a colon,
or not at all, inside so many square brackets. -/
inductive Header where
  | params (behind : List Char)
  | colon
  | unfinished (depth : Nat)
  deriving Repr, DecidableEq

/-- Reads code characters inside so many square brackets up to the end of the front. -/
def header (depth : Nat) : List Char → Header
  | [] => .unfinished depth
  | c :: rest =>
    if c = '[' then header (depth + 1) rest
    else if c = ']' ∧ 0 < depth then header (depth - 1) rest
    else if 0 < depth then header depth rest
    else if c = '(' then .params rest
    else if c = ':' then .colon
    else header depth rest

/-- How many parentheses inside another one are open behind some code characters, if the outer one
is not closed. -/
def openDepth (depth : Nat) : List Char → Option Nat
  | [] => some depth
  | c :: rest =>
    if c = '(' then openDepth (depth + 1) rest
    else if c = ')' then if depth = 0 then none else openDepth (depth - 1) rest
    else openDepth depth rest

/-! ### Reading part by part -/

variable {depth : Nat} {text : List Char}

theorem header_append (depth : Nat) (text back : List Char) :
    header depth (text ++ back) =
      match header depth text with
      | .params behind => .params (behind ++ back)
      | .colon => .colon
      | .unfinished depth => header depth back := by
  induction text generalizing depth with
  | nil => rfl
  | cons c text ih =>
      rw [List.cons_append, header, header]
      split
      · apply ih
      split
      · apply ih
      split
      · apply ih
      split
      · rfl
      split
      · rfl
      · apply ih

theorem openDepth_append (depth : Nat) (text back : List Char) :
    openDepth depth (text ++ back) =
      (openDepth depth text).bind fun depth => openDepth depth back := by
  induction text generalizing depth with
  | nil => rfl
  | cons c text ih =>
      rw [List.cons_append, openDepth, openDepth]
      split
      · apply ih
      split
      · split
        · rfl
        · apply ih
      · apply ih

/-- Characters other than brackets and colons do not end the front. -/
theorem header_of_plain (plain : ∀ c ∈ text, c ∉ ['(', '[', ']', ':']) :
    header depth text = .unfinished depth := by
  induction text with
  | nil => rfl
  | cons c text ih =>
      obtain ⟨hc, htext⟩ := List.forall_mem_cons.mp plain
      simp only [List.mem_cons, List.not_mem_nil, or_false, not_or] at hc
      obtain ⟨hparen, hopen, hclose, hcolon⟩ := hc
      simp only [header, hparen, hopen, hclose, hcolon, false_and, if_false, ih htext, ite_self]

/-- Characters other than parentheses open and close none. -/
theorem openDepth_of_plain (plain : ∀ c ∈ text, c ∉ ['(', ')']) :
    openDepth depth text = some depth := by
  induction text with
  | nil => rfl
  | cons c text ih =>
      obtain ⟨hc, htext⟩ := List.forall_mem_cons.mp plain
      simp only [List.mem_cons, List.not_mem_nil, or_false, not_or] at hc
      obtain ⟨hopen, hclose⟩ := hc
      simp only [openDepth, hopen, hclose, if_false, ih htext]

/-! ### What a scanner reads -/

/-- The end of a front without positions. -/
def Front.header : Front → Header
  | .paramList _ _ rest => .params (rest.map Spot.char)
  | .colon _ _ => .colon
  | .exhausted depth => .unfinished depth

theorem header_front (b : Brackets) (spots : List Spot) :
    (front b spots).header = header b.depth (spots.map Spot.char) := by
  induction spots generalizing b with
  | nil => rfl
  | cons s spots ih =>
      rw [Segments.front, List.map_cons, Segments.header]
      split
      · apply ih
      split
      · apply ih
      split
      · apply ih
      split
      · rfl
      split
      · rfl
      · apply ih

theorem paramsEnd_eq_none_iff (depth : Nat) (spots : List Spot) :
    paramsEnd depth spots = none ↔ openDepth depth (spots.map Spot.char) ≠ none := by
  induction spots generalizing depth with
  | nil => simp [paramsEnd, openDepth]
  | cons s spots ih =>
      rw [paramsEnd.eq_def, List.map_cons, openDepth]
      dsimp only
      split
      · apply ih
      split
      · cases depth with
        | zero => simp
        | succ depth => apply ih
      · apply ih

/-- A text reads as a definition if its parameters are closed, or if it is a class statement without
bases. -/
def ReadsAsDefinition (text : List Char) : Prop :=
  match header 0 (codeChars text) with
  | .params behind => openDepth 0 behind = none
  | .colon => beginsWith classWord text = true
  | .unfinished _ => False

theorem scanDefinition_ok_iff (text : List Char) :
    (∃ s, scanDefinition text = .ok s) ↔ ReadsAsDefinition text := by
  have hheader := header_front .initial (lex text).spots
  rw [← Lexed.chars_eq_map] at hheader
  change _ = header 0 (codeChars text) at hheader
  rw [ReadsAsDefinition, ← hheader, scanDefinition]
  dsimp only
  cases front .initial (lex text).spots with
  | paramList start symbol rest =>
      have hnone := paramsEnd_eq_none_iff 0 rest
      dsimp only [Front.header]
      cases hstop : paramsEnd 0 rest with
      | some stop =>
          rw [hstop] at hnone
          have hclosed : openDepth 0 (rest.map Spot.char) = none := by
            by_contra hopen
            cases hnone.mpr hopen
          exact ⟨fun _ => hclosed, fun _ => ⟨_, rfl⟩⟩
      | none =>
          have hopen := hnone.mp hstop
          refine ⟨?_, fun hclosed => absurd hclosed hopen⟩
          rintro ⟨s, hs⟩
          dsimp only at hs
          split at hs <;> cases hs
  | colon pos symbol =>
      dsimp only [Front.header]
      cases hclass : beginsWith classWord text with
      | true => exact ⟨fun _ => rfl, fun _ => ⟨_, rfl⟩⟩
      | false => exact ⟨nofun, nofun⟩
  | exhausted depth =>
      dsimp only [Front.header]
      refine ⟨?_, False.elim⟩
      rintro ⟨s, hs⟩
      split at hs <;> cases hs

end Segments

end CallableKinds

import CallableKinds.Proofs.Reisolation
import CallableKinds.Proofs.Scanning

/-!
# Texts of anonymous functions

A text is scanned as that of an anonymous function if and only if it begins with the word of one, and
this can still be seen from the head that it is cut into. So what was cut out as an anonymous function
is scanned as one, and a text without anonymous functions is left as it is.
-/

namespace CallableKinds

/-! ### Words at the beginning of a text -/

namespace Segments

variable {keyword text : List Char} {i : Nat}

theorem beginsWith_iff :
    beginsWith keyword text = true ↔
      keyword <+: text ∧ text[keyword.length]?.any isWord = false := by
  rw [beginsWith, startsWord, List.head?_drop, Option.any_none, Bool.not_false, Bool.and_true,
    Bool.and_eq_true, Bool.not_eq_true', List.isPrefixOf_iff_prefix]

theorem beginsWith_take_of_le (begins : beginsWith keyword text = true) (le : keyword.length ≤ i) :
    beginsWith keyword (text.take i) = true := by
  obtain ⟨hstarts, hbehind⟩ := beginsWith_iff.mp begins
  refine beginsWith_iff.mpr ⟨List.prefix_take_iff.mpr ⟨hstarts, le⟩, ?_⟩
  rw [List.getElem?_take]
  split
  · exact hbehind
  · rfl

/-- A text that is cut in front of a character that belongs to no word begins with the same words. -/
theorem beginsWith_take (letters : ∀ c ∈ keyword, isWord c = true)
    (boundary : text[i]?.any isWord = false) :
    beginsWith keyword (text.take i) = beginsWith keyword text := by
  rw [Bool.eq_iff_iff]
  constructor
  · intro begins
    obtain ⟨hstarts, hbehind⟩ := beginsWith_iff.mp begins
    obtain ⟨hstarts, hle⟩ := List.prefix_take_iff.mp hstarts
    refine beginsWith_iff.mpr ⟨hstarts, ?_⟩
    rcases Nat.lt_or_eq_of_le hle with hlt | heq
    · rwa [List.getElem?_take, if_pos hlt] at hbehind
    · rwa [heq]
  · intro begins
    obtain ⟨hstarts, -⟩ := beginsWith_iff.mp begins
    refine beginsWith_take_of_le begins (Nat.le_of_not_lt fun hlt => ?_)
    have hletter : text[i]? = some keyword[i] := by
      rw [← List.getElem?_eq_getElem hlt]
      exact (List.prefix_iff_getElem?.mp hstarts i hlt).trans (List.getElem?_eq_getElem hlt).symm
    rw [hletter, Option.any_some, letters _ (List.getElem_mem hlt)] at boundary
    cases boundary

theorem beginsWith_append {front back : List Char} (letters : ∀ c ∈ keyword, isWord c = true)
    (boundary : back.head?.any isWord = false) :
    beginsWith keyword (front ++ back) = beginsWith keyword front := by
  have hback : (front ++ back)[front.length]? = back.head? := by
    rw [List.getElem?_append_right (Nat.le_refl _), Nat.sub_self, List.head?_eq_getElem?]
  rw [← beginsWith_take letters (hback ▸ boundary), List.take_left]

/-- Blanks at the end of a text belong to none of its words. -/
theorem beginsWith_trimRight (letters : ∀ c ∈ keyword, isWord c = true) :
    beginsWith keyword (trimRight text) = beginsWith keyword text := by
  have hparts : trimRight text ++ (text.reverse.takeWhile isBlank).reverse = text := by
    rw [trimRight, dropRightWhile, ← List.reverse_append, List.takeWhile_append_dropWhile,
      List.reverse_reverse]
  conv_rhs => rw [← hparts]
  refine (beginsWith_append letters ?_).symm
  cases hblank : (text.reverse.takeWhile isBlank).reverse.head? with
  | none => rfl
  | some c =>
      have hmember := List.mem_reverse.mp (List.mem_of_head? hblank)
      exact (of_isBlank (List.mem_takeWhile_imp hmember)).1

theorem isWord_head?_collapse (text : List Char) :
    (collapse text).head?.any isWord = text.head?.any isWord := by
  induction text with
  | nil => rfl
  | cons c rest ih =>
      cases hc : isBlank c with
      | false => rw [collapse_cons_of_not_blank rest hc, List.head?_cons, List.head?_cons]
      | true =>
          rw [collapse_cons_of_blank rest hc, List.head?_cons, Option.any_some, (of_isBlank hc).1]
          split
          next blank =>
              obtain ⟨d, hd, hblank⟩ := (Option.any_eq_true ..).mp blank
              rw [ih, hd, Option.any_some, (of_isBlank hblank).1]
          next => rfl

/-- Runs of blanks may be collapsed without a change to the words of a text. -/
theorem beginsWith_collapse (letters : ∀ c ∈ keyword, isWord c = true) :
    beginsWith keyword (collapse text) = beginsWith keyword text := by
  rw [Bool.eq_iff_iff, beginsWith_iff, beginsWith_iff]
  induction keyword generalizing text with
  | nil =>
      rw [List.length_nil, ← List.head?_eq_getElem?, ← List.head?_eq_getElem?,
        isWord_head?_collapse]
      simp
  | cons k keyword ih =>
      obtain ⟨hk, hkeyword⟩ := List.forall_mem_cons.mp letters
      have hother {s : List Char} (other : s.head?.any isWord = false) : ¬ k :: keyword <+: s := by
        rintro ⟨more, rfl⟩
        cases hk.symm.trans other
      cases text with
      | nil => rfl
      | cons c rest =>
          cases hc : isBlank c with
          | false =>
              rw [collapse_cons_of_not_blank rest hc, List.cons_prefix_cons, List.cons_prefix_cons,
                List.length_cons, List.getElem?_cons_succ, List.getElem?_cons_succ, and_assoc,
                and_assoc, ih hkeyword]
          | true =>
              have hhead : (c :: rest).head?.any isWord = false := (of_isBlank hc).1
              have hcollapse := (isWord_head?_collapse (c :: rest)).trans hhead
              exact iff_of_false (fun h => hother hcollapse h.1) fun h => hother hhead h.1

/-! ### Heads -/

/-- The text of a definition begins with the same words as the head that it is cut into. -/
theorem beginsWith_head_of_scanDefinition {s : Segments} (letters : ∀ c ∈ keyword, isWord c = true)
    (scanned : scanDefinition text = .ok s) : beginsWith keyword s.head = beginsWith keyword text := by
  have hcut {start : Nat} {c : Char} (at_ : text[start]? = some c) (other : isWord c = false) :
      beginsWith keyword (collapse (text.take start)) = beginsWith keyword text := by
    rw [beginsWith_collapse letters, beginsWith_take letters]
    rw [at_, Option.any_some, other]
  have hspec := front_spec Brackets.placedIn_initial (Readable.ofLexAt text 0)
  dsimp only [scanDefinition] at scanned
  split at scanned
  next start symbol rest hfront =>
      obtain ⟨hparen, -⟩ := hspec.1 start symbol rest hfront
      split at scanned
      · cases scanned
        exact hcut hparen (by decide)
      · revert scanned
        split <;> nofun
  next pos symbol hfront =>
      obtain ⟨hcolon, -⟩ := hspec.2 pos symbol hfront
      split at scanned
      · cases scanned
        exact hcut hcolon (by decide)
      · cases scanned
  next =>
      revert scanned
      split <;> nofun

theorem beginsWith_head_of_scanLambda {s : Segments} (begins : beginsWith lambdaWord text = true)
    (scanned : scanLambda text = .ok s) : beginsWith lambdaWord s.head = true := by
  dsimp only [scanLambda] at scanned
  split at scanned
  · cases scanned
    refine (beginsWith_collapse letters_lambdaWord).trans ?_
    exact beginsWith_take_of_le begins (Nat.le_add_right ..)
  · revert scanned
    split <;> nofun

/-- A text is scanned as that of an anonymous function if and only if it begins with the word of
one. -/
theorem beginsWith_head_of_scan {source : List Char} {s : Segments} (scanned : scan source = .ok s) :
    beginsWith lambdaWord s.head = beginsWith lambdaWord (trim source) := by
  dsimp only [scan] at scanned
  split at scanned
  next begins => rw [beginsWith_head_of_scanLambda begins scanned, begins]
  next => exact beginsWith_head_of_scanDefinition letters_lambdaWord scanned

end Segments

/-! ### Texts that were isolated -/

open Segments

variable {text : List Char}

theorem trim_trim (s : List Char) : trim (trim s) = trim s := by
  have hleft : trimLeft (trim s) = trim s := by
    have hstarts : trim s <+: trimLeft s := by
      rw [trim, trimRight_eq_rdropWhile]
      exact List.rdropWhile_prefix isBlank (trimLeft s)
    have hhead := List.head?_dropWhile_not isBlank s
    generalize trim s = trimmed at hstarts ⊢
    cases trimmed with
    | nil => rfl
    | cons c rest =>
        obtain ⟨more, hmore⟩ := hstarts
        rw [← trimLeft, ← hmore, List.cons_append, List.head?_cons] at hhead
        rw [trimLeft, List.dropWhile_cons_of_neg (by simpa using hhead)]
  conv_lhs => rw [trim, hleft]
  rw [trim, trimRight_eq_rdropWhile, trimRight_eq_rdropWhile, List.rdropWhile_idempotent]

/-- A text without anonymous functions is taken as it is. -/
theorem isolateLambda_of_lambdaStarts_eq_nil (complete : (lex text).unclosed = none)
    (none : lambdaStarts (lex text).spots = []) (names : Option (List (List Char))) :
    isolateLambda text names = .ok text := by
  have hends : ∀ k ∈ lambdaStarts (lex text).spots, expressionEnd text k 0 = .ok (id k) := by
    rw [none]
    exact List.forall_mem_nil _
  have hknown : LambdaExpressions.ofText text = ⟨[], Option.none⟩ := by
    rw [LambdaExpressions.ofText, complete, starting_of_ends hends, none, List.map_nil]
  rw [isolateLambda_of_ofText hknown]
  cases names <;> rfl

/-- Nothing is found and nothing fails only in a text without anonymous functions. -/
theorem lambdaStarts_eq_nil_of_starting {unclosed : Option (List Char)} {spots : List Spot}
    (nothing : LambdaExpressions.starting text unclosed spots = ⟨[], none⟩) :
    lambdaStarts spots = [] := by
  obtain ⟨stop, -, hfound⟩ := LambdaExpressions.found_of_complete (congrArg (·.failure) nothing)
  rw [nothing] at hfound
  exact List.map_eq_nil_iff.mp hfound.symm

/-- What is found of an anonymous function begins with its word. -/
theorem beginsWith_slice {s : Spot} {stop : Nat} (member : s ∈ (lex text).spots)
    (word : s.startsWord lambdaWord = true) (ends : expressionEnd text s.pos 0 = .ok stop) :
    beginsWith lambdaWord (slice text s.pos stop) = true := by
  obtain ⟨t, rest, hspots, hpos, hword⟩ :=
    (cutOut_of_lambda member word ends).exists_spots member word
  have hstands : t.StandsIn (slice text s.pos stop) :=
    (standsIn_of_mem_lexFrom rfl rfl (hspots ▸ List.mem_cons_self)).2
  have hdrop := hstands.drop
  have hbefore := hstands.before
  rw [hpos, List.drop_zero] at hdrop
  rw [hpos] at hbefore
  rwa [Spot.startsWord, hbefore, ← hdrop] at hword

/-- What is taken of a text with anonymous functions begins with the word of one. -/
theorem beginsWith_of_isolateLambda {names : Option (List (List Char))} {expression : List Char}
    (some : lambdaStarts (lex text).spots ≠ [])
    (isolated : isolateLambda text names = .ok expression) :
    beginsWith lambdaWord (trim expression) = true := by
  rcases isolateLambda_cases isolated with ⟨-, hnothing⟩ | ⟨found, -⟩
  · exact absurd (lambdaStarts_eq_nil_of_starting hnothing) some
  obtain ⟨s, member, word, stop, ends, rfl⟩ := LambdaExpressions.exists_of_mem_starting found
  have begins := beginsWith_slice member word ends
  have hleft : trimLeft (slice text s.pos stop) = slice text s.pos stop := by
    obtain ⟨rest, hrest⟩ := (beginsWith_iff.mp begins).1
    rw [← hrest]
    rfl
  rw [trim, hleft, beginsWith_trimRight letters_lambdaWord]
  exact begins

end CallableKinds

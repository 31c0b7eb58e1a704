import CallableKinds.Proofs.Arrows
import CallableKinds.Proofs.Boundaries

/-!
# Kinds of texts

Whether a text is that of an anonymous function, of a class statement or of another definition is decided
twice: on the whole text when it is scanned, and later on the head that the scan cut off. Both agree, as no
cut falls behind a letter and blanks belong to no word; and the parameters look as they do for that kind.
-/

namespace CallableKinds

namespace Segments

variable {text : List Char} {s : Segments}

/-- A text begins with one word only. -/
theorem not_beginsWith_classWord (arrow : beginsWith lambdaWord text = true) :
    beginsWith classWord text = false := by
  rw [← Bool.not_eq_true]
  intro cls
  obtain ⟨rest, rfl⟩ := (beginsWith_iff.mp arrow).1
  obtain ⟨rest', hrest⟩ := (beginsWith_iff.mp cls).1
  cases hrest

/-- Between parentheses the parameters of a text begin and end with them. -/
theorem ends_of_parentheses {i j : Nat} (lt : i < j) (opening : text[i]? = some '(')
    (closing : text[j]? = some ')') :
    (collapse (slice text i (j + 1))).head? = some '(' ∧
      (collapse (slice text i (j + 1))).getLast? = some ')' := by
  rw [slice_succ (Nat.le_of_lt lt) closing, slice_eq_cons lt opening,
    collapse_between _ (by decide) (by decide)]
  exact ⟨rfl, List.getLast?_concat⟩

/-- The text of a definition has parentheses around its parameters, or it is that of a class without
parameters. -/
theorem params_of_scanDefinition (scanned : scanDefinition text = .ok s) :
    s.implicit = false ∧ s.params.head? = some '(' ∧ s.params.getLast? = some ')' ∨
      s.implicit = true ∧ s.params = [] ∧ beginsWith classWord text = true := by
  obtain ⟨outcome, bounded⟩ := exists_bounded text
  obtain rfl : outcome = .ok s := (scanDefinition_of_bounded bounded).symm.trans scanned
  have hsorted := pairwise_lexAt text 0
  rw [lexAt_zero] at hsorted
  cases bounded with
  | @params front behind inner rest a c _ ends opening closes _ =>
      have hparts := ends.parts
      rw [closes.parts] at hparts
      have ha : a ∈ (lex text).spots := by simp [hparts]
      have hc : c ∈ (lex text).spots := by simp [hparts]
      rw [hparts, List.pairwise_append, List.pairwise_cons] at hsorted
      have lt : a.pos < c.pos := hsorted.2.1.1 c (by simp)
      have hopening := (standsIn_of_mem_lexFrom rfl rfl ha).2.getElem?
      have hclosing := (standsIn_of_mem_lexFrom rfl rfl hc).2.getElem?
      rw [opening] at hopening
      rw [closes.closing] at hclosing
      exact .inl ⟨rfl, ends_of_parentheses lt hopening hclosing⟩
  | noBases _ _ cls _ => exact .inr ⟨rfl, rfl, cls⟩

theorem implicit_of_scanLambda (scanned : scanLambda text = .ok s) : s.implicit = true := by
  rw [scanLambda_eq_marks] at scanned
  obtain ⟨m, marked, rfl⟩ := exists_of_map_eq_ok scanned
  dsimp only [lambdaMarks] at marked
  split at marked
  · cases marked
    rfl
  · cases marked

/-- The head of a scanned text tells what the text is. It begins with the word of an anonymous function
or with that of a class statement if and only if the text does. Parentheses are missing for anonymous
functions, and for classes exactly if there are no parameters; otherwise the parameters stand between
parentheses. -/
theorem kind_of_scan {source : List Char} (scanned : scan source = .ok s) :
    (beginsWith lambdaWord s.head = true ↔ beginsWith lambdaWord (trim source) = true) ∧
    (beginsWith classWord s.head = true ↔ beginsWith classWord (trim source) = true) ∧
    (s.implicit = true → beginsWith lambdaWord s.head = true ∨ beginsWith classWord s.head = true) ∧
    (beginsWith lambdaWord s.head = true → s.implicit = true) ∧
    (beginsWith classWord s.head = true → (s.implicit = true ↔ s.params = [])) ∧
    (beginsWith lambdaWord s.head = false → beginsWith classWord s.head = false →
      s.params.head? = some '(' ∧ s.params.getLast? = some ')') := by
  have hlambda := beginsWith_head_of_scan scanned
  dsimp only [scan] at scanned
  split at scanned
  next arrow =>
      have himplicit := implicit_of_scanLambda scanned
      rw [arrow] at hlambda
      have hclass := not_beginsWith_classWord hlambda
      simp [hlambda, hclass, arrow, not_beginsWith_classWord arrow, himplicit]
  next other =>
      have hclass := beginsWith_head_of_scanDefinition letters_classWord scanned
      rw [hlambda, hclass, Bool.eq_false_iff.mpr other]
      rcases params_of_scanDefinition scanned with ⟨himplicit, hfirst, hlast⟩ | ⟨himplicit, hparams, cls⟩
      · have hparams : s.params ≠ [] := by
          rintro empty
          rw [empty] at hfirst
          cases hfirst
        simp [himplicit, hparams, hfirst, hlast]
      · simp [himplicit, hparams, cls]

/-- An anonymous function whose head is cut right behind its word, a class with type parameters and
without bases, and a definition whose name begins like a class statement. -/
theorem kind_of_scan_boundaries :
    let arrow : Segments := ⟨none, "lambda".toList, "*x".toList, ": x".toList, true⟩
    let cls : Segments := ⟨some "[T]".toList, "class[T] ".toList, [], ": x".toList, true⟩
    let other : Segments := ⟨none, "classes ".toList, "()".toList, ": x".toList, false⟩
    (scan " lambda*x: x".toList = .ok arrow ∧ beginsWith lambdaWord arrow.head = true) ∧
    (scan "class[T] :\n x".toList = .ok cls ∧ beginsWith classWord cls.head = true ∧
      (cls.implicit = true ↔ cls.params = [])) ∧
    scan "classes (): x".toList = .ok other ∧ beginsWith lambdaWord other.head = false ∧
      beginsWith classWord other.head = false ∧
      other.params.head? = some '(' ∧ other.params.getLast? = some ')' := by
  intro arrow cls other
  have harrow : scan " lambda*x: x".toList = .ok arrow := rfl
  have hcls : scan "class[T] :\n x".toList = .ok cls := rfl
  have hother : scan "classes (): x".toList = .ok other := rfl
  obtain ⟨hlambda, -⟩ := kind_of_scan harrow
  obtain ⟨-, hclass, -, -, himplicit, -⟩ := kind_of_scan hcls
  obtain ⟨-, -, -, -, -, hparams⟩ := kind_of_scan hother
  have begins : beginsWith classWord cls.head = true := hclass.mpr rfl
  exact ⟨⟨harrow, hlambda.mpr rfl⟩, ⟨hcls, begins, himplicit begins⟩, hother, rfl, rfl,
    hparams rfl rfl⟩

end Segments

end CallableKinds

import CallableKinds.Proofs.Expressions
import Mathlib.Algebra.Ring.Int.Defs

/-!
# Reading expressions

An expression is read one code character at a time, with a count of the brackets that are open and of
the headers that wait for their colon. The counts are sums over the characters that were read, so what
is open at a place of an expression can be told without reading it, and so can whether the expression
stops there.
-/

namespace CallableKinds

/-! ### What is open -/

/-- What a character adds to the brackets that are open. -/
def bracketTurn (c : Char) : Int := if isOpening c then 1 else if isClosing c then -1 else 0

theorem bracketTurn_of_isClosing {c : Char} (closing : isClosing c = true) : bracketTurn c = -1 := by
  have hchar : c = ')' ∨ c = ']' ∨ c = '\x7d' := by
    simpa [isClosing, or_assoc] using closing
  rcases hchar with rfl | rfl | rfl <;> rfl

/-- How many brackets are open behind some code characters, where a bracket that closes nothing counts
against those behind it. -/
def nesting (spots : List Spot) : Int := (spots.map fun s => bracketTurn s.char).sum

@[simp] theorem nesting_nil : nesting [] = 0 := rfl

@[simp] theorem nesting_cons (s : Spot) (rest : List Spot) :
    nesting (s :: rest) = bracketTurn s.char + nesting rest := by
  simp [nesting]

@[simp] theorem nesting_append (front back : List Spot) :
    nesting (front ++ back) = nesting front + nesting back := by
  simp [nesting]

/-- What a code character inside so many brackets adds to the headers that are open: outside of
brackets a colon closes one, and the word of an anonymous function opens one. -/
def headerTurn (depth : Int) (s : Spot) : Int :=
  if depth ≠ 0 then 0
  else if s.char = ':' then -1
  else if s.startsWord lambdaWord then 1
  else 0

/-- How many headers of anonymous functions are open behind some code characters that begin inside so
many brackets. -/
def openHeaders (depth : Int) : List Spot → Int
  | [] => 0
  | s :: rest => headerTurn depth s + openHeaders (depth + bracketTurn s.char) rest

@[simp] theorem openHeaders_nil (depth : Int) : openHeaders depth [] = 0 := rfl

theorem openHeaders_append (depth : Int) (front back : List Spot) :
    openHeaders depth (front ++ back) =
      openHeaders depth front + openHeaders (depth + nesting front) back := by
  induction front generalizing depth with
  | nil => simp
  | cons s front ih =>
      rw [List.cons_append, openHeaders, openHeaders, ih, nesting_cons, Int.add_assoc, Int.add_assoc]

/-! ### One code character -/

/-- An expression stops at a code character at its own level if that closes a bracket, ends the line
or is a semicolon, or if no header is open and it is a comma, a colon or the word of a clause. -/
def StopsAt (depth : Nat) (headers : Int) (s : Spot) : Prop :=
  depth = 0 ∧ (isClosing s.char = true ∨ s.endsLine = true ∨ s.char = ';' ∨
    headers = 0 ∧ (s.char = ',' ∨ s.char = ':' ∨ s.startsWord forWord = true))

instance (depth : Nat) (headers : Int) (s : Spot) : Decidable (StopsAt depth headers s) :=
  inferInstanceAs (Decidable (_ ∧ _))

/-- A word stands where its first character does. -/
theorem char_of_startsWord {s : Spot} {c : Char} {word : List Char}
    (starts : s.startsWord (c :: word) = true) : s.char = c := by
  simp only [Spot.startsWord, startsWord, List.isPrefixOf, Bool.and_eq_true, beq_iff_eq] at starts
  exact starts.1.1.1.symm

theorem before_of_startsWord {s : Spot} {word : List Char} (starts : s.startsWord word = true) :
    s.before.any isWord = false := by
  simp only [Spot.startsWord, startsWord, Bool.and_eq_true, Bool.not_eq_true'] at starts
  exact starts.1.2

theorem char_of_endsLine {s : Spot} (ends : s.endsLine = true) : s.char = '\n' := by
  simp only [Spot.endsLine, Bool.and_eq_true, beq_iff_eq] at ends
  exact ends.1

/-- Unless an expression stops at a code character, it goes on behind it with what is open there. -/
theorem expressionStep_eq (depth : Nat) (headers : Int) (s : Spot) :
    expressionStep depth headers s =
      if StopsAt depth headers s then none
      else some ((depth + bracketTurn s.char).toNat, headers + headerTurn depth s) := by
  have hline (ends : s.endsLine = true) : s.char = '\n' := char_of_endsLine ends
  have hlambda (starts : s.startsWord lambdaWord = true) : s.char = 'l' := char_of_startsWord starts
  have hfor (starts : s.startsWord forWord = true) : s.char = 'f' := char_of_startsWord starts
  unfold expressionStep StopsAt headerTurn bracketTurn
  by_cases hopen : isOpening s.char = true
  · have hchar : s.char = '(' ∨ s.char = '[' ∨ s.char = '\x7b' := by
      simpa [isOpening, or_assoc] using hopen
    have hclose : isClosing s.char = false := by
      rcases hchar with h | h | h <;> rw [h] <;> rfl
    grind
  by_cases hclose : isClosing s.char = true
  · have hchar : s.char = ')' ∨ s.char = ']' ∨ s.char = '\x7d' := by
      simpa [isClosing, or_assoc] using hclose
    grind
  by_cases hdepth : 0 < depth
  · grind
  obtain rfl : depth = 0 := by omega
  by_cases hend : (s.endsLine || s.char == ';') = true
  · grind
  by_cases hheaders : headers = 0
  · grind
  · grind

theorem expressionStep_eq_none_iff {depth : Nat} {headers : Int} {s : Spot} :
    expressionStep depth headers s = none ↔ StopsAt depth headers s := by
  rw [expressionStep_eq]
  split <;> simp_all

/-- An expression stops in front of a bracket that it did not open, so it never has fewer than none
open. -/
theorem of_expressionStep {depth depth' : Nat} {headers headers' : Int} {s : Spot}
    (step : expressionStep depth headers s = some (depth', headers')) :
    (depth' : Int) = depth + bracketTurn s.char ∧ headers' = headers + headerTurn depth s ∧
      ¬ StopsAt depth headers s := by
  rw [expressionStep_eq] at step
  split at step
  next => cases step
  next hgoes =>
      obtain ⟨rfl, rfl⟩ := Prod.mk.inj (Option.some.inj step)
      refine ⟨Int.toNat_of_nonneg ?_, rfl, hgoes⟩
      unfold bracketTurn
      grind [StopsAt]

/-- Only a header that is open is closed. -/
theorem headers_nonneg_of_expressionStep {depth depth' : Nat} {headers headers' : Int} {s : Spot}
    (nonneg : 0 ≤ headers) (step : expressionStep depth headers s = some (depth', headers')) :
    0 ≤ headers' := by
  obtain ⟨-, rfl, hgoes⟩ := of_expressionStep step
  unfold headerTurn
  grind [StopsAt]

/-! ### Several code characters -/

/-- What an expression has open behind some code characters, or nothing if it stops at one of them. -/
def readExpression (depth : Nat) (headers : Int) : List Spot → Option (Nat × Int)
  | [] => some (depth, headers)
  | s :: rest =>
    (expressionStep depth headers s).bind fun next => readExpression next.1 next.2 rest

variable {depth depth' : Nat} {headers headers' : Int} {front back spots : List Spot}

theorem readExpression_append (front back : List Spot) :
    readExpression depth headers (front ++ back) =
      (readExpression depth headers front).bind fun next => readExpression next.1 next.2 back := by
  induction front generalizing depth headers with
  | nil => rfl
  | cons s front ih =>
      rw [List.cons_append, readExpression, readExpression, Option.bind_assoc]
      congr 1
      funext next
      exact ih

/-- Where an expression stops is told from what it has open behind a part that it reads. -/
theorem expressionStop_append (read : readExpression depth headers front = some (depth', headers'))
    (back : List Spot) :
    expressionStop depth headers (front ++ back) = expressionStop depth' headers' back := by
  induction front generalizing depth headers with
  | nil =>
      cases read
      rfl
  | cons s front ih =>
      obtain ⟨next, hstep, hread⟩ := Option.bind_eq_some_iff.mp read
      rw [List.cons_append, expressionStop_cons, hstep]
      exact ih hread

/-- An expression that does not read a part as a whole stops in it. -/
theorem exists_of_readExpression_eq_none (stopped : readExpression depth headers front = none) :
    ∃ s ∈ front, ∀ back, expressionStop depth headers (front ++ back) = some s.pos := by
  induction front generalizing depth headers with
  | nil => cases stopped
  | cons s front ih =>
      cases hstep : expressionStep depth headers s with
      | none =>
          refine ⟨s, List.mem_cons_self, fun back => ?_⟩
          rw [List.cons_append, expressionStop_cons, hstep]
          rfl
      | some next =>
          rw [readExpression, hstep] at stopped
          obtain ⟨t, member, hstop⟩ := ih stopped
          refine ⟨t, List.mem_cons_of_mem s member, fun back => ?_⟩
          rw [List.cons_append, expressionStop_cons, hstep]
          exact hstop back

/-- An expression stops at a code character at its own level. -/
theorem exists_stopsAt {stop : Nat} (found : expressionStop depth headers spots = some stop) :
    ∃ s ∈ spots, s.pos = stop ∧ ∃ headers', StopsAt 0 headers' s := by
  induction spots generalizing depth headers with
  | nil => cases found
  | cons s rest ih =>
      rw [expressionStop_cons] at found
      cases hstep : expressionStep depth headers s with
      | none =>
          rw [hstep] at found
          have hstops := expressionStep_eq_none_iff.mp hstep
          exact ⟨s, List.mem_cons_self, Option.some.inj found, headers, rfl, hstops.2⟩
      | some next =>
          rw [hstep] at found
          obtain ⟨t, member, hstop, hstops⟩ := ih found
          exact ⟨t, List.mem_cons_of_mem s member, hstop, hstops⟩

/-- What is open behind a part that is read is the sum of what its characters open. -/
theorem of_readExpression (read : readExpression depth headers front = some (depth', headers')) :
    (depth' : Int) = depth + nesting front ∧ headers' = headers + openHeaders depth front := by
  induction front generalizing depth headers with
  | nil =>
      cases read
      simp
  | cons s front ih =>
      obtain ⟨⟨depth₁, headers₁⟩, hstep, hread⟩ := Option.bind_eq_some_iff.mp read
      obtain ⟨hdepth, hheaders, -⟩ := of_expressionStep hstep
      obtain ⟨hdepth', hheaders'⟩ := ih hread
      rw [nesting_cons, openHeaders, ← hdepth, hdepth', hheaders', hheaders, hdepth]
      omega

/-- Only headers that are open are closed. -/
theorem headers_nonneg_of_readExpression {next : Nat × Int} (nonneg : 0 ≤ headers)
    (read : readExpression depth headers front = some next) : 0 ≤ next.2 := by
  induction front generalizing depth headers with
  | nil =>
      cases read
      exact nonneg
  | cons s front ih =>
      obtain ⟨state, hstep, hread⟩ := Option.bind_eq_some_iff.mp read
      exact ih (headers_nonneg_of_expressionStep nonneg hstep) hread

/-- An expression that stops neither in a part nor at the character behind it has read the part. -/
theorem exists_readExpression {s : Spot}
    (goes : ∀ t ∈ front ++ [s], expressionStop depth headers (front ++ s :: back) ≠ some t.pos) :
    ∃ depth' headers', readExpression depth headers front = some (depth', headers') ∧
      ¬ StopsAt depth' headers' s := by
  cases hread : readExpression depth headers front with
  | none =>
      obtain ⟨t, member, hstop⟩ := exists_of_readExpression_eq_none hread
      exact absurd (hstop _) (goes t (List.mem_append_left _ member))
  | some state =>
      obtain ⟨depth', headers'⟩ := state
      refine ⟨depth', headers', rfl, fun stops => ?_⟩
      refine goes s (List.mem_append_right _ List.mem_cons_self) ?_
      rw [expressionStop_append hread, expressionStop_cons, expressionStep_eq_none_iff.mpr stops]
      rfl

end CallableKinds

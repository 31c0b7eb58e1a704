import CallableKinds.Segments
import Mathlib.Algebra.Ring.Int.Defs

/-!
# Where the parameters of a definition begin and end

The boundaries of a definition told without a scanner: by its code characters and by the number of
square brackets and of parentheses that are open between them. Scanning a definition gives what they
say, in every text, also where brackets do not match and where a literal is not closed.
-/

namespace CallableKinds

namespace Segments

/-! ### Counting brackets -/

/-- How many square brackets are open behind a character. -/
def squareStep (depth : Nat) (s : Spot) : Nat :=
  if s.char = '[' then depth + 1 else if s.char = ']' then depth - 1 else depth

/-- How many square brackets are open behind some code characters. A closing bracket counts only if
one is open. -/
def squareDepth (spots : List Spot) : Nat := spots.foldl squareStep 0

theorem squareDepth_append (earlier later : List Spot) :
    squareDepth (earlier ++ later) = later.foldl squareStep (squareDepth earlier) :=
  List.foldl_append

/-- The square brackets that are open are closed by a first character behind which none is. -/
theorem exists_first_closing {depth : Nat} {spots : List Spot} (isOpen : 0 < depth)
    (complete : spots.foldl squareStep depth = 0) :
    ∃ inner c later, spots = inner ++ c :: later ∧ c.char = ']' ∧
      (∀ p, p <+: inner → 0 < p.foldl squareStep depth) ∧
      (inner ++ [c]).foldl squareStep depth = 0 := by
  induction spots generalizing depth with
  | nil =>
      obtain rfl : depth = 0 := complete
      exact absurd isOpen (Nat.lt_irrefl 0)
  | cons s rest ih =>
      by_cases hlast : squareStep depth s = 0
      · refine ⟨[], s, rest, rfl, ?_, ?_, hlast⟩
        · unfold squareStep at hlast
          split at hlast
          · cases hlast
          split at hlast
          next hclose => exact hclose
          next => omega
        · intro p hp
          rw [List.prefix_nil.mp hp]
          exact isOpen
      · obtain ⟨inner, c, later, rfl, hclose, hinside, hcomplete⟩ :=
          ih (Nat.pos_of_ne_zero hlast) complete
        refine ⟨s :: inner, c, later, rfl, hclose, ?_, hcomplete⟩
        intro p hp
        rcases List.prefix_cons_iff.mp hp with rfl | ⟨q, rfl, hq⟩
        · exact isOpen
        · exact hinside q hq

/-- How many more parentheses are open behind a character. -/
def turn (s : Spot) : Int := if s.char = '(' then 1 else if s.char = ')' then -1 else 0

/-- How many more parentheses are opened than closed in some code characters. -/
def balance (spots : List Spot) : Int := (spots.map turn).sum

@[simp] theorem balance_nil : balance [] = 0 := rfl

@[simp] theorem balance_cons (s : Spot) (rest : List Spot) :
    balance (s :: rest) = turn s + balance rest := by
  simp [balance]

/-! ### Boundaries -/

/-- A character that ends the front of a definition where no square bracket is open. -/
def EndsHeader (s : Spot) : Prop := s.char = '(' ∨ s.char = ':'

/-- No character ends the front of a definition, as none that could do so stands outside of square
brackets. -/
def Endless (spots : List Spot) : Prop :=
  ∀ earlier t later, spots = earlier ++ t :: later → squareDepth earlier = 0 → ¬ EndsHeader t

/-- The first character outside of square brackets that ends the front of a definition. -/
structure EndsFront (spots front : List Spot) (s : Spot) (behind : List Spot) : Prop where
  parts : spots = front ++ s :: behind
  ends : EndsHeader s
  outside : squareDepth front = 0
  first : Endless front

/-- The parenthesis that matches the one in front of the given characters. -/
structure ClosesParams (behind inner : List Spot) (t : Spot) (rest : List Spot) : Prop where
  parts : behind = inner ++ t :: rest
  closing : t.char = ')'
  balanced : balance inner = 0
  inside : ∀ p, p <+: inner → 0 ≤ balance p

/-- The symbol of a definition is the first group in square brackets in its front. -/
inductive SymbolOf (text : List Char) : List Spot → Option (List Char) → Prop where
  | absent {front : List Spot} (ungrouped : ∀ t ∈ front, t.char ≠ '[') : SymbolOf text front none
  | group {before inner after : List Spot} {a c : Spot} (first : ∀ t ∈ before, t.char ≠ '[')
      (opening : a.char = '[') (closing : c.char = ']')
      (inside : ∀ p, p <+: inner → 0 < squareDepth (before ++ a :: p))
      (complete : squareDepth (before ++ a :: inner ++ [c]) = 0) :
      SymbolOf text (before ++ a :: inner ++ c :: after)
        (some (squeeze (slice text a.pos (c.pos + 1))))

/-- What a definition has for segments, or what is wrong with it, by its boundaries. -/
inductive Bounded (text : List Char) : Except Fault Segments → Prop where
  /-- The parameters stand between matching parentheses. -/
  | params {front behind inner rest : List Spot} {s t : Spot} {symbol : Option (List Char)}
      (ends : EndsFront (lex text).spots front s behind) (opening : s.char = '(')
      (closes : ClosesParams behind inner t rest) (named : SymbolOf text front symbol) :
      Bounded text (.ok ⟨symbol, collapse (text.take s.pos),
        collapse (slice text s.pos (t.pos + 1)), collapse (text.drop (t.pos + 1)), false⟩)
  /-- The parameters are not closed. -/
  | openParams {front behind : List Spot} {s : Spot}
      (ends : EndsFront (lex text).spots front s behind) (opening : s.char = '(')
      (never : ∀ inner t rest, ¬ ClosesParams behind inner t rest)
      (closed : (lex text).unclosed = none) :
      Bounded text (.error (.unmatchedDelimiter ['(']))
  /-- A class has no bases. -/
  | noBases {front behind : List Spot} {s : Spot} {symbol : Option (List Char)}
      (ends : EndsFront (lex text).spots front s behind) (colon : s.char = ':')
      (cls : beginsWith classWord text = true) (named : SymbolOf text front symbol) :
      Bounded text (.ok ⟨symbol, collapse (text.take s.pos), [], collapse (text.drop s.pos), true⟩)
  /-- What is no class has no parameters in front of its colon. -/
  | noParams {front behind : List Spot} {s : Spot}
      (ends : EndsFront (lex text).spots front s behind) (colon : s.char = ':')
      (other : beginsWith classWord text = false) :
      Bounded text (.error .noParameterList)
  /-- The text ends inside square brackets. -/
  | openSymbol (endless : Endless (lex text).spots) (inside : 0 < squareDepth (lex text).spots)
      (closed : (lex text).unclosed = none) :
      Bounded text (.error (.unmatchedDelimiter ['[']))
  /-- The text ends before its front does. -/
  | noHeader (endless : Endless (lex text).spots) (outside : squareDepth (lex text).spots = 0)
      (closed : (lex text).unclosed = none) :
      Bounded text (.error .noParameterList)
  /-- A literal that is not closed stands in the front. -/
  | openLiteral {delimiter : List Char} (endless : Endless (lex text).spots)
      (unclosed : (lex text).unclosed = some delimiter) :
      Bounded text (.error (.unmatchedDelimiter delimiter))
  /-- A literal that is not closed stands in parameters that are not closed before. -/
  | openLiteralInParams {front behind : List Spot} {s : Spot} {delimiter : List Char}
      (ends : EndsFront (lex text).spots front s behind) (opening : s.char = '(')
      (never : ∀ inner t rest, ¬ ClosesParams behind inner t rest)
      (unclosed : (lex text).unclosed = some delimiter) :
      Bounded text (.error (.unmatchedDelimiter delimiter))

/-! ### Reading the front -/

namespace Brackets

/-- The state behind one more character of the front. -/
def read (b : Brackets) (s : Spot) : Brackets :=
  if s.char = '[' then b.opened s.pos
  else if s.char = ']' ∧ 0 < b.depth then b.closed s.pos
  else b

/-- The state behind some characters of the front. -/
def after (b : Brackets) (spots : List Spot) : Brackets := spots.foldl read b

@[simp] theorem after_cons (b : Brackets) (s : Spot) (rest : List Spot) :
    b.after (s :: rest) = (b.read s).after rest := rfl

theorem after_append (b : Brackets) (earlier later : List Spot) :
    b.after (earlier ++ later) = (b.after earlier).after later :=
  List.foldl_append

variable {b : Brackets} {s : Spot}

theorem read_of_opening (char : s.char = '[') : b.read s = b.opened s.pos := if_pos char

theorem depth_read (b : Brackets) (s : Spot) : (b.read s).depth = squareStep b.depth s := by
  unfold read squareStep
  by_cases hopen : s.char = '['
  · simp [hopen, opened]
  · by_cases hclose : s.char = ']'
    · by_cases hdepth : 0 < b.depth
      · simp [hclose, hdepth, closed]
      · simp [hclose, Nat.eq_zero_of_not_pos hdepth]
    · simp [hopen, hclose]

theorem depth_after (b : Brackets) (spots : List Spot) :
    (b.after spots).depth = spots.foldl squareStep b.depth := by
  induction spots generalizing b with
  | nil => rfl
  | cons s rest ih =>
      rw [after_cons, ih, depth_read]
      rfl

theorem depth_after_initial (spots : List Spot) : (initial.after spots).depth = squareDepth spots :=
  depth_after initial spots

/-- A closing bracket matters only if one is open. -/
theorem after_initial_of_no_opening {spots : List Spot} (none : ∀ t ∈ spots, t.char ≠ '[') :
    initial.after spots = initial := by
  induction spots with
  | nil => rfl
  | cons s rest ih =>
      have hread : initial.read s = initial := by
        simp [read, none s List.mem_cons_self, initial]
      rw [after_cons, hread]
      exact ih fun t ht => none t (List.mem_cons_of_mem s ht)

/-- The group that is complete is kept, whatever follows it. -/
theorem symbol_after {i j : Nat} (found : b.symbol = some (i, j)) (spots : List Spot) :
    (b.after spots).symbol = some (i, j) := by
  induction spots generalizing b with
  | nil => exact found
  | cons s rest ih =>
      obtain ⟨first, hfirst, hlast⟩ := Option.bind_eq_some_iff.mp found
      obtain ⟨last, hlast, hpair⟩ := Option.map_eq_some_iff.mp hlast
      refine ih ?_
      rw [← hpair]
      unfold read
      split
      · simp [symbol, opened, hfirst, hlast]
      · split <;> simp [symbol, closed, hfirst, hlast]

/-- While a group is open, it is only the depth that changes. -/
theorem after_of_open {depth i : Nat} {inner : List Spot}
    (inside : ∀ p, p <+: inner → 0 < p.foldl squareStep depth) :
    (⟨depth, some i, none⟩ : Brackets).after inner =
      ⟨inner.foldl squareStep depth, some i, none⟩ := by
  induction inner generalizing depth with
  | nil => rfl
  | cons s inner ih =>
      have hinside (p : List Spot) (hp : p <+: inner) := inside (s :: p) (by simpa using hp)
      have hdepth : 0 < depth := inside [] List.nil_prefix
      have hnext : 0 < squareStep depth s := hinside [] List.nil_prefix
      have hread : (⟨depth, some i, none⟩ : Brackets).read s =
          ⟨squareStep depth s, some i, none⟩ := by
        unfold read squareStep
        unfold squareStep at hnext
        by_cases hopen : s.char = '['
        · simp [hopen, opened]
        · by_cases hclose : s.char = ']'
          · have hne : depth ≠ 1 := by
              rintro rfl
              simp [hclose] at hnext
            simp [hclose, hdepth, closed, hne]
          · simp [hopen, hclose]
      rw [after_cons, hread]
      exact ih hinside

end Brackets

theorem exists_first_opening {spots : List Spot} (grouped : ¬ ∀ t ∈ spots, t.char ≠ '[') :
    ∃ before a tail, spots = before ++ a :: tail ∧ a.char = '[' ∧ ∀ t ∈ before, t.char ≠ '[' := by
  obtain ⟨a, ha⟩ : ∃ a, spots.find? (·.char = '[') = some a := by
    rw [← Option.isSome_iff_exists, List.find?_isSome]
    simpa using grouped
  obtain ⟨hopen, before, tail, hparts, hfirst⟩ := List.find?_eq_some_iff_append.mp ha
  exact ⟨before, a, tail, hparts, by simpa using hopen, fun t ht => by simpa using hfirst t ht⟩

/-- In front of the first opening bracket none is open, and behind it one is. -/
theorem squareDepth_first_opening {before : List Spot} {a : Spot}
    (first : ∀ t ∈ before, t.char ≠ '[') (opening : a.char = '[') (p : List Spot) :
    squareDepth (before ++ a :: p) = p.foldl squareStep 1 := by
  have hbefore : squareDepth before = 0 := by
    rw [← Brackets.depth_after_initial, Brackets.after_initial_of_no_opening first]
    rfl
  rw [squareDepth_append, hbefore, List.foldl_cons, squareStep, if_pos opening]

/-- The first group of a front is complete, if there is one. -/
theorem exists_symbolOf (text : List Char) {spots : List Spot} (outside : squareDepth spots = 0) :
    ∃ symbol, SymbolOf text spots symbol := by
  by_cases hnone : ∀ t ∈ spots, t.char ≠ '['
  · exact ⟨none, .absent hnone⟩
  · obtain ⟨before, a, tail, rfl, hopen, hfirst⟩ := exists_first_opening hnone
    have hdepth := squareDepth_first_opening hfirst hopen
    rw [hdepth] at outside
    obtain ⟨inner, c, later, rfl, hclose, hinside, hcomplete⟩ :=
      exists_first_closing Nat.one_pos outside
    refine ⟨some (squeeze (slice text a.pos (c.pos + 1))), ?_⟩
    rw [← List.cons_append, ← List.append_assoc]
    refine .group hfirst hopen hclose ?_ ?_
    · intro p hp
      rw [hdepth]
      exact hinside p hp
    · rw [List.append_assoc, List.cons_append, hdepth]
      exact hcomplete

/-- The symbol that is remembered in front of the parameters is the first group. -/
theorem symbol_after_of_symbolOf {text : List Char} {spots : List Spot}
    {symbol : Option (List Char)} (named : SymbolOf text spots symbol) :
    (Brackets.initial.after spots).symbol.map
      (fun (first, last) => squeeze (slice text first (last + 1))) = symbol := by
  cases named with
  | absent ungrouped =>
      rw [Brackets.after_initial_of_no_opening ungrouped]
      rfl
  | @group before inner later a c first opening closing inside complete =>
      have hdepth := squareDepth_first_opening first opening
      rw [List.append_assoc, List.cons_append, hdepth] at complete
      have hstart : (Brackets.initial.after before).read a = ⟨1, some a.pos, none⟩ := by
        rw [Brackets.after_initial_of_no_opening first, Brackets.read_of_opening opening]
        rfl
      have hinner : (⟨1, some a.pos, none⟩ : Brackets).after inner =
          ⟨inner.foldl squareStep 1, some a.pos, none⟩ := by
        refine Brackets.after_of_open ?_
        intro p hp
        rw [← hdepth]
        exact inside p hp
      -- Behind the last character of the group its only bracket is open.
      have hone : inner.foldl squareStep 1 = 1 := by
        have hpos : 0 < inner.foldl squareStep 1 := by
          rw [← hdepth]
          exact inside inner List.prefix_rfl
        rw [List.foldl_append, List.foldl_cons, List.foldl_nil, squareStep] at complete
        simp only [closing, if_pos, if_neg (show ¬ ']' = '[' by decide)] at complete
        omega
      have hclosed : (⟨1, some a.pos, none⟩ : Brackets).read c = ⟨0, some a.pos, some c.pos⟩ := by
        simp [Brackets.read, closing, Brackets.closed]
      rw [List.append_assoc, List.cons_append, Brackets.after_append, Brackets.after_cons, hstart,
        Brackets.after_append, hinner, hone, Brackets.after_cons, hclosed,
        Brackets.symbol_after rfl]
      rfl

/-- Where nothing ends the front, it is read on. -/
theorem front_append {b : Brackets} {earlier rest : List Spot}
    (endless : ∀ p t q, earlier = p ++ t :: q → (b.after p).depth = 0 → ¬ EndsHeader t) :
    front b (earlier ++ rest) = front (b.after earlier) rest := by
  induction earlier generalizing b with
  | nil => rfl
  | cons s earlier ih =>
      have hnext := ih (b := b.read s) fun p t q h => endless (s :: p) t q (congrArg _ h)
      rw [Brackets.after_cons, ← hnext, List.cons_append, front]
      unfold Brackets.read
      split
      · rfl
      split
      · rfl
      split
      · rfl
      next hdepth =>
        have hends := endless [] s earlier rfl (Nat.eq_zero_of_not_pos hdepth)
        rw [if_neg fun h => hends (.inl h), if_neg fun h => hends (.inr h)]

/-- The front of a definition ends where its boundaries say. -/
theorem front_of_endsFront {spots behind before : List Spot} {s : Spot}
    (ends : EndsFront spots before s behind) :
    front .initial spots =
      if s.char = '(' then .paramList s.pos (Brackets.initial.after before).symbol behind
      else .colon s.pos (Brackets.initial.after before).symbol := by
  have hdepth : (Brackets.initial.after before).depth = 0 := by
    rw [Brackets.depth_after_initial, ends.outside]
  rw [ends.parts, front_append, front]
  · rcases ends.ends with hchar | hchar <;> simp [hchar, hdepth]
  · intro p t q h
    rw [Brackets.depth_after_initial]
    exact ends.first p t q h

theorem front_of_endless {spots : List Spot} (endless : Endless spots) :
    front .initial spots = .exhausted (squareDepth spots) := by
  rw [← List.append_nil spots, front_append, front, Brackets.depth_after_initial, List.append_nil]
  intro p t q h
  rw [Brackets.depth_after_initial]
  exact endless p t q h

/-- If there is no first character that ends the front, there is none at all. -/
theorem endless_of_not_endsFront {spots : List Spot}
    (never : ∀ before s behind, ¬ EndsFront spots before s behind) : Endless spots := by
  intro earlier
  -- The induction is on the length of what stands before the character.
  induction hlength : earlier.length using Nat.strongRecOn generalizing earlier with
  | ind n ih =>
      intro t later hparts houtside hends
      refine never earlier t later ⟨hparts, hends, houtside, ?_⟩
      rintro p u q rfl
      refine ih p.length ?_ p rfl u (q ++ t :: later) (by simp [hparts])
      rw [← hlength, List.length_append, List.length_cons]
      omega

/-! ### Reading the parameters -/

/-- A character is read over unless it closes the parameters. -/
theorem paramsEnd_cons {depth : Nat} {s : Spot} (inside : 0 ≤ depth + turn s) (rest : List Spot) :
    paramsEnd depth (s :: rest) = paramsEnd (depth + turn s).toNat rest := by
  unfold turn at inside ⊢
  by_cases hopen : s.char = '('
  · simp [paramsEnd, hopen, Int.toNat_natCast_add_one]
  · by_cases hclose : s.char = ')'
    · cases depth with
      | zero => simp [hclose] at inside
      | succ depth => simp [paramsEnd, hclose]
    · simp [paramsEnd, hopen, hclose]

/-- Otherwise it is a parenthesis that closes them. -/
theorem closing_of_turn {depth : Nat} {s : Spot} (outside : ¬ 0 ≤ depth + turn s) :
    s.char = ')' ∧ depth = 0 := by
  unfold turn at outside
  split at outside
  · omega
  split at outside
  next hclose => exact ⟨hclose, by omega⟩
  next => omega

theorem paramsEnd_of_closing {s : Spot} (char : s.char = ')') (rest : List Spot) :
    paramsEnd 0 (s :: rest) = some (s.pos + 1) := by
  simp [paramsEnd, char]

/-- Where fewer parentheses are closed than are open, the parameters are read on. -/
theorem paramsEnd_append {depth : Nat} {inner : List Spot} (rest : List Spot)
    (inside : ∀ p, p <+: inner → 0 ≤ depth + balance p) :
    paramsEnd depth (inner ++ rest) = paramsEnd (depth + balance inner).toNat rest := by
  induction inner generalizing depth with
  | nil => simp
  | cons s inner ih =>
      have hinside (p : List Spot) (hp : p <+: inner) : 0 ≤ depth + (turn s + balance p) := by
        rw [← balance_cons]
        exact inside (s :: p) (List.cons_prefix_cons.mpr ⟨rfl, hp⟩)
      have hfirst : 0 ≤ depth + turn s := by simpa using hinside [] List.nil_prefix
      rw [List.cons_append, paramsEnd_cons hfirst, ih, balance_cons]
      · congr 1
        omega
      · intro p hp
        have := hinside p hp
        omega

/-- The parameters end behind a parenthesis that matches. -/
theorem exists_of_paramsEnd {depth stop : Nat} {spots : List Spot}
    (found : paramsEnd depth spots = some stop) :
    ∃ inner t rest, spots = inner ++ t :: rest ∧ t.char = ')' ∧ depth + balance inner = 0 ∧
      ∀ p, p <+: inner → 0 ≤ depth + balance p := by
  induction spots generalizing depth with
  | nil => cases found
  | cons s spots ih =>
      by_cases hinside : 0 ≤ depth + turn s
      · rw [paramsEnd_cons hinside] at found
        obtain ⟨inner, t, rest, rfl, hclose, hbalance, hprefix⟩ := ih found
        refine ⟨s :: inner, t, rest, rfl, hclose, ?_, ?_⟩
        · rw [balance_cons]
          omega
        · intro p hp
          rcases List.prefix_cons_iff.mp hp with rfl | ⟨q, rfl, hq⟩
          · simp
          · have := hprefix q hq
            rw [balance_cons]
            omega
      · have hclose := closing_of_turn hinside
        refine ⟨[], s, spots, rfl, hclose.1, by simp [hclose.2], ?_⟩
        intro p hp
        rw [List.prefix_nil.mp hp, balance_nil]
        omega

theorem paramsEnd_of_closesParams {behind inner rest : List Spot} {t : Spot}
    (closes : ClosesParams behind inner t rest) : paramsEnd 0 behind = some (t.pos + 1) := by
  rw [closes.parts, paramsEnd_append]
  · simp [closes.balanced, paramsEnd_of_closing closes.closing]
  · intro p hp
    have := closes.inside p hp
    omega

theorem paramsEnd_of_not_closesParams {behind : List Spot}
    (never : ∀ inner t rest, ¬ ClosesParams behind inner t rest) : paramsEnd 0 behind = none := by
  rw [Option.eq_none_iff_forall_not_mem]
  intro stop found
  obtain ⟨inner, t, rest, hparts, hclose, hbalance, hprefix⟩ := exists_of_paramsEnd found
  refine never inner t rest ⟨hparts, hclose, by omega, ?_⟩
  intro p hp
  have := hprefix p hp
  omega

/-! ### Scanning a definition -/

/-- Every text has boundaries. -/
theorem exists_bounded (text : List Char) : ∃ outcome, Bounded text outcome := by
  by_cases hends : ∃ before s behind, EndsFront (lex text).spots before s behind
  · obtain ⟨before, s, behind, ends⟩ := hends
    obtain ⟨symbol, named⟩ := exists_symbolOf text ends.outside
    rcases ends.ends with opening | colon
    · by_cases hcloses : ∃ inner t rest, ClosesParams behind inner t rest
      · obtain ⟨inner, t, rest, closes⟩ := hcloses
        exact ⟨_, .params ends opening closes named⟩
      · have never : ∀ inner t rest, ¬ ClosesParams behind inner t rest := by simpa using hcloses
        cases hunclosed : (lex text).unclosed with
        | none => exact ⟨_, .openParams ends opening never hunclosed⟩
        | some delimiter => exact ⟨_, .openLiteralInParams ends opening never hunclosed⟩
    · by_cases hclass : beginsWith classWord text = true
      · exact ⟨_, .noBases ends colon hclass named⟩
      · exact ⟨_, .noParams ends colon (by simpa using hclass)⟩
  · have endless : Endless (lex text).spots :=
      endless_of_not_endsFront (by simpa using hends)
    cases hunclosed : (lex text).unclosed with
    | some delimiter => exact ⟨_, .openLiteral endless hunclosed⟩
    | none =>
        rcases Nat.eq_zero_or_pos (squareDepth (lex text).spots) with hzero | hpos
        · exact ⟨_, .noHeader endless hzero hunclosed⟩
        · exact ⟨_, .openSymbol endless hpos hunclosed⟩

/-- Scanning a definition gives what its boundaries say. -/
theorem scanDefinition_of_bounded {text : List Char} {outcome : Except Fault Segments}
    (bounded : Bounded text outcome) : scanDefinition text = outcome := by
  cases bounded with
  | params ends opening closes named =>
      have hfront := front_of_endsFront ends
      rw [if_pos opening] at hfront
      simp only [scanDefinition, hfront, paramsEnd_of_closesParams closes, cut,
        symbol_after_of_symbolOf named]
  | openParams ends opening never closed =>
      have hfront := front_of_endsFront ends
      rw [if_pos opening] at hfront
      simp only [scanDefinition, hfront, paramsEnd_of_not_closesParams never, closed]
  | openLiteralInParams ends opening never unclosed =>
      have hfront := front_of_endsFront ends
      rw [if_pos opening] at hfront
      simp only [scanDefinition, hfront, paramsEnd_of_not_closesParams never, unclosed]
  | noBases ends colon cls named =>
      have hfront := front_of_endsFront ends
      rw [if_neg (by simp [colon])] at hfront
      have hempty (pos : Nat) : collapse (slice text pos pos) = [] := by simp [slice]
      simp only [scanDefinition, hfront, if_pos cls, cut, hempty, symbol_after_of_symbolOf named]
  | noParams ends colon other =>
      have hfront := front_of_endsFront ends
      rw [if_neg (by simp [colon])] at hfront
      simp [scanDefinition, hfront, other]
  | openSymbol endless inside closed =>
      simp only [scanDefinition, front_of_endless endless, closed, if_pos inside]
  | noHeader endless outside closed =>
      simp only [scanDefinition, front_of_endless endless, closed, outside, Nat.lt_irrefl, if_false]
  | openLiteral endless unclosed =>
      simp only [scanDefinition, front_of_endless endless, unclosed]

/-- A text that is no anonymous function is cut at its boundaries, or the error says which of them
is missing. -/
theorem scan_eq_iff_bounded {source : List Char}
    (definition : beginsWith lambdaWord (trim source) = false) (outcome : Except Fault Segments) :
    scan source = outcome ↔ Bounded (trim source) outcome := by
  have hscan : scan source = scanDefinition (trim source) := if_neg (by simp [definition])
  rw [hscan]
  constructor
  · rintro rfl
    obtain ⟨outcome, bounded⟩ := exists_bounded (trim source)
    rw [scanDefinition_of_bounded bounded]
    exact bounded
  · exact scanDefinition_of_bounded

/-- A definition with type parameters whose bounds and defaults hold brackets of their own, and a
definition whose parameters end in a literal that is not closed. -/
theorem scan_eq_iff_bounded_generic :
    let generic := " def f[T: (int, str)](x: (int) = ')', *y): pass".toList
    let broken := "def f(x = ')".toList
    (beginsWith lambdaWord (trim generic) = false ∧
      Bounded (trim generic) (.ok ⟨some "[T: (int, str)]".toList, "def f[T: (int, str)]".toList,
        "(x: (int) = ')', *y)".toList, ": pass".toList, false⟩)) ∧
    beginsWith lambdaWord (trim broken) = false ∧
      Bounded (trim broken) (.error (.unmatchedDelimiter ['\''])) := by
  intro generic broken
  have hgeneric : beginsWith lambdaWord (trim generic) = false := rfl
  have hbroken : beginsWith lambdaWord (trim broken) = false := rfl
  exact ⟨⟨hgeneric, (scan_eq_iff_bounded hgeneric _).mp rfl⟩,
    hbroken, (scan_eq_iff_bounded hbroken _).mp rfl⟩

end Segments

end CallableKinds

import CallableKinds.Proofs.Lexing
import CallableKinds.Proofs.Spacing
import CallableKinds.Segments

/-!
# What a scan finds

A scan cuts a text at brackets and colons that stand in it, in order, so no cut falls inside a run
of blanks and the segments make up the collapsed text. The symbol of a definition is a bracketed
piece of its head.
-/

namespace CallableKinds

namespace Segments

/-- A text that is cut between runs of blanks is collapsed up to the cut and from there on. -/
theorem collapse_take_append_slice {text : List Char} {start stop : Nat} (le : start ≤ stop)
    (front : SplitsNoRun (text.take start) (text.drop start)) :
    collapse (text.take start) ++ collapse (slice text start stop) = collapse (text.take stop) := by
  rw [← take_append_slice text le]
  refine (collapse_append fun blank => ?_).symm
  have hdrop := front blank
  rw [slice, List.head?_take]
  split
  · rfl
  · exact hdrop

/-- The segments of a cut beside two characters that are no blanks make up the collapsed text. -/
theorem append_cut {text : List Char} {start stop : Nat} (symbol : Option (Nat × Nat))
    (implicit : Bool) (le : start ≤ stop)
    (front : SplitsNoRun (text.take start) (text.drop start))
    (back : SplitsNoRun (text.take stop) (text.drop stop)) :
    (cut text start stop symbol implicit).head ++ (cut text start stop symbol implicit).params ++
      (cut text start stop symbol implicit).body = collapse text := by
  change collapse (text.take start) ++ collapse (slice text start stop) ++
    collapse (text.drop stop) = collapse text
  rw [collapse_take_append_slice le front, ← collapse_append back, List.take_append_drop]

theorem splitsNoRun_before {text : List Char} {i : Nat} {c : Char} (at_ : text[i]? = some c)
    (code : isBlank c = false) : SplitsNoRun (text.take i) (text.drop i) :=
  .of_head (by rw [List.head?_drop, at_]) code

theorem splitsNoRun_behind {text : List Char} {i : Nat} {c : Char} (at_ : text[i]? = some c)
    (code : isBlank c = false) : SplitsNoRun (text.take (i + 1)) (text.drop (i + 1)) :=
  .of_last (by rw [List.getLast?_take]; simp [at_]) code

/-! ### Square brackets before the parameters -/

namespace Brackets

/-- The brackets that are remembered stand in the text before `limit`, and a group that is open or
complete has a first bracket. -/
structure PlacedIn (b : Brackets) (text : List Char) (limit : Nat) : Prop where
  first : ∀ i, b.first = some i → text[i]? = some '[' ∧ i < limit
  last : ∀ j, b.last = some j → text[j]? = some ']' ∧ j < limit ∧ ∃ i, b.first = some i ∧ i < j
  opened : 0 < b.depth → ∃ i, b.first = some i

variable {b : Brackets} {text : List Char} {limit : Nat}

theorem placedIn_initial : initial.PlacedIn text limit where
  first := nofun
  last := nofun
  opened := nofun

theorem PlacedIn.mono (h : b.PlacedIn text limit) {limit' : Nat} (le : limit ≤ limit') :
    b.PlacedIn text limit' where
  first i hi := ⟨(h.first i hi).1, Nat.lt_of_lt_of_le (h.first i hi).2 le⟩
  last j hj := by
    obtain ⟨hchar, hlt, hfirst⟩ := h.last j hj
    exact ⟨hchar, Nat.lt_of_lt_of_le hlt le, hfirst⟩
  opened := h.opened

/-- An opening bracket becomes the first one only if there is none yet. -/
theorem PlacedIn.opening (h : b.PlacedIn text limit) {pos : Nat} (le : limit ≤ pos)
    (char : text[pos]? = some '[') : (b.opened pos).PlacedIn text (pos + 1) := by
  have hfirst : ∃ i, (b.opened pos).first = some i ∧ text[i]? = some '[' ∧ i < pos + 1 ∧
      ∀ k, b.first = some k → i = k := by
    cases hb : b.first with
    | none =>
        have hzero : b.depth = 0 := by
          by_contra hne
          obtain ⟨i, hi⟩ := h.opened (Nat.pos_of_ne_zero hne)
          simp [hb] at hi
        exact ⟨pos, by simp [Brackets.opened, hb, hzero], char, Nat.lt_succ_self pos, nofun⟩
    | some i =>
        have hi := h.first i hb
        exact ⟨i, by simp [Brackets.opened, hb], hi.1, by omega, by rintro k ⟨rfl⟩; rfl⟩
  obtain ⟨i, hi, hchar, hlt, hkept⟩ := hfirst
  refine ⟨?_, ?_, fun _ => ⟨i, hi⟩⟩
  · rintro k hk
    rw [hi] at hk
    cases hk
    exact ⟨hchar, hlt⟩
  · intro j hj
    obtain ⟨hclosing, hbefore, k, hk, hkj⟩ := h.last j hj
    exact ⟨hclosing, by omega, i, hi, hkept k hk ▸ hkj⟩

/-- A closing bracket ends the group that is open. -/
theorem PlacedIn.closing (h : b.PlacedIn text limit) {pos : Nat} (le : limit ≤ pos)
    (char : text[pos]? = some ']') (isOpen : 0 < b.depth) :
    (b.closed pos).PlacedIn text (pos + 1) := by
  obtain ⟨i, hi⟩ := h.opened isOpen
  have hplace := h.first i hi
  refine ⟨fun k hk => ?_, fun j hj => ?_, fun _ => ⟨i, hi⟩⟩
  · exact ⟨(h.first k hk).1, by have := (h.first k hk).2; omega⟩
  · have hcases : b.last = some j ∨ j = pos := by
      cases hlast : b.last with
      | none =>
          right
          by_cases hdepth : b.depth = 1 <;> simp [Brackets.closed, hlast, hdepth] at hj
          exact hj.symm
      | some k =>
          left
          by_cases hdepth : b.depth = 1 <;> simpa [Brackets.closed, hlast, hdepth] using hj
    rcases hcases with hlast | rfl
    · obtain ⟨hclosing, hbefore, hfirst⟩ := h.last j hlast
      exact ⟨hclosing, by omega, hfirst⟩
    · exact ⟨char, Nat.lt_succ_self j, i, hi, by omega⟩

/-- A symbol lies between two brackets of the text. -/
theorem PlacedIn.symbol (h : b.PlacedIn text limit) {i j : Nat} (found : b.symbol = some (i, j)) :
    text[i]? = some '[' ∧ text[j]? = some ']' ∧ i < j ∧ j < limit := by
  obtain ⟨i', hi, hj⟩ := Option.bind_eq_some_iff.mp found
  obtain ⟨j', hj, hpair⟩ := Option.map_eq_some_iff.mp hj
  cases hpair
  obtain ⟨hclosing, hlt, k, hk, hkj⟩ := h.last j hj
  rw [hi] at hk
  cases hk
  exact ⟨(h.first i hi).1, hclosing, hkj, hlt⟩

end Brackets

/-- The spots still to be read stand in the text, in order and not before `limit`. -/
structure Readable (text : List Char) (limit : Nat) (spots : List Spot) : Prop where
  stands : ∀ s ∈ spots, limit ≤ s.pos ∧ s.StandsIn text
  sorted : spots.Pairwise fun s t => s.pos < t.pos

namespace Readable

variable {text : List Char} {limit : Nat} {s : Spot} {rest : List Spot}

theorem ofLexAt (text : List Char) (start : Nat) :
    Readable text start (lexAt text start).spots where
  stands _ member := standsIn_of_mem_lexAt member
  sorted := pairwise_lexAt text start

theorem head (h : Readable text limit (s :: rest)) : limit ≤ s.pos ∧ s.StandsIn text :=
  h.stands s List.mem_cons_self

theorem tail (h : Readable text limit (s :: rest)) : Readable text (s.pos + 1) rest where
  stands t member := ⟨List.rel_of_pairwise_cons h.sorted member,
    (h.stands t (List.mem_cons_of_mem s member)).2⟩
  sorted := h.sorted.of_cons

end Readable

/-- What is known of the symbol of a definition that ends its front at `limit`. -/
def SymbolBefore (text : List Char) (limit : Nat) (symbol : Option (Nat × Nat)) : Prop :=
  ∀ i j, symbol = some (i, j) → text[i]? = some '[' ∧ text[j]? = some ']' ∧ i < j ∧ j < limit

/-- The front of a definition ends with a parenthesis or a colon of the text, behind its symbol. -/
theorem front_spec {text : List Char} {limit : Nat} {b : Brackets} {spots : List Spot}
    (placed : b.PlacedIn text limit) (readable : Readable text limit spots) :
    (∀ pos symbol rest, front b spots = .paramList pos symbol rest →
      text[pos]? = some '(' ∧ SymbolBefore text pos symbol ∧ Readable text (pos + 1) rest) ∧
    (∀ pos symbol, front b spots = .colon pos symbol →
      text[pos]? = some ':' ∧ SymbolBefore text pos symbol) := by
  fun_induction front b spots generalizing limit with
  | case1 => exact ⟨nofun, nofun⟩
  | case2 b s rest hopen ih =>
      have hs := readable.head
      exact ih (placed.opening hs.1 (hopen ▸ hs.2.getElem?)) readable.tail
  | case3 b s rest _ hclose ih =>
      have hs := readable.head
      exact ih (placed.closing hs.1 (hclose.1 ▸ hs.2.getElem?) hclose.2) readable.tail
  | case4 b s rest _ _ _ ih =>
      exact ih (placed.mono (Nat.le_succ_of_le readable.head.1)) readable.tail
  | case5 b s rest _ _ _ hparen =>
      have hs := readable.head
      refine ⟨?_, nofun⟩
      rintro pos symbol rest ⟨⟩
      exact ⟨hparen ▸ hs.2.getElem?, fun i j h => (placed.mono hs.1).symbol h, readable.tail⟩
  | case6 b s rest _ _ _ _ hcolon =>
      have hs := readable.head
      refine ⟨nofun, ?_⟩
      rintro pos symbol ⟨⟩
      exact ⟨hcolon ▸ hs.2.getElem?, fun i j h => (placed.mono hs.1).symbol h⟩
  | case7 b s rest _ _ _ _ _ ih =>
      exact ih (placed.mono (Nat.le_succ_of_le readable.head.1)) readable.tail

/-- The parameters of a definition end behind a closing parenthesis. -/
theorem paramsEnd_mem {depth stop : Nat} {spots : List Spot}
    (found : paramsEnd depth spots = some stop) :
    ∃ s ∈ spots, s.char = ')' ∧ stop = s.pos + 1 := by
  fun_induction paramsEnd depth spots with
  | case1 => cases found
  | case2 depth s rest _ ih =>
      obtain ⟨t, member, ht⟩ := ih found
      exact ⟨t, List.mem_cons_of_mem s member, ht⟩
  | case3 s rest _ hclose =>
      cases found
      exact ⟨s, List.mem_cons_self, hclose, rfl⟩
  | case4 s rest _ _ depth ih =>
      obtain ⟨t, member, ht⟩ := ih found
      exact ⟨t, List.mem_cons_of_mem s member, ht⟩
  | case5 depth s rest _ _ ih =>
      obtain ⟨t, member, ht⟩ := ih found
      exact ⟨t, List.mem_cons_of_mem s member, ht⟩

/-- The header of an anonymous function ends at a colon. -/
theorem headerColon_mem {depth : Int} {headers pos : Nat} {spots : List Spot}
    (found : headerColon depth headers spots = some pos) :
    ∃ s ∈ spots, s.char = ':' ∧ s.pos = pos := by
  induction spots generalizing depth headers with
  | nil => cases found
  | cons s rest ih =>
      have later {d : Int} {n : Nat} (h : headerColon d n rest = some pos) :
          ∃ t ∈ s :: rest, t.char = ':' ∧ t.pos = pos := by
        obtain ⟨t, member, ht⟩ := ih h
        exact ⟨t, List.mem_cons_of_mem s member, ht⟩
      simp only [headerColon] at found
      split at found
      · exact later found
      split at found
      · exact later found
      split at found
      · exact later found
      split at found
      next hcolon =>
        split at found
        · cases found
          exact ⟨s, List.mem_cons_self, by simp_all, rfl⟩
        · exact later found
      next => exact later found

/-- Behind the blanks at the start of a piece of a text stands a character that is no blank, or the
piece ends. -/
theorem splitsNoRun_gap {text : List Char} {start stop : Nat} {c : Char} (le : start ≤ stop)
    (last : text[stop]? = some c) (code : isBlank c = false) :
    SplitsNoRun
      (text.take (start + ((slice text start stop).takeWhile isBlank).length))
      (text.drop (start + ((slice text start stop).takeWhile isBlank).length)) := by
  have hlength : stop < text.length := (List.getElem?_eq_some_iff.mp last).1
  have hparts := List.takeWhile_append_dropWhile (p := isBlank) (l := slice text start stop)
  cases hdrop : (slice text start stop).dropWhile isBlank with
  | nil =>
      have hk : ((slice text start stop).takeWhile isBlank).length = stop - start := by
        rw [hdrop, List.append_nil] at hparts
        rw [hparts, slice, List.length_take, List.length_drop]
        omega
      rw [hk, Nat.add_sub_cancel' le]
      exact splitsNoRun_before last code
  | cons d rest =>
      have hd : isBlank d = false := by
        have hhead := List.head?_dropWhile_not isBlank (slice text start stop)
        simpa [hdrop] using hhead
      refine .of_head ?_ hd
      rw [hdrop] at hparts
      generalize (slice text start stop).takeWhile isBlank = blanks at hparts ⊢
      have hsplit : text.drop start = slice text start stop ++ text.drop stop := by
        rw [← Nat.add_sub_cancel' le, ← List.drop_drop, Nat.add_sub_cancel' le]
        exact (List.take_append_drop _ _).symm
      rw [← List.drop_drop, hsplit, ← hparts, List.append_assoc, List.drop_left]
      rfl

/-! ### The places of the cuts -/

/-- The places at which a text is cut. -/
structure Marks where
  start : Nat
  stop : Nat
  symbol : Option (Nat × Nat)
  implicit : Bool
  deriving Repr, DecidableEq

/-- The segments of a text that is cut at these places. -/
def Marks.segments (m : Marks) (text : List Char) : Segments := cut text m.start m.stop m.symbol m.implicit

/-- The fault of a reader who came to the end of what is lexed: a literal that is not closed goes
first. -/
def failure (unclosed : Option (List Char)) (fault : Fault) : Fault :=
  (unclosed.map Fault.unmatchedDelimiter).getD fault

/-- The places at which an anonymous function is cut. -/
def lambdaMarks (text : List Char) : Except Fault Marks :=
  let first := lambdaWord.length
  let l := lexAt text first
  match headerColon 0 0 l.spots with
  | some colon => .ok ⟨first + ((slice text first colon).takeWhile isBlank).length, colon, none, true⟩
  | none => .error (failure l.unclosed .noLambdaColon)

/-- The places at which a definition with this front is cut. -/
def Front.marks (isClass : Bool) (unclosed : Option (List Char)) : Front → Except Fault Marks
  | .paramList start symbol rest =>
    match paramsEnd 0 rest with
    | some stop => .ok ⟨start, stop, symbol, false⟩
    | none => .error (failure unclosed (.unmatchedDelimiter ['(']))
  | .colon pos symbol => if isClass then .ok ⟨pos, pos, symbol, true⟩ else .error .noParameterList
  | .exhausted depth =>
    .error (failure unclosed (if 0 < depth then .unmatchedDelimiter ['['] else .noParameterList))

/-- The places at which a text is cut when it is scanned. Nothing behind `stop` is read. -/
def marks (text : List Char) : Except Fault Marks :=
  if beginsWith lambdaWord text then lambdaMarks text
  else (front .initial (lex text).spots).marks (beginsWith classWord text) (lex text).unclosed

theorem scanLambda_eq_marks (text : List Char) :
    scanLambda text = (lambdaMarks text).map fun m => m.segments text := by
  dsimp only [scanLambda, lambdaMarks]
  cases headerColon 0 0 (lexAt text lambdaWord.length).spots with
  | some colon => rfl
  | none => cases (lexAt text lambdaWord.length).unclosed <;> rfl

theorem scanDefinition_eq_marks (text : List Char) :
    scanDefinition text =
      ((front .initial (lex text).spots).marks (beginsWith classWord text) (lex text).unclosed).map
        fun m => m.segments text := by
  dsimp only [scanDefinition]
  cases front .initial (lex text).spots with
  | paramList start symbol rest =>
      dsimp only [Front.marks]
      cases paramsEnd 0 rest with
      | some stop => rfl
      | none => cases (lex text).unclosed <;> rfl
  | colon pos symbol =>
      dsimp only [Front.marks]
      split <;> rfl
  | exhausted depth =>
      dsimp only [Front.marks]
      cases (lex text).unclosed <;> rfl

/-- Scanning a text is finding the places of the cuts and cutting it there. -/
theorem scan_eq_marks (source : List Char) :
    scan source = (marks (trim source)).map fun m => m.segments (trim source) := by
  rw [scan, marks, scanLambda_eq_marks, scanDefinition_eq_marks]
  split <;> rfl

/-- The cuts are made in order, none of them in a run of blanks, and the symbol is in front of them. -/
structure Marks.StandIn (m : Marks) (text : List Char) : Prop where
  le : m.start ≤ m.stop
  front : SplitsNoRun (text.take m.start) (text.drop m.start)
  back : SplitsNoRun (text.take m.stop) (text.drop m.stop)
  symbol : SymbolBefore text m.start m.symbol

theorem standIn_of_frontMarks {text : List Char} {isClass : Bool} {unclosed : Option (List Char)}
    {m : Marks} (marked : (Segments.front .initial (lex text).spots).marks isClass unclosed = .ok m) :
    m.StandIn text := by
  have hspec := front_spec Brackets.placedIn_initial (Readable.ofLexAt text 0)
  rw [lexAt_zero] at hspec
  cases hfront : Segments.front .initial (lex text).spots with
  | paramList start symbol rest =>
      obtain ⟨hparen, hsymbol, hrest⟩ := hspec.1 start symbol rest hfront
      rw [hfront, Front.marks] at marked
      cases hstop : paramsEnd 0 rest with
      | none =>
          rw [hstop] at marked
          cases marked
      | some stop =>
          rw [hstop] at marked
          cases marked
          obtain ⟨t, member, hchar, rfl⟩ := paramsEnd_mem hstop
          obtain ⟨hle, hstands⟩ := hrest.stands t member
          exact ⟨by dsimp only; omega, splitsNoRun_before hparen (by decide),
            splitsNoRun_behind hstands.getElem? (by rw [hchar]; decide), hsymbol⟩
  | colon pos symbol =>
      obtain ⟨hcolon, hsymbol⟩ := hspec.2 pos symbol hfront
      rw [hfront, Front.marks] at marked
      split at marked
      · cases marked
        have hcut := splitsNoRun_before hcolon (by decide)
        exact ⟨Nat.le_refl pos, hcut, hcut, hsymbol⟩
      · cases marked
  | exhausted depth =>
      rw [hfront] at marked
      cases marked

theorem standIn_of_lambdaMarks {text : List Char} {m : Marks} (marked : lambdaMarks text = .ok m) :
    m.StandIn text := by
  dsimp only [lambdaMarks] at marked
  split at marked
  next colon hcolon =>
      cases marked
      obtain ⟨t, member, hchar, rfl⟩ := headerColon_mem hcolon
      obtain ⟨hle, hstands⟩ := standsIn_of_mem_lexAt member
      have hcode : isBlank t.char = false := by rw [hchar]; decide
      have hgap : ((slice text lambdaWord.length t.pos).takeWhile isBlank).length ≤
          t.pos - lambdaWord.length :=
        Nat.le_trans (List.takeWhile_prefix isBlank).length_le (List.length_take_le _ _)
      exact ⟨by dsimp only; omega, splitsNoRun_gap hle hstands.getElem? hcode,
        splitsNoRun_before hstands.getElem? hcode, nofun⟩
  next => cases marked

theorem standIn_of_marks {text : List Char} {m : Marks} (marked : marks text = .ok m) :
    m.StandIn text := by
  rw [marks] at marked
  split at marked
  · exact standIn_of_lambdaMarks marked
  · exact standIn_of_frontMarks marked

/-! ### The segments of a scanned text -/

/-- What a cut is for: the segments make up the collapsed text, and the symbol is a piece of the
head between square brackets. -/
structure Covers (s : Segments) (text : List Char) : Prop where
  append : s.head ++ s.params ++ s.body = collapse text
  symbol : ∀ name, s.symbolName = some name →
    name <:+: s.head ∧ name.head? = some '[' ∧ name.getLast? = some ']'

/-- The symbol of a cut is a piece of its head. -/
theorem symbolName_cut {text : List Char} {start stop : Nat} {symbol : Option (Nat × Nat)}
    {implicit : Bool} (placed : SymbolBefore text start symbol) {name : List Char}
    (named : (cut text start stop symbol implicit).symbolName = some name) :
    name <:+: (cut text start stop symbol implicit).head ∧ name.head? = some '[' ∧
      name.getLast? = some ']' := by
  obtain ⟨⟨i, j⟩, hsymbol, hname⟩ := Option.map_eq_some_iff.mp named
  obtain ⟨hopen, hclose, hlt, hbefore⟩ := placed i j hsymbol
  have hgroup : slice text i (j + 1) = '[' :: slice text (i + 1) j ++ [']'] := by
    rw [slice_succ (Nat.le_of_lt hlt) hclose, slice_eq_cons hlt hopen]
  have hname : name = '[' :: collapse (slice text (i + 1) j) ++ [']'] := by
    change squeeze (slice text i (j + 1)) = name at hname
    rw [← hname, hgroup, squeeze_between _ (by decide) (by decide)]
  -- The head is what stands before the group, the group, and what follows it up to the parameters.
  have hhead : text.take start =
      text.take i ++ (slice text i (j + 1) ++ slice text (j + 1) start) := by
    rw [slice_append_slice text (by omega) hbefore, take_append_slice text (by omega)]
  have hcollapse : collapse (text.take start) =
      collapse (text.take i) ++ name ++ collapse (slice text (j + 1) start) := by
    rw [hhead, hgroup, collapse_append (.of_head rfl (by decide)),
      collapse_append (.of_last List.getLast?_concat (by decide)),
      collapse_between _ (by decide) (by decide), hname, ← List.append_assoc]
  refine ⟨⟨_, _, hcollapse.symm⟩, ?_, ?_⟩
  · simp [hname]
  · rw [hname, List.getLast?_concat]

/-- The segments of a scanned text make up the squeezed text, and the symbol is a piece of the
head. -/
theorem covers_of_scan {source : List Char} {s : Segments} (scanned : scan source = .ok s) :
    s.Covers (trim source) := by
  rw [scan_eq_marks] at scanned
  cases hmarks : marks (trim source) with
  | error fault =>
      rw [hmarks] at scanned
      cases scanned
  | ok m =>
      rw [hmarks] at scanned
      cases scanned
      have hstand := standIn_of_marks hmarks
      exact ⟨append_cut m.symbol m.implicit hstand.le hstand.front hstand.back,
        fun _ named => symbolName_cut hstand.symbol named⟩

end Segments

end CallableKinds

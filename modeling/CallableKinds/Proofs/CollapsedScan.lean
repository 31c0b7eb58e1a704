import CallableKinds.Proofs.Boundaries
import CallableKinds.Proofs.Collapsing
import CallableKinds.Proofs.LambdaHeaders

/-!
# Scanning a collapsed text

A scan passes over blanks, so how many of them stand in a run makes no difference to where a text is cut:
the collapsed text is cut at the same places, and as the segments are collapsed anyway, they are the same.
Only a comment must not be read over, as it may end with its line in the text and go on in the collapsed
text.
-/

namespace CallableKinds

namespace Segments

variable {text : List Char} {limit : Option Nat} {spots spots' : List Spot} {s : Spot} {rest : List Spot}

/-- What was found is in front of the limit, if there is one. -/
def Within (limit found : Option Nat) : Prop := ∀ k, limit = some k → ∃ stop ≤ k, found = some stop

/-! ### The end of a header -/

theorem headerColon_blank (blank : isBlank s.char = true) (depth : Int) (headers : Nat) :
    headerColon depth headers (s :: rest) = headerColon depth headers rest := by
  have hcolon : s.char ≠ ':' := ne_of_isBlank blank (by decide)
  rw [headerColon_cons, if_neg fun h => hcolon h.2.1, bracketTurn_of_isBlank blank,
    headerTurn_of_isBlank blank, Int.add_zero, Int.add_zero, Int.toNat_natCast]

/-- The header of an anonymous function ends at the same colon when the text is collapsed. -/
theorem headerColon_follows (follows : Follows text limit spots spots') {depth : Int} {headers : Nat}
    (within : Within limit (headerColon depth headers spots)) :
    headerColon depth headers spots' = (headerColon depth headers spots).map (collapsedAt text) := by
  induction follows generalizing depth headers with
  | done => rfl
  | behind later spots' =>
      obtain ⟨stop, hle, hfound⟩ := within _ rfl
      obtain ⟨t, member, -, rfl⟩ := headerColon_mem hfound
      exact absurd (later t member) (Nat.not_lt.mpr hle)
  | lost blank _ ih =>
      rw [headerColon_blank blank] at within ⊢
      exact ih within
  | space blank _ ih =>
      rw [headerColon_blank blank]
      exact ih within
  | @keep _ s s' _ _ keeps _ ih =>
      have hturn : headerTurn depth s' = headerTurn depth s := by
        rw [headerTurn, headerTurn, keeps.char, keeps.startsWord]
      rw [headerColon_cons] at within ⊢
      rw [headerColon_cons, keeps.char, hturn]
      by_cases here : depth = 0 ∧ s.char = ':' ∧ headers = 0
      · rw [if_pos here, if_pos here, Option.map_some, keeps.pos]
      · rw [if_neg here] at within ⊢
        rw [if_neg here]
        exact ih within

/-! ### The end of the parameters -/

theorem paramsEnd_blank (blank : isBlank s.char = true) (depth : Nat) :
    paramsEnd depth (s :: rest) = paramsEnd depth rest := by
  have hturn : turn s = 0 := by
    rw [turn, if_neg (ne_of_isBlank blank (by decide)), if_neg (ne_of_isBlank blank (by decide))]
  rw [paramsEnd_cons (by omega), hturn, Int.add_zero, Int.toNat_natCast]

/-- The parameters of a definition end behind the same parenthesis. -/
theorem paramsEnd_follows (follows : Follows text limit spots spots') {depth : Nat}
    (within : Within limit (paramsEnd depth spots)) :
    paramsEnd depth spots' = (paramsEnd depth spots).map (collapsedAt text) := by
  induction follows generalizing depth with
  | done => rfl
  | behind later spots' =>
      obtain ⟨stop, hle, hfound⟩ := within _ rfl
      obtain ⟨t, member, -, rfl⟩ := paramsEnd_mem hfound
      exact absurd (later t member) (Nat.not_lt.mpr (Nat.le_of_succ_le hle))
  | lost blank _ ih =>
      rw [paramsEnd_blank blank] at within ⊢
      exact ih within
  | space blank _ ih =>
      rw [paramsEnd_blank blank]
      exact ih within
  | @keep _ s s' _ _ keeps _ ih =>
      have hturn : turn s' = turn s := by rw [turn, turn, keeps.char]
      by_cases hinside : 0 ≤ depth + turn s
      · rw [paramsEnd_cons hinside] at within ⊢
        rw [paramsEnd_cons (hturn ▸ hinside), hturn]
        exact ih within
      · obtain ⟨hclose, rfl⟩ := closing_of_turn hinside
        rw [paramsEnd_of_closing hclose, paramsEnd_of_closing (keeps.char.trans hclose),
          Option.map_some, keeps.next]

/-! ### The front of a definition -/

namespace Brackets

/-- The brackets at other positions. -/
def map (f : Nat → Nat) (b : Brackets) : Brackets := ⟨b.depth, b.first.map f, b.last.map f⟩

variable (f : Nat → Nat) (b : Brackets) (pos : Nat)

theorem opened_map : (b.map f).opened (f pos) = (b.opened pos).map f := by
  cases b with
  | mk depth first last => cases first <;> simp [map, opened, apply_ite]

theorem closed_map : (b.map f).closed (f pos) = (b.closed pos).map f := by
  cases b with
  | mk depth first last => cases last <;> simp [map, closed, apply_ite]

theorem symbol_map : (b.map f).symbol = b.symbol.map (Prod.map f f) := by
  cases b with
  | mk depth first last => cases first <;> cases last <;> rfl

end Brackets

/-- The position of the character that ends the front. -/
def Front.pos? : Front → Option Nat
  | .paramList pos _ _ => some pos
  | .colon pos _ => some pos
  | .exhausted _ => none

theorem front_mem {b : Brackets} {pos : Nat} (found : (front b spots).pos? = some pos) :
    ∃ s ∈ spots, s.pos = pos := by
  have later {s : Spot} {rest : List Spot} (h : ∃ t ∈ rest, t.pos = pos) :
      ∃ t ∈ s :: rest, t.pos = pos := by
    obtain ⟨t, member, ht⟩ := h
    exact ⟨t, List.mem_cons_of_mem s member, ht⟩
  fun_induction front b spots with
  | case1 => cases found
  | case2 b s rest _ ih => exact later (ih found)
  | case3 b s rest _ _ ih => exact later (ih found)
  | case4 b s rest _ _ _ ih => exact later (ih found)
  | case5 b s rest => exact ⟨s, List.mem_cons_self, Option.some.inj found⟩
  | case6 b s rest => exact ⟨s, List.mem_cons_self, Option.some.inj found⟩
  | case7 b s rest _ _ _ _ _ ih => exact later (ih found)

theorem front_blank (blank : isBlank s.char = true) (b : Brackets) :
    front b (s :: rest) = front b rest := by
  have hclose : s.char ≠ ']' := ne_of_isBlank blank (by decide)
  rw [front, if_neg (ne_of_isBlank blank (by decide)), if_neg fun h => hclose h.1,
    if_neg (ne_of_isBlank blank (by decide)), if_neg (ne_of_isBlank blank (by decide)), ite_self]

/-- The front of a collapsed definition ends like that of the definition. -/
inductive FollowsFront (text : List Char) (limit : Option Nat) : Front → Front → Prop where
  | paramList (pos : Nat) (symbol : Option (Nat × Nat)) {rest rest' : List Spot}
    (follows : Follows text limit rest rest') :
    FollowsFront text limit (.paramList pos symbol rest)
      (.paramList (collapsedAt text pos)
        (symbol.map (Prod.map (collapsedAt text) (collapsedAt text))) rest')
  | colon (pos : Nat) (symbol : Option (Nat × Nat)) :
    FollowsFront text limit (.colon pos symbol)
      (.colon (collapsedAt text pos)
        (symbol.map (Prod.map (collapsedAt text) (collapsedAt text))))
  | exhausted (depth : Nat) (unlimited : limit = none) :
    FollowsFront text limit (.exhausted depth) (.exhausted depth)

/-- The brackets of a front are read at the positions where they are in the collapsed text. -/
theorem front_follows (follows : Follows text limit spots spots') {b : Brackets}
    (within : Within limit (front b spots).pos?) :
    FollowsFront text limit (front b spots) (front (b.map (collapsedAt text)) spots') := by
  induction follows generalizing b with
  | done => exact .exhausted _ rfl
  | behind later spots' =>
      obtain ⟨stop, hle, hfound⟩ := within _ rfl
      obtain ⟨t, member, rfl⟩ := front_mem hfound
      exact absurd (later t member) (Nat.not_lt.mpr hle)
  | lost blank _ ih =>
      rw [front_blank blank] at within ⊢
      exact ih within
  | space blank _ ih =>
      rw [front_blank blank]
      exact ih within
  | keep keeps hrest ih =>
      have hdepth : (b.map (collapsedAt text)).depth = b.depth := rfl
      -- The same character and the same number of open brackets decide what becomes of the front.
      rw [front] at within ⊢
      rw [front, keeps.char, hdepth, keeps.pos, Brackets.opened_map, Brackets.closed_map,
        Brackets.symbol_map]
      revert within
      split
      · exact ih
      split
      · exact ih
      split
      · exact ih
      split
      · exact fun _ => .paramList _ _ hrest
      split
      · exact fun _ => .colon _ _
      · exact ih

/-! ### The places of the cuts -/

namespace Marks

/-- The same cuts at other positions. -/
def map (f : Nat → Nat) (m : Marks) : Marks :=
  ⟨f m.start, f m.stop, m.symbol.map (Prod.map f f), m.implicit⟩

/-- A collapsed text has the segments of the text if it is cut at the same places. -/
theorem StandIn.segments_collapse {m : Marks} (stand : m.StandIn text) :
    (m.map (collapsedAt text)).segments (collapse text) = m.segments text := by
  cases hsymbol : m.symbol with
  | none =>
      simp only [segments, cut, map, hsymbol, Option.map_none, take_collapse stand.front,
        drop_collapse stand.back, slice_collapse stand.front stand.back stand.le, collapse_collapse]
  | some symbol =>
      obtain ⟨i, j⟩ := symbol
      obtain ⟨hopen, hclose, hlt, -⟩ := stand.symbol i j hsymbol
      have hslice := slice_collapse (splitsNoRun_before hopen (by decide))
        (splitsNoRun_behind hclose (by decide)) (Nat.le_succ_of_le (Nat.le_of_lt hlt))
      have hname : squeeze (slice (collapse text) (collapsedAt text i) (collapsedAt text j + 1)) =
          squeeze (slice text i (j + 1)) := by
        rw [← collapsedAt_succ hclose (by decide), hslice, squeeze, collapse_collapse, squeeze]
      simp only [segments, cut, map, hsymbol, Option.map_some, Prod.map_apply, hname,
        take_collapse stand.front, drop_collapse stand.back,
        slice_collapse stand.front stand.back stand.le, collapse_collapse]

end Marks

/-- A definition is cut where its front ends. -/
theorem pos?_of_marks {isClass : Bool} {unclosed : Option (List Char)} {f : Front} {m : Marks}
    (marked : f.marks isClass unclosed = .ok m) : f.pos? = some m.start := by
  cases f with
  | paramList start symbol rest =>
      rw [Front.marks] at marked
      split at marked <;> cases marked
      rfl
  | colon pos symbol =>
      rw [Front.marks] at marked
      split at marked <;> cases marked
      rfl
  | exhausted depth => cases marked

/-- A definition is cut at the same places when it is collapsed, unless a comment is read over. -/
theorem FollowsFront.marks {f f' : Front} {unclosed unclosed' : Option (List Char)}
    (follows : FollowsFront text limit f f') (isClass : Bool)
    (within : ∀ k, limit = some k → ∃ m, f.marks isClass unclosed = .ok m ∧ m.stop ≤ k)
    (same : limit = none → unclosed' = unclosed) :
    f'.marks isClass unclosed' = (f.marks isClass unclosed).map fun m => m.map (collapsedAt text) := by
  -- What fails came to the end of the text without a comment.
  have hfailing {fault : Fault} (failed : f.marks isClass unclosed = .error fault) :
      unclosed' = unclosed := by
    refine same ?_
    cases limit with
    | none => rfl
    | some k =>
        obtain ⟨m, hm, -⟩ := within k rfl
        cases failed.symm.trans hm
  cases follows with
  | @paramList pos symbol rest rest' hrest =>
      have hwithin : Within limit (paramsEnd 0 rest) := by
        intro k hk
        obtain ⟨m, hm, hle⟩ := within k hk
        rw [Front.marks] at hm
        split at hm <;> cases hm
        exact ⟨_, hle, by assumption⟩
      rw [Front.marks, paramsEnd_follows hrest hwithin]
      rw [Front.marks] at hfailing ⊢
      cases hstop : paramsEnd 0 rest with
      | some stop => rfl
      | none =>
          rw [hstop] at hfailing
          rw [hfailing rfl]
          rfl
  | colon pos symbol => cases isClass <;> rfl
  | exhausted depth =>
      rw [Front.marks, hfailing rfl]
      rfl

theorem solid_lambdaWord : ∀ c ∈ lambdaWord, isBlank c = false := fun c member =>
  solid_of_isWord (letters_lambdaWord c member)

/-- The blanks in front of the parameters become one space. -/
theorem collapsedAt_gap (rest : List Char) {colon : Nat} {c : Char}
    (there : (lambdaWord ++ rest)[colon]? = some c) (solid : isBlank c = false)
    (le : lambdaWord.length ≤ colon) :
    collapsedAt (lambdaWord ++ rest) (lambdaWord.length +
        ((slice (lambdaWord ++ rest) lambdaWord.length colon).takeWhile isBlank).length) =
      lambdaWord.length + ((slice (collapse (lambdaWord ++ rest)) lambdaWord.length
        (collapsedAt (lambdaWord ++ rest) colon)).takeWhile isBlank).length := by
  have hword : collapsedAt (lambdaWord ++ rest) lambdaWord.length = lambdaWord.length := by
    rw [collapsedAt, List.take_left]
    rfl
  have hcut : SplitsNoRun ((lambdaWord ++ rest).take lambdaWord.length)
      ((lambdaWord ++ rest).drop lambdaWord.length) := by
    rw [List.take_left]
    exact .of_last rfl (by decide)
  have hslice := slice_collapse hcut (splitsNoRun_before there solid) le
  rw [hword] at hslice
  rw [hslice, takeWhile_collapse]
  obtain ⟨more, hmore⟩ :
      (slice (lambdaWord ++ rest) lambdaWord.length colon).takeWhile isBlank <+: rest := by
    refine (List.takeWhile_prefix isBlank).trans ?_
    rw [slice, List.drop_left]
    exact List.take_prefix _ _
  generalize (slice (lambdaWord ++ rest) lambdaWord.length colon).takeWhile isBlank = gap at hmore
  rw [collapsedAt, ← hmore, List.take_length_add_append, List.take_left,
    collapse_append_of_solid solid_lambdaWord, List.length_append]

/-- An anonymous function is cut at the same places when it is collapsed, unless a comment is read
over. -/
theorem lambdaMarks_collapse (rest : List Char)
    (within : ∀ k, (lexAt (lambdaWord ++ rest) lambdaWord.length).firstComment? = some k →
      ∃ m, lambdaMarks (lambdaWord ++ rest) = .ok m ∧ m.stop ≤ k) :
    lambdaMarks (collapse (lambdaWord ++ rest)) =
      (lambdaMarks (lambdaWord ++ rest)).map fun m => m.map (collapsedAt (lambdaWord ++ rest)) := by
  obtain ⟨hfollows, hunclosed⟩ := (inStep_append solid_lambdaWord rest).follows
  have hwithin : Within (lexAt (lambdaWord ++ rest) lambdaWord.length).firstComment?
      (headerColon 0 0 (lexAt (lambdaWord ++ rest) lambdaWord.length).spots) := by
    intro k hk
    obtain ⟨m, hm, hle⟩ := within k hk
    dsimp only [lambdaMarks] at hm
    split at hm <;> cases hm
    exact ⟨_, hle, by assumption⟩
  have hcolon := headerColon_follows hfollows hwithin
  dsimp only [lambdaMarks] at within ⊢
  rw [hcolon]
  cases hfound : headerColon 0 0 (lexAt (lambdaWord ++ rest) lambdaWord.length).spots with
  | some colon =>
      obtain ⟨t, member, hchar, rfl⟩ := headerColon_mem hfound
      obtain ⟨hle, hstands⟩ := standsIn_of_mem_lexAt member
      have hgap := collapsedAt_gap rest hstands.getElem? (by rw [hchar]; decide) hle
      rw [Option.map_some]
      dsimp only
      rw [← hgap]
      rfl
  | none =>
      have hnone : (lexAt (lambdaWord ++ rest) lambdaWord.length).firstComment? = none := by
        cases hcomment : (lexAt (lambdaWord ++ rest) lambdaWord.length).firstComment? with
        | none => rfl
        | some k =>
            obtain ⟨m, hm, -⟩ := within k hcomment
            rw [hfound] at hm
            cases hm
      rw [hunclosed hnone]
      rfl

/-- A text is cut at the same places when it is collapsed, unless a comment is read over. -/
theorem marks_collapse
    (within : ∀ i length, .comment i length ∈ (lex text).pieces → ∃ m, marks text = .ok m ∧ m.stop ≤ i) :
    marks (collapse text) = (marks text).map fun m => m.map (collapsedAt text) := by
  rw [marks, beginsWith_collapse letters_lambdaWord]
  rw [marks] at within ⊢
  split
  next begins =>
      rw [if_pos begins] at within
      obtain ⟨⟨rest, rfl⟩, -⟩ := beginsWith_iff.mp begins
      refine lambdaMarks_collapse rest fun k hk => ?_
      obtain ⟨⟨length, member⟩, -⟩ := of_firstComment? hk
      refine within k length ?_
      have hword : ∀ c ∈ lambdaWord, isQuote c = false ∧ c ≠ '#' := by simp [lambdaWord, isQuote]
      have hdrop : (lambdaWord ++ rest).drop 0 = lambdaWord ++ rest := rfl
      obtain ⟨spots, hlex, -⟩ := exists_lexAt_of_plain hword hdrop
      rw [← lexAt_zero, hlex, Nat.zero_add]
      exact List.mem_append_right _ member
  next begins =>
      rw [if_neg begins] at within
      have inStep : InStep text 0 0 := ⟨rfl, fun _ => rfl⟩
      obtain ⟨hfollows, hunclosed⟩ := inStep.follows
      rw [lexAt_zero, lexAt_zero] at hfollows hunclosed
      have hwithin : ∀ k, (lex text).firstComment? = some k → ∃ m,
          (front .initial (lex text).spots).marks (beginsWith classWord text) (lex text).unclosed = .ok m ∧
            m.stop ≤ k := by
        intro k hk
        have hfirst : (lexAt text 0).firstComment? = some k := hk
        obtain ⟨⟨length, member⟩, -⟩ := of_firstComment? hfirst
        exact within k length member
      have hfront : Within (lex text).firstComment? (front .initial (lex text).spots).pos? := by
        intro k hk
        obtain ⟨m, hm, hle⟩ := hwithin k hk
        exact ⟨m.start, Nat.le_trans (standIn_of_frontMarks hm).le hle, pos?_of_marks hm⟩
      rw [beginsWith_collapse letters_classWord]
      exact (front_follows hfollows hfront).marks _ hwithin hunclosed

/-- Squeezing a text makes no difference to what it is scanned to: the same segments, or the same fault.
Only a comment must not be read over. -/
theorem scan_squeeze (raw : List Char)
    (within : ∀ i length, .comment i length ∈ (lex (trim raw)).pieces →
      ∃ m, marks (trim raw) = .ok m ∧ m.stop ≤ i) : scan (squeeze raw) = scan raw := by
  have htrim : trim (squeeze raw) = collapse (trim raw) := by
    rw [← squeeze_eq_collapse_trim, squeeze, trim_trim]
  rw [scan_eq_marks, scan_eq_marks, htrim, marks_collapse within]
  cases hmarks : marks (trim raw) with
  | error fault => rfl
  | ok m => exact congrArg Except.ok (standIn_of_marks hmarks).segments_collapse

/-- A run of blanks that a backslash stands in front of, a hash in a literal, and a comment that is not read
over: collapsed, it goes up to the end of the text. -/
theorem scan_squeeze_literal :
    let raw := "\ndef  f [T] (a='\\ \t #', b):  # 'c\n  pass\n".toList
    (∀ i length, .comment i length ∈ (lex (trim raw)).pieces →
      ∃ m, marks (trim raw) = .ok m ∧ m.stop ≤ i) ∧
    (lex (trim raw)).firstComment? = some 28 ∧
    scan (squeeze raw) = scan raw ∧ squeeze raw = "def f [T] (a='\\ #', b): # 'c pass".toList ∧
    scan raw = .ok ⟨some "[T]".toList, "def f [T] ".toList, "(a='\\ #', b)".toList,
      ": # 'c pass".toList, false⟩ := by
  intro raw
  have hmarks : marks (trim raw) = .ok ⟨11, 25, some (7, 9), false⟩ := rfl
  have hcomment : (lexAt (trim raw) 0).firstComment? = some 28 := rfl
  have hwithin : ∀ i length, .comment i length ∈ (lex (trim raw)).pieces →
      ∃ m, marks (trim raw) = .ok m ∧ m.stop ≤ i := fun i length member =>
    ⟨_, hmarks, Nat.le_trans (by decide) ((of_firstComment? hcomment).2 i length member)⟩
  exact ⟨hwithin, hcomment, scan_squeeze raw hwithin, rfl, rfl⟩

end Segments

end CallableKinds

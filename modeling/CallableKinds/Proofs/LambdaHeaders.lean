import CallableKinds.Proofs.Arrows

/-!
# Headers of anonymous functions

The header of an anonymous function ends with a colon. The default values in it may be anonymous functions
themselves, whose headers end with colons of their own, to any depth. The colon that ends the header is the
first one outside of brackets that none of them claims: up to there each header inside has got its colon,
and nowhere have more colons been met than headers. So a text is read as parameters if and only if it
settles the headers in it.
-/

namespace CallableKinds

namespace Segments

variable {gap params body text : List Char} {depth : Int} {headers : Nat} {s : Spot}
  {front back : List Spot}

/-! ### The colon that no other header claims -/

/-- A colon outside of brackets ends the header, unless it belongs to a header inside. -/
theorem headerColon_cons (depth : Int) (headers : Nat) (s : Spot) (rest : List Spot) :
    headerColon depth headers (s :: rest) =
      if depth = 0 ∧ s.char = ':' ∧ headers = 0 then some s.pos
      else headerColon (depth + bracketTurn s.char) (headers + headerTurn depth s).toNat rest := by
  have hlambda (starts : s.startsWord lambdaWord = true) : s.char = 'l' := char_of_startsWord starts
  unfold headerTurn bracketTurn
  rw [headerColon]
  by_cases hopen : isOpening s.char = true
  · have hchar : s.char = '(' ∨ s.char = '[' ∨ s.char = '\x7b' := by
      simpa [isOpening, or_assoc] using hopen
    grind
  by_cases hclose : isClosing s.char = true
  · have hchar : s.char = ')' ∨ s.char = ']' ∨ s.char = '\x7d' := by
      simpa [isClosing, or_assoc] using hclose
    grind
  by_cases hdepth : depth = 0
  · grind
  · grind

/-- The header ends at a colon if and only if what is in front of the colon has closed its brackets, and
has closed as many headers as it has opened but nowhere more. -/
theorem headerColon_eq_iff (before : ∀ t ∈ front, t.pos < s.pos) (behind : ∀ t ∈ back, s.pos < t.pos) :
    headerColon depth headers (front ++ s :: back) = some s.pos ↔
      s.char = ':' ∧ depth + nesting front = 0 ∧ headers + openHeaders depth front = 0 ∧
        ∀ n, 0 ≤ headers + openHeaders depth (front.take n) := by
  induction front generalizing depth headers with
  | nil =>
      have hlater {depth : Int} {headers : Nat} : headerColon depth headers back ≠ some s.pos := by
        intro found
        obtain ⟨t, member, -, hpos⟩ := headerColon_mem found
        exact Nat.ne_of_gt (behind t member) hpos
      rw [List.nil_append, headerColon_cons]
      split
      next here => simp [here]
      next elsewhere =>
          refine iff_of_false hlater ?_
          rintro ⟨hchar, hdepth, hheaders, -⟩
          refine elsewhere ?_
          simp only [nesting_nil, openHeaders_nil] at hdepth hheaders
          exact ⟨by omega, hchar, by omega⟩
  | cons t front ih =>
      obtain ⟨ht, hfront⟩ := List.forall_mem_cons.mp before
      have hnext (n : Nat) : openHeaders depth ((t :: front).take (n + 1)) =
          headerTurn depth t + openHeaders (depth + bracketTurn t.char) (front.take n) := rfl
      rw [List.cons_append, headerColon_cons]
      split
      next here =>
          obtain ⟨rfl, hcolon, rfl⟩ := here
          have hturn : headerTurn 0 t = -1 := by simp [headerTurn, hcolon]
          refine iff_of_false (fun found => Nat.ne_of_lt ht (Option.some.inj found)) ?_
          rintro ⟨-, -, -, hclaimed⟩
          have hfirst := hclaimed 1
          rw [hnext, hturn] at hfirst
          simp at hfirst
      next elsewhere =>
          -- Without a header inside, the character is no colon outside of brackets.
          have hturn : 0 ≤ headers + headerTurn depth t := by
            unfold headerTurn
            grind
          rw [ih hfront, nesting_cons, Int.toNat_of_nonneg hturn, openHeaders]
          have hclaimed : (∀ n, 0 ≤ headers + openHeaders depth ((t :: front).take n)) ↔
              ∀ n, 0 ≤ headers + headerTurn depth t +
                openHeaders (depth + bracketTurn t.char) (front.take n) := by
            constructor
            · intro claimed n
              have := claimed (n + 1)
              rw [hnext] at this
              omega
            · rintro claimed (_ | n)
              · simp
              · have := claimed n
                rw [hnext]
                omega
          rw [hclaimed, Int.add_assoc, Int.add_assoc]

/-! ### Parameters -/

/-- The parameters of an anonymous function: code may stand behind them, their brackets balance, and of
the colons outside of brackets each belongs to a header in front of it. -/
structure HeaderText (params : List Char) : Prop where
  leads : (lex params).LeadsOn
  balanced : nesting (lex params).spots = 0
  claimed : ∀ n, 0 ≤ openHeaders 0 ((lex params).spots.take n)
  settled : openHeaders 0 (lex params).spots = 0

instance (params : List Char) : Decidable (HeaderText params) :=
  decidable_of_iff
    (((lex params).LeadsOn ∧ nesting (lex params).spots = 0 ∧ openHeaders 0 (lex params).spots = 0) ∧
      ∀ n < (lex params).spots.length, 0 ≤ openHeaders 0 ((lex params).spots.take n))
    ⟨fun ⟨⟨leads, balanced, settled⟩, claimed⟩ => ⟨leads, balanced, fun n => by
      rcases Nat.lt_or_ge n (lex params).spots.length with hlt | hge
      · exact claimed n hlt
      · exact Int.le_of_eq (by rw [List.take_of_length_le hge, settled]), settled⟩,
    fun h => ⟨⟨h.leads, h.balanced, h.settled⟩, fun n _ => h.claimed n⟩⟩

/-- What separates the parameters from the word in front of them: all the blanks there are, or nothing
if the word could not go on with the parameters. -/
structure IsGap (gap params : List Char) : Prop where
  blank : ∀ c ∈ gap, isBlank c = true
  word : gap = [] → params.head?.any isWord = false
  flush : params.head?.any isBlank = false

namespace IsGap

/-- Parameters in front of a colon stand apart from the word of the anonymous function. -/
theorem standsApart (gapped : IsGap gap params) (body : List Char) :
    StandsApart (lambdaWord ++ gap) params (':' :: body) where
  left := by
    rintro ⟨hgap, hparams⟩
    cases hlast : gap.getLast? with
    | none =>
        rw [gapped.word (List.getLast?_eq_none_iff.mp hlast)] at hparams
        cases hparams
    | some c =>
        have hblank := gapped.blank c (List.mem_of_getLast? hlast)
        rw [List.getLast?_append, hlast, Option.some_or, Option.any_some, (of_isBlank hblank).1] at hgap
        cases hgap
  right h := Bool.false_ne_true h.2
  newline first := absurd gapped.flush (by rw [first]; decide)
  quote q quote first := by
    cases first
    cases quote

/-- What follows the word of the anonymous function does not go on with it. -/
theorem beginsWith (gapped : IsGap gap params) (body : List Char) :
    beginsWith lambdaWord (lambdaWord ++ gap ++ params ++ ':' :: body) = true := by
  have hparams : gap = [] → (params ++ ':' :: body).head?.any isWord = false := by
    intro hgap
    have hword := gapped.word hgap
    cases params with
    | nil => rfl
    | cons c params => exact hword
  have hboundary : (gap ++ (params ++ ':' :: body)).head?.any isWord = false := by
    cases gap with
    | nil => exact hparams rfl
    | cons c gap => exact (of_isBlank (gapped.blank c List.mem_cons_self)).1
  rw [List.append_assoc, List.append_assoc, beginsWith_append letters_lambdaWord hboundary]
  rfl

/-- The blanks in front of the parameters are all that there are. -/
theorem takeWhile_eq (gapped : IsGap gap params) : (gap ++ params).takeWhile isBlank = gap := by
  rw [List.takeWhile_append_of_pos gapped.blank]
  have hflush := gapped.flush
  cases params with
  | nil => rw [List.takeWhile_nil, List.append_nil]
  | cons c params => rw [List.takeWhile_cons_of_neg (by simpa using hflush), List.append_nil]

end IsGap

/-! ### Headers in a text -/

theorem headerTurn_of_isBlank (blank : isBlank s.char = true) (depth : Int) : headerTurn depth s = 0 := by
  have hlambda : ¬ s.startsWord lambdaWord = true := fun starts =>
    ne_of_isBlank blank (by decide) (char_of_startsWord starts)
  rw [headerTurn, if_neg (ne_of_isBlank blank (by decide)), if_neg hlambda, ite_self]

theorem openHeaders_of_blank (blank : ∀ t ∈ front, isBlank t.char = true) (depth : Int) :
    openHeaders depth front = 0 := by
  induction front generalizing depth with
  | nil => rfl
  | cons t front ih =>
      obtain ⟨ht, hfront⟩ := List.forall_mem_cons.mp blank
      rw [openHeaders, headerTurn_of_isBlank ht, ih hfront, Int.add_zero]

/-- In a text the parameters open and close what they do on their own. -/
theorem turns_excerpt {distance : Nat} {spots spots' : List Spot}
    (same : List.Forall₂ (Spot.ReadsAs distance) spots spots') (depth : Int) :
    nesting spots = nesting spots' ∧ openHeaders depth spots = openHeaders depth spots' := by
  induction same generalizing depth with
  | nil => exact ⟨rfl, rfl⟩
  | @cons t t' _ _ hsame _ ih =>
      have hturn : headerTurn depth t = headerTurn depth t' := by
        rw [headerTurn, headerTurn, hsame.char, hsame.startsWord lambdaWord (by decide) letters_lambdaWord]
      rw [nesting_cons, nesting_cons, openHeaders, openHeaders, hturn, hsame.char, (ih 0).1, (ih _).2]
      exact ⟨rfl, rfl⟩

/-- The colon behind a text ends the header if and only if the text is one of parameters. -/
theorem headerColon_eq_some_iff (gapped : IsGap gap params) (leads : (lex params).LeadsOn)
    (body : List Char) :
    headerColon 0 0 (lexAt (lambdaWord ++ gap ++ params ++ ':' :: body) lambdaWord.length).spots =
        some (lambdaWord ++ gap ++ params).length ↔ HeaderText params := by
  have hsorted := pairwise_lexAt (lambdaWord ++ gap ++ params ++ ':' :: body) lambdaWord.length
  have hdrop : (lambdaWord ++ gap ++ params ++ ':' :: body).drop lambdaWord.length =
      gap ++ (params ++ ':' :: body) := by
    rw [List.append_assoc, List.append_assoc, List.drop_left]
  obtain ⟨blanks, hblanks, hchars⟩ :=
    exists_lexAt_of_plain (fun c member => code_of_isBlank (gapped.blank c member)) hdrop
  obtain ⟨earlier, hparams, -, hsame⟩ :=
    (gapped.standsApart body).exists_lexAt_of_leadsOn (Nat.zero_le _) leads
  have hcolon : (lambdaWord ++ gap ++ params ++ ':' :: body).drop
      ((lambdaWord ++ gap).length + params.length) = ':' :: body := by
    rw [← List.length_append, List.drop_left]
  have hspots := congrArg Lexed.spots hblanks
  rw [← List.length_append, ← Nat.add_zero (lambdaWord ++ gap).length, hparams,
    lexAt_of_character hcolon (by decide), Lexed.spots_prepend_code, Lexed.spots_prepend,
    Lexed.spots_cons_code, ← List.append_assoc] at hspots
  rw [hspots] at hsorted ⊢
  generalize earlier.filterMap Piece.spot? = inner at hsame hsorted hspots ⊢
  have hblank : ∀ t ∈ blanks, isBlank t.char = true := fun t member =>
    gapped.blank _ (hchars ▸ List.mem_map_of_mem member)
  have hopen (n : Nat) : openHeaders 0 ((blanks ++ inner).take n) =
      openHeaders 0 ((lex params).spots.take (n - blanks.length)) := by
    have hfirst : ∀ t ∈ blanks.take n, isBlank t.char = true := fun t member =>
      hblank t (List.mem_of_mem_take member)
    rw [List.take_append, openHeaders_append, openHeaders_of_blank hfirst, nesting_of_blank hfirst,
      Int.zero_add, Int.zero_add, (turns_excerpt (List.forall₂_take _ hsame) 0).2]
    rfl
  have hwhole := hopen (blanks.length + inner.length)
  rw [← List.length_append, List.take_length, List.length_append, Nat.add_sub_cancel_left,
    hsame.length_eq, lexAt_zero, List.take_length] at hwhole
  obtain ⟨-, hbehind, hbefore⟩ := List.pairwise_append.mp hsorted
  rw [@List.length_append Char (lambdaWord ++ gap),
    headerColon_eq_iff (fun t member => hbefore t member _ List.mem_cons_self)
      (List.pairwise_cons.mp hbehind).1,
    nesting_append, nesting_of_blank hblank, (turns_excerpt hsame 0).1, hwhole]
  simp only [hopen, Int.zero_add, Nat.cast_zero]
  constructor
  · rintro ⟨-, hbalanced, hsettled, hclaimed⟩
    refine ⟨leads, hbalanced, fun n => ?_, hsettled⟩
    have hn := hclaimed (n + blanks.length)
    rwa [Nat.add_sub_cancel] at hn
  · intro h
    exact ⟨trivial, h.balanced, h.settled, fun n => h.claimed _⟩

/-! ### Texts of anonymous functions -/

/-- A text is cut behind the blanks in front of the parameters and in front of the colon that ends the
header. -/
theorem scanLambda_eq (gapped : IsGap gap params)
    (found : headerColon 0 0 (lexAt (lambdaWord ++ gap ++ params ++ ':' :: body)
      lambdaWord.length).spots = some (lambdaWord ++ gap ++ params).length) :
    scanLambda (lambdaWord ++ gap ++ params ++ ':' :: body) =
      .ok ⟨none, collapse (lambdaWord ++ gap), collapse params, collapse (':' :: body), true⟩ := by
  have hgap : slice (lambdaWord ++ gap ++ params ++ ':' :: body) lambdaWord.length
      (lambdaWord ++ gap ++ params).length = gap ++ params := by
    rw [slice, List.append_assoc lambdaWord, List.append_assoc lambdaWord, List.drop_left,
      @List.length_append Char lambdaWord, Nat.add_sub_cancel_left, List.take_left]
  have hstart : (lambdaWord ++ gap ++ params ++ ':' :: body).take (lambdaWord.length + gap.length) =
      lambdaWord ++ gap := by
    rw [← List.length_append, List.append_assoc (lambdaWord ++ gap), List.take_left]
  have hparams : slice (lambdaWord ++ gap ++ params ++ ':' :: body) (lambdaWord.length + gap.length)
      (lambdaWord ++ gap ++ params).length = params := by
    rw [slice, ← List.length_append, List.append_assoc (lambdaWord ++ gap), List.drop_left,
      @List.length_append Char _ params, Nat.add_sub_cancel_left, List.take_left]
  dsimp only [scanLambda]
  rw [found]
  dsimp only
  rw [hgap, gapped.takeWhile_eq, cut, hstart, hparams, List.drop_left]
  rfl

/-- Between a comment and a code character other than a newline there is a newline. -/
theorem exists_newline_between {start i length : Nat}
    (comment : .comment i length ∈ (lexAt text start).pieces) (member : s ∈ (lexAt text start).spots)
    (behind : i < s.pos) (line : s.char ≠ '\n') :
    ∃ t ∈ (lexAt text start).spots, i ≤ t.pos ∧ t.pos < s.pos := by
  obtain ⟨front, newline, back, hspots, hfront, hback, hpos, hnewline, -⟩ :=
    exists_newline comment member behind
  have hsorted := pairwise_lexAt text start
  rw [hspots, List.pairwise_append, List.pairwise_cons] at hsorted
  rw [hspots] at member ⊢
  refine ⟨newline, List.mem_append_right front List.mem_cons_self, by omega, ?_⟩
  rw [List.mem_append, List.mem_cons] at member
  rcases member with hs | rfl | hs
  · exact absurd (hfront s hs) (Nat.lt_asymm behind)
  · exact absurd hnewline line
  · exact hsorted.2.1.1 s hs

/-- What is in front of a code character other than a newline leads on. -/
theorem leadsOn_take {start : Nat} (member : s ∈ (lexAt text start).spots) (line : s.char ≠ '\n') :
    (lexAt (text.take s.pos) start).LeadsOn := by
  have hbegins := beginsAt_of_mem_spots member
  obtain ⟨earlier, hlex, houtline, hclosed⟩ := lexAt_cut hbegins
  obtain ⟨earlier', hlex', hbefore, -⟩ := exists_cut hbegins
  obtain rfl : earlier = earlier' :=
    List.append_cancel_right (congrArg Lexed.pieces (hlex.symm.trans hlex'))
  refine Lexed.leadsOn_iff_outline.mpr ⟨hclosed, ?_⟩
  rw [houtline, List.getLast?_map]
  cases hlast : earlier.getLast? with
  | none => rfl
  | some p =>
      rw [Option.map_some, Option.bind_some, Piece.comment?_bare]
      cases p with
      | comment i length =>
          -- The newline would stand in front of the character but behind the last piece there.
          exfalso
          obtain ⟨front, rfl⟩ := List.getLast?_eq_some_iff.mp hlast
          have hcomment : .comment i length ∈ (lexAt text start).pieces := by
            rw [hlex]
            exact List.mem_append_left _ (List.mem_append_right front List.mem_cons_self)
          obtain ⟨t, ht, hle, hlt⟩ := exists_newline_between hcomment member
            (hbefore _ (List.mem_append_right front List.mem_cons_self)) line
          rw [hlex, Lexed.spots_prepend, List.filterMap_append, List.append_assoc, List.mem_append] at ht
          rcases ht with hfirst | hlater
          · obtain ⟨q, hq, hspot⟩ := List.mem_filterMap.mp hfirst
            have hpieces := pairwise_start_lexFrom 0 start (charBefore text start) (text.drop start)
            rw [← lexAt, hlex, Lexed.prepend, List.append_assoc, List.pairwise_append] at hpieces
            have hstarts := hpieces.2.2 q hq _ List.mem_cons_self
            cases q with
            | code spot =>
                cases hspot
                exact absurd hstarts (Nat.not_lt.mpr hle)
            | _ => cases hspot
          · exact absurd (standsIn_of_mem_lexAt hlater).1 (Nat.not_le.mpr hlt)
      | _ => rfl

/-- A header that has a colon has parameters in front of it. -/
theorem exists_of_headerColon {stop : Nat} (begins : beginsWith lambdaWord text = true)
    (found : headerColon 0 0 (lexAt text lambdaWord.length).spots = some stop) :
    ∃ gap params body, text = lambdaWord ++ gap ++ params ++ ':' :: body ∧
      stop = (lambdaWord ++ gap ++ params).length ∧ IsGap gap params ∧ (lex params).LeadsOn := by
  obtain ⟨s, member, hchar, rfl⟩ := headerColon_mem found
  obtain ⟨hle, hstands⟩ := standsIn_of_mem_lexAt member
  obtain ⟨⟨rest, rfl⟩, hboundary⟩ := beginsWith_iff.mp begins
  obtain ⟨k, hk⟩ := Nat.exists_eq_add_of_le hle
  have hcolon : rest.drop k = ':' :: s.after := by
    have hdrop := hstands.drop
    rwa [hk, List.drop_length_add_append, hchar] at hdrop
  -- The header is cut behind the blanks at its beginning.
  have hparts := List.takeWhile_append_dropWhile (p := isBlank) (l := rest.take k)
  have hblank (c : Char) (hc : c ∈ (rest.take k).takeWhile isBlank) : isBlank c = true :=
    List.mem_takeWhile_imp hc
  have hflush := List.head?_dropWhile_not isBlank (rest.take k)
  generalize (rest.take k).takeWhile isBlank = gap, (rest.take k).dropWhile isBlank = params
    at hparts hblank hflush
  have hfront : (lambdaWord ++ rest).take s.pos = lambdaWord ++ gap ++ params := by
    rw [hk, List.take_length_add_append, ← hparts, List.append_assoc]
  have htext : lambdaWord ++ rest = lambdaWord ++ gap ++ params ++ ':' :: s.after := by
    rw [← hcolon, List.append_assoc lambdaWord, List.append_assoc lambdaWord, hparts,
      List.take_append_drop]
  have hgapped : IsGap gap params := by
    refine ⟨hblank, ?_, by cases hhead : params.head? <;> simp_all⟩
    rintro rfl
    cases params with
    | nil => rfl
    | cons c params => simpa [htext] using hboundary
  refine ⟨gap, params, s.after, htext, ?_, hgapped, ?_⟩
  · rw [← hfront, List.length_take_of_le]
    exact Nat.le_of_lt (List.getElem?_eq_some_iff.mp hstands.getElem?).1
  have hdrop : (lambdaWord ++ rest).drop lambdaWord.length = gap ++ (params ++ ':' :: s.after) := by
    rw [htext, List.append_assoc, List.append_assoc, List.drop_left]
  obtain ⟨blanks, hblanks, hchars⟩ :=
    exists_lexAt_of_plain (fun c hc => code_of_isBlank (hblank c hc)) hdrop
  rw [hblanks, Lexed.spots_prepend_code, List.mem_append] at member
  have hmember : s ∈ (lexAt (lambdaWord ++ rest) (lambdaWord.length + gap.length)).spots := by
    refine member.resolve_left fun hs => ?_
    have hc := hblank _ (hchars ▸ List.mem_map_of_mem hs)
    rw [hchar] at hc
    cases hc
  have hleads := leadsOn_take hmember (by rw [hchar]; decide)
  rw [hfront, ← List.length_append, ← Nat.add_zero (lambdaWord ++ gap).length] at hleads
  exact (leadsOn_append_length (lambdaWord ++ gap) params 0).mp hleads

/-- A text of an anonymous function is cut at the colon that ends its header, whatever the body is and
however many anonymous functions the default values hold. Only such texts are read as those of anonymous
functions: each header in what became the parameters has a colon of its own there. -/
theorem scan_lambda_header :
    (∀ gap params body, IsGap gap params → HeaderText params →
      scan (lambdaWord ++ gap ++ params ++ ':' :: body) =
        .ok ⟨none, collapse (lambdaWord ++ gap), collapse params, collapse (trimRight (':' :: body)),
          true⟩) ∧
    ∀ source segments, beginsWith lambdaWord (trim source) = true → scan source = .ok segments →
      ∃ gap params body, trim source = lambdaWord ++ gap ++ params ++ ':' :: body ∧
        (IsGap gap params ∧ HeaderText params) ∧
        segments = ⟨none, collapse (lambdaWord ++ gap), collapse params, collapse (':' :: body), true⟩ := by
  constructor
  · intro gap params body hgapped hparams
    have htail : trimRight (':' :: body) = ':' :: trimRight body := by
      have happend := trimRight_append [':'] body
      rw [List.singleton_append] at happend
      rw [happend]
      split
      next hnil => rw [hnil]; rfl
      next => rfl
    have htrim : trim (lambdaWord ++ gap ++ params ++ ':' :: body) =
        lambdaWord ++ gap ++ params ++ ':' :: trimRight body := by
      change trimRight (lambdaWord ++ gap ++ params ++ ':' :: body) = _
      rw [trimRight_append, htail, if_neg (List.cons_ne_nil _ _)]
    rw [scan, htrim, htail, if_pos (hgapped.beginsWith _)]
    exact scanLambda_eq hgapped ((headerColon_eq_some_iff hgapped hparams.leads _).mpr hparams)
  · intro source segments begins scanned
    rw [scan, if_pos begins] at scanned
    generalize trim source = text at begins scanned
    cases hcolon : headerColon 0 0 (lexAt text lambdaWord.length).spots with
    | none =>
        dsimp only [scanLambda] at scanned
        rw [hcolon] at scanned
        dsimp only at scanned
        split at scanned <;> cases scanned
    | some stop =>
        obtain ⟨gap, params, body, rfl, rfl, hgapped, hleads⟩ := exists_of_headerColon begins hcolon
        rw [scanLambda_eq hgapped hcolon] at scanned
        exact ⟨gap, params, body, rfl,
          ⟨hgapped, (headerColon_eq_some_iff hgapped hleads body).mp hcolon⟩, (Except.ok.inj scanned).symm⟩

/-- A default value with two anonymous functions, brackets and a literal with a colon, in front of a body
that is not even closed. -/
theorem scan_lambda_header_nested :
    let params := "f=lambda x, y=\x7b1: 'a:'\x7d: lambda: x, *a".toList
    HeaderText params ∧
      scan (lambdaWord ++ [' '] ++ params ++ ": f( 'b  ".toList) =
        .ok ⟨none, "lambda ".toList, params, ": f( 'b".toList, true⟩ ∧
      ∃ gap params' body, trim (lambdaWord ++ [' '] ++ params ++ ": f( 'b  ".toList) =
          lambdaWord ++ gap ++ params' ++ ':' :: body ∧ (IsGap gap params' ∧ HeaderText params') ∧
        (⟨none, "lambda ".toList, params, ": f( 'b".toList, true⟩ : Segments) =
          ⟨none, collapse (lambdaWord ++ gap), collapse params', collapse (':' :: body), true⟩ := by
  intro params
  have hparams : HeaderText params := by decide
  have hgapped : IsGap [' '] params := ⟨by simp, nofun, rfl⟩
  have hscan := scan_lambda_header.1 [' '] params " f( 'b  ".toList hgapped hparams
  exact ⟨hparams, hscan, scan_lambda_header.2 _ _ rfl hscan⟩

end Segments

end CallableKinds

import CallableKinds.Proofs.Excerpts
import CallableKinds.Source.Lambda

/-!
# Splitting texts that are put together

The parts of a text between its separators are those of the texts that it is made of, where the last part
of the one goes on with the first part of the next one. So a text that was made by putting parts together
with separators is split into these parts again, unless there are separators in them.
-/

namespace CallableKinds

variable {a b : List Char} {c : Char} {separator : List Char}

/-! ### Code characters of texts that are put together -/

/-- A text behind another one is lexed as it is on its own. -/
structure Precedes (a b : List Char) : Prop where
  outline : (lex (a ++ b)).outline = (lex a).outline ++ (lex b).outline.map (Piece.later a.length)
  unclosed : (lex (a ++ b)).unclosed = (lex b).unclosed

theorem Precedes.items (precedes : Precedes a b) :
    (lex (a ++ b)).items = (lex a).items ++ (lex b).items.map fun i => (i.1 + a.length, i.2) := by
  rw [Lexed.items_eq_filterMap_outline, precedes.outline, List.filterMap_append, List.filterMap_map,
    Lexed.items_eq_filterMap_outline, Lexed.items_eq_filterMap_outline, List.map_filterMap]
  simp only [Function.comp_def, Piece.item?_later]

/-- It is enough that the text behind is lexed on in its place. -/
theorem Precedes.of_prepend {earlier : List Piece}
    (whole : lex (a ++ b) = (lexFrom 0 (0 + a.length) (a.getLast?.or none) b).prepend earlier)
    (front : (lex a).outline = earlier.map Piece.bare) : Precedes a b := by
  obtain ⟨hlater, hunclosed⟩ := lexFrom_later 0 0 a.length none (a.getLast?.or none) b
  refine ⟨?_, by rw [whole]; exact hunclosed⟩
  have hprepend : (lex (a ++ b)).outline =
      earlier.map Piece.bare ++ (lexFrom 0 (0 + a.length) (a.getLast?.or none) b).outline := by
    rw [whole]
    exact List.map_append
  rw [hprepend, ← front, hlater]
  rfl

theorem Precedes.of_closed (closed : (lex a).unclosed = none)
    (ends : (lex a).pieces.getLast?.bind Piece.comment? = none ∨ b.head? = some '\n')
    (apart : ∀ q, isQuote q = true → b.head? ≠ some q) : Precedes a b := by
  obtain ⟨earlier, hwhole, houtline⟩ :=
    exists_lexFrom_append_of_closed (Nat.zero_le _) closed ends apart
  exact .of_prepend hwhole houtline

theorem Precedes.of_leadsOn (leads : (lex a).LeadsOn)
    (apart : ∀ q, isQuote q = true → b.head? ≠ some q) : Precedes a b :=
  .of_closed leads.closed (.inl leads.uncommented) apart

/-- A text that is cut where a piece of it begins is lexed as its two parts are on their own. -/
theorem Precedes.of_beginsAt (begins : (lex (a ++ b)).BeginsAt a.length) : Precedes a b := by
  obtain ⟨earlier, hwhole, houtline, -⟩ := lexFrom_append (by rwa [Nat.zero_add])
  exact .of_prepend hwhole houtline

/-- Text without quotes and comments is lexed character by character. -/
theorem Precedes.of_plain (plain : ∀ c ∈ a, isQuote c = false ∧ c ≠ '#') (b : List Char) :
    Precedes a b := by
  have hcons {c : Char} (code : isQuote c = false ∧ c ≠ '#') (text : List Char) :
      (lex (c :: text)).outline = .code ⟨0, none, c, []⟩ :: (lex text).outline.map (Piece.later 1) ∧
        (lex (c :: text)).unclosed = (lex text).unclosed := by
    have hlexeme : lexeme c text = .character := lexeme_eq_character_iff.mpr code
    obtain ⟨houtline, hunclosed⟩ := lexFrom_later 0 0 1 none (some c) text
    rw [lex, lexFrom, hlexeme]
    exact ⟨congrArg _ houtline, hunclosed⟩
  induction a with
  | nil =>
      refine ⟨?_, rfl⟩
      have hlater : ∀ p ∈ (lex b).outline, p.later 0 = p := fun p _ => by cases p <;> rfl
      rw [List.nil_append, List.length_nil, List.map_congr_left hlater, List.map_id']
      rfl
  | cons c a ih =>
      obtain ⟨hc, ha⟩ := List.forall_mem_cons.mp plain
      obtain ⟨houtline, hunclosed⟩ := ih ha
      obtain ⟨hfirst, hfirst'⟩ := hcons hc (a ++ b)
      refine ⟨?_, hfirst'.trans hunclosed⟩
      have hlater (p : Piece) : (p.later a.length).later 1 = p.later (c :: a).length := by
        cases p <;> rfl
      rw [List.cons_append, hfirst, houtline, (hcons hc a).1, List.map_append, List.map_map,
        List.cons_append]
      simp only [Function.comp_def, hlater]

theorem Precedes.of_code (code : isQuote c = false ∧ c ≠ '#') (b : List Char) : Precedes [c] b :=
  .of_plain (by simpa using code) b

theorem head?_ne_of_code (code : isQuote c = false) (rest : List Char) :
    ∀ q, isQuote q = true → (c :: rest).head? ≠ some q := by
  intro q quote first
  obtain rfl : c = q := Option.some.inj first
  exact Bool.false_ne_true (code.symm.trans quote)

/-! ### Separators -/

/-- A text is cut at a separator outside of brackets. -/
theorem cuts_cons (depth : Int) (s : Spot) (rest : List Spot) :
    cuts separator depth (s :: rest) =
      (if [s.char] = separator ∧ depth = 0 ∧ bracketTurn s.char = 0 then [s.pos] else []) ++
        cuts separator (depth + bracketTurn s.char) rest := by
  rw [cuts, bracketTurn]
  split
  · simp
  · split
    · simp; rfl
    · rw [Int.add_zero]
      split <;> simp_all

theorem cuts_append (separator : List Char) (depth : Int) (front back : List Spot) :
    cuts separator depth (front ++ back) =
      cuts separator depth front ++ cuts separator (depth + nesting front) back := by
  induction front generalizing depth with
  | nil => simp [cuts]
  | cons s front ih =>
      rw [List.cons_append, cuts_cons, cuts_cons, ih, nesting_cons, Int.add_assoc, List.append_assoc]

/-- Separators are told from the characters, and they are as far on as these. -/
theorem cuts_congr {n : Nat} {spots spots' : List Spot}
    (same : spots.map Spot.item = spots'.map fun t => (t.pos + n, t.char)) (depth : Int) :
    nesting spots = nesting spots' ∧
      cuts separator depth spots = (cuts separator depth spots').map (· + n) := by
  induction spots generalizing spots' depth with
  | nil =>
      obtain rfl : spots' = [] := by simpa using same.symm
      exact ⟨rfl, rfl⟩
  | cons s spots ih =>
      obtain ⟨t, rest, rfl, hitem, hrest⟩ := List.map_eq_cons_iff.mp same.symm
      obtain ⟨hpos, hchar⟩ := Prod.mk.inj hitem
      rw [nesting_cons, nesting_cons, cuts_cons, cuts_cons, ← hchar, ← hpos, (ih hrest.symm 0).1,
        (ih hrest.symm _).2, List.map_append]
      refine ⟨rfl, ?_⟩
      split <;> rfl

theorem exists_of_mem_cuts {depth : Int} {spots : List Spot} {cut : Nat}
    (member : cut ∈ cuts separator depth spots) : ∃ s ∈ spots, s.pos = cut := by
  induction spots generalizing depth with
  | nil => cases member
  | cons s rest ih =>
      rw [cuts_cons, List.mem_append] at member
      rcases member with member | member
      · split at member
        · exact ⟨s, List.mem_cons_self, (List.mem_singleton.mp member).symm⟩
        · cases member
      · obtain ⟨t, ht, hcut⟩ := ih member
        exact ⟨t, List.mem_cons_of_mem s ht, hcut⟩

/-! ### Parts -/

/-- The parts of two texts that stand one behind the other: the last part of the first one goes on with
the first part of the second one. -/
def glue : (parts parts' : List (List Char)) → List (List Char)
  | [], parts' => parts'
  | [part], parts' => parts'.modifyHead (part ++ ·)
  | part :: next :: parts, parts' => part :: glue (next :: parts) parts'

theorem glue_nil_cons {parts : List (List Char)} (nonempty : parts ≠ []) (parts' : List (List Char)) :
    glue parts ([] :: parts') = parts ++ parts' := by
  induction parts with
  | nil => exact absurd rfl nonempty
  | cons part parts ih =>
      cases parts with
      | nil => rw [glue, List.modifyHead_cons, List.append_nil]; rfl
      | cons next parts => rw [glue, ih (List.cons_ne_nil _ _)]; rfl

theorem partsBetween_ne_nil (text : List Char) (start : Nat) (positions : List Nat) :
    partsBetween text start positions ≠ [] := by
  cases positions <;> exact List.cons_ne_nil _ _

theorem slice_append_right (a b : List Char) (start stop : Nat) :
    slice (a ++ b) (start + a.length) (stop + a.length) = slice b start stop := by
  have hstop : stop + a.length - (start + a.length) = stop - start := by omega
  rw [slice, slice, hstop, Nat.add_comm start, List.drop_length_add_append]

theorem partsBetween_append_right (a b : List Char) (start : Nat) (positions : List Nat) :
    partsBetween (a ++ b) (start + a.length) (positions.map (· + a.length)) =
      partsBetween b start positions := by
  induction positions generalizing start with
  | nil =>
      rw [List.map_nil, partsBetween_nil, partsBetween_nil, Nat.add_comm,
        List.drop_length_add_append]
  | cons cut positions ih =>
      rw [List.map_cons, partsBetween, partsBetween, slice_append_right, Nat.add_right_comm, ih]

theorem partsBetween_append {start : Nat} {positions : List Nat} (le : start ≤ a.length)
    (inside : ∀ cut ∈ positions, cut < a.length) (b : List Char) (positions' : List Nat) :
    partsBetween (a ++ b) start (positions ++ positions'.map (· + a.length)) =
      glue (partsBetween a start positions) (partsBetween b 0 positions') := by
  induction positions generalizing start with
  | nil =>
      have hdrop : (a ++ b).drop start = a.drop start ++ b := List.drop_append_of_le_length le
      cases positions' with
      | nil => simp [glue, hdrop]
      | cons cut positions' =>
          have hslice : slice (a ++ b) start (cut + a.length) = a.drop start ++ slice b 0 cut := by
            have hlength : cut + a.length - start = (a.drop start).length + cut := by
              rw [List.length_drop]
              omega
            rw [slice, hdrop, hlength, List.take_length_add_append, slice, List.drop_zero, Nat.sub_zero]
          change slice (a ++ b) start (cut + a.length) :: partsBetween (a ++ b) (cut + a.length + 1) _ =
            (a.drop start ++ slice b 0 cut) :: partsBetween b (cut + 1) positions'
          rw [hslice, Nat.add_right_comm, partsBetween_append_right]
  | cons cut positions ih =>
      obtain ⟨hcut, hpositions⟩ := List.forall_mem_cons.mp inside
      have hslice : slice (a ++ b) start cut = slice a start cut := by
        rw [slice, slice, List.drop_append_of_le_length le, List.take_append_of_le_length]
        rw [List.length_drop]
        omega
      rw [List.cons_append, partsBetween, partsBetween, hslice, ih hcut hpositions]
      cases hparts : partsBetween a (cut + 1) positions with
      | nil => exact absurd hparts (partsBetween_ne_nil _ _ _)
      | cons next parts => rfl

/-- The parts of a text as far as it is lexed. -/
def topParts (separator text : List Char) : List (List Char) :=
  partsBetween text 0 (cuts separator 0 (lex text).spots)

theorem topParts_ne_nil (separator text : List Char) : topParts separator text ≠ [] :=
  partsBetween_ne_nil _ _ _

theorem splitTopLevel_eq (separator text : List Char) :
    splitTopLevel text separator = (lex text).finish (topParts separator text) := by
  rw [splitTopLevel, Lexed.complete, Lexed.finish, Lexed.finish]
  cases (lex text).unclosed <;> rfl

/-- The parts of two texts that stand one behind the other, if the brackets of the first one balance. -/
theorem topParts_append (precedes : Precedes a b) (balanced : nesting (lex a).spots = 0) :
    topParts separator (a ++ b) = glue (topParts separator a) (topParts separator b) := by
  obtain ⟨front, back, hspots, hfront, hback⟩ := List.map_eq_append_iff.mp precedes.items
  rw [Lexed.items, List.map_map] at hback
  obtain ⟨hnesting, hcuts⟩ : nesting front = nesting (lex a).spots ∧
      cuts separator 0 front = (cuts separator 0 (lex a).spots).map (· + 0) := cuts_congr hfront 0
  have hinside : ∀ cut ∈ cuts separator 0 (lex a).spots, cut < a.length := by
    intro cut member
    obtain ⟨s, hs, rfl⟩ := exists_of_mem_cuts member
    have hstands := (@standsIn_of_mem_lexAt a 0 s hs).2
    exact (List.getElem?_eq_some_iff.mp hstands.getElem?).1
  rw [topParts, hspots, cuts_append, hcuts, hnesting, balanced, (cuts_congr hback _).2]
  simp only [Nat.add_zero, List.map_id_fun', id_eq, Int.add_zero]
  exact partsBetween_append (Nat.zero_le _) hinside b _

/-- A separator is put between the parts in front of it and those behind it. -/
theorem topParts_append_cons (precedes : Precedes a (c :: b)) (balanced : nesting (lex a).spots = 0)
    (code : isQuote c = false ∧ c ≠ '#') (flat : bracketTurn c = 0) :
    topParts [c] (a ++ c :: b) = topParts [c] a ++ topParts [c] b := by
  have hlex : lex [c] = ⟨[.code ⟨0, none, c, []⟩], none⟩ := by
    rw [lex, lexFrom, lexeme_eq_character_iff.mpr code]
    rfl
  have hnesting : nesting (lex [c]).spots = 0 := by
    rw [hlex]
    exact (Int.add_zero _).trans flat
  have hplain : isOpening c = false ∧ isClosing c = false := by
    unfold bracketTurn at flat
    split at flat
    · cases flat
    · split at flat
      · cases flat
      · simp_all
  have hparts : topParts [c] [c] = [[], []] := by
    rw [topParts, hlex]
    simp [Lexed.spots, Piece.spot?, cuts, hplain, partsBetween, slice]
  have hcons : topParts [c] (c :: b) = [] :: topParts [c] b := by
    have hseparator : Precedes [c] b := .of_code code b
    have happend : topParts [c] ([c] ++ b) = _ := topParts_append hseparator hnesting
    rw [hparts, glue, glue] at happend
    refine happend.trans ?_
    cases topParts [c] b <;> rfl
  rw [topParts_append precedes balanced, hcons, glue_nil_cons (topParts_ne_nil _ _)]

theorem cuts_eq_nil {spots : List Spot} (absent : ∀ s ∈ spots, [s.char] ≠ separator) (depth : Int) :
    cuts separator depth spots = [] := by
  induction spots generalizing depth with
  | nil => rfl
  | cons s rest ih =>
      obtain ⟨hs, hrest⟩ := List.forall_mem_cons.mp absent
      rw [cuts_cons, if_neg fun h => hs h.1, ih hrest, List.append_nil]

/-- A text without separators is a part as a whole. -/
theorem topParts_of_absent {text : List Char} (absent : c ∉ codeChars text) :
    topParts [c] text = [text] := by
  rw [topParts, cuts_eq_nil, partsBetween_nil, List.drop_zero]
  intro s member same
  refine absent ?_
  rw [codeChars, Lexed.chars_eq_map, ← List.singleton_inj.mp same]
  exact List.mem_map_of_mem member

/-! ### Texts put together with separators -/

/-- A settled text has neither comments nor anything left open, so what is put behind it is lexed as it is
on its own. -/
structure Settled (text : List Char) : Prop where
  closed : (lex text).unclosed = none
  commentFree : (lex text).CommentFree
  balanced : nesting (lex text).spots = 0

theorem nesting_eq_sum_items (spots : List Spot) :
    nesting spots = ((spots.map Spot.item).map fun i => bracketTurn i.2).sum := by
  rw [nesting, List.map_map]
  rfl

theorem Settled.leadsOn {text : List Char} (settled : Settled text) : (lex text).LeadsOn :=
  settled.commentFree.leadsOn settled.closed

theorem Settled.append (settled : Settled a) (settled' : Settled b) (precedes : Precedes a b) :
    Settled (a ++ b) := by
  refine ⟨precedes.unclosed.trans settled'.closed, ?_, ?_⟩
  · have hfront := Lexed.commentFree_iff_outline.mp settled.commentFree
    have hback := Lexed.commentFree_iff_outline.mp settled'.commentFree
    refine Lexed.commentFree_iff_outline.mpr fun p hp => ?_
    rw [precedes.outline] at hp
    rcases List.mem_append.mp hp with hp | hp
    · exact hfront p hp
    · obtain ⟨q, hq, rfl⟩ := List.mem_map.mp hp
      exact (Piece.comment?_later_eq_none_iff _ _).mpr (hback q hq)
  · have hfront := settled.balanced
    have hback := settled'.balanced
    rw [nesting_eq_sum_items] at hfront hback ⊢
    rw [← Lexed.items, precedes.items, List.map_append, List.sum_append, List.map_map]
    exact (congrArg₂ (· + ·) hfront hback).trans (Int.add_zero 0)

theorem nesting_of_flat {spots : List Spot} (flat : ∀ s ∈ spots, bracketTurn s.char = 0) :
    nesting spots = 0 := by
  induction spots with
  | nil => rfl
  | cons s rest ih =>
      obtain ⟨hs, hrest⟩ := List.forall_mem_cons.mp flat
      rw [nesting_cons, hs, ih hrest, Int.add_zero]

theorem settled_of_plain {text : List Char}
    (plain : ∀ c ∈ text, (isQuote c = false ∧ c ≠ '#') ∧ bracketTurn c = 0) : Settled text := by
  have hwhole : text.drop 0 = text ++ [] := (List.append_nil text).symm
  obtain ⟨spots, hlex, hchars⟩ := exists_lexAt_of_plain (fun c member => (plain c member).1) hwhole
  have hend : lexAt text (0 + text.length) = ⟨[], none⟩ := by
    rw [Nat.zero_add, lexAt, List.drop_length, lexFrom]
  rw [hend, lexAt_zero] at hlex
  refine ⟨by rw [hlex]; rfl, fun p hp => ?_, ?_⟩
  · rw [hlex, Lexed.prepend, List.append_nil] at hp
    obtain ⟨s, -, rfl⟩ := List.mem_map.mp hp
    rfl
  · refine nesting_of_flat fun s hs => (plain s.char ?_).2
    rw [hlex, Lexed.spots_prepend_code] at hs
    rcases List.mem_append.mp hs with hs | hs
    · exact hchars ▸ List.mem_map_of_mem hs
    · cases hs

/-- Behind the first text each one has a separator in front. -/
theorem intercalate_cons_eq (separator text : List Char) (texts : List (List Char)) :
    separator.intercalate (text :: texts) = text ++ texts.flatMap (separator ++ ·) := by
  induction texts generalizing text with
  | nil => rw [List.intercalate_singleton, List.flatMap_nil, List.append_nil]
  | cons next texts ih =>
      rw [List.intercalate_cons_cons, ih, List.flatMap_cons, List.append_assoc, List.append_assoc]

section Intercalate

variable {texts : List (List Char)} (settled : ∀ text ∈ texts, Settled text)
  (code : isQuote c = false ∧ c ≠ '#') (flat : bracketTurn c = 0)
include settled code flat

theorem settled_intercalate : Settled ([c].intercalate texts) := by
  induction texts with
  | nil => exact settled_of_plain (List.forall_mem_nil _)
  | cons text texts ih =>
      obtain ⟨htext, htexts⟩ := List.forall_mem_cons.mp settled
      cases texts with
      | nil => rwa [List.intercalate_singleton]
      | cons next texts =>
          have hseparator : Precedes [c] ([c].intercalate (next :: texts)) := .of_code code _
          have hprecedes : Precedes text ([c] ++ [c].intercalate (next :: texts)) :=
            .of_leadsOn htext.leadsOn (head?_ne_of_code code.1 _)
          have hfirst : Settled [c] := settled_of_plain (by simpa using ⟨code, flat⟩)
          rw [List.intercalate_cons_cons, List.append_assoc]
          exact htext.append (hfirst.append (ih htexts) hseparator) hprecedes

/-- A text that was put together with separators has the parts of what it was put together from. -/
theorem topParts_intercalate (nonempty : texts ≠ []) :
    topParts [c] ([c].intercalate texts) = texts.flatMap (topParts [c]) := by
  induction texts with
  | nil => exact absurd rfl nonempty
  | cons text texts ih =>
      obtain ⟨htext, htexts⟩ := List.forall_mem_cons.mp settled
      cases texts with
      | nil => rw [List.intercalate_singleton, List.flatMap_singleton]
      | cons next texts =>
          have hprecedes : Precedes text (c :: [c].intercalate (next :: texts)) :=
            .of_leadsOn htext.leadsOn (head?_ne_of_code code.1 _)
          rw [List.intercalate_cons_cons, List.append_assoc, List.singleton_append,
            topParts_append_cons hprecedes htext.balanced code flat, ih htexts (List.cons_ne_nil _ _)]
          rfl

theorem splitTopLevel_intercalate (nonempty : texts ≠ []) :
    splitTopLevel ([c].intercalate texts) [c] = .ok (texts.flatMap (topParts [c])) := by
  rw [splitTopLevel_eq, Lexed.finish, (settled_intercalate settled code flat).closed,
    topParts_intercalate settled code flat nonempty]

end Intercalate

/-! ### The first part of a text -/

/-- The part of a text in front of its first separator. -/
def firstPart (separator text : List Char) : List Char := (topParts separator text).headD []

/-- There are no separators in a text. -/
def Undivided (separator text : List Char) : Prop := topParts separator text = [text]

instance (separator text : List Char) : Decidable (Undivided separator text) :=
  inferInstanceAs (Decidable (_ = _))

theorem Undivided.firstPart_eq {text : List Char} (undivided : Undivided separator text) :
    firstPart separator text = text := by
  rw [firstPart, undivided, List.headD_cons]

/-- The first position at which a text is cut is that of a separator outside of brackets, and there is
none in front of it. -/
theorem exists_of_cuts {depth : Int} {spots : List Spot} {cut : Nat} {more : List Nat}
    (cutting : cuts separator depth spots = cut :: more) :
    ∃ before s after, spots = before ++ s :: after ∧ s.pos = cut ∧ depth + nesting before = 0 ∧
      [s.char] = separator ∧ cuts separator depth before = [] := by
  induction spots generalizing depth with
  | nil => cases cutting
  | cons s rest ih =>
      rw [cuts_cons] at cutting
      split at cutting
      next hcut =>
          obtain ⟨rfl, -⟩ := List.cons.inj cutting
          exact ⟨[], s, rest, rfl, rfl, by rw [hcut.2.1, nesting_nil, Int.add_zero], hcut.1, rfl⟩
      next hcut =>
          obtain ⟨before, t, after, rfl, hpos, hdepth, hchar, hnone⟩ := ih cutting
          refine ⟨s :: before, t, after, rfl, hpos, ?_, hchar, ?_⟩
          · rw [nesting_cons, ← Int.add_assoc, hdepth]
          · rw [cuts_cons, if_neg hcut, hnone, List.nil_append]

/-- In front of a code character a text has the code characters in front of that. -/
theorem items_take {text : List Char} {before after : List Spot} {s : Spot}
    (parts : (lex text).spots = before ++ s :: after) :
    (lex (text.take s.pos)).items = before.map Spot.item ∧ (lex (text.take s.pos)).unclosed = none := by
  have hmember : (s.pos, s.char) ∈ (lexAt text 0).items :=
    List.mem_map_of_mem (f := Spot.item) (by rw [lexAt_zero, parts]; simp)
  have hsorted := pairwise_lexAt text 0
  rw [lexAt_zero, parts, List.pairwise_append, List.pairwise_cons] at hsorted
  obtain ⟨hfront, -, hclosed, -⟩ := items_cut hmember
  refine ⟨?_, hclosed⟩
  rw [← lexAt_zero, hfront, Lexed.items, lexAt_zero, parts, List.map_append, List.filter_append,
    List.filter_eq_self.mpr, List.filter_eq_nil_iff.mpr, List.append_nil]
  · intro i hi
    obtain ⟨t, ht, rfl⟩ := List.mem_map.mp hi
    rw [decide_eq_true_iff, Nat.not_lt]
    rcases List.mem_cons.mp ht with rfl | ht
    · exact Nat.le_refl _
    · exact Nat.le_of_lt (hsorted.2.1.1 t ht)
  · intro i hi
    obtain ⟨t, ht, rfl⟩ := List.mem_map.mp hi
    exact decide_eq_true (hsorted.2.2 t ht s List.mem_cons_self)

/-- A text without separators is its only part, and another one is cut at its first separator, which stands
outside of brackets. -/
theorem undivided_or_cut (separator text : List Char) :
    Undivided separator text ∨
      ∃ before s after next parts, (lex text).spots = before ++ s :: after ∧ nesting before = 0 ∧
        topParts separator text = text.take s.pos :: next :: parts := by
  cases hcuts : cuts separator 0 (lex text).spots with
  | nil =>
      left
      rw [Undivided, topParts, hcuts, partsBetween_nil, List.drop_zero]
  | cons cut more =>
      right
      obtain ⟨before, s, after, hspots, rfl, hdepth, -⟩ := exists_of_cuts hcuts
      rw [Int.zero_add] at hdepth
      have hslice : slice text 0 s.pos = text.take s.pos := by rw [slice, List.drop_zero, Nat.sub_zero]
      cases hparts : partsBetween text (s.pos + 1) more with
      | nil => exact absurd hparts (partsBetween_ne_nil _ _ _)
      | cons next parts =>
          refine ⟨before, s, after, next, parts, hspots, hdepth, ?_⟩
          rw [topParts, hcuts, partsBetween, hslice, hparts]

/-- In the first part of a text nothing is left open. -/
theorem unclosed_firstPart {text : List Char} (closed : (lex text).unclosed = none) :
    (lex (firstPart separator text)).unclosed = none := by
  rcases undivided_or_cut separator text with hwhole | ⟨before, s, after, next, parts, hspots, -, hparts⟩
  · rwa [hwhole.firstPart_eq]
  · rw [firstPart, hparts, List.headD_cons]
    exact (items_take hspots).2

theorem Settled.firstPart {text : List Char} (settled : Settled text) :
    Settled (firstPart separator text) := by
  refine ⟨unclosed_firstPart settled.closed, ?_, ?_⟩
  · obtain ⟨n, hfirst⟩ : ∃ n, CallableKinds.firstPart separator text = text.take n := by
      rcases undivided_or_cut separator text with hwhole | ⟨-, s, -, next, parts, -, -, hparts⟩
      · exact ⟨text.length, by rw [hwhole.firstPart_eq, List.take_length]⟩
      · exact ⟨s.pos, by rw [CallableKinds.firstPart, hparts, List.headD_cons]⟩
    rw [hfirst]
    exact CommentFree.take settled.commentFree n
  · rcases undivided_or_cut separator text with
      hwhole | ⟨before, s, after, next, parts, hspots, hdepth, hparts⟩
    · rw [hwhole.firstPart_eq]
      exact settled.balanced
    · rw [CallableKinds.firstPart, hparts, List.headD_cons, nesting_eq_sum_items, ← Lexed.items,
        (items_take hspots).1, ← nesting_eq_sum_items, hdepth]

/-- The first part of two texts that stand one behind the other goes over into the second one if there are
no separators in the first one. -/
theorem firstPart_append (precedes : Precedes a b) (balanced : nesting (lex a).spots = 0) :
    firstPart separator (a ++ b) =
      if Undivided separator a then a ++ firstPart separator b else firstPart separator a := by
  rw [firstPart, topParts_append precedes balanced, firstPart, firstPart]
  rcases undivided_or_cut separator a with hwhole | ⟨-, s, -, next, parts, -, -, hparts⟩
  · rw [if_pos hwhole, hwhole, glue]
    cases hb : topParts separator b with
    | nil => exact absurd hb (topParts_ne_nil _ _)
    | cons first parts => rfl
  · have hdivided : ¬ Undivided separator a := by
      rw [Undivided, hparts]
      exact fun h => List.cons_ne_nil _ _ (List.cons.inj h).2
    rw [if_neg hdivided, hparts]
    rfl

theorem undivided_append_iff (precedes : Precedes a b) (balanced : nesting (lex a).spots = 0)
    (undivided : Undivided separator a) : Undivided separator (a ++ b) ↔ Undivided separator b := by
  rw [Undivided, Undivided, topParts_append precedes balanced, undivided, glue]
  cases hb : topParts separator b with
  | nil => exact absurd hb (topParts_ne_nil _ _)
  | cons first parts => simp

end CallableKinds

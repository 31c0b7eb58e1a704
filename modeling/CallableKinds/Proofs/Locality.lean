import CallableKinds.Proofs.Lexemes
import CallableKinds.Proofs.Lexing
import Mathlib.Data.List.Nodup

/-!
# Locality of lexing

A text may be cut at any place where a piece of it begins: lexing the part in front of the cut gives
the pieces in front of it, and lexing the part behind it gives the pieces from there on, whether the
part is read in its place or as a text of its own. So nothing that a lexer looks at reaches over such
a place: neither the look ahead for three quotes, nor the jump over the character behind a backslash,
nor the search for the end of a comment.
-/

namespace CallableKinds

/-! ### Pieces at their places -/

namespace Piece

/-- The position at which a piece begins. -/
def start : Piece → Nat
  | code spot => spot.pos
  | literal pos _ => pos
  | comment pos _ => pos

/-- The piece without the surroundings that a code character is kept with. -/
def bare : Piece → Piece
  | code spot => code ⟨spot.pos, none, spot.char, []⟩
  | piece => piece

/-- The piece so many characters further on. -/
def later (distance : Nat) : Piece → Piece
  | code spot => code { spot with pos := spot.pos + distance }
  | literal pos length => literal (pos + distance) length
  | comment pos length => comment (pos + distance) length

@[simp] theorem start_bare (p : Piece) : p.bare.start = p.start := by
  cases p <;> rfl

@[simp] theorem comment?_bare (p : Piece) : p.bare.comment? = p.comment? := by
  cases p <;> rfl

theorem comment?_later_eq_none_iff (distance : Nat) (p : Piece) :
    (p.later distance).comment? = none ↔ p.comment? = none := by
  cases p <;> simp [later, comment?]

end Piece

namespace Lexed

/-- The pieces with others in front. -/
def prepend (earlier : List Piece) (l : Lexed) : Lexed := { l with pieces := earlier ++ l.pieces }

theorem spots_prepend (earlier : List Piece) (l : Lexed) :
    (l.prepend earlier).spots = earlier.filterMap Piece.spot? ++ l.spots := List.filterMap_append

theorem prepend_prepend (first second : List Piece) (l : Lexed) :
    (l.prepend second).prepend first = l.prepend (first ++ second) := by
  rw [prepend, prepend, prepend, List.append_assoc]

/-- The pieces without the surroundings of the code characters. -/
def outline (l : Lexed) : List Piece := l.pieces.map Piece.bare

/-- A piece begins at a position. -/
def BeginsAt (l : Lexed) (pos : Nat) : Prop := ∃ p ∈ l.pieces, p.start = pos

end Lexed

namespace Piece

/-- The piece that a lexeme is, where the spot is its first character. -/
def ofLexeme (spot : Spot) : Lexeme → Piece
  | .literal n => literal spot.pos n
  | .comment n => comment spot.pos n
  | _ => code spot

@[simp] theorem start_ofLexeme (spot : Spot) (l : Lexeme) : (ofLexeme spot l).start = spot.pos := by
  cases l <;> rfl

@[simp] theorem bare_ofLexeme (spot : Spot) (l : Lexeme) :
    (ofLexeme spot l).bare = ofLexeme ⟨spot.pos, none, spot.char, []⟩ l := by
  cases l <;> rfl

end Piece

/-- A lexeme that is closed is a piece, and the text behind it is lexed on. -/
theorem lexFrom_zero_cons {c : Char} {rest : List Char}
    (closed : ∀ delimiter, lexeme c rest ≠ .unclosed delimiter) (pos : Nat) (before : Option Char) :
    lexFrom 0 pos before (c :: rest) =
      (lexFrom (lexeme c rest).taken (pos + 1) (some c) rest).cons
        (.ofLexeme ⟨pos, before, c, rest⟩ (lexeme c rest)) := by
  rw [lexFrom]
  cases hlexeme : lexeme c rest with
  | unclosed delimiter => exact absurd hlexeme (closed delimiter)
  | _ => rfl

/-- At a literal that is not closed lexing ends. -/
theorem lexFrom_of_unclosed {c : Char} {rest delimiter : List Char}
    (unclosed : lexeme c rest = .unclosed delimiter) (pos : Nat) (before : Option Char) :
    lexFrom 0 pos before (c :: rest) = ⟨[], some delimiter⟩ := by
  rw [lexFrom, unclosed]

theorem start_of_mem_lexFrom {skip pos : Nat} {before : Option Char} {text : List Char}
    {p : Piece} (member : p ∈ (lexFrom skip pos before text).pieces) :
    pos + skip ≤ p.start ∧ p.start < pos + text.length := by
  induction text generalizing skip pos before with
  | nil =>
      cases skip <;> cases member
  | cons c rest ih =>
      rw [List.length_cons]
      cases skip with
      | succ skip =>
          have := ih member
          omega
      | zero =>
          rcases (lexeme c rest).closed_or_unclosed with hclosed | ⟨delimiter, hunclosed⟩
          · rw [lexFrom_zero_cons hclosed, Lexed.pieces_cons, List.mem_cons] at member
            rcases member with rfl | member
            · simp
            · have := ih member
              omega
          · rw [lexFrom_of_unclosed hunclosed] at member
            cases member

/-- A text that is cut where a piece of it begins is lexed part by part. -/
theorem lexFrom_append {skip pos : Nat} {before : Option Char} {front back : List Char}
    (begins : (lexFrom skip pos before (front ++ back)).BeginsAt (pos + front.length)) :
    ∃ earlier,
      lexFrom skip pos before (front ++ back) =
        (lexFrom 0 (pos + front.length) (front.getLast?.or before) back).prepend earlier ∧
      (lexFrom skip pos before front).outline = earlier.map Piece.bare ∧
      (lexFrom skip pos before front).unclosed = none := by
  obtain ⟨p, member, hp⟩ := begins
  induction front generalizing skip pos before with
  | nil =>
      have hle := (start_of_mem_lexFrom member).1
      obtain rfl : skip = 0 := by
        simp only [List.length_nil] at hp
        omega
      exact ⟨[], by cases back <;> rfl, rfl, rfl⟩
  | cons c front ih =>
      have hbefore : (c :: front).getLast?.or before = front.getLast?.or (some c) := by
        cases front <;> simp [List.getLast?_cons]
      have hpos : pos + (c :: front).length = pos + 1 + front.length := by
        simp only [List.length_cons]
        omega
      rw [hbefore, hpos]
      rw [hpos] at hp
      cases skip with
      | succ skip =>
          exact ih member hp
      | zero =>
          rw [List.cons_append] at member ⊢
          rcases (lexeme c (front ++ back)).closed_or_unclosed with hclosed | ⟨delimiter, hunclosed⟩
          · rw [lexFrom_zero_cons hclosed] at member ⊢
            rw [Lexed.pieces_cons, List.mem_cons] at member
            rcases member with rfl | member
            · rw [Piece.start_ofLexeme] at hp
              dsimp only at hp
              omega
            · -- The next piece begins behind the lexeme, so the lexeme fits into the front.
              have hfits := (start_of_mem_lexFrom member).1
              have hfront := lexeme_front hclosed (by omega)
              obtain ⟨earlier, hwhole, houtline, hcomplete⟩ := ih member hp
              refine ⟨.ofLexeme ⟨pos, before, c, front ++ back⟩ (lexeme c (front ++ back)) :: earlier,
                ?_, ?_, ?_⟩
              · rw [hwhole]
                rfl
              · rw [lexFrom_zero_cons (hfront ▸ hclosed), hfront, Lexed.outline, Lexed.pieces_cons,
                  List.map_cons, List.map_cons, Piece.bare_ofLexeme, Piece.bare_ofLexeme]
                exact congrArg _ houtline
              · rw [lexFrom_zero_cons (hfront ▸ hclosed), hfront]
                exact hcomplete
          · rw [lexFrom_of_unclosed hunclosed] at member
            cases member

/-- Where a text stands decides nothing but the positions of its pieces. -/
theorem lexFrom_later (skip pos distance : Nat) (before before' : Option Char)
    (text : List Char) :
    (lexFrom skip (pos + distance) before' text).outline =
        (lexFrom skip pos before text).outline.map (Piece.later distance) ∧
      (lexFrom skip (pos + distance) before' text).unclosed =
        (lexFrom skip pos before text).unclosed := by
  induction text generalizing skip pos before before' with
  | nil =>
      cases skip <;> exact ⟨rfl, rfl⟩
  | cons c rest ih =>
      have hpos : pos + distance + 1 = pos + 1 + distance := Nat.add_right_comm ..
      cases skip with
      | succ skip =>
          rw [lexFrom, lexFrom, hpos]
          exact ih ..
      | zero =>
          rcases (lexeme c rest).closed_or_unclosed with hclosed | ⟨delimiter, hunclosed⟩
          · obtain ⟨houtline, hunclosed⟩ := ih (lexeme c rest).taken (pos + 1) (some c) (some c)
            rw [lexFrom_zero_cons hclosed, lexFrom_zero_cons hclosed, hpos]
            refine ⟨?_, hunclosed⟩
            have hpiece : Piece.later distance (.ofLexeme ⟨pos, none, c, []⟩ (lexeme c rest)) =
                .ofLexeme ⟨pos + distance, none, c, []⟩ (lexeme c rest) := by
              cases lexeme c rest <;> rfl
            rw [Lexed.outline, Lexed.outline, Lexed.pieces_cons, Lexed.pieces_cons, List.map_cons,
              List.map_cons, List.map_cons, Piece.bare_ofLexeme, Piece.bare_ofLexeme, hpiece]
            exact congrArg _ houtline
          · rw [lexFrom_of_unclosed hunclosed, lexFrom_of_unclosed hunclosed]
            exact ⟨rfl, rfl⟩

theorem getLast?_or_charBefore {text : List Char} {start k : Nat} (le : start ≤ k)
    (fits : k ≤ text.length) :
    ((text.drop start).take (k - start)).getLast?.or (charBefore text start) =
      charBefore text k := by
  rcases Nat.eq_or_lt_of_le le with rfl | hlt
  · simp
  · obtain ⟨n, rfl⟩ := Nat.exists_eq_add_of_lt hlt
    have hn : start + n + 1 - start = n + 1 := by omega
    rw [hn, List.getLast?_take, charBefore_succ]
    have hthere : (text.drop start)[n]? = some text[start + n] := by
      rw [List.getElem?_drop, List.getElem?_eq_getElem]
    simp [hthere]

theorem charBefore_take {text : List Char} {start k : Nat} (le : start ≤ k) :
    charBefore (text.take k) start = charBefore text start := by
  cases start with
  | zero => rfl
  | succ i => rw [charBefore_succ, charBefore_succ, List.getElem?_take_of_lt le]

/-- A text that is cut where a piece of it begins is lexed part by part, each in its place. -/
theorem lexAt_cut {text : List Char} {start k : Nat} (begins : (lexAt text start).BeginsAt k) :
    ∃ earlier,
      lexAt text start = (lexAt text k).prepend earlier ∧
      (lexAt (text.take k) start).outline = earlier.map Piece.bare ∧
      (lexAt (text.take k) start).unclosed = none := by
  obtain ⟨p, member, rfl⟩ := begins
  have hstart := start_of_mem_lexFrom member
  rw [List.length_drop] at hstart
  have hle : start ≤ p.start := by omega
  have hlt : p.start < text.length := by omega
  have hparts : (text.drop start).take (p.start - start) ++ text.drop p.start =
      text.drop start := slice_append_drop text hle
  have hlength : start + ((text.drop start).take (p.start - start)).length = p.start := by
    rw [List.length_take, List.length_drop]
    omega
  have hmember := member
  rw [lexAt, ← hparts] at hmember
  obtain ⟨earlier, hwhole, hfront⟩ := lexFrom_append ⟨p, hmember, hlength.symm⟩
  rw [hlength, getLast?_or_charBefore hle (Nat.le_of_lt hlt)] at hwhole
  refine ⟨earlier, ?_, ?_⟩
  · rw [lexAt, ← hparts, hwhole]
    rfl
  · rw [lexAt, charBefore_take hle, List.drop_take]
    exact hfront

/-! ### Lexing on in its place -/

section InPlace

variable {text : List Char} {start : Nat}

/-- Behind the characters that belong to a piece a text is lexed in its place. -/
theorem lexFrom_eq_lexAt {rest : List Char} {skip pos : Nat} {before : Option Char}
    (hrest : text.drop pos = rest) (hbefore : before = charBefore text pos)
    (fits : skip ≤ rest.length) : lexFrom skip pos before rest = lexAt text (pos + skip) := by
  induction rest generalizing skip pos before with
  | nil =>
      obtain rfl : skip = 0 := Nat.le_zero.mp fits
      rw [lexAt, Nat.add_zero, hrest, hbefore]
  | cons c rest ih =>
      cases skip with
      | zero => rw [lexAt, Nat.add_zero, hrest, hbefore]
      | succ skip =>
          have hpos : pos + (skip + 1) = pos + 1 + skip := by omega
          rw [lexFrom, hpos]
          exact ih (drop_succ_of_drop_eq_cons hrest) (charBefore_succ_of_drop_eq_cons hrest)
            (Nat.le_of_succ_le_succ fits)

/-- A text is lexed piece by piece. -/
theorem lexAt_of_drop {rest : List Char} {c : Char} (hrest : text.drop start = c :: rest)
    (closed : ∀ delimiter, lexeme c rest ≠ .unclosed delimiter) :
    lexAt text start = (lexAt text (start + 1 + (lexeme c rest).taken)).cons
      (.ofLexeme ⟨start, charBefore text start, c, rest⟩ (lexeme c rest)) := by
  rw [lexAt, hrest, lexFrom_zero_cons closed]
  rw [lexFrom_eq_lexAt (drop_succ_of_drop_eq_cons hrest) (charBefore_succ_of_drop_eq_cons hrest)
    (taken_lexeme_le c rest)]

theorem lexAt_of_character {rest : List Char} {c : Char} (hrest : text.drop start = c :: rest)
    (code : isQuote c = false ∧ c ≠ '#') :
    lexAt text start =
      (lexAt text (start + 1)).cons (.code ⟨start, charBefore text start, c, rest⟩) := by
  have hcode : lexeme c rest = .character := lexeme_eq_character_iff.mpr code
  rw [lexAt_of_drop hrest (by simp [hcode]), hcode]
  rfl

/-- Each piece is the lexeme that stands at its position, and behind it the text is lexed on. -/
theorem exists_of_mem_lexAt {p : Piece} (member : p ∈ (lexAt text start).pieces) :
    ∃ earlier c rest, text.drop p.start = c :: rest ∧
      p = .ofLexeme ⟨p.start, charBefore text p.start, c, rest⟩ (lexeme c rest) ∧
      lexAt text start =
        ((lexAt text (p.start + 1 + (lexeme c rest).taken)).cons p).prepend earlier := by
  induction hleft : text.length - start using Nat.strongRecOn generalizing start with
  | ind left ih =>
      cases hrest : text.drop start with
      | nil =>
          rw [lexAt, hrest] at member
          cases member
      | cons c rest =>
          have hlt : start < text.length := by
            have := congrArg List.length hrest
            rw [List.length_drop, List.length_cons] at this
            omega
          rcases (lexeme c rest).closed_or_unclosed with hclosed | ⟨delimiter, hunclosed⟩
          · have hlex := lexAt_of_drop hrest hclosed
            rw [hlex, Lexed.pieces_cons, List.mem_cons] at member
            rcases member with rfl | member
            · rw [Piece.start_ofLexeme]
              exact ⟨[], c, rest, hrest, rfl, hlex⟩
            · obtain ⟨earlier, d, more, hdrop, hp, hlater⟩ := ih _ (by omega) member rfl
              refine ⟨.ofLexeme ⟨start, charBefore text start, c, rest⟩ (lexeme c rest) :: earlier, d, more,
                hdrop, hp, ?_⟩
              rw [hlex, hlater]
              rfl
          · rw [lexAt, hrest, lexFrom_of_unclosed hunclosed] at member
            cases member

/-- Pieces begin one behind the other. -/
theorem pairwise_start_lexFrom (skip pos : Nat) (before : Option Char) (text : List Char) :
    (lexFrom skip pos before text).pieces.Pairwise fun p q => p.start < q.start := by
  induction text generalizing skip pos before with
  | nil => cases skip <;> exact .nil
  | cons c rest ih =>
      cases skip with
      | succ skip => exact ih ..
      | zero =>
          rcases (lexeme c rest).closed_or_unclosed with hclosed | ⟨delimiter, hunclosed⟩
          · rw [lexFrom_zero_cons hclosed]
            refine .cons (fun q member => ?_) (ih ..)
            have hle := (start_of_mem_lexFrom member).1
            rw [Piece.start_ofLexeme]
            dsimp only
            omega
          · rw [lexFrom_of_unclosed hunclosed]
            exact .nil

/-- No two pieces begin at the same place. -/
theorem eq_of_start_eq {p q : Piece} (hp : p ∈ (lexAt text start).pieces)
    (hq : q ∈ (lexAt text start).pieces) (same : p.start = q.start) : p = q := by
  have hnodup : ((lexAt text start).pieces.map Piece.start).Nodup := by
    rw [List.Nodup, List.pairwise_map]
    exact (pairwise_start_lexFrom ..).imp Nat.ne_of_lt
  exact List.inj_on_of_nodup_map hnodup hp hq same

end InPlace

/-! ### Code characters -/

/-- A code character and its position. -/
def Spot.item (s : Spot) : Nat × Char := (s.pos, s.char)

/-- The code characters of a text from a position on, with their positions. -/
def codeItems (text : List Char) (start : Nat) : Except Fault (List (Nat × Char)) :=
  (lexAt text start).complete.map (List.map Spot.item)

namespace Piece

/-- The code character of a piece, with its position. -/
def item? (p : Piece) : Option (Nat × Char) := p.spot?.map Spot.item

@[simp] theorem item?_bare (p : Piece) : p.bare.item? = p.item? := by
  cases p <;> rfl

theorem item?_later (distance : Nat) (p : Piece) :
    (p.later distance).item? = p.item?.map fun i => (i.1 + distance, i.2) := by
  cases p <;> rfl

end Piece

namespace Lexed

/-- The code characters with their positions. -/
def items (l : Lexed) : List (Nat × Char) := l.spots.map Spot.item

theorem items_eq_filterMap (l : Lexed) : l.items = l.pieces.filterMap Piece.item? :=
  List.map_filterMap ..

theorem items_eq_filterMap_outline (l : Lexed) : l.items = l.outline.filterMap Piece.item? := by
  simp only [items_eq_filterMap, outline, List.filterMap_map, Function.comp_def, Piece.item?_bare]

end Lexed

theorem codeItems_eq_ok_iff {text : List Char} {start : Nat} {items : List (Nat × Char)} :
    codeItems text start = .ok items ↔
      (lexAt text start).unclosed = none ∧ (lexAt text start).items = items := by
  unfold codeItems Lexed.complete Lexed.finish
  cases (lexAt text start).unclosed with
  | none => simp [Except.map, Lexed.items]
  | some delimiter => simp [Except.map]

theorem codeItems_eq_error_iff {text : List Char} {start : Nat} {fault : Fault} :
    codeItems text start = .error fault ↔
      ∃ delimiter, (lexAt text start).unclosed = some delimiter ∧
        fault = .unmatchedDelimiter delimiter := by
  unfold codeItems Lexed.complete Lexed.finish
  cases (lexAt text start).unclosed with
  | none => simp [Except.map]
  | some delimiter => simp [Except.map, eq_comm]

/-- Lexing a text behind a cut gives the same, as a text of its own, but for the positions. -/
theorem lex_drop (text : List Char) (k : Nat) :
    (lexAt text k).items = (lex (text.drop k)).items.map (fun i => (i.1 + k, i.2)) ∧
      (lexAt text k).unclosed = (lex (text.drop k)).unclosed := by
  obtain ⟨houtline, hunclosed⟩ :=
    lexFrom_later 0 0 k none (charBefore text k) (text.drop k)
  rw [Nat.zero_add] at houtline hunclosed
  refine ⟨?_, hunclosed⟩
  rw [Lexed.items_eq_filterMap_outline, Lexed.items_eq_filterMap_outline, lexAt, lex, houtline]
  simp only [List.filterMap_map, List.map_filterMap, Function.comp_def, Piece.item?_later]

/-! ### What stands between code characters -/

/-- From one position up to another a text consists of literals and comments. -/
inductive Tiled (text : List Char) : Nat → Nat → Prop where
  | done (i : Nat) : Tiled text i i
  | step {i j k : Nat} (lexeme : lexemeEnd text i = .ok (some j)) (rest : Tiled text j k) :
    Tiled text i k

/-- From a position on there are literals and comments only between the given characters, in front
of them and behind them up to the end of the text, and none begins at such a character. -/
def GapsTiled (text : List Char) : Nat → List (Nat × Char) → Prop
  | start, [] => Tiled text start (max start text.length)
  | start, (k, c) :: rest =>
    Tiled text start k ∧ lexemeEnd text k = .ok none ∧ text[k]? = some c ∧
      GapsTiled text (k + 1) rest

theorem GapsTiled.step {text : List Char} {i j : Nat} {items : List (Nat × Char)}
    (lexeme : lexemeEnd text i = .ok (some j)) (hi : i ≤ text.length) (hj : j ≤ text.length)
    (rest : GapsTiled text j items) : GapsTiled text i items := by
  cases items with
  | nil =>
      rw [GapsTiled, Nat.max_eq_right hj] at rest
      rw [GapsTiled, Nat.max_eq_right hi]
      exact .step lexeme rest
  | cons item items =>
      exact ⟨.step lexeme rest.1, rest.2⟩

/-- The end of a lexeme that is closed, and what is no literal and no comment is a code character. -/
theorem lexemeEnd_of_drop {text rest : List Char} {pos : Nat} {c : Char}
    (hrest : text.drop pos = c :: rest)
    (closed : ∀ delimiter, lexeme c rest ≠ .unclosed delimiter) :
    lexemeEnd text pos = .ok none ∧ lexeme c rest = .character ∨
      lexemeEnd text pos = .ok (some (pos + 1 + (lexeme c rest).taken)) ∧
        ∀ spot, (Piece.ofLexeme spot (lexeme c rest)).item? = none := by
  rw [lexemeEnd, hrest]
  dsimp only
  cases hlexeme : lexeme c rest with
  | character => exact .inl ⟨rfl, rfl⟩
  | literal n =>
      have hpos : 0 < n := by
        rcases literalLength_eq_ok_iff.mp (lexeme_eq_literal_iff.mp hlexeme).2 with
          ⟨_, _, -, -, rfl⟩ | ⟨-, _, -, rfl⟩ <;> omega
      refine .inr ⟨?_, fun _ => rfl⟩
      dsimp only [Lexeme.taken]
      rw [Nat.add_assoc, Nat.add_sub_cancel' hpos]
  | comment n =>
      obtain ⟨-, rfl⟩ := lexeme_eq_comment_iff.mp hlexeme
      refine .inr ⟨?_, fun _ => rfl⟩
      dsimp only [Lexeme.taken]
      rw [Nat.add_assoc, Nat.add_comm 1]
      rfl
  | unclosed delimiter => exact absurd hlexeme (closed delimiter)

theorem gapsTiled_lexFrom {text rest : List Char} {skip pos : Nat} {before : Option Char}
    (hrest : text.drop pos = rest) (fits : skip ≤ rest.length)
    (complete : (lexFrom skip pos before rest).unclosed = none) :
    GapsTiled text (pos + skip) (lexFrom skip pos before rest).items := by
  induction rest generalizing skip pos before with
  | nil =>
      obtain rfl : skip = 0 := Nat.le_zero.mp fits
      have hend : text.length ≤ pos := List.drop_eq_nil_iff.mp hrest
      change Tiled text pos (max pos text.length)
      rw [Nat.max_eq_left hend]
      exact .done pos
  | cons c rest ih =>
      have hafter := drop_succ_of_drop_eq_cons hrest
      have hlength : pos + 1 + rest.length = text.length := by
        have := congrArg List.length hrest
        rw [List.length_drop, List.length_cons] at this
        omega
      cases skip with
      | succ skip =>
          have hpos : pos + (skip + 1) = pos + 1 + skip := by omega
          rw [hpos]
          exact ih hafter (Nat.le_of_succ_le_succ fits) complete
      | zero =>
          rcases (lexeme c rest).closed_or_unclosed with hclosed | ⟨delimiter, hunclosed⟩
          · rw [lexFrom_zero_cons hclosed] at complete ⊢
            have htaken := taken_lexeme_le c rest
            have hlater := ih hafter htaken complete
            rcases lexemeEnd_of_drop hrest hclosed with ⟨hend, hcode⟩ | ⟨hend, hnone⟩
            · rw [hcode] at hlater ⊢
              exact ⟨.done pos, hend, getElem?_of_drop_eq_cons hrest, hlater⟩
            · refine .step hend (by omega) (by omega) ?_
              rw [Lexed.items_eq_filterMap, Lexed.pieces_cons,
                List.filterMap_cons_none (hnone _), ← Lexed.items_eq_filterMap]
              exact hlater
          · rw [lexFrom_of_unclosed hunclosed] at complete
            cases complete

/-! ### Cutting a text at a code character -/

theorem beginsAt_of_mem_items {l : Lexed} {item : Nat × Char} (member : item ∈ l.items) :
    l.BeginsAt item.1 := by
  rw [Lexed.items_eq_filterMap, List.mem_filterMap] at member
  obtain ⟨p, hp, hitem⟩ := member
  refine ⟨p, hp, ?_⟩
  cases p with
  | code spot =>
      cases hitem
      rfl
  | _ => cases hitem

theorem le_fst_of_mem_items_lexAt {text : List Char} {start : Nat} {item : Nat × Char}
    (member : item ∈ (lexAt text start).items) : start ≤ item.1 ∧ item.1 < text.length := by
  obtain ⟨s, hs, rfl⟩ := List.mem_map.mp member
  obtain ⟨hle, hstands⟩ := standsIn_of_mem_lexAt hs
  exact ⟨hle, (List.getElem?_eq_some_iff.mp hstands.getElem?).1⟩

/-- The code characters of the two parts of a text that is cut at one of them. -/
theorem items_cut {text : List Char} {start k : Nat} {c : Char}
    (member : (k, c) ∈ (lexAt text start).items) :
    (lexAt (text.take k) start).items = (lexAt text start).items.filter (·.1 < k) ∧
      (lexAt text k).items = (lexAt text start).items.filter (k ≤ ·.1) ∧
      (lexAt (text.take k) start).unclosed = none ∧
      (lexAt text k).unclosed = (lexAt text start).unclosed := by
  obtain ⟨earlier, hwhole, houtline, hcomplete⟩ := lexAt_cut (beginsAt_of_mem_items member)
  have hfront : (lexAt (text.take k) start).items = earlier.filterMap Piece.item? := by
    rw [Lexed.items_eq_filterMap_outline, houtline, List.filterMap_map]
    simp only [Function.comp_def, Piece.item?_bare]
  have hitems : (lexAt text start).items =
      (lexAt (text.take k) start).items ++ (lexAt text k).items := by
    rw [hfront, hwhole, Lexed.items_eq_filterMap, Lexed.items_eq_filterMap, ← List.filterMap_append]
    rfl
  have hbefore : ∀ i ∈ (lexAt (text.take k) start).items, i.1 < k := fun i hi =>
    Nat.lt_of_lt_of_le (le_fst_of_mem_items_lexAt hi).2 (List.length_take_le k text)
  have hbehind : ∀ i ∈ (lexAt text k).items, k ≤ i.1 := fun i hi =>
    (le_fst_of_mem_items_lexAt hi).1
  refine ⟨?_, ?_, hcomplete, (congrArg Lexed.unclosed hwhole).symm⟩
  · rw [hitems, List.filter_append, List.filter_eq_self.mpr fun i hi => by simpa using hbefore i hi,
      List.filter_eq_nil_iff.mpr fun i hi => by simpa using hbehind i hi, List.append_nil]
  · rw [hitems, List.filter_append,
      List.filter_eq_nil_iff.mpr fun i hi => by simpa using hbefore i hi,
      List.filter_eq_self.mpr fun i hi => by simpa using hbehind i hi, List.nil_append]

/-- The code characters of a text increase in position, and between them there is nothing but
literals and comments. A text may be cut in front of any of them: the part in front of the cut has
those before the cut, and the part behind it has the others, in its place as well as on its own. If
lexing fails, it fails in the same way from every code character on that was found before. -/
theorem codeItems_local (text : List Char) (start : Nat) :
    (∀ items, codeItems text start = .ok items →
      items.Pairwise (·.1 < ·.1) ∧ GapsTiled text start items ∧
      ∀ k ∈ items.map Prod.fst,
        codeItems (text.take k) start = .ok (items.filter (·.1 < k)) ∧
        codeItems text k = .ok (items.filter (k ≤ ·.1)) ∧
        (codeItems (text.drop k) 0).map (List.map fun i => (i.1 + k, i.2)) =
          .ok (items.filter (k ≤ ·.1))) ∧
    ∀ fault, codeItems text start = .error fault →
      ∀ k ∈ (lexAt text start).items.map Prod.fst, codeItems (text.drop k) 0 = .error fault := by
  constructor
  · intro items found
    obtain ⟨hcomplete, rfl⟩ := codeItems_eq_ok_iff.mp found
    refine ⟨?_, ?_, ?_⟩
    · exact List.pairwise_map.mpr (pairwise_lexAt text start)
    · exact gapsTiled_lexFrom rfl (Nat.zero_le _) hcomplete
    · intro k hk
      obtain ⟨⟨k, c⟩, member, rfl⟩ := List.mem_map.mp hk
      obtain ⟨hfront, hback, hfrontComplete, hbackComplete⟩ := items_cut member
      obtain ⟨hmoved, hmovedComplete⟩ := lex_drop text k
      refine ⟨codeItems_eq_ok_iff.mpr ⟨hfrontComplete, hfront⟩,
        codeItems_eq_ok_iff.mpr ⟨hbackComplete.trans hcomplete, hback⟩, ?_⟩
      have hown : codeItems (text.drop k) 0 = .ok (lex (text.drop k)).items :=
        codeItems_eq_ok_iff.mpr ⟨hmovedComplete.symm.trans (hbackComplete.trans hcomplete), rfl⟩
      rw [hown, ← hback, hmoved]
      rfl
  · intro fault failed k hk
    obtain ⟨⟨k, c⟩, member, rfl⟩ := List.mem_map.mp hk
    obtain ⟨delimiter, hunclosed, rfl⟩ := codeItems_eq_error_iff.mp failed
    obtain ⟨-, -, -, hback⟩ := items_cut member
    exact codeItems_eq_error_iff.mpr
      ⟨delimiter, (lex_drop text k).2.symm.trans (hback.trans hunclosed), rfl⟩

/-- A text with an empty literal, a comment and a literal that holds an escaped quote, and a text with
a literal that is not closed. -/
theorem codeItems_local_mixed :
    let text := "''a#'\n'\\''b".toList
    let broken := "a''b'c".toList
    (codeItems text 0 = .ok [(2, 'a'), (5, '\n'), (10, 'b')] ∧
      codeItems (text.take 5) 0 = .ok [(2, 'a')] ∧
      codeItems text 5 = .ok [(5, '\n'), (10, 'b')] ∧
      GapsTiled text 0 [(2, 'a'), (5, '\n'), (10, 'b')]) ∧
    codeItems broken 0 = .error (.unmatchedDelimiter ['\'']) ∧
      codeItems (broken.drop 3) 0 = .error (.unmatchedDelimiter ['\'']) := by
  intro text broken
  have hcode : codeItems text 0 = .ok [(2, 'a'), (5, '\n'), (10, 'b')] := rfl
  have hbroken : codeItems broken 0 = .error (.unmatchedDelimiter ['\'']) := rfl
  obtain ⟨-, htiled, hcut⟩ := (codeItems_local text 0).1 _ hcode
  obtain ⟨hfront, hback, -⟩ := hcut 5 (by decide)
  have hrest := (codeItems_local broken 0).2 _ hbroken 3 (by decide)
  exact ⟨⟨hcode, hfront, hback, htiled⟩, hbroken, hrest⟩

end CallableKinds

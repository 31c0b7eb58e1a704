import CallableKinds.Proofs.Comments
import CallableKinds.Proofs.Joining

/-!
# Excerpts

A part of a text that stands apart from what is around it is read in the text as it is read on its own:
it has the same code characters, words begin at the same places, and lines end at the same places. So
an expression that begins in the part stops where it does in the part alone, or goes on behind the part
with what it has open there.
-/

namespace CallableKinds

variable {front middle back : List Char} {j : Nat}

/-! ### Words at the ends of a part -/

/-- No word goes over from the end of a text to the next text. -/
def SplitsNoWord (front back : List Char) : Prop :=
  ¬ (front.getLast?.any isWord = true ∧ back.head?.any isWord = true)

instance (front back : List Char) : Decidable (SplitsNoWord front back) :=
  inferInstanceAs (Decidable (¬ _))

/-- A part of a text stands apart if no word goes over its ends, it does not begin with a newline and
no quote follows. -/
structure StandsApart (front middle back : List Char) : Prop where
  left : SplitsNoWord front middle
  right : SplitsNoWord middle back
  newline : middle.head? ≠ some '\n'
  quote : ∀ q, isQuote q = true → back.head? ≠ some q

theorem letters_lambdaWord : ∀ c ∈ lambdaWord, isWord c = true := List.all_eq_true.mp rfl

theorem letters_classWord : ∀ c ∈ classWord, isWord c = true := List.all_eq_true.mp rfl

theorem letters_forWord : ∀ c ∈ forWord, isWord c = true := List.all_eq_true.mp rfl

theorem prefix_append_cases {word : List Char} (starts : word <+: middle ++ back) :
    word <+: middle ∨ ∃ more, more ≠ [] ∧ word = middle ++ more ∧ more <+: back := by
  rcases Nat.lt_or_ge middle.length word.length with hlt | hle
  · right
    obtain ⟨more, rfl⟩ := List.prefix_of_prefix_length_le (List.prefix_append middle back) starts
      (Nat.le_of_lt hlt)
    refine ⟨more, ?_, rfl, (List.prefix_append_right_inj middle).mp starts⟩
    rintro rfl
    simp at hlt
  · exact .inl (List.prefix_of_prefix_length_le starts (List.prefix_append middle back) hle)

/-- A word begins a text that is no word's part with the next one only if it begins the text alone. -/
theorem startsWord_append {word : List Char} {before before' : Option Char} (nonempty : middle ≠ [])
    (letters : ∀ c ∈ word, isWord c = true) (right : SplitsNoWord middle back)
    (same : word <+: middle → before.any isWord = before'.any isWord) :
    startsWord word before (middle ++ back) = startsWord word before' middle := by
  have hstarts : word <+: middle ++ back ↔ word <+: middle := by
    refine ⟨fun starts => ?_, fun starts => starts.trans (List.prefix_append middle back)⟩
    rcases prefix_append_cases starts with hword | ⟨more, hmore, rfl, hback⟩
    · exact hword
    · exfalso
      refine right ⟨?_, ?_⟩
      · rw [List.getLast?_eq_getLast_of_ne_nil nonempty]
        exact letters _ (List.mem_append_left more (List.getLast_mem nonempty))
      · obtain ⟨c, more, rfl⟩ := List.exists_cons_of_ne_nil hmore
        obtain ⟨rest, rfl⟩ := hback
        exact letters c (List.mem_append_right middle List.mem_cons_self)
  unfold startsWord
  by_cases hword : word <+: middle
  · have hbehind : ((middle ++ back).drop word.length).head?.any isWord =
        (middle.drop word.length).head?.any isWord := by
      obtain ⟨more, rfl⟩ := hword
      rw [List.append_assoc, List.drop_left, List.drop_left]
      cases more with
      | cons c more => rfl
      | nil =>
          rw [List.append_nil] at right nonempty
          rw [List.nil_append, List.head?_nil, Option.any_none, ← Bool.not_eq_true]
          intro hback
          refine right ⟨?_, hback⟩
          rw [List.getLast?_eq_getLast_of_ne_nil nonempty]
          exact letters _ (List.getLast_mem nonempty)
    rw [List.isPrefixOf_iff_prefix.mpr (hstarts.mpr hword), List.isPrefixOf_iff_prefix.mpr hword,
      hbehind, same hword]
  · rw [Bool.eq_false_iff.mpr (mt List.isPrefixOf_iff_prefix.mp (mt hstarts.mp hword)),
      Bool.eq_false_iff.mpr (mt List.isPrefixOf_iff_prefix.mp hword)]
    rfl

/-! ### Code characters of a part -/

theorem charBefore_append_length (front back : List Char) :
    charBefore (front ++ back) front.length = front.getLast? := by
  rw [List.getLast?_eq_getElem?]
  cases hlength : front.length with
  | zero => simp [charBefore, List.length_eq_zero_iff.mp hlength]
  | succ n =>
      rw [charBefore_succ, Nat.add_sub_cancel]
      exact List.getElem?_append_left (by omega)

section Drop

variable {text part rest : List Char} {i : Nat} (hdrop : text.drop i = part ++ rest)
include hdrop

theorem drop_add_length : text.drop (i + part.length) = rest := by
  rw [← List.drop_drop, hdrop, List.drop_left]

theorem slice_add_length : slice text i (i + part.length) = part := by
  rw [slice, hdrop, Nat.add_sub_cancel_left, List.take_left]

theorem charBefore_add_length :
    charBefore text (i + part.length) = part.getLast?.or (charBefore text i) := by
  cases part with
  | nil => rfl
  | cons c part =>
      have hlength := congrArg List.length hdrop
      rw [List.length_drop, List.length_append, List.length_cons] at hlength
      rw [← getLast?_or_charBefore (Nat.le_add_right i _) (by rw [List.length_cons]; omega), hdrop,
        Nat.add_sub_cancel_left, List.take_left]

theorem charBefore_of_getLast? {c : Char} (last : part.getLast? = some c) :
    charBefore text (i + part.length) = some c := by
  rw [charBefore_add_length hdrop, last, Option.some_or]

end Drop

namespace Spot

/-- A code character is read like another one so many characters in front of it: it begins the same
words and ends a line if that one does. -/
structure ReadsAs (distance : Nat) (s t : Spot) : Prop where
  pos : s.pos = t.pos + distance
  char : s.char = t.char
  endsLine : s.endsLine = t.endsLine
  startsWord : ∀ word, word ≠ [] → (∀ c ∈ word, isWord c = true) →
    s.startsWord word = t.startsWord word

/-- The code characters of a part that stands apart are read in the text as in the part alone. -/
theorem StandsIn.readsAs {s t : Spot} (apart : StandsApart front middle back)
    (hs : s.StandsIn (front ++ middle ++ back)) (ht : t.StandsIn middle)
    (pos : s.pos = t.pos + front.length) : s.ReadsAs front.length t := by
  have hlength : t.pos < middle.length := (List.getElem?_eq_some_iff.mp ht.getElem?).1
  have hdrop : s.char :: s.after = (t.char :: t.after) ++ back := by
    rw [← hs.drop, ← ht.drop, pos, List.append_assoc, Nat.add_comm, List.drop_length_add_append,
      List.drop_append_of_le_length (Nat.le_of_lt hlength)]
  obtain ⟨hchar, hafter⟩ := List.cons.inj hdrop
  -- Only in front of the first character of the part there may be something else.
  have hbefore : s.before = t.before ∨ t.pos = 0 ∧ t.before = none ∧ s.before = front.getLast? := by
    rw [hs.before, ht.before, pos]
    cases hpos : t.pos with
    | zero =>
        rw [Nat.zero_add, List.append_assoc, charBefore_append_length]
        exact .inr ⟨rfl, rfl, rfl⟩
    | succ n =>
        left
        rw [Nat.add_right_comm, charBefore_succ, charBefore_succ, List.append_assoc,
          List.getElem?_append_right (Nat.le_add_left ..), Nat.add_sub_cancel,
          List.getElem?_append_left (by omega)]
  have hfirst : t.pos = 0 → middle.head? = some t.char := by
    intro hpos
    rw [← ht.getElem?, hpos, List.head?_eq_getElem?]
  have hends : s.endsLine = t.endsLine := by
    rw [Spot.endsLine, Spot.endsLine, hchar]
    rcases hbefore with hsame | ⟨hpos, -⟩
    · rw [hsame]
    · have hne : t.char ≠ '\n' := fun hnewline => apart.newline (hnewline ▸ hfirst hpos)
      rw [beq_false_of_ne hne, Bool.false_and, Bool.false_and]
  refine ⟨pos, hchar, hends, fun word hword letters => ?_⟩
  rw [Spot.startsWord, hdrop]
  have hright : SplitsNoWord (t.char :: t.after) back := by
    rw [SplitsNoWord, ← ht.drop, List.getLast?_drop, if_neg (Nat.not_le.mpr hlength)]
    exact apart.right
  refine startsWord_append (List.cons_ne_nil _ _) letters hright fun starts => ?_
  rcases hbefore with hsame | ⟨hpos, hnone, hlast⟩
  · rw [hsame]
  · obtain ⟨c, word, rfl⟩ := List.exists_cons_of_ne_nil hword
    obtain ⟨rfl, -⟩ := List.cons_prefix_cons.mp starts
    rw [hnone, hlast, Option.any_none, ← Bool.not_eq_true]
    intro hfront
    refine apart.left ⟨hfront, ?_⟩
    rw [hfirst hpos]
    exact letters _ List.mem_cons_self

end Spot

/-- Where a part stands in a text makes no difference to its pieces but for their positions. -/
theorem lexAt_append_length (front middle : List Char) (j : Nat) :
    (lexAt (front ++ middle) (front.length + j)).outline =
        (lexAt middle j).outline.map (Piece.later front.length) ∧
      (lexAt (front ++ middle) (front.length + j)).unclosed = (lexAt middle j).unclosed := by
  rw [lexAt, List.drop_length_add_append, Nat.add_comm]
  exact lexFrom_later ..

theorem Lexed.CommentFree.leadsOn {l : Lexed} (free : l.CommentFree) (closed : l.unclosed = none) :
    l.LeadsOn := by
  refine ⟨closed, Option.bind_eq_none_iff.mpr fun p last => free p (List.mem_of_getLast? last)⟩

theorem forall₂_of_map_eq_map {α β γ : Type} {R : α → β → Prop} {f : α → γ} {g : β → γ}
    {as : List α} {bs : List β} (same : as.map f = bs.map g)
    (related : ∀ a ∈ as, ∀ b ∈ bs, f a = g b → R a b) : List.Forall₂ R as bs := by
  induction as generalizing bs with
  | nil =>
      obtain rfl : bs = [] := by simpa using same.symm
      exact .nil
  | cons a as ih =>
      obtain ⟨b, bs, rfl, hb, hrest⟩ := List.map_eq_cons_iff.mp same.symm
      refine .cons (related a List.mem_cons_self b List.mem_cons_self hb.symm) (ih hrest.symm ?_)
      exact fun a' ha b' hb => related a' (List.mem_cons_of_mem a ha) b' (List.mem_cons_of_mem b hb)

theorem exists_of_forall₂ {α β : Type} {R : α → β → Prop} {as : List α} {bs : List β} {b : β}
    (related : List.Forall₂ R as bs) (member : b ∈ bs) : ∃ a ∈ as, R a b := by
  induction related with
  | nil => cases member
  | @cons a b' as bs hab _ ih =>
      rcases List.mem_cons.mp member with rfl | member
      · exact ⟨a, List.mem_cons_self, hab⟩
      · obtain ⟨a', ha, hb⟩ := ih member
        exact ⟨a', List.mem_cons_of_mem a ha, hb⟩

theorem Lexed.spots_prepend_code (spots : List Spot) (l : Lexed) :
    (l.prepend (spots.map .code)).spots = spots ++ l.spots := by
  rw [Lexed.spots_prepend, List.filterMap_map]
  exact congrArg (· ++ l.spots) List.filterMap_some

/-- Text without quotes and comments is code as a whole, and behind it the text is lexed on. -/
theorem exists_lexAt_of_plain {text part rest : List Char} {start : Nat}
    (plain : ∀ c ∈ part, isQuote c = false ∧ c ≠ '#') (hdrop : text.drop start = part ++ rest) :
    ∃ spots : List Spot,
      lexAt text start = (lexAt text (start + part.length)).prepend (spots.map .code) ∧
      spots.map Spot.char = part := by
  induction part generalizing start with
  | nil => exact ⟨[], rfl, rfl⟩
  | cons c part ih =>
      obtain ⟨hc, hpart⟩ := List.forall_mem_cons.mp plain
      obtain ⟨spots, hlex, hchars⟩ := ih hpart (drop_succ_of_drop_eq_cons hdrop)
      rw [lexAt_of_character hdrop hc, hlex, List.length_cons, Nat.add_comm part.length,
        ← Nat.add_assoc]
      refine ⟨⟨start, charBefore text start, c, part ++ rest⟩ :: spots, rfl, ?_⟩
      rw [List.map_cons, hchars]

theorem Lexed.leadsOn_iff_outline {l : Lexed} :
    l.LeadsOn ↔ l.unclosed = none ∧ l.outline.getLast?.bind Piece.comment? = none := by
  have hlast : l.outline.getLast?.bind Piece.comment? = l.pieces.getLast?.bind Piece.comment? := by
    rw [Lexed.outline, List.getLast?_map, Option.bind_map]
    simp only [Function.comp_def, Piece.comment?_bare]
  rw [hlast]
  exact ⟨fun leads => ⟨leads.closed, leads.uncommented⟩, fun h => ⟨h.1, h.2⟩⟩

/-- Where a part stands in a text makes no difference to whether it leads on. -/
theorem leadsOn_append_length (front middle : List Char) (j : Nat) :
    (lexAt (front ++ middle) (front.length + j)).LeadsOn ↔ (lexAt middle j).LeadsOn := by
  obtain ⟨houtline, hunclosed⟩ := lexAt_append_length front middle j
  rw [Lexed.leadsOn_iff_outline, Lexed.leadsOn_iff_outline, houtline, hunclosed, List.getLast?_map]
  cases (lexAt middle j).outline.getLast? with
  | none => rfl
  | some p =>
      rw [Option.map_some, Option.bind_some, Option.bind_some, Piece.comment?_later_eq_none_iff]

/-- In a text a part that stands apart and leads on is read as it is on its own, and behind it the text
is lexed on. -/
theorem StandsApart.exists_lexAt_of_leadsOn (apart : StandsApart front middle back)
    (le : j ≤ middle.length) (leads : (lexAt middle j).LeadsOn) :
    ∃ earlier,
      lexAt (front ++ middle ++ back) (front.length + j) =
        (lexAt (front ++ middle ++ back) (front.length + middle.length)).prepend earlier ∧
      earlier.map Piece.bare = (lexAt middle j).outline.map (Piece.later front.length) ∧
      List.Forall₂ (Spot.ReadsAs front.length) (earlier.filterMap Piece.spot?)
        (lexAt middle j).spots := by
  have houtline := (lexAt_append_length front middle j).1
  have hlength : front.length + middle.length = (front ++ middle).length := by simp
  have htake : (front ++ middle ++ back).take (front.length + middle.length) = front ++ middle := by
    rw [hlength, List.take_left]
  have hle : front.length + j ≤ front.length + middle.length := by omega
  have hfits : front.length + middle.length ≤ (front ++ middle ++ back).length := by simp
  obtain ⟨earlier, hwhole, hfront⟩ := lexAt_join hle hfits
    (by rw [htake]; exact (leadsOn_append_length front middle j).mpr leads)
    (fun q hq => by
      rw [← List.head?_drop, hlength, List.drop_left]
      exact apart.quote q hq)
  rw [htake, houtline] at hfront
  refine ⟨earlier, hwhole, hfront.symm, ?_⟩
  -- What is said of the pieces in front can be said of them as a lexed text of their own.
  let l : Lexed := ⟨earlier, none⟩
  have hl : l.outline = (lexAt middle j).outline.map (Piece.later front.length) := hfront.symm
  have hitems : l.spots.map Spot.item =
      (lexAt middle j).spots.map fun t => (t.pos + front.length, t.char) := by
    have hl' : l.items = (lexAt middle j).items.map fun i => (i.1 + front.length, i.2) := by
      rw [Lexed.items_eq_filterMap_outline, hl, List.filterMap_map,
        Lexed.items_eq_filterMap_outline, List.map_filterMap]
      simp only [Function.comp_def, Piece.item?_later]
    rw [Lexed.items, Lexed.items, List.map_map] at hl'
    exact hl'
  refine forall₂_of_map_eq_map hitems fun s hs t ht same => ?_
  have hs' : s ∈ (lexAt (front ++ middle ++ back) (front.length + j)).spots := by
    rw [hwhole, Lexed.spots_prepend]
    exact List.mem_append_left _ hs
  exact (standsIn_of_mem_lexAt hs').2.readsAs apart (standsIn_of_mem_lexAt ht).2
    (congrArg Prod.fst same)

/-- In a text a part without comments that stands apart is read as it is on its own, and behind it the
text is lexed on. -/
theorem StandsApart.exists_lexAt (apart : StandsApart front middle back) (le : j ≤ middle.length)
    (closed : (lexAt middle j).unclosed = none) (free : (lexAt middle j).CommentFree) :
    ∃ earlier,
      lexAt (front ++ middle ++ back) (front.length + j) =
        (lexAt (front ++ middle ++ back) (front.length + middle.length)).prepend earlier ∧
      (∀ p ∈ earlier, p.comment? = none) ∧
      List.Forall₂ (Spot.ReadsAs front.length) (earlier.filterMap Piece.spot?)
        (lexAt middle j).spots := by
  obtain ⟨earlier, hwhole, houtline, hsame⟩ := apart.exists_lexAt_of_leadsOn le (free.leadsOn closed)
  refine ⟨earlier, hwhole, fun p hp => ?_, hsame⟩
  obtain ⟨q, hq, hsame⟩ := List.mem_map.mp (houtline ▸ List.mem_map_of_mem (f := Piece.bare) hp)
  rw [← Piece.comment?_bare, ← hsame, Piece.comment?_later_eq_none_iff]
  exact Lexed.commentFree_iff_outline.mp free q hq

/-! ### Expressions in a part -/

theorem Spot.ReadsAs.expressionStep {s t : Spot} {distance : Nat} (same : s.ReadsAs distance t)
    (depth : Nat) (headers : Int) :
    expressionStep depth headers s = expressionStep depth headers t := by
  unfold CallableKinds.expressionStep
  rw [same.char, same.endsLine, same.startsWord lambdaWord (by decide) letters_lambdaWord,
    same.startsWord forWord (by decide) letters_forWord]

/-- An expression that begins in a part stops where it does in the part alone, or goes on behind the
part with what it has open there. -/
theorem expressionStop_excerpt {distance : Nat} {spots spots' : List Spot}
    (same : List.Forall₂ (Spot.ReadsAs distance) spots spots') (depth : Nat) (headers : Int)
    (rest : List Spot) :
    expressionStop depth headers (spots ++ rest) =
      (readExpression depth headers spots').elim
        ((expressionStop depth headers spots').map (· + distance))
        fun next => expressionStop next.1 next.2 rest := by
  induction same generalizing depth headers with
  | nil => rfl
  | @cons s t spots spots' hst _ ih =>
      rw [List.cons_append, expressionStop_cons, expressionStop_cons, readExpression,
        hst.expressionStep]
      cases expressionStep depth headers t with
      | none => exact congrArg some hst.pos
      | some next => exact ih next.1 next.2

/-- In a text an expression that begins in a part stops where it does in the part alone; or it does not
stop in the part. -/
theorem StandsApart.terminator_cases (apart : StandsApart front middle back) (le : j ≤ middle.length)
    (closed : (lexAt middle j).unclosed = none) (free : (lexAt middle j).CommentFree)
    (headers : Int) :
    terminator (front ++ middle ++ back) (front.length + j) headers =
        front.length + terminator middle j headers ∨
      terminator middle j headers = middle.length ∧
        front.length + middle.length ≤
          terminator (front ++ middle ++ back) (front.length + j) headers := by
  obtain ⟨earlier, hlex, -, hsame⟩ := apart.exists_lexAt le closed free
  have hstop := expressionStop_excerpt hsame 0 headers
    (lexAt (front ++ middle ++ back) (front.length + middle.length)).spots
  rw [← Lexed.spots_prepend, ← hlex] at hstop
  rw [terminator, terminator, hstop]
  cases hread : readExpression 0 headers (lexAt middle j).spots with
  | none =>
      obtain ⟨t, -, hfound⟩ := exists_of_readExpression_eq_none hread
      have hfound := hfound []
      rw [List.append_nil] at hfound
      left
      rw [hfound, Option.elim_none, Option.map_some, Option.getD_some, Option.getD_some, Nat.add_comm]
  | some next =>
      have hnone := expressionStop_append hread []
      rw [List.append_nil] at hnone
      right
      rw [hnone, Option.elim_some]
      refine ⟨rfl, ?_⟩
      cases hfound : expressionStop next.1 next.2
          (lexAt (front ++ middle ++ back) (front.length + middle.length)).spots with
      | none => simp
      | some k =>
          obtain ⟨s, member, rfl⟩ := exists_of_expressionStop hfound
          exact (standsIn_of_mem_lexAt member).1

end CallableKinds

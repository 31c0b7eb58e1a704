import CallableKinds.Proofs.Arrows

/-!
# Lexemes of a collapsed text

When the runs of blanks in a text are collapsed, those in its literals are collapsed as well. A literal
stays one: a backslash takes only the first blank of a run out of the search for the quote, but a quote is
not among the others either. What is found in a text and in the collapsed text is tied together by what is
left behind it, which does not ask where in a run a reader stands.
-/

namespace CallableKinds

variable {c q : Char} {rest text delimiter : List Char} {n : Nat}

/-! ### Collapsing twice -/

theorem exists_collapse_of_blank (blank : isBlank c = true) (rest : List Char) :
    ∃ more, collapse (c :: rest) = ' ' :: more := by
  induction rest generalizing c with
  | nil => exact ⟨[], by simp [collapse, blank]⟩
  | cons d rest ih =>
      rw [collapse_cons_of_blank _ blank]
      split
      next hd => exact ih hd
      next => exact ⟨_, rfl⟩

theorem isBlank_head?_collapse (text : List Char) :
    (collapse text).head?.any isBlank = text.head?.any isBlank := by
  cases text with
  | nil => rfl
  | cons c rest =>
      cases hc : isBlank c with
      | false => rw [collapse_cons_of_not_blank _ hc]; rfl
      | true =>
          obtain ⟨more, hmore⟩ := exists_collapse_of_blank hc rest
          rw [hmore]
          exact hc.symm

/-- A collapsed text has no runs of blanks left. -/
theorem collapse_collapse (text : List Char) : collapse (collapse text) = collapse text := by
  induction text with
  | nil => rfl
  | cons c rest ih =>
      cases hc : isBlank c with
      | false => rw [collapse_cons_of_not_blank _ hc, collapse_cons_of_not_blank _ hc, ih]
      | true =>
          rw [collapse_cons_of_blank _ hc]
          split
          next => exact ih
          next hsolid =>
              rw [collapse_space_cons, ih]
              rw [isBlank_head?_collapse]
              exact Bool.eq_false_iff.mpr hsolid

/-- The blanks at the beginning of a text are a run of its own. -/
theorem takeWhile_collapse (text : List Char) :
    (collapse text).takeWhile isBlank = collapse (text.takeWhile isBlank) := by
  induction text with
  | nil => rfl
  | cons c rest ih =>
      cases hc : isBlank c with
      | false =>
          rw [collapse_cons_of_not_blank _ hc, List.takeWhile_cons_of_neg (by simp [hc]),
            List.takeWhile_cons_of_neg (by simp [hc]), collapse_nil]
      | true =>
          have hhead : (rest.takeWhile isBlank).head?.any isBlank = rest.head?.any isBlank := by
            cases rest with
            | nil => rfl
            | cons d rest => cases hd : isBlank d <;> simp [hd]
          rw [collapse_cons_of_blank _ hc, List.takeWhile_cons_of_pos hc, collapse_cons_of_blank _ hc,
            hhead, ← ih]
          split
          · rfl
          · rw [List.takeWhile_cons_of_pos isBlank_space]

theorem isPrefixOf_collapse {word : List Char} (solid : ∀ c ∈ word, isBlank c = false)
    (text : List Char) : word.isPrefixOf (collapse text) = word.isPrefixOf text := by
  induction text generalizing word with
  | nil => rfl
  | cons c rest ih =>
      cases word with
      | nil => rfl
      | cons d word =>
          obtain ⟨hd, hword⟩ := List.forall_mem_cons.mp solid
          cases hc : isBlank c with
          | false =>
              rw [collapse_cons_of_not_blank _ hc, List.isPrefixOf_cons_cons,
                List.isPrefixOf_cons_cons, ih hword]
          | true =>
              obtain ⟨more, hmore⟩ := exists_collapse_of_blank hc rest
              rw [hmore, isPrefixOf_of_ne (ne_of_isBlank isBlank_space hd),
                isPrefixOf_of_ne (ne_of_isBlank hc hd)]

/-! ### Literals -/

section Closing

variable (solid : ∀ d ∈ q :: delimiter, isBlank d = false)
include solid

/-- A blank is passed over in the search for a delimiter. -/
theorem closing_blank (blank : isBlank c = true) (rest : List Char) :
    closing (q :: delimiter) (c :: rest) = (closing (q :: delimiter) rest).map (· + 1) := by
  have hother : c ≠ q := ne_of_isBlank blank (solid q List.mem_cons_self)
  rw [closing_cons (ne_of_isBlank blank (by decide)), isPrefixOf_of_ne hother,
    if_neg Bool.false_ne_true]

/-- So is a backslash in front of it. -/
theorem closing_backslash (blank : isBlank c = true) (rest : List Char) :
    closing (q :: delimiter) ('\\' :: c :: rest) =
      (closing (q :: delimiter) (c :: rest)).map (· + 1) := by
  rw [closing, closing_blank solid blank, Option.map_map]
  rfl

omit solid in
theorem rel_map {R S : Nat → Nat → Prop} {f g : Nat → Nat} {a b : Option Nat} (related : Option.Rel R a b)
    (steps : ∀ n m, R n m → S (f n) (g m)) : Option.Rel S (a.map f) (b.map g) := by
  cases related with
  | none => exact .none
  | some h => exact .some (steps _ _ h)

/-- A delimiter is found in a collapsed text if it is found in the text, and what is left behind it is
the same but collapsed. -/
theorem closing_collapse (text : List Char) :
    Option.Rel (fun n m => (collapse text).drop m = collapse (text.drop n))
      (closing (q :: delimiter) text) (closing (q :: delimiter) (collapse text)) := by
  induction hlength : text.length using Nat.strongRecOn generalizing text with
  | ind length ih =>
      subst hlength
      cases text with
      | nil => exact .none
      | cons c rest =>
          have hrest := ih rest.length (Nat.lt_succ_self _) rest rfl
          cases hc : isBlank c with
          | true =>
              rw [closing_blank solid hc, collapse_cons_of_blank _ hc]
              split
              next =>
                  -- The blank is lost, and the search goes on in the same collapsed text.
                  rw [← Option.map_id' (x := closing (q :: delimiter) (collapse rest))]
                  exact rel_map hrest fun n m h => h
              next =>
                  rw [closing_blank solid isBlank_space]
                  exact rel_map hrest fun n m h => h
          | false =>
              rw [collapse_cons_of_not_blank _ hc]
              by_cases hescape : c = '\\'
              · subst hescape
                cases rest with
                | nil => exact .none
                | cons d more =>
                    cases hd : isBlank d with
                    | true =>
                        obtain ⟨z, hz⟩ := exists_collapse_of_blank hd more
                        rw [hz] at hrest ⊢
                        rw [closing_backslash solid hd, closing_backslash solid isBlank_space]
                        exact rel_map hrest fun n m h => h
                    | false =>
                        have hmore := ih more.length (by simp only [List.length_cons]; omega) more rfl
                        rw [collapse_cons_of_not_blank _ hd, closing, closing]
                        exact rel_map hmore fun n m h => h
              · rw [closing_cons hescape, closing_cons hescape, ← collapse_cons_of_not_blank _ hc,
                  isPrefixOf_collapse solid]
                split
                next here =>
                    obtain ⟨more, hmore⟩ := List.isPrefixOf_iff_prefix.mp here
                    refine .some ?_
                    rw [← hmore, collapse_append_of_solid solid, List.drop_left, List.drop_left]
                next =>
                    rw [collapse_cons_of_not_blank _ hc]
                    exact rel_map hrest fun n m h => h

end Closing

theorem delimiterOf_collapse (solid : isBlank q = false) (rest : List Char) :
    delimiterOf q (collapse rest) = delimiterOf q rest := by
  rw [delimiterOf, delimiterOf, isPrefixOf_collapse (by simp [solid])]

/-- A literal of a text is one of the collapsed text, and what is left behind it is the same but
collapsed. -/
theorem literalLength_collapse (solid : isBlank q = false) (rest : List Char) :
    (∃ delimiter, literalLength q rest = .error delimiter ∧
        literalLength q (collapse rest) = .error delimiter) ∨
      ∃ n m, literalLength q rest = .ok n ∧ literalLength q (collapse rest) = .ok m ∧
        (collapse rest).drop (m - 1) = collapse (rest.drop (n - 1)) := by
  obtain ⟨more, hdelimiter, huniform⟩ := exists_delimiterOf q rest
  have hsolid : ∀ d ∈ q :: more, isBlank d = false := fun d hd => huniform d hd ▸ solid
  have hopening : (collapse rest).drop more.length = collapse (rest.drop more.length) := by
    have hmore : more <+: rest := by
      unfold delimiterOf at hdelimiter
      split at hdelimiter
      next triple =>
          cases hdelimiter
          exact List.isPrefixOf_iff_prefix.mp triple
      next =>
          cases hdelimiter
          exact List.nil_prefix
    obtain ⟨inner, rfl⟩ := hmore
    rw [collapse_append_of_solid fun d hd => hsolid d (List.mem_cons_of_mem q hd), List.drop_left,
      List.drop_left]
  have hclosing := closing_collapse hsolid (rest.drop more.length)
  unfold literalLength
  dsimp only
  rw [delimiterOf_collapse solid, hdelimiter, List.length_cons, Nat.add_sub_cancel, hopening]
  generalize closing (q :: more) (rest.drop more.length) = found,
    closing (q :: more) (collapse (rest.drop more.length)) = found' at hclosing
  cases hclosing with
  | none => exact .inl ⟨_, rfl, rfl⟩
  | some h =>
      refine .inr ⟨_, _, rfl, rfl, ?_⟩
      rw [Nat.add_right_comm, Nat.add_sub_cancel, Nat.add_right_comm, Nat.add_sub_cancel, ← List.drop_drop,
        ← List.drop_drop, hopening, h]

/-- A lexeme that is no comment is one of the collapsed text, and what is left behind it is the same but
collapsed. -/
theorem lexeme_collapse (solid : isBlank c = false) (plain : c ≠ '#') (rest : List Char) :
    (∃ delimiter, lexeme c rest = .unclosed delimiter ∧
        lexeme c (collapse rest) = .unclosed delimiter) ∨
      (lexeme c rest = .character ∧ lexeme c (collapse rest) = .character) ∨
      ∃ n m, lexeme c rest = .literal n ∧ lexeme c (collapse rest) = .literal m ∧
        (collapse rest).drop (m - 1) = collapse (rest.drop (n - 1)) := by
  cases hquote : isQuote c with
  | false =>
      have hcode (s : List Char) : lexeme c s = .character := lexeme_eq_character_iff.mpr ⟨hquote, plain⟩
      exact .inr (.inl ⟨hcode _, hcode _⟩)
  | true =>
      rcases literalLength_collapse solid rest with ⟨delimiter, h, h'⟩ | ⟨n, m, h, h', hdrop⟩
      · exact .inl ⟨delimiter, lexeme_eq_unclosed_iff.mpr ⟨hquote, h⟩,
          lexeme_eq_unclosed_iff.mpr ⟨hquote, h'⟩⟩
      · exact .inr (.inr ⟨n, m, lexeme_eq_literal_iff.mpr ⟨hquote, h⟩,
          lexeme_eq_literal_iff.mpr ⟨hquote, h'⟩, hdrop⟩)

/-! ### Positions -/

/-- Where a position of a text is when the text is collapsed. -/
def collapsedAt (text : List Char) (i : Nat) : Nat := (collapse (text.take i)).length

section Cut

variable {i j : Nat} (cut : SplitsNoRun (text.take i) (text.drop i))
include cut

theorem collapse_take_append_drop :
    collapse text = collapse (text.take i) ++ collapse (text.drop i) := by
  rw [← collapse_append cut, List.take_append_drop]

theorem take_collapse : (collapse text).take (collapsedAt text i) = collapse (text.take i) := by
  rw [collapse_take_append_drop cut, collapsedAt, List.take_left]

theorem drop_collapse : (collapse text).drop (collapsedAt text i) = collapse (text.drop i) := by
  rw [collapse_take_append_drop cut, collapsedAt, List.drop_left]

theorem slice_collapse (cut' : SplitsNoRun (text.take j) (text.drop j)) (le : i ≤ j) :
    slice (collapse text) (collapsedAt text i) (collapsedAt text j) = collapse (slice text i j) := by
  rw [slice, ← List.drop_take, take_collapse cut', ← Segments.collapse_take_append_slice le cut,
    collapsedAt, List.drop_left]

end Cut

section Solid

variable {i i' : Nat} (there : text[i]? = some c) (solid : isBlank c = false)
include there solid

theorem collapsedAt_succ : collapsedAt text (i + 1) = collapsedAt text i + 1 := by
  have htake : text.take (i + 1) = text.take i ++ [c] := by
    rw [List.take_add_one, there]
    rfl
  rw [collapsedAt, htake, collapse_append (.of_head rfl solid), collapse_cons_of_not_blank _ solid,
    List.length_append]
  rfl

/-- A character that is no blank is found again by what is behind it. -/
theorem eq_collapsedAt (left : (collapse text).drop i' = collapse (text.drop i)) :
    i' = collapsedAt text i := by
  obtain ⟨hlt, rfl⟩ := List.getElem?_eq_some_iff.mp there
  have hcut := drop_collapse (Segments.splitsNoRun_before there solid)
  have hcons : collapse (text.drop i) = text[i] :: collapse (text.drop (i + 1)) := by
    rw [List.drop_eq_getElem_cons hlt, collapse_cons_of_not_blank _ solid]
  have hlength := congrArg List.length left
  have hlength' := congrArg List.length hcut
  rw [hcons, List.length_drop, List.length_cons] at hlength hlength'
  omega

end Solid

/-! ### Words -/

/-- A word begins a collapsed text if it begins the text. -/
theorem startsWord_collapse {word : List Char} {before before' : Option Char}
    (letters : ∀ d ∈ word, isWord d = true) (same : before'.any isWord = before.any isWord)
    (text : List Char) : startsWord word before' (collapse text) = startsWord word before text := by
  have hsplit (front : Option Char) (s : List Char) :
      startsWord word front s = (Segments.beginsWith word s && !front.any isWord) := by
    rw [Segments.beginsWith, startsWord, startsWord, Option.any_none, Bool.not_false, Bool.and_true,
      Bool.and_right_comm]
  rw [hsplit, hsplit, same, Segments.beginsWith_collapse letters]

/-! ### Code characters -/

/-- A code character that is no blank, and the same one in the collapsed text. -/
structure Spot.Keeps (text : List Char) (s s' : Spot) : Prop where
  pos : s'.pos = collapsedAt text s.pos
  next : s'.pos + 1 = collapsedAt text (s.pos + 1)
  char : s'.char = s.char
  startsWord : s'.startsWord lambdaWord = s.startsWord lambdaWord

/-- The code characters of a collapsed text are those of the text but for blanks, up to the limit that
the first comment sets. -/
inductive Follows (text : List Char) : Option Nat → List Spot → List Spot → Prop where
  | done : Follows text none [] []
  | behind {limit : Nat} {spots : List Spot} (later : ∀ s ∈ spots, limit < s.pos) (spots' : List Spot) :
    Follows text (some limit) spots spots'
  | lost {limit : Option Nat} {s : Spot} {spots spots' : List Spot} (blank : isBlank s.char = true)
    (rest : Follows text limit spots spots') : Follows text limit (s :: spots) spots'
  | space {limit : Option Nat} {s' : Spot} {spots spots' : List Spot} (blank : isBlank s'.char = true)
    (rest : Follows text limit spots spots') : Follows text limit spots (s' :: spots')
  | keep {limit : Option Nat} {s s' : Spot} {spots spots' : List Spot} (keeps : s.Keeps text s')
    (rest : Follows text limit spots spots') : Follows text limit (s :: spots) (s' :: spots')

/-- A position of a text and one of the collapsed text behind which the same is left. In front of a
character that is no blank they also agree in whether a word may begin there. -/
structure InStep (text : List Char) (i i' : Nat) : Prop where
  left : (collapse text).drop i' = collapse (text.drop i)
  before : (text.drop i).head?.any isBlank = false →
    (charBefore (collapse text) i').any isWord = (charBefore text i).any isWord

namespace InStep

variable {i i' : Nat} (inStep : InStep text i i') (hrest : text.drop i = c :: rest)
include inStep hrest

/-- A blank of a run is lost, or it is the last one and became a space. -/
theorem of_blank (blank : isBlank c = true) :
    InStep text (i + 1) i' ∨
      (collapse text).drop i' = ' ' :: collapse rest ∧ InStep text (i + 1) (i' + 1) := by
  have hnext := drop_succ_of_drop_eq_cons hrest
  have hleft := inStep.left
  rw [hrest, collapse_cons_of_blank _ blank] at hleft
  split at hleft
  next hblank =>
      refine .inl ⟨by rw [hnext]; exact hleft, fun solid => ?_⟩
      rw [hnext, hblank] at solid
      cases solid
  next =>
      refine .inr ⟨hleft, by rw [hnext]; exact drop_succ_of_drop_eq_cons hleft, fun _ => ?_⟩
      rw [← charBefore_succ_of_drop_eq_cons hleft, ← charBefore_succ_of_drop_eq_cons hrest,
        Option.any_some, Option.any_some, (of_isBlank blank).1]
      rfl

variable (solid : isBlank c = false)
include solid

theorem drop_eq : (collapse text).drop i' = c :: collapse rest := by
  rw [inStep.left, hrest, collapse_cons_of_not_blank _ solid]

theorem succ : InStep text (i + 1) (i' + 1) where
  left := by
    rw [drop_succ_of_drop_eq_cons hrest, drop_succ_of_drop_eq_cons (inStep.drop_eq hrest solid)]
  before _ := by
    rw [← charBefore_succ_of_drop_eq_cons hrest,
      ← charBefore_succ_of_drop_eq_cons (inStep.drop_eq hrest solid)]

/-- Both literals end with the quote. -/
theorem literal {n m : Nat} (found : literalLength c rest = .ok n)
    (found' : literalLength c (collapse rest) = .ok m)
    (left : (collapse rest).drop (m - 1) = collapse (rest.drop (n - 1))) :
    InStep text (i + 1 + (n - 1)) (i' + 1 + (m - 1)) where
  left := by
    rw [← List.drop_drop (i := m - 1), ← List.drop_drop (i := n - 1), drop_succ_of_drop_eq_cons hrest,
      drop_succ_of_drop_eq_cons (inStep.drop_eq hrest solid), left]
  before _ := by
    have hlast := getElem?_literalLength found
    have hlast' := getElem?_literalLength found'
    rw [← hrest, List.getElem?_drop] at hlast
    rw [← inStep.drop_eq hrest solid, List.getElem?_drop] at hlast'
    rw [Nat.add_right_comm, charBefore_succ, hlast', Nat.add_right_comm, charBefore_succ, hlast]

theorem keeps :
    Spot.Keeps text ⟨i, charBefore text i, c, rest⟩
      ⟨i', charBefore (collapse text) i', c, collapse rest⟩ := by
  have there := getElem?_of_drop_eq_cons hrest
  have hpos := eq_collapsedAt there solid inStep.left
  refine ⟨hpos, by rw [collapsedAt_succ there solid, ← hpos], rfl, ?_⟩
  rw [Spot.startsWord, Spot.startsWord, ← collapse_cons_of_not_blank _ solid]
  exact startsWord_collapse letters_lambdaWord (inStep.before (by rw [hrest]; exact solid)) _

end InStep

/-- Nothing is collapsed in the front of a text without blanks. -/
theorem inStep_append {front : List Char} (solid : ∀ d ∈ front, isBlank d = false) (back : List Char) :
    InStep (front ++ back) front.length front.length where
  left := by rw [collapse_append_of_solid solid, List.drop_left, List.drop_left]
  before _ := by
    rw [collapse_append_of_solid solid, charBefore_append_length, charBefore_append_length]

/-- A text and the collapsed text are lexed in step. -/
theorem InStep.follows {i i' : Nat} (inStep : InStep text i i') :
    Follows text (lexAt text i).firstComment? (lexAt text i).spots (lexAt (collapse text) i').spots ∧
      ((lexAt text i).firstComment? = none →
        (lexAt (collapse text) i').unclosed = (lexAt text i).unclosed) := by
  induction hlength : text.length - i using Nat.strongRecOn generalizing i i' with
  | ind length ih =>
      subst hlength
      cases hrest : text.drop i with
      | nil =>
          have hleft := inStep.left
          rw [hrest, collapse_nil] at hleft
          rw [lexAt, lexAt, hrest, hleft]
          exact ⟨.done, fun _ => rfl⟩
      | cons c rest =>
          have hlt : i < text.length :=
            (List.getElem?_eq_some_iff.mp (getElem?_of_drop_eq_cons hrest)).1
          cases hc : isBlank c with
          | true =>
              rw [lexAt_of_character hrest (code_of_isBlank hc)]
              rcases inStep.of_blank hrest hc with hnext | ⟨hspace, hnext⟩
              · have hih := ih _ (by omega) hnext rfl
                exact ⟨.lost hc hih.1, hih.2⟩
              · have hih := ih _ (by omega) hnext rfl
                rw [lexAt_of_character hspace (by decide)]
                exact ⟨.lost hc (.space isBlank_space hih.1), hih.2⟩
          | false =>
              by_cases hhash : c = '#'
              · subst hhash
                have hlexeme : lexeme '#' rest = .comment (lineLength rest + 1) :=
                  lexeme_eq_comment_iff.mpr ⟨rfl, rfl⟩
                rw [lexAt_of_drop hrest (by simp [hlexeme]), hlexeme]
                refine ⟨.behind (fun s member => ?_) _, fun first => ?_⟩
                · exact Nat.le_of_add_right_le (standsIn_of_mem_lexAt member).1
                · cases first
              have hdrop := inStep.drop_eq hrest hc
              rcases lexeme_collapse hc hhash rest with
                ⟨delimiter, h, h'⟩ | ⟨h, h'⟩ | ⟨n, m, h, h', hleft⟩
              · rw [lexAt, lexAt, hrest, hdrop, lexFrom_of_unclosed h, lexFrom_of_unclosed h']
                exact ⟨.done, fun _ => rfl⟩
              · have hih := ih _ (by omega) (inStep.succ hrest hc) rfl
                rw [lexAt_of_character hrest (lexeme_eq_character_iff.mp h),
                  lexAt_of_character hdrop (lexeme_eq_character_iff.mp h')]
                exact ⟨.keep (inStep.keeps hrest hc) hih.1, hih.2⟩
              · have hih := ih _ (by omega) (inStep.literal hrest hc (lexeme_eq_literal_iff.mp h).2
                  (lexeme_eq_literal_iff.mp h').2 hleft) rfl
                rw [lexAt_of_drop hrest (by simp [h]), lexAt_of_drop hdrop (by simp [h']), h, h']
                exact hih

end CallableKinds

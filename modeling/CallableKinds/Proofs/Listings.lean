import CallableKinds.Proofs.LambdaTexts
import Mathlib.Data.Bool.AllAny
import Mathlib.Data.List.Find

/-!
# Anonymous functions in a list

A statement that lists anonymous functions in square brackets has these, each one in front of those in its
own defaults and body. The one that is taken for some names is the first one of all for which these names
are read. The names that are read are not the own ones if a default in the header has a colon outside of
brackets. So a member is not found by its own names if it is read wrongly itself, or if another function in
front of it is read with them.
-/

namespace CallableKinds

variable {text rest : List Char} {i : Nat} {wanted : List (List Char)}

/-! ### Names that are read -/

/-- The header of an anonymous function that is found in a text can be read. -/
theorem exists_headerNames_of_mem {expression : List Char}
    (member : expression ∈ (LambdaExpressions.ofText text).found) :
    ∃ names, headerNames expression = .ok names := by
  obtain ⟨s, hs, word, stop, ends, rfl⟩ := LambdaExpressions.exists_of_mem_starting member
  have cut := cutOut_of_lambda hs word ends
  obtain ⟨t, spots, hspots, hpos, hword⟩ := cut.exists_spots hs word
  obtain ⟨hclosed, -⟩ := cut.lex_slice
  have hstands : t.StandsIn (slice text s.pos stop) :=
    (standsIn_of_mem_lexFrom rfl rfl (hspots ▸ List.mem_cons_self)).2
  have hdrop := hstands.drop
  rw [hpos, List.drop_zero] at hdrop
  have hprefix : lambdaWord <+: slice text s.pos stop := by
    simp only [Spot.startsWord, startsWord, Bool.and_eq_true] at hword
    exact hdrop ▸ List.isPrefixOf_iff_prefix.mp hword.1.1
  obtain ⟨rest, hrest⟩ := hprefix
  have hplain : Precedes lambdaWord rest := .of_plain (List.all_iff_forall_prop.mp rfl) rest
  rw [← hrest] at hclosed ⊢
  exact exists_headerNames (hplain.unclosed.symm.trans hclosed)

/-- Some names are read in the header of an anonymous function. -/
def IsReadAs (wanted : List (List Char)) (expression : List Char) : Prop :=
  headerNames expression = .ok wanted

instance (wanted : List (List Char)) (expression : List Char) : Decidable (IsReadAs wanted expression) :=
  decidable_of_iff ((headerNames expression).toOption = some wanted) <| by
    unfold IsReadAs
    cases headerNames expression <;> simp [Except.toOption]

theorem LambdaText.isReadAs_write_iff (L : LambdaText) :
    IsReadAs wanted L.write ↔ readNames L.params = wanted := by
  rw [IsReadAs, L.headerNames_write, Except.ok.injEq]

/-- The first one is taken of some anonymous functions for which the names are read. -/
theorem withNames_eq_find? {found : List (List Char)}
    (readable : ∀ e ∈ found, ∃ names, headerNames e = .ok names) :
    withNames wanted found = .ok (found.find? fun e => IsReadAs wanted e) := by
  induction found with
  | nil => rfl
  | cons e found ih =>
      obtain ⟨⟨names, hnames⟩, hfound⟩ := List.forall_mem_cons.mp readable
      have hread : IsReadAs wanted e ↔ names = wanted := by rw [IsReadAs, hnames, Except.ok.injEq]
      rw [withNames, hnames, List.find?_cons]
      by_cases hsame : names = wanted
      · rw [decide_eq_true (hread.mpr hsame)]
        exact if_pos hsame
      · rw [decide_eq_false (hread.not.mpr hsame)]
        exact (if_neg hsame).trans (ih hfound)

/-! ### Lists of anonymous functions -/

/-- A statement that lists anonymous functions. -/
def listing (Ls : List LambdaText) : List Char := '[' :: (commaList (Ls.map LambdaText.write) ++ [']'])

/-- The anonymous functions in a list: its members, each one in front of those in it. -/
def listed (Ls : List LambdaText) : List (List Char) := Ls.flatMap fun L => L.write :: L.nested

/-- What begins a list or separates its members. -/
def IsSeparator (separator : List Char) : Prop := separator = ['['] ∨ separator = [',', ' ']

/-- A member of a list is found with the anonymous functions in it. -/
theorem LambdaText.exists_stretch_member (L : LambdaText) {separator : List Char}
    (mark : IsSeparator separator) (behind : rest.head? = some ',' ∨ rest.head? = some ']')
    (hdrop : text.drop i = separator ++ L.write ++ rest) :
    ∃ spots, Stretch text i (i + (separator ++ L.write).length) spots ∧
      Finds text spots (L.write :: L.nested) := by
  have hmarks : separator ≠ [] ∧ ∀ c ∈ separator, (isQuote c = false ∧ c ≠ '#') ∧ isWord c = false := by
    rcases mark with rfl | rfl <;> exact ⟨by decide, List.all_iff_forall_prop.mp rfl⟩
  have hterminates : Terminates rest := by
    refine ⟨[], rest, rfl, List.forall_mem_nil _, .inr (.inl ?_)⟩
    rcases behind with h | h <;> rw [h] <;> decide
  rw [List.append_assoc] at hdrop
  have hbefore : (charBefore text (i + separator.length)).any isWord = false := by
    rcases mark with rfl | rfl
    · rw [charBefore_of_getLast? hdrop rfl]
      decide
    · rw [charBefore_of_getLast? hdrop rfl]
      decide
  obtain ⟨spots, hstretch, -, hquiet⟩ := exists_stretch_of_marks hmarks.1 hmarks.2 hdrop
  obtain ⟨spots', hstretch', hfinds, -⟩ :=
    L.readsToEnd_write.exists_stretch (drop_add_length hdrop) hbefore hterminates
  refine ⟨spots ++ spots', ?_, ?_⟩
  · rw [List.length_append, ← Nat.add_assoc]
    exact hstretch.trans hstretch'
  · rw [L.ofText_write] at hfinds
    exact (Finds.of_quiet hquiet).append hfinds

/-- The further members of a list are found. -/
theorem exists_stretch_members (Ls : List LambdaText)
    (hdrop : text.drop i = Ls.flatMap (fun L => [',', ' '] ++ L.write) ++ [']']) :
    ∃ spots, Stretch text i (i + (Ls.flatMap fun L => [',', ' '] ++ L.write).length) spots ∧
      Finds text spots (listed Ls) := by
  induction Ls generalizing i with
  | nil => exact ⟨[], .refl text i, .of_quiet (List.forall_mem_nil _)⟩
  | cons L Ls ih =>
      rw [List.flatMap_cons, List.append_assoc] at hdrop
      have hclosing : [']'].head? = some ']' := rfl
      have hnext := head?_flatMap_append Ls (f := fun L => [',', ' '] ++ L.write) (fun L => rfl) hclosing
      obtain ⟨spots, hstretch, hfinds⟩ := L.exists_stretch_member (.inr rfl) hnext hdrop
      obtain ⟨spots', hstretch', hfinds'⟩ := ih (drop_add_length hdrop)
      refine ⟨spots ++ spots', ?_, hfinds.append hfinds'⟩
      rw [List.flatMap_cons, List.length_append, ← Nat.add_assoc]
      exact hstretch.trans hstretch'

/-- The anonymous functions in a list are found in their order. -/
theorem ofText_listing (Ls : List LambdaText) :
    LambdaExpressions.ofText (listing Ls) = ⟨listed Ls, none⟩ := by
  cases Ls with
  | nil => rfl
  | cons L Ls =>
      have hparts : (listing (L :: Ls)).drop 0 = ['['] ++ L.write ++
          (Ls.flatMap (fun L => [',', ' '] ++ L.write) ++ [']']) := by
        rw [List.drop_zero, listing, commaList, List.map_cons, intercalate_cons_eq, List.flatMap_map,
          List.append_assoc]
        rfl
      have hclosing : [']'].head? = some ']' := rfl
      have hnext := head?_flatMap_append Ls (f := fun L => [',', ' '] ++ L.write) (fun L => rfl) hclosing
      obtain ⟨spots, hstretch, hfinds⟩ := L.exists_stretch_member (.inl rfl) hnext hparts
      have hmembers := drop_add_length hparts
      obtain ⟨spots', hstretch', hfinds'⟩ := exists_stretch_members Ls hmembers
      have hlast : (listing (L :: Ls)).drop _ = [']'] ++ [] := drop_add_length hmembers
      obtain ⟨last, hstretch'', -, hquiet⟩ :=
        exists_stretch_of_marks (by decide) (List.all_iff_forall_prop.mp rfl) hlast
      refine ((hfinds.append (hfinds'.append (.of_quiet hquiet))).ofText ?_).trans ?_
      · have hwhole := hstretch.trans (hstretch'.trans hstretch'')
        have hlength : 0 + (['['] ++ L.write).length +
            (Ls.flatMap fun L => [',', ' '] ++ L.write).length + [']'].length =
              (listing (L :: Ls)).length := by
          rw [← List.drop_zero (l := listing (L :: Ls)), hparts]
          simp only [List.length_append]
          omega
        rwa [hlength] at hwhole
      · rw [List.append_nil]
        rfl

/-- The first anonymous function in a list is taken for which the wanted names are read, or its first member
if they are read for none. -/
theorem isolateLambda_listing_eq {Ls : List LambdaText} (nonempty : Ls ≠ []) (wanted : List (List Char)) :
    isolateLambda (listing Ls) (some wanted) =
      .ok (((listed Ls).find? fun e => IsReadAs wanted e).getD (Ls.head nonempty).write) := by
  have hreadable : ∀ e ∈ listed Ls, ∃ names, headerNames e = .ok names := by
    intro e member
    have hfound : e ∈ (LambdaExpressions.ofText (listing Ls)).found := by rwa [ofText_listing]
    exact exists_headerNames_of_mem hfound
  have hhead : (listed Ls).headD (listing Ls) = (Ls.head nonempty).write := by
    obtain ⟨L, Ls, rfl⟩ := List.exists_cons_of_ne_nil nonempty
    rfl
  rw [isolateLambda_of_ofText (ofText_listing Ls), Option.elim_some, withNames_eq_find? hreadable, hhead]
  rfl

/-! ### Members that are found by their names -/

section Member

variable {before after : List LambdaText} {L : LambdaText}

theorem listed_append : listed (before ++ L :: after) =
    listed before ++ L.write :: (L.nested ++ listed after) := by
  rw [listed, List.flatMap_append, List.flatMap_cons]
  rfl

/-- If neither some members nor the anonymous functions in them have the wanted names, nothing among these
has them. -/
theorem ownNames_ne_of_mem_listed (others : ∀ M ∈ before, M.names ≠ wanted)
    (alone : ∀ M ∈ before, ∀ e ∈ M.nested, ownNames e ≠ wanted) :
    ∀ e ∈ listed before, ownNames e ≠ wanted := by
  intro e member
  obtain ⟨M, hM, he⟩ := List.mem_flatMap.mp member
  rcases List.mem_cons.mp he with rfl | he
  · rw [M.ownNames_write]
    exact others M hM
  · exact alone M hM e he

/-- The first member that has the wanted names is taken if nothing in front of it is read with them and it
is read with them itself, or if it is the first of all and nothing is. -/
theorem isolateLambda_listing_iff (own : L.names = wanted) (others : ∀ M ∈ before, M.names ≠ wanted)
    (alone : ∀ M ∈ before ++ L :: after, ∀ e ∈ M.nested, ownNames e ≠ wanted) :
    isolateLambda (listing (before ++ L :: after)) (some wanted) = .ok L.write ↔
      (∀ e ∈ listed before, ¬ IsReadAs wanted e) ∧
        (IsReadAs wanted L.write ∨
          before = [] ∧ ∀ e ∈ listed (before ++ L :: after), ¬ IsReadAs wanted e) := by
  have hnonempty : before ++ L :: after ≠ [] := List.append_ne_nil_of_right_ne_nil _ (List.cons_ne_nil _ _)
  -- A text is told from that of the member by the names in it.
  have hother {e : List Char} (names : ownNames e ≠ wanted) : e ≠ L.write := by
    rintro rfl
    exact names (L.ownNames_write.trans own)
  have hbefore := ownNames_ne_of_mem_listed others fun M hM => alone M (List.mem_append_left _ hM)
  have hfound {es : List (List Char)} {e : List Char}
      (found : es.find? (fun e => IsReadAs wanted e) = some e) : e ∈ es ∧ IsReadAs wanted e :=
    ⟨List.mem_of_find?_eq_some found, by simpa using List.find?_some found⟩
  have hunread {es : List (List Char)} (absent : es.find? (fun e => IsReadAs wanted e) = none) :
      ∀ e ∈ es, ¬ IsReadAs wanted e := by
    simpa using absent
  rw [isolateLambda_listing_eq hnonempty, Except.ok.injEq, listed_append, List.find?_append]
  cases hfront : (listed before).find? fun e => IsReadAs wanted e with
  | some e =>
      obtain ⟨hmember, hread⟩ := hfound hfront
      exact ⟨fun same => absurd same (hother (hbefore e hmember)), fun h => absurd hread (h.1 e hmember)⟩
  | none =>
      rw [Option.none_or, List.find?_cons, and_iff_right (hunread hfront)]
      by_cases hread : IsReadAs wanted L.write
      · rw [decide_eq_true hread]
        exact iff_of_true rfl (.inl hread)
      rw [decide_eq_false hread, or_iff_right hread]
      cases hback : (L.nested ++ listed after).find? fun e => IsReadAs wanted e with
      | some e =>
          obtain ⟨hmember, hread'⟩ := hfound hback
          refine ⟨?_, fun h => absurd hread' (h.2 e ?_)⟩
          · rintro rfl
            exact absurd hread' hread
          · exact List.mem_append_right _ (List.mem_cons_of_mem _ hmember)
      | none =>
          have hall : ∀ e ∈ listed before ++ L.write :: (L.nested ++ listed after),
              ¬ IsReadAs wanted e :=
            List.forall_mem_append.mpr
              ⟨hunread hfront, List.forall_mem_cons.mpr ⟨hread, hunread hback⟩⟩
          rw [and_iff_left hall]
          cases before with
          | nil => exact iff_of_true rfl rfl
          | cons M before =>
              have hM : ownNames M.write ≠ wanted := hbefore M.write List.mem_cons_self
              exact iff_of_false (hother hM) (List.cons_ne_nil _ _)

end Member

/-- From a list of anonymous functions the first one is taken for which the wanted names are read, also
inside of a member, and the first member if they are read for none. The names that are read for a function
are its own ones unless the first default in its header that has a colon outside of brackets gives others
for the parameters behind it. If no function inside of a member has the wanted names, the first member that
has them is taken exactly if nothing in front of it is read with them and it is read right, or if it is the
first of all and nothing is read with them. It always is where all functions in the list are read with their
own names. -/
theorem isolateLambda_listing {Ls : List LambdaText} (nonempty : Ls ≠ []) {wanted : List (List Char)}
    (alone : ∀ L ∈ Ls, ∀ e ∈ L.nested, ownNames e ≠ wanted) :
    isolateLambda (listing Ls) (some wanted) =
        .ok (((listed Ls).find? fun e => IsReadAs wanted e).getD (Ls.head nonempty).write) ∧
      (∀ L : LambdaText, IsReadAs L.names L.write ↔
        ∀ before p behind strays, L.params = before ++ p :: behind →
          (∀ q ∈ before, q.strays? = none) → p.strays? = some strays →
            strays = behind.map LambdaParam.name) ∧
      (∀ before L after, Ls = before ++ L :: after → L.names = wanted →
        (∀ M ∈ before, M.names ≠ wanted) →
          (isolateLambda (listing Ls) (some wanted) = .ok L.write ↔
            (∀ e ∈ listed before, ¬ IsReadAs wanted e) ∧
              (IsReadAs wanted L.write ∨ before = [] ∧ ∀ e ∈ listed Ls, ¬ IsReadAs wanted e))) ∧
      ((∀ e ∈ listed Ls, IsReadAs (ownNames e) e) →
        ∀ L, Ls.find? (fun L => L.names = wanted) = some L →
          isolateLambda (listing Ls) (some wanted) = .ok L.write) := by
  refine ⟨isolateLambda_listing_eq nonempty wanted,
    fun L => L.isReadAs_write_iff.trans (readNames_eq_iff L.params), ?_, fun right L found => ?_⟩
  · rintro before L after rfl own others
    exact isolateLambda_listing_iff own others alone
  · obtain ⟨hown, before, after, rfl, hbefore⟩ := List.find?_eq_some_iff_append.mp found
    have hown : L.names = wanted := of_decide_eq_true hown
    have hothers : ∀ M ∈ before, M.names ≠ wanted := fun M hM => by simpa using hbefore M hM
    rw [listed_append] at right
    refine (isolateLambda_listing_iff hown hothers alone).mpr ⟨fun e member hread => ?_, .inl ?_⟩
    · have hnames := ownNames_ne_of_mem_listed hothers
        (fun M hM => alone M (List.mem_append_left _ hM)) e member
      exact hnames (Except.ok.inj ((right e (List.mem_append_left _ member)).symm.trans hread))
    · have hread := right L.write (List.mem_append_right _ List.mem_cons_self)
      rwa [L.ownNames_write, hown] at hread

/-- The members of `[lambda x: 0, lambda y, z=lambda a: a: z]`. -/
def lastDefault : List LambdaText := [
  ⟨[⟨0, 0, ['x'], none, by decide +kernel, nofun⟩], ['0'], by decide +kernel⟩,
  ⟨[⟨0, 0, ['y'], none, by decide +kernel, nofun⟩,
    ⟨1, 0, ['z'], some "lambda a: a".toList, by decide +kernel, by rintro d ⟨⟩; decide +kernel⟩],
    ['z'], by decide +kernel⟩]

/-- The second member is found by its names, as the default with a colon is that of its last parameter. -/
theorem isolateLambda_listing_lastDefault :
    (∀ L ∈ lastDefault, ∀ e ∈ L.nested, ownNames e ≠ [['y'], ['z']]) ∧
      isolateLambda "[lambda x: 0, lambda y, z=lambda a: a: z]".toList (some [['y'], ['z']]) =
        .ok "lambda y, z=lambda a: a: z".toList := by
  have halone : ∀ L ∈ lastDefault, ∀ e ∈ L.nested, ownNames e ≠ [['y'], ['z']] := by decide +kernel
  exact ⟨halone, (isolateLambda_listing (List.cons_ne_nil _ _) halone).1⟩

/-- The members of `[lambda x: 0, lambda x=lambda a, b: a, y=2: x]`. -/
def firstDefault : List LambdaText := [
  ⟨[⟨0, 0, ['x'], none, by decide +kernel, nofun⟩], ['0'], by decide +kernel⟩,
  ⟨[⟨0, 0, ['x'], some "lambda a, b: a".toList, by decide +kernel, by rintro d ⟨⟩; decide +kernel⟩,
    ⟨1, 0, ['y'], some ['2'], by decide +kernel, by rintro d ⟨⟩; decide +kernel⟩],
    ['x'], by decide +kernel⟩]

/-- An anonymous function is not found by its names if a default in front of its last parameter is an
anonymous function with other ones. -/
theorem not_isolateLambda_listing :
    ¬ ∀ (Ls : List LambdaText) (L : LambdaText) (wanted : List (List Char)),
      (∀ M ∈ Ls, ∀ M' ∈ Ls, ∀ e ∈ M.nested, ownNames e ≠ M'.names) →
      Ls.find? (fun M => M.names = wanted) = some L →
      isolateLambda (listing Ls) (some wanted) = .ok L.write := by
  intro all
  have halone : ∀ M ∈ firstDefault, ∀ M' ∈ firstDefault, ∀ e ∈ M.nested, ownNames e ≠ M'.names := by
    decide +kernel
  have hwrite : (firstDefault.find? fun M => M.names = [['x'], ['y']]).map LambdaText.write =
      some "lambda x=lambda a, b: a, y=2: x".toList := by decide +kernel
  have htaken : (isolateLambda (listing firstDefault) (some [['x'], ['y']])).toOption =
      some "lambda x: 0".toList := by decide +kernel
  obtain ⟨L, hL, hL'⟩ := Option.map_eq_some_iff.mp hwrite
  rw [all firstDefault L _ halone hL, hL'] at htaken
  exact absurd (Option.some.inj htaken) (by decide)

/-- A function inside of a member is taken if the names of another one are read for it. -/
example : (isolateLambda "[lambda p: (lambda x=lambda a, y: 0, z=1: 0), lambda x, y: 2]".toList
    (some [['x'], ['y']])).toOption = some "lambda x=lambda a, y: 0, z=1: 0".toList := by
  decide +kernel

end CallableKinds

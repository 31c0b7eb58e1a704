import CallableKinds.Proofs.HeaderNames
import CallableKinds.Proofs.Stretches

/-!
# Texts of anonymous functions

The text of an anonymous function is read in its parts: the word in front, the parameters of its header,
each one with its default, the colon and the body. Its own names stand between the commas of its own header;
anonymous functions in its defaults have commas and colons of their own.
-/

namespace CallableKinds

variable {text rest : List Char} {i j k : Nat} {c : Char} {spots spots' : List Spot}

/-! ### Own names -/

/-- The positions of the commas between the parameters of an anonymous function and of its colon. Headers
inside default values have commas and colons of their own, as they do for `Segments.headerColon`. -/
def headerMarks (depth : Int) (headers : Nat) : List Spot → List Nat
  | [] => []
  | s :: rest =>
    if isOpening s.char then headerMarks (depth + 1) headers rest
    else if isClosing s.char then headerMarks (depth - 1) headers rest
    else if depth ≠ 0 then headerMarks depth headers rest
    else if s.char = ':' then
      if headers = 0 then [s.pos] else headerMarks depth (headers - 1) rest
    else if s.startsWord lambdaWord then headerMarks depth (headers + 1) rest
    else if headers = 0 ∧ s.char = ',' then s.pos :: headerMarks depth headers rest
    else headerMarks depth headers rest

/-- The names of the parameters of an anonymous function. -/
def ownNames (expression : List Char) : List (List Char) :=
  let first := lambdaWord.length
  partNames (partsBetween expression first (headerMarks 0 0 (lexAt expression first).spots)).dropLast

/-- Where an expression goes on, there is no mark of the header it stands in. -/
theorem headerMarks_cons {depth depth' : Nat} {headers headers' : Int} {s : Spot} (nonneg : 0 ≤ headers)
    (step : expressionStep depth headers s = some (depth', headers')) (rest : List Spot) :
    headerMarks depth headers.toNat (s :: rest) = headerMarks depth' headers'.toNat rest := by
  obtain ⟨hdepth, rfl, hgoes⟩ := of_expressionStep step
  have hword (starts : s.startsWord lambdaWord = true) : s.char = 'l' := char_of_startsWord starts
  rw [headerMarks, hdepth, headerTurn, bracketTurn]
  by_cases hopen : isOpening s.char = true
  · have hchar : s.char = '(' ∨ s.char = '[' ∨ s.char = '\x7b' := by
      simpa [isOpening, or_assoc] using hopen
    grind
  by_cases hclose : isClosing s.char = true
  · have hchar : s.char = ')' ∨ s.char = ']' ∨ s.char = '\x7d' := by
      simpa [isClosing, or_assoc] using hclose
    grind
  by_cases hlevel : (depth : Int) = 0
  · grind [StopsAt]
  · grind

/-- What an expression reads over has no marks of the header it stands in. -/
theorem headerMarks_of_read {depth depth' : Nat} {headers headers' : Int} (nonneg : 0 ≤ headers)
    (read : readExpression depth headers spots = some (depth', headers')) (rest : List Spot) :
    headerMarks depth headers.toNat (spots ++ rest) = headerMarks depth' headers'.toNat rest := by
  induction spots generalizing depth headers with
  | nil =>
      cases read
      rfl
  | cons s spots ih =>
      obtain ⟨next, hstep, hread⟩ := Option.bind_eq_some_iff.mp read
      rw [List.cons_append, headerMarks_cons nonneg hstep]
      exact ih (headers_nonneg_of_expressionStep nonneg hstep) hread

/-- At some code characters of a header there are some of its own marks, and the header goes on behind
them. -/
def Bears (spots : List Spot) (marks : List Nat) : Prop :=
  ∀ rest, headerMarks 0 0 (spots ++ rest) = marks ++ headerMarks 0 0 rest

namespace Bears

theorem append {marks marks' : List Nat} (first : Bears spots marks) (second : Bears spots' marks') :
    Bears (spots ++ spots') (marks ++ marks') := by
  intro rest
  rw [List.append_assoc, first, second, List.append_assoc]

theorem of_comma {s : Spot} (comma : s.char = ',') : Bears [s] [s.pos] := by
  intro rest
  have hword : s.startsWord lambdaWord = false := by
    simp [Spot.startsWord, startsWord, comma, lambdaWord]
  simp [headerMarks, comma, hword, isOpening, isClosing]

theorem of_quiet (plain : ∀ s ∈ spots, isNeutral s.char = true ∧ s.char ≠ ',')
    (quiet : ∀ s ∈ spots, s.startsWord lambdaWord = false) : Bears spots [] := by
  intro rest
  induction spots with
  | nil => rfl
  | cons s spots ih =>
      obtain ⟨⟨hneutral, hcomma⟩, hspots⟩ := List.forall_mem_cons.mp plain
      obtain ⟨hword, hquiet⟩ := List.forall_mem_cons.mp quiet
      simp only [isNeutral, Bool.and_eq_true, Bool.not_eq_true', bne_iff_ne] at hneutral
      obtain ⟨⟨⟨⟨⟨-, hopen⟩, hclose⟩, -⟩, hcolon⟩, -⟩ := hneutral
      rw [List.cons_append, headerMarks]
      simpa [hopen, hclose, hcolon, hcomma, hword] using ih hspots hquiet

theorem of_read (read : readExpression 0 0 spots = some (0, 0)) : Bears spots [] :=
  headerMarks_of_read (Int.le_refl 0) read

end Bears

/-! ### Parameters in a text -/

/-- Between two positions the header of an anonymous function is read over: some anonymous functions are
found there, and some commas that stand between its own parameters. -/
def HeaderStretch (text : List Char) (i j : Nat) (found : List (List Char)) (commas : List Nat) : Prop :=
  ∃ spots, Stretch text i j spots ∧ Finds text spots found ∧ Bears spots commas ∧
    readExpression 0 1 spots = some (0, 1)

namespace HeaderStretch

theorem refl (text : List Char) (i : Nat) : HeaderStretch text i i [] [] :=
  ⟨[], .refl text i, .of_quiet (List.forall_mem_nil _), fun _ => rfl, rfl⟩

theorem trans {found found' : List (List Char)} {commas commas' : List Nat}
    (first : HeaderStretch text i j found commas) (second : HeaderStretch text j k found' commas') :
    HeaderStretch text i k (found ++ found') (commas ++ commas') := by
  obtain ⟨spots, hstretch, hfinds, hbears, hread⟩ := first
  obtain ⟨spots', hstretch', hfinds', hbears', hread'⟩ := second
  refine ⟨spots ++ spots', hstretch.trans hstretch', hfinds.append hfinds', hbears.append hbears', ?_⟩
  rw [readExpression_append, hread]
  exact hread'

end HeaderStretch

/-- Behind some texts with a mark in front of each another mark follows. -/
theorem head?_flatMap_append {α : Type} {f : α → List Char} {d : Char} (as : List α)
    (first : ∀ a, (f a).head? = some c) (behind : rest.head? = some d) :
    (as.flatMap f ++ rest).head? = some c ∨ (as.flatMap f ++ rest).head? = some d := by
  cases as with
  | nil => exact .inr behind
  | cons a as =>
      left
      rw [List.flatMap_cons, List.append_assoc, List.head?_append, first, Option.some_or]

/-- The anonymous functions in the default of a parameter. -/
def LambdaParam.nested (p : LambdaParam) : List (List Char) :=
  p.default?.elim [] fun d => (LambdaExpressions.ofText d).found

/-- The anonymous functions in the defaults and in the body of an anonymous function. -/
def LambdaText.nested (L : LambdaText) : List (List Char) :=
  L.params.flatMap LambdaParam.nested ++ (LambdaExpressions.ofText L.body).found

/-- The separator in front of a parameter is a mark of the header if it is a comma. -/
def separatorMarks (c : Char) (i : Nat) : List Nat := if c = ',' then [i] else []

namespace LambdaParam

variable (p : LambdaParam)

theorem containsWord_lead (separator : c = ' ' ∨ c = ',') {more : List Char}
    (mark : more = [] ∨ more = ['=']) (before : Option Char) :
    Segments.containsWord lambdaWord before (c :: (p.front ++ more)) = false := by
  have hmarks : ∀ d ∈ c :: (List.replicate p.gap ' ' ++ List.replicate p.stars '*'),
      isWord d = false := by
    intro d member
    rcases List.mem_cons.mp member with rfl | member
    · rcases separator with rfl | rfl <;> decide
    · rcases List.mem_append.mp member with member | member
      · rw [List.eq_of_mem_replicate member]
        decide
      · rw [List.eq_of_mem_replicate member]
        decide
  have hname : Segments.containsWord lambdaWord none (p.name ++ more) = false := by
    rcases mark with rfl | rfl
    · rw [List.append_nil]
      exact p.isName.wordless
    · have hcut : SplitsNoWord p.name ['='] := fun ends => Bool.false_ne_true ends.2
      rw [Segments.containsWord_append letters_lambdaWord (by decide) p.isName.identifier.1 hcut,
        p.isName.wordless]
      decide
  have hparts : c :: (p.front ++ more) =
      c :: (List.replicate p.gap ' ' ++ List.replicate p.stars '*') ++ (p.name ++ more) := by
    simp [front, List.append_assoc]
  rw [hparts, Segments.containsWord_marks_append letters_lambdaWord (by decide) (List.cons_ne_nil _ _)
    hmarks, hname]

/-- In front of its default a parameter has no marks. -/
theorem char_of_mem_lead {more : List Char} (mark : more = [] ∨ more = ['=']) {d : Char}
    (member : d ∈ p.front ++ more) : isNeutral d = true ∧ d ≠ ';' ∧ d ≠ ',' := by
  rcases List.mem_append.mp member with member | member
  · rcases p.char_of_mem_front member with rfl | rfl | letter
    · decide
    · decide
    · exact ⟨isNeutral_of_isIdentifierChar letter, ne_of_isIdentifierChar letter (by decide),
        ne_of_isIdentifierChar letter (by decide)⟩
  · rcases mark with rfl | rfl
    · cases member
    · rw [List.mem_singleton.mp member]
      decide

/-- A parameter in front of its default is read over in a header. -/
theorem headerStretch_lead (separator : c = ' ' ∨ c = ',') {more : List Char}
    (mark : more = [] ∨ more = ['=']) (cut : SplitsNoWord (c :: (p.front ++ more)) rest)
    (hdrop : text.drop i = c :: (p.front ++ more) ++ rest) :
    HeaderStretch text i (i + (c :: (p.front ++ more)).length) [] (separatorMarks c i) := by
  have hlead : ∀ d ∈ p.front ++ more, isNeutral d = true ∧ d ≠ ';' ∧ d ≠ ',' := fun d =>
    p.char_of_mem_lead mark
  have hc : isNeutral c = true ∧ c ≠ ';' := by
    rcases separator with rfl | rfl <;> decide
  have hplain : ∀ d ∈ c :: (p.front ++ more), isNeutral d = true ∧ d ≠ ';' :=
    List.forall_mem_cons.mpr ⟨hc, fun d member => ⟨(hlead d member).1, (hlead d member).2.1⟩⟩
  obtain ⟨spots, hstretch, hchars, hquiet⟩ :=
    exists_stretch_of_plain (fun d member => (flat_of_isNeutral (hplain d member).1).1) cut hdrop
  have hquiet := hquiet (p.containsWord_lead separator mark _)
  have hread : readExpression 0 1 spots = some (0, 1) := by
    refine readExpression_of_quiet Int.one_pos (fun s hs => ?_) hquiet
    obtain ⟨hneutral, hsemicolon⟩ := hplain s.char (hchars ▸ List.mem_map_of_mem hs)
    have hspecial : s.char ∉ ['(', '[', '\x7b', ')', ']', '\x7d', ':', '\n'] :=
      not_mem_of_isNeutral hneutral (by decide)
    simp only [List.mem_cons, not_or] at hspecial ⊢
    simp [hspecial, hsemicolon]
  refine ⟨spots, hstretch, .of_quiet hquiet, ?_, hread⟩
  obtain ⟨s, spots, rfl, hs, hspots⟩ := List.map_eq_cons_iff.mp hchars
  obtain ⟨hs', hquiet⟩ := List.forall_mem_cons.mp hquiet
  have hpos : s.pos = i := by
    rw [hstretch.first hdrop (flat_of_isNeutral hc.1).1]
  have hback : Bears spots [] := by
    refine .of_quiet (fun t ht => ?_) hquiet
    obtain ⟨hneutral, -, hcomma⟩ := hlead t.char (hspots ▸ List.mem_map_of_mem ht)
    exact ⟨hneutral, hcomma⟩
  have hfront : Bears [s] (separatorMarks c i) := by
    rcases separator with rfl | rfl
    · exact .of_quiet (by simpa [hs] using hc.1) (by simpa using hs')
    · exact hpos ▸ .of_comma hs
  have hwhole := hfront.append hback
  rwa [List.append_nil] at hwhole

/-- A parameter in a header is read over with its default, and the anonymous functions in that are found. -/
theorem headerStretch (separator : c = ' ' ∨ c = ',')
    (behind : rest.head? = some ',' ∨ rest.head? = some ':')
    (hdrop : text.drop i = c :: (p.write ++ rest)) :
    HeaderStretch text i (i + (c :: p.write).length) p.nested (separatorMarks c i) := by
  have hmark : rest.head?.any isWord = false ∧ Terminates rest := by
    have hterminates (h : rest.head?.any ([',', ';', ':', ')', ']', '\x7d', '\n'].contains ·) = true) :
        Terminates rest := ⟨[], rest, rfl, List.forall_mem_nil _, .inr (.inl h)⟩
    rcases behind with h | h
    · exact ⟨by rw [h]; decide, hterminates (by rw [h]; decide)⟩
    · exact ⟨by rw [h]; decide, hterminates (by rw [h]; decide)⟩
  cases hdefault : p.default? with
  | none =>
      have hwrite : p.write = p.front ++ [] := by rw [write, written, hdefault]; rfl
      rw [nested, hdefault, hwrite]
      rw [hwrite] at hdrop
      exact p.headerStretch_lead separator (.inl rfl)
        (fun ends => Bool.false_ne_true (hmark.1.symm.trans ends.2)) hdrop
  | some d =>
      have hcomplete := (p.complete d hdefault).readsToEnd
      rw [p.write_of_default hdefault, List.append_assoc, ← List.cons_append] at hdrop
      have hcut : SplitsNoWord (c :: (p.front ++ ['='])) (d ++ rest) := by
        rw [← List.cons_append]
        intro ends
        rw [List.getLast?_concat] at ends
        exact Bool.false_ne_true ends.1
      have hlead := p.headerStretch_lead separator (.inr rfl) hcut hdrop
      have hbefore : charBefore text (i + (c :: (p.front ++ ['='])).length) = some '=' :=
        charBefore_of_getLast? hdrop (by rw [← List.cons_append, List.getLast?_concat])
      obtain ⟨spots, hstretch, hfinds, hread⟩ :=
        hcomplete.exists_stretch (drop_add_length hdrop) (by rw [hbefore]; decide) hmark.2
      have hwhole := hlead.trans
        ⟨spots, hstretch, hfinds, .of_read (hread 0 (by decide)), hread 1 (by decide)⟩
      rw [List.append_nil] at hwhole
      rw [nested, hdefault, p.write_of_default hdefault, ← List.cons_append, List.length_append,
        ← Nat.add_assoc]
      exact hwhole

end LambdaParam

/-- The positions of the commas in front of some parameters. -/
def commasAt (i : Nat) : List LambdaParam → List Nat
  | [] => []
  | p :: params => i :: commasAt (i + (',' :: p.write).length) params

/-- Parameters with a comma in front of each are read over in a header. -/
theorem headerStretch_params (params : List LambdaParam) (behind : rest.head? = some ':')
    (hdrop : text.drop i = params.flatMap (fun p => ',' :: p.write) ++ rest) :
    HeaderStretch text i (i + (params.flatMap fun p => ',' :: p.write).length)
      (params.flatMap LambdaParam.nested) (commasAt i params) := by
  induction params generalizing i with
  | nil => exact .refl text i
  | cons p params ih =>
      rw [List.flatMap_cons, List.append_assoc] at hdrop
      have hnext := head?_flatMap_append params (f := fun p => ',' :: p.write) (fun p => rfl) behind
      have hwhole := (p.headerStretch (.inr rfl) hnext hdrop).trans (ih (drop_add_length hdrop))
      rwa [Nat.add_assoc, ← List.length_append] at hwhole

/-- Between their commas and the colon the texts of the parameters stand. -/
theorem partsBetween_commasAt (params : List LambdaParam) (start : Nat)
    (hdrop : text.drop i = params.flatMap (fun p => ',' :: p.write) ++ ':' :: rest) :
    partsBetween text start
        (commasAt i params ++ [i + (params.flatMap fun p => ',' :: p.write).length]) =
      slice text start i :: (params.map LambdaParam.write ++ [rest]) := by
  induction params generalizing i start with
  | nil => exact congrArg (fun last => [slice text start i, last]) (drop_succ_of_drop_eq_cons hdrop)
  | cons p params ih =>
      rw [List.flatMap_cons, List.append_assoc] at hdrop
      have hbehind := ih (i + 1) (drop_add_length hdrop)
      have hslice : slice text (i + 1) (i + (',' :: p.write).length) = p.write := by
        rw [List.length_cons, Nat.add_comm p.write.length, ← Nat.add_assoc]
        exact slice_add_length (drop_succ_of_drop_eq_cons hdrop)
      rw [hslice, Nat.add_assoc, ← List.length_append] at hbehind
      rw [List.map_cons, commasAt, List.cons_append, partsBetween]
      exact congrArg _ hbehind

/-- The texts of parameters with commas in between. -/
theorem intercalate_write (p : LambdaParam) (params : List LambdaParam) :
    [','].intercalate ((p :: params).map LambdaParam.write) =
      p.write ++ params.flatMap fun p => ',' :: p.write := by
  rw [List.map_cons, intercalate_cons_eq, List.flatMap_map]
  rfl

/-- The positions of the commas in a header that begins with a blank. -/
def headerCommas (i : Nat) : List LambdaParam → List Nat
  | [] => []
  | p :: params => commasAt (i + (' ' :: p.write).length) params

namespace LambdaText

variable (L : LambdaText)

/-- The header of an anonymous function is read over behind the word of it. -/
theorem headerStretch (behind : rest.head? = some ':') (hdrop : text.drop i = ' ' :: (L.header ++ rest)) :
    HeaderStretch text i (i + (' ' :: L.header).length) (L.params.flatMap LambdaParam.nested)
      (headerCommas i L.params) := by
  obtain ⟨params, body, complete⟩ := L
  cases params with
  | nil =>
      have hspace : text.drop i = [' '] ++ rest := hdrop
      obtain ⟨spots, hstretch, hchars, hquiet⟩ :=
        exists_stretch_of_marks (by decide) (List.all_iff_forall_prop.mp rfl) hspace
      have hspaces : ∀ s ∈ spots, s.char = ' ' := fun s hs =>
        List.mem_singleton.mp (hchars ▸ List.mem_map_of_mem hs)
      refine ⟨spots, hstretch, .of_quiet hquiet, .of_quiet (fun s hs => ?_) hquiet,
        readExpression_of_quiet Int.one_pos (fun s hs => ?_) hquiet⟩
      · rw [hspaces s hs]
        decide
      · rw [hspaces s hs]
        decide
  | cons p params =>
      rw [header, intercalate_write] at hdrop ⊢
      rw [List.append_assoc, ← List.cons_append] at hdrop
      have hnext := head?_flatMap_append params (f := fun p => ',' :: p.write) (fun p => rfl) behind
      have hfirst := p.headerStretch (.inl rfl) hnext hdrop
      have hwhole := hfirst.trans (headerStretch_params params behind (drop_add_length hdrop))
      rwa [Nat.add_assoc, ← List.length_append] at hwhole

/-- The word of an anonymous function opens its header. -/
theorem exists_stretch_word {text : List Char} (hdrop : text.drop i = lambdaWord ++ ' ' :: rest)
    (apart : (charBefore text i).any isWord = false) :
    ∃ s spots, Stretch text i (i + lambdaWord.length) (s :: spots) ∧ s.pos = i ∧
      s.startsWord lambdaWord = true ∧ Finds text spots [] ∧
      readExpression 0 0 (s :: spots) = some (0, 1) := by
  have hword : lambdaWord = 'l' :: lambdaWord.tail := rfl
  rw [hword, List.cons_append] at hdrop
  let s : Spot := ⟨i, charBefore text i, 'l', lambdaWord.tail ++ ' ' :: rest⟩
  have hs : Stretch text i (i + 1) [s] :=
    ⟨[.code s], lexAt_of_character hdrop (by decide), by simp [Piece.comment?], rfl⟩
  have hstarts : s.startsWord lambdaWord = true := by
    rw [Spot.startsWord, startsWord, apart]
    rfl
  have hcut : SplitsNoWord lambdaWord.tail (' ' :: rest) := fun ends => Bool.false_ne_true ends.2
  obtain ⟨spots, hstretch, hchars, hquiet⟩ :=
    exists_stretch_of_plain (List.all_iff_forall_prop.mp rfl) hcut (drop_succ_of_drop_eq_cons hdrop)
  have hquiet := hquiet (by
    rw [← charBefore_succ_of_drop_eq_cons hdrop]
    exact Segments.containsWord_of_inside rfl (List.all_eq_true.mp rfl))
  have hread : readExpression 0 1 spots = some (0, 1) := by
    refine readExpression_of_quiet Int.one_pos (fun t ht => ?_) hquiet
    have hletters : ∀ d ∈ lambdaWord.tail,
        d ∉ ['(', '[', '\x7b', ')', ']', '\x7d', ':', ';', '\n'] :=
      List.all_iff_forall_prop.mp rfl
    exact hletters t.char (hchars ▸ List.mem_map_of_mem ht)
  refine ⟨s, spots, ?_, rfl, hstarts, .of_quiet hquiet, ?_⟩
  · have hwhole := hs.trans hstretch
    rwa [Nat.add_assoc] at hwhole
  · rw [readExpression, expressionStep_of_lambdaWord hstarts]
    exact hread

/-- The colon and the blank behind it close a header. -/
theorem exists_stretch_colon {text : List Char} (hdrop : text.drop i = ':' :: ' ' :: rest) :
    ∃ spots, Stretch text i (i + 2) spots ∧ Finds text spots [] ∧
      readExpression 0 1 spots = some (0, 0) := by
  have hmarks : text.drop i = [':', ' '] ++ rest := hdrop
  obtain ⟨spots, hstretch, hchars, hquiet⟩ :=
    exists_stretch_of_marks (by decide) (List.all_iff_forall_prop.mp rfl) hmarks
  obtain ⟨s, rest, rfl, hs, hrest⟩ := List.map_eq_cons_iff.mp hchars
  obtain ⟨t, rest, rfl, ht, hrest⟩ := List.map_eq_cons_iff.mp hrest
  obtain rfl : rest = [] := List.map_eq_nil_iff.mp hrest
  refine ⟨_, hstretch, .of_quiet hquiet, ?_⟩
  have hcolon : expressionStep 0 1 s = some (0, 0) := by
    simp [expressionStep, hs, isOpening, isClosing, Spot.endsLine]
  rw [readExpression, hcolon, Option.bind_some, readExpression, expressionStep_of_space (.inl ht)]
  rfl

theorem terminates_nil : Terminates [] := ⟨[], [], rfl, List.forall_mem_nil _, .inl rfl⟩

/-- The text of an anonymous function is read over as an expression. Behind its own word only the anonymous
functions in its defaults and in its body begin. -/
theorem exists_stretch_write :
    ∃ s spots, Stretch L.write 0 L.write.length (s :: spots) ∧ s.pos = 0 ∧
      s.startsWord lambdaWord = true ∧ Finds L.write spots L.nested ∧
      readExpression 0 0 (s :: spots) = some (0, 0) := by
  have hword : L.write.drop 0 = lambdaWord ++ ' ' :: (L.header ++ ':' :: ' ' :: L.body) := rfl
  have hheader := drop_add_length hword
  rw [← List.cons_append] at hheader
  have hcolon : L.write.drop _ = [':', ' '] ++ L.body := drop_add_length hheader
  have hbody : L.write.drop _ = L.body ++ [] :=
    (drop_add_length hcolon).trans (List.append_nil _).symm
  have hblank := charBefore_of_getLast? hcolon rfl
  obtain ⟨s, spots₁, hstretch₁, hpos, hstarts, hfinds₁, hread₁⟩ := exists_stretch_word hword rfl
  obtain ⟨spots₂, hstretch₂, hfinds₂, -, hread₂⟩ := L.headerStretch rfl hheader
  obtain ⟨spots₃, hstretch₃, hfinds₃, hread₃⟩ := exists_stretch_colon hcolon
  obtain ⟨spots₄, hstretch₄, hfinds₄, hread₄⟩ :=
    L.complete.readsToEnd.exists_stretch hbody (by rw [hblank]; decide) terminates_nil
  refine ⟨s, spots₁ ++ (spots₂ ++ (spots₃ ++ spots₄)), ?_, hpos, hstarts, ?_, ?_⟩
  · have hwhole := hstretch₁.trans (hstretch₂.trans (hstretch₃.trans hstretch₄))
    have hlength : 0 + lambdaWord.length + (' ' :: L.header).length + [':', ' '].length +
        L.body.length = L.write.length := by
      simp only [write, List.length_append, List.length_cons, List.length_nil]
      omega
    rwa [hlength] at hwhole
  · exact hfinds₁.append (hfinds₂.append (hfinds₃.append hfinds₄))
  · rw [← List.cons_append, readExpression_append, hread₁, Option.bind_some, readExpression_append,
      hread₂, Option.bind_some, readExpression_append, hread₃]
    exact hread₄ 0 (Int.le_refl 0)

theorem readsToEnd_write : ReadsToEnd L.write := by
  obtain ⟨s, spots, hstretch, -, -, -, hread⟩ := L.exists_stretch_write
  obtain ⟨hclosed, hfree, hspots⟩ := hstretch.whole
  refine ⟨hclosed, hfree, rfl, ?_, by rw [hspots, hread]⟩
  have hlast : L.write.getLast? = L.body.getLast? := by
    obtain ⟨c, hc, -⟩ := L.complete.readsToEnd.exists_last
    have hparts : L.write = lambdaWord ++ ' ' :: (L.header ++ [':', ' ']) ++ L.body := by
      simp [write]
    rw [hparts, List.getLast?_append, hc, Option.some_or]
  rw [hlast]
  exact L.complete.last

/-- The first anonymous function in the text of one is that one, and the others are those in its defaults
and in its body. -/
theorem ofText_write : LambdaExpressions.ofText L.write = ⟨L.write :: L.nested, none⟩ := by
  obtain ⟨s, spots, hstretch, hpos, hstarts, hfinds, -⟩ := L.exists_stretch_write
  have hapart : (List.getLast? ([] : List Char)).any isWord = false := rfl
  have hends := L.readsToEnd_write.expressionEnd_between hapart terminates_nil
  rw [List.nil_append, List.append_nil, List.length_nil, Nat.zero_add, ← hpos] at hends
  have hslice : slice L.write s.pos L.write.length = L.write := by
    rw [hpos, slice, List.drop_zero, Nat.sub_zero, List.take_length]
  have hwhole := hfinds.cons hstarts hends
  rw [hslice] at hwhole
  exact hwhole.ofText hstretch

/-- The names of the parameters are read between the commas of the header and its colon. -/
theorem partNames_header (hdrop : text.drop i = ' ' :: (L.header ++ ':' :: rest)) :
    partNames (partsBetween text i
      (headerCommas i L.params ++ [i + (' ' :: L.header).length])).dropLast = L.names := by
  obtain ⟨params, body, complete⟩ := L
  cases params with
  | nil =>
      have hspace : slice text i (i + [' '].length) = [' '] := slice_add_length hdrop
      change partNames [slice text i (i + [' '].length)] = []
      rw [hspace]
      rfl
  | cons p params =>
      rw [header, intercalate_write, List.append_assoc, ← List.cons_append] at hdrop
      have hparts := partsBetween_commasAt params i (drop_add_length hdrop)
      rw [slice_add_length hdrop, Nat.add_assoc, ← List.length_append, List.cons_append] at hparts
      rw [header, intercalate_write, headerCommas, hparts, ← List.cons_append, List.dropLast_concat,
        partNames_space_cons]
      exact LambdaParam.partNames_write (p :: params)

/-- The own names of the text of an anonymous function are those of its parameters. -/
theorem ownNames_write : ownNames L.write = L.names := by
  have hword : L.write.drop 0 = lambdaWord ++ ' ' :: (L.header ++ ':' :: ' ' :: L.body) := rfl
  have hheader := drop_add_length hword
  rw [Nat.zero_add] at hheader
  have hcolon : L.write.drop (lambdaWord.length + (' ' :: L.header).length) = ':' :: ' ' :: L.body :=
    drop_add_length hheader
  obtain ⟨spots, hstretch, -, hbears, -⟩ := L.headerStretch rfl hheader
  have hmarks : headerMarks 0 0 (lexAt L.write lambdaWord.length).spots =
      headerCommas lambdaWord.length L.params ++ [lambdaWord.length + (' ' :: L.header).length] := by
    rw [hstretch.spots_eq, hbears, lexAt_of_character hcolon (by decide)]
    rfl
  rw [ownNames, hmarks]
  exact L.partNames_header hheader

end LambdaText

end CallableKinds

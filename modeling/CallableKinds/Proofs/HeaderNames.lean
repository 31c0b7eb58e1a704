import CallableKinds.Proofs.Contexts
import CallableKinds.Proofs.FunctionStubs
import Mathlib.Data.Bool.AllAny

/-!
# Names in the headers of anonymous functions

The header of an anonymous function is cut at the first colon outside of brackets and split at the commas
in front of it. An anonymous function in the default of a parameter has a colon and commas of its own,
which are taken for those of the header: the parameters behind that default are not read, but those of the
function in it but for the first one.
-/

namespace CallableKinds

variable {expression : List Char}

/-! ### Texts of anonymous functions -/

/-- A name in which the word of an anonymous function is not read. -/
structure IsName (name : List Char) : Prop where
  identifier : IsIdentifier name
  wordless : Segments.containsWord lambdaWord none name = false

instance (name : List Char) : Decidable (IsName name) :=
  decidable_of_iff (IsIdentifier name ∧ Segments.containsWord lambdaWord none name = false)
    ⟨fun h => ⟨h.1, h.2⟩, fun h => ⟨h.identifier, h.wordless⟩⟩

/-- A parameter in the header of an anonymous function as it is written: behind some spaces its name, with
stars in front and a complete expression for a default behind. -/
structure LambdaParam where
  gap : Nat
  stars : Fin 3
  name : List Char
  default? : Option (List Char)
  isName : IsName name
  complete : ∀ d ∈ default?, IsExpression d

namespace LambdaParam

/-- The parameter without its default. -/
def front (p : LambdaParam) : List Char :=
  List.replicate p.gap ' ' ++ (List.replicate p.stars '*' ++ p.name)

/-- The written default. -/
def written (p : LambdaParam) : List Char := p.default?.elim [] ('=' :: ·)

/-- The text of the parameter. -/
def write (p : LambdaParam) : List Char := p.front ++ p.written

end LambdaParam

/-- The text of an anonymous function in its parts. -/
structure LambdaText where
  params : List LambdaParam
  body : List Char
  complete : IsExpression body

namespace LambdaText

/-- The parameters with commas in between. -/
def header (L : LambdaText) : List Char := [','].intercalate (L.params.map LambdaParam.write)

/-- The text. -/
def write (L : LambdaText) : List Char := lambdaWord ++ ' ' :: (L.header ++ ':' :: ' ' :: L.body)

/-- The names of the parameters. -/
def names (L : LambdaText) : List (List Char) := L.params.map LambdaParam.name

end LambdaText

/-! ### What is read of a header -/

/-- The names that are read of an anonymous function in a default behind its first comma. -/
def strayNames (default : List Char) : List (List Char) :=
  partNames (topParts [','] (firstPart [':'] default)).tail

/-- What is read behind a parameter if its default has a colon outside of brackets. -/
def LambdaParam.strays? (p : LambdaParam) : Option (List (List Char)) :=
  p.default?.bind fun d => if Undivided [':'] d then none else some (strayNames d)

/-- The names that are read of some parameters. -/
def readNames : List LambdaParam → List (List Char)
  | [] => []
  | p :: rest => p.name :: p.strays?.getD (readNames rest)

/-- The names are read right unless those behind the first default with a colon of its own are not the same
as the names that are read of the default. -/
theorem readNames_eq_iff (params : List LambdaParam) :
    readNames params = params.map LambdaParam.name ↔
      ∀ before p behind strays, params = before ++ p :: behind → (∀ q ∈ before, q.strays? = none) →
        p.strays? = some strays → strays = behind.map LambdaParam.name := by
  induction params with
  | nil => simp [readNames]
  | cons p rest ih =>
      rw [readNames, List.map_cons, List.cons.injEq, and_iff_right rfl]
      cases hstrays : p.strays? with
      | some strays =>
          rw [Option.getD_some]
          constructor
          · intro same before q behind strays' hparts hbefore hq
            cases before with
            | nil =>
                obtain ⟨rfl, rfl⟩ := List.cons.inj hparts
                rw [hstrays, Option.some.injEq] at hq
                exact hq ▸ same
            | cons first before =>
                obtain ⟨rfl, -⟩ := List.cons.inj hparts
                rw [hbefore p List.mem_cons_self] at hstrays
                cases hstrays
          · intro all
            exact all [] p rest strays rfl (List.forall_mem_nil _) hstrays
      | none =>
          rw [Option.getD_none, ih]
          constructor
          · intro all before q behind strays' hparts hbefore hq
            cases before with
            | nil =>
                obtain ⟨rfl, rfl⟩ := List.cons.inj hparts
                rw [hstrays] at hq
                cases hq
            | cons first before =>
                obtain ⟨rfl, rfl⟩ := List.cons.inj hparts
                exact all before q behind strays' rfl (List.forall_mem_cons.mp hbefore).2 hq
          · intro all before q behind strays' hparts hbefore hq
            exact all (p :: before) q behind strays' (by rw [hparts]; rfl)
              (List.forall_mem_cons.mpr ⟨hstrays, hbefore⟩) hq

/-! ### Complete expressions -/

theorem ReadsToEnd.settled (complete : ReadsToEnd expression) : Settled expression := by
  refine ⟨complete.closed, complete.commentFree, ?_⟩
  have hnesting := (of_readExpression complete.read).1
  omega

theorem undivided_iff {separator text : List Char} :
    Undivided separator text ↔ cuts separator 0 (lex text).spots = [] := by
  rw [Undivided, topParts]
  cases cuts separator 0 (lex text).spots with
  | nil => simp
  | cons cut more =>
      refine ⟨fun h => ?_, fun h => absurd h (List.cons_ne_nil _ _)⟩
      exact absurd (List.cons.inj h).2 (partsBetween_ne_nil _ _ _)

/-- In an expression without colons of its own no header is opened at its own level, so it has no commas
there either. -/
theorem cuts_comma_of_read {depth : Nat} {headers : Int} {spots : List Spot} (nonneg : 0 ≤ headers)
    (read : readExpression depth headers spots = some (0, 0)) (colonless : cuts [':'] depth spots = []) :
    headers = 0 ∧ cuts [','] depth spots = [] := by
  induction spots generalizing depth headers with
  | nil =>
      cases read
      exact ⟨rfl, rfl⟩
  | cons s spots ih =>
      obtain ⟨⟨depth', headers'⟩, hstep, hread⟩ := Option.bind_eq_some_iff.mp read
      obtain ⟨hdepth, hheaders, hgoes⟩ := of_expressionStep hstep
      have hspots (separator : List Char) : cuts separator depth (s :: spots) =
          cuts separator depth [s] ++ cuts separator depth' spots := by
        have happend := cuts_append separator depth [s] spots
        rwa [nesting_cons, nesting_nil, Int.add_zero, ← hdepth] at happend
      rw [hspots, List.append_eq_nil_iff] at colonless
      rw [hspots, List.append_eq_nil_iff]
      obtain ⟨rfl, hcuts⟩ := ih (headers_nonneg_of_expressionStep nonneg hstep) hread colonless.2
      have hcolon : ¬ ((depth : Int) = 0 ∧ s.char = ':') := by
        rintro ⟨hlevel, hchar⟩
        have hcut := colonless.1
        simp [cuts, hlevel, hchar, isOpening, isClosing] at hcut
      have hturn : 0 ≤ headerTurn depth s := by
        unfold headerTurn
        grind
      obtain rfl : headers = 0 := by omega
      refine ⟨rfl, ?_, hcuts⟩
      have hcomma : ¬ ([s.char] = [','] ∧ (depth : Int) = 0) := by
        rintro ⟨hchar, hlevel⟩
        exact hgoes ⟨by omega, .inr (.inr (.inr ⟨rfl, .inl (List.singleton_inj.mp hchar)⟩))⟩
      simp only [cuts, if_neg hcomma, ite_self]

theorem ReadsToEnd.undivided (complete : ReadsToEnd expression) (colonless : Undivided [':'] expression) :
    Undivided [','] expression :=
  undivided_iff.mpr (cuts_comma_of_read (Int.le_refl 0) complete.read (undivided_iff.mp colonless)).2

/-! ### The texts of parameters -/

namespace LambdaParam

variable (p : LambdaParam)

theorem char_of_mem_front {c : Char} (member : c ∈ p.front) :
    c = ' ' ∨ c = '*' ∨ isIdentifierChar c = true := by
  rcases List.mem_append.mp member with member | member
  · exact .inl (List.eq_of_mem_replicate member)
  · rcases List.mem_append.mp member with member | member
    · exact .inr (.inl (List.eq_of_mem_replicate member))
    · exact .inr (.inr (p.isName.identifier.2 c member))

theorem isNeutral_of_mem_front {c : Char} (member : c ∈ p.front) : isNeutral c = true ∧ c ≠ ',' := by
  rcases p.char_of_mem_front member with rfl | rfl | letter
  · decide
  · decide
  · exact ⟨isNeutral_of_isIdentifierChar letter, ne_of_isIdentifierChar letter (by decide)⟩

/-- In front of its default a parameter has no separators. -/
theorem plain_front {more : List Char} (plain : ∀ c ∈ more, isNeutral c = true ∧ c ≠ ',') :
    Settled (p.front ++ more) ∧ Undivided [':'] (p.front ++ more) ∧
      Undivided [','] (p.front ++ more) := by
  have hall : ∀ c ∈ p.front ++ more, isNeutral c = true ∧ c ≠ ',' := fun c member =>
    (List.mem_append.mp member).elim p.isNeutral_of_mem_front (plain c)
  have hchars := codeChars_of_plain fun c member => (flat_of_isNeutral (hall c member).1).1
  refine ⟨settled_of_plain fun c member => flat_of_isNeutral (hall c member).1,
    topParts_of_absent fun member => ?_, topParts_of_absent fun member => ?_⟩
  · rw [hchars] at member
    exact ne_of_isNeutral (hall _ member).1 (by decide) rfl
  · rw [hchars] at member
    exact (hall _ member).2 rfl

/-- The blanks around a parameter are trimmed, and only a default may have more of them at its end. -/
theorem exists_trim {more : List Char} (default : more = [] ∨ more.head? = some '=') :
    ∃ more', trim (p.front ++ more) = List.replicate p.stars '*' ++ (p.name ++ more') ∧
      (more' = [] ∨ more'.head? = some '=') := by
  have hspaces (n : Nat) (text : List Char) : trim (List.replicate n ' ' ++ text) = trim text := by
    induction n with
    | zero => rfl
    | succ n ih => rw [List.replicate_succ, List.cons_append, trim_space_cons, ih]
  have hsolid : ∀ c ∈ List.replicate p.stars '*' ++ p.name, isBlank c = false := by
    intro c member
    rcases List.mem_append.mp member with member | member
    · rw [List.eq_of_mem_replicate member]
      decide
    · exact isBlank_of_isIdentifierChar (p.isName.identifier.2 c member)
  have hne : List.replicate p.stars '*' ++ p.name ≠ [] :=
    List.append_ne_nil_of_right_ne_nil _ p.isName.identifier.1
  have hleft : trimLeft (List.replicate p.stars '*' ++ p.name ++ more) =
      List.replicate p.stars '*' ++ p.name ++ more := by
    obtain ⟨c, rest, hc⟩ := List.exists_cons_of_ne_nil hne
    rw [hc, List.cons_append, trimLeft, List.dropWhile_cons_of_neg]
    exact Bool.eq_false_iff.mp (hsolid c (hc ▸ List.mem_cons_self))
  have hright : trimRight (List.replicate p.stars '*' ++ p.name) =
      List.replicate p.stars '*' ++ p.name := by
    rw [trimRight_eq_rdropWhile, List.rdropWhile_eq_self_iff]
    exact fun nonempty => Bool.eq_false_iff.mp (hsolid _ (List.getLast_mem nonempty))
  have htrim : trim (p.front ++ more) =
      if trimRight more = [] then List.replicate p.stars '*' ++ p.name
      else List.replicate p.stars '*' ++ p.name ++ trimRight more := by
    rw [front, List.append_assoc, hspaces, trim, hleft, trimRight_append, hright]
  rcases default with rfl | hmore
  · exact ⟨[], by rw [htrim, List.append_nil]; rfl, .inl rfl⟩
  · obtain ⟨rest, rfl⟩ := List.head?_eq_some_iff.mp hmore
    have hrest : ∃ rest', trimRight ('=' :: rest) = '=' :: rest' := by
      have happend := trimRight_append ['='] rest
      split at happend
      · exact ⟨[], happend⟩
      · exact ⟨_, happend⟩
    obtain ⟨rest', hrest⟩ := hrest
    refine ⟨'=' :: rest', ?_, .inr rfl⟩
    rw [htrim, hrest, if_neg (List.cons_ne_nil _ _), List.append_assoc]

/-- The name of a parameter is read in front of the parts behind it. -/
theorem partNames_cons {more : List Char} (default : more = [] ∨ more.head? = some '=')
    (parts : List (List Char)) :
    partNames ((p.front ++ more) :: parts) = p.name :: partNames parts := by
  obtain ⟨more', htrim, hmore⟩ := p.exists_trim default
  have hmark : (!isMark (trim (p.front ++ more))) = true := by
    obtain ⟨c, hc⟩ := List.exists_mem_of_ne_nil _ p.isName.identifier.1
    rw [htrim, isMark_eq_false (c := c) ?_ (p.isName.identifier.2 c hc)]
    · rfl
    · exact List.mem_append_right _ (List.mem_append_left _ hc)
  rw [partNames, List.map_cons, List.filter_cons, if_pos hmark, List.map_cons, htrim,
    parameterName_of_parts (fun c => List.eq_of_mem_replicate) p.isName.identifier hmore]
  rfl

theorem written_default : p.written = [] ∨ p.written.head? = some '=' := by
  rw [written]
  cases p.default? with
  | none => exact .inl rfl
  | some d => exact .inr rfl

/-- The names of parameters are read in their texts. -/
theorem partNames_write (params : List LambdaParam) :
    partNames (params.map write) = params.map name := by
  induction params with
  | nil => rfl
  | cons p params ih =>
      rw [List.map_cons, List.map_cons, ← ih]
      exact p.partNames_cons p.written_default _

theorem settled_default {d : List Char} (default : p.default? = some d) : Settled d :=
  (p.complete d default).readsToEnd.settled

theorem write_of_default {d : List Char} (default : p.default? = some d) :
    p.write = p.front ++ ['='] ++ d := by
  rw [write, written, default, List.append_assoc]
  rfl

theorem plain_lead : Settled (p.front ++ ['=']) ∧ Undivided [':'] (p.front ++ ['=']) ∧
    Undivided [','] (p.front ++ ['=']) :=
  p.plain_front (List.all_iff_forall_prop.mp rfl)

theorem precedes_default (d : List Char) : Precedes (p.front ++ ['=']) d := by
  refine .of_plain (fun c member => ?_) d
  rcases List.mem_append.mp member with member | member
  · exact (flat_of_isNeutral (p.isNeutral_of_mem_front member).1).1
  · rw [List.mem_singleton.mp member]
    decide

/-- A parameter without a default has no separators at all. -/
theorem plain_write (absent : p.default? = none) :
    Settled p.write ∧ Undivided [':'] p.write ∧ Undivided [','] p.write := by
  rw [write, written, absent]
  exact p.plain_front (List.forall_mem_nil _)

theorem settled_write : Settled p.write := by
  cases hdefault : p.default? with
  | none => exact (p.plain_write hdefault).1
  | some d =>
      rw [p.write_of_default hdefault]
      exact p.plain_lead.1.append (p.settled_default hdefault) (p.precedes_default d)

/-- A parameter whose default has no colon of its own has no separators either. -/
theorem undivided_write (colonless : p.strays? = none) :
    Undivided [':'] p.write ∧ Undivided [','] p.write := by
  cases hdefault : p.default? with
  | none => exact (p.plain_write hdefault).2
  | some d =>
      obtain ⟨hlead, hcolon, hcomma⟩ := p.plain_lead
      have hd : Undivided [':'] d := by
        rw [strays?, hdefault, Option.bind_some] at colonless
        split at colonless
        · assumption
        · cases colonless
      have hd' : Undivided [','] d := (p.complete d hdefault).readsToEnd.undivided hd
      rw [p.write_of_default hdefault, undivided_append_iff (p.precedes_default d) hlead.balanced hcolon,
        undivided_append_iff (p.precedes_default d) hlead.balanced hcomma]
      exact ⟨hd, hd'⟩

/-- A parameter whose default has a colon of its own ends there for the reader of a header. -/
theorem exists_of_strays {strays : List (List Char)} (colon : p.strays? = some strays) :
    ¬ Undivided [':'] p.write ∧ ∃ parts, Settled (firstPart [':'] p.write) ∧
      topParts [','] (firstPart [':'] p.write) = parts ∧ partNames parts = p.name :: strays := by
  obtain ⟨d, hdefault, hcolon⟩ := Option.bind_eq_some_iff.mp colon
  split at hcolon
  next => cases hcolon
  next hd =>
      obtain ⟨hlead, hwhole, hcomma⟩ := p.plain_lead
      have hprecedes := p.precedes_default
      obtain rfl := Option.some.inj hcolon
      have hdivided : ¬ Undivided [':'] p.write := by
        rw [p.write_of_default hdefault, undivided_append_iff (hprecedes d) hlead.balanced hwhole]
        exact hd
      refine ⟨hdivided, _, p.settled_write.firstPart, rfl, ?_⟩
      rw [p.write_of_default hdefault, firstPart_append (hprecedes d) hlead.balanced, if_pos hwhole,
        topParts_append (hprecedes _) hlead.balanced, hcomma, glue, strayNames]
      cases hparts : topParts [','] (firstPart [':'] d) with
      | nil => exact absurd hparts (topParts_ne_nil _ _)
      | cons first parts =>
          rw [List.modifyHead_cons, List.append_assoc, List.tail_cons]
          exact p.partNames_cons (.inr rfl) parts

end LambdaParam

/-! ### Headers -/

/-- What stands behind a character that is no separator belongs to the same part. -/
theorem firstPart_cons {c d : Char} (plain : (isQuote c = false ∧ c ≠ '#') ∧ bracketTurn c = 0)
    (other : c ≠ d) (text : List Char) : firstPart [d] (c :: text) = c :: firstPart [d] text := by
  have hsettled : Settled [c] := settled_of_plain (by simpa using plain)
  have hundivided : Undivided [d] [c] := by
    refine topParts_of_absent fun member => ?_
    rw [codeChars_of_plain (by simpa using plain.1)] at member
    exact other (List.mem_singleton.mp member).symm
  have happend : firstPart [d] ([c] ++ text) = _ :=
    firstPart_append (.of_code plain.1 text) hsettled.balanced
  rwa [if_pos hundivided] at happend

/-- Behind the first parameter of a header a comma stands in front of the others. -/
theorem exists_behind (p : LambdaParam) (rest : List LambdaParam) :
    ∃ behind, [','].intercalate ((p :: rest).map LambdaParam.write) = p.write ++ behind ∧
      (behind = [] ∧ rest = [] ∨
        behind = ',' :: [','].intercalate (rest.map LambdaParam.write) ∧ rest ≠ []) := by
  cases rest with
  | nil =>
      refine ⟨[], ?_, .inl ⟨rfl, rfl⟩⟩
      rw [List.map_singleton, List.intercalate_singleton, List.append_nil]
  | cons next rest =>
      refine ⟨_, ?_, .inr ⟨rfl, List.cons_ne_nil _ _⟩⟩
      rw [List.map_cons, List.map_cons, List.intercalate_cons_cons, List.append_assoc]
      rfl

/-- The part of a header that is read is made of texts without separators between them, and the names of
the parameters are read from these. -/
theorem exists_texts (params : List LambdaParam) :
    ∃ texts, (∀ text ∈ texts, Settled text) ∧ (texts = [] ↔ params = []) ∧
      firstPart [':'] ([','].intercalate (params.map LambdaParam.write)) = [','].intercalate texts ∧
      partNames (texts.flatMap (topParts [','])) = readNames params := by
  induction params with
  | nil => exact ⟨[], List.forall_mem_nil _, by simp, rfl, rfl⟩
  | cons p rest ih =>
      obtain ⟨behind, hheader, hrest⟩ := exists_behind p rest
      have hprecedes : Precedes p.write behind := by
        refine .of_leadsOn p.settled_write.leadsOn fun q hq hhead => ?_
        rcases hrest with ⟨rfl, -⟩ | ⟨rfl, -⟩
        · cases hhead
        · cases hhead
          cases hq
      rw [hheader, firstPart_append hprecedes p.settled_write.balanced, readNames]
      cases hstrays : p.strays? with
      | some strays =>
          -- The default of this parameter has a colon, and nothing behind that is read.
          obtain ⟨hdivided, parts, hsettled, hparts, hnames⟩ := p.exists_of_strays hstrays
          refine ⟨[firstPart [':'] p.write], by simpa using hsettled, by simp, ?_, ?_⟩
          · rw [if_neg hdivided, List.intercalate_singleton]
          · rw [List.flatMap_singleton, hparts, hnames, Option.getD_some]
      | none =>
          obtain ⟨texts, hsettled, hempty, htexts, hnames⟩ := ih
          obtain ⟨hcolon, hcomma⟩ := p.undivided_write hstrays
          refine ⟨p.write :: texts, List.forall_mem_cons.mpr ⟨p.settled_write, hsettled⟩, by simp, ?_, ?_⟩
          · rw [if_pos hcolon]
            rcases hrest with ⟨rfl, hrest⟩ | ⟨rfl, hrest⟩
            · rw [hempty.mpr hrest, List.intercalate_singleton]
              exact List.append_nil _
            · obtain ⟨text, texts, rfl⟩ := List.exists_cons_of_ne_nil (hempty.not.mpr hrest)
              rw [firstPart_cons (by decide) (by decide), htexts, List.intercalate_cons_cons,
                List.append_assoc]
              rfl
          · rw [List.flatMap_cons, hcomma, List.singleton_append, Option.getD_none, ← hnames]
            exact p.partNames_cons p.written_default _

theorem headerNames_eq {rest : List Char} (closed : (lex rest).unclosed = none) :
    headerNames (lambdaWord ++ rest) = parameterNames (firstPart [':'] rest) := by
  rw [headerNames, List.drop_left, splitTopLevel_eq, Lexed.finish, closed]
  rfl

/-- The names of a header can be read in any closed text. -/
theorem exists_headerNames {rest : List Char} (closed : (lex rest).unclosed = none) :
    ∃ names, headerNames (lambdaWord ++ rest) = .ok names := by
  rw [headerNames_eq closed, parameterNames_eq, splitTopLevel_eq, Lexed.finish,
    unclosed_firstPart closed]
  exact ⟨_, rfl⟩

theorem partNames_space_cons (part : List Char) (parts : List (List Char)) :
    partNames ((' ' :: part) :: parts) = partNames (part :: parts) := by
  rw [partNames, List.map_cons, trim_space_cons]
  rfl

/-- Blanks in front of a parameter list do not matter. -/
theorem parameterNames_space_cons {texts : List (List Char)} (settled : ∀ text ∈ texts, Settled text) :
    parameterNames (' ' :: [','].intercalate texts) =
      .ok (partNames (texts.flatMap (topParts [',']))) := by
  cases texts with
  | nil => rfl
  | cons text texts =>
      obtain ⟨htext, htexts⟩ := List.forall_mem_cons.mp settled
      have hspace : Settled [' '] := settled_of_plain (List.all_iff_forall_prop.mp rfl)
      have hprecedes : Precedes [' '] text := .of_plain (List.all_iff_forall_prop.mp rfl) text
      have hfirst : ' ' :: [','].intercalate (text :: texts) =
          [','].intercalate ((' ' :: text) :: texts) := by
        cases texts <;> simp [List.intercalate_cons_cons]
      have hparts : topParts [','] (' ' :: text) = glue [[' ']] (topParts [','] text) :=
        topParts_append hprecedes hspace.balanced
      have hsplit : splitTopLevel ([','].intercalate ((' ' :: text) :: texts)) [','] =
          .ok (((' ' :: text) :: texts).flatMap (topParts [','])) :=
        splitTopLevel_intercalate
          (List.forall_mem_cons.mpr ⟨hspace.append htext hprecedes, htexts⟩) (by decide) rfl
          (List.cons_ne_nil _ _)
      rw [hfirst, parameterNames_eq, hsplit, List.flatMap_cons, List.flatMap_cons, hparts]
      cases htext : topParts [','] text with
      | nil => exact absurd htext (topParts_ne_nil _ _)
      | cons first parts =>
          exact congrArg Except.ok (partNames_space_cons first _)

/-- What is read as the names of the parameters of an anonymous function. -/
theorem LambdaText.headerNames_write (L : LambdaText) :
    headerNames L.write = .ok (readNames L.params) := by
  obtain ⟨texts, hsettled, -, htexts, hnames⟩ := exists_texts L.params
  have hheader : Settled L.header := by
    refine settled_intercalate (fun text member => ?_) (by decide) rfl
    obtain ⟨p, -, rfl⟩ := List.mem_map.mp member
    exact p.settled_write
  have hbody : Settled (':' :: ' ' :: L.body) := by
    have hmark : Settled [':', ' '] := settled_of_plain (List.all_iff_forall_prop.mp rfl)
    have hprecedes : Precedes [':', ' '] L.body := .of_plain (List.all_iff_forall_prop.mp rfl) L.body
    exact hmark.append L.complete.readsToEnd.settled hprecedes
  have hcolon : Precedes L.header (':' :: ' ' :: L.body) :=
    .of_leadsOn hheader.leadsOn (by rintro q hq ⟨⟩; cases hq)
  have hclosed : (lex (' ' :: (L.header ++ ':' :: ' ' :: L.body))).unclosed = none := by
    have hspace : Precedes [' '] (L.header ++ ':' :: ' ' :: L.body) :=
      .of_plain (List.all_iff_forall_prop.mp rfl) _
    exact hspace.unclosed.trans (hheader.append hbody hcolon).closed
  have hfirst : firstPart [':'] (L.header ++ ':' :: ' ' :: L.body) = firstPart [':'] L.header := by
    rw [firstPart, topParts_append_cons hcolon hheader.balanced (by decide) rfl, firstPart]
    cases hparts : topParts [':'] L.header with
    | nil => exact absurd hparts (topParts_ne_nil _ _)
    | cons first parts => rfl
  rw [write, headerNames_eq hclosed, firstPart_cons (by decide) (by decide), hfirst, header, htexts,
    parameterNames_space_cons hsettled, hnames]

end CallableKinds

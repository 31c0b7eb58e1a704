import CallableKinds.Proofs.Boundaries
import CallableKinds.Proofs.Excerpts
import CallableKinds.Proofs.Nested
import CallableKinds.Proofs.Renaming
import CallableKinds.Proofs.Spacing
import CallableKinds.Proofs.Splitting
import CallableKinds.Proofs.Stubs
import Mathlib.Data.Bool.AllAny

/-!
# Stubs of functions

What is printed in the stub of a function is read again: the name and the flavor in front of the
parameters, the written signature, and the names in it in their order. For a function with a name this
holds whatever its parameters are called. The stub of an anonymous function can be scanned unless the word
of an anonymous function is read in the name of a parameter, which takes a character that a program may
use in an identifier but that counts for none of a word.
-/

namespace CallableKinds

/-! ### Identifiers -/

/-- A character of an identifier: a letter, a digit or an underscore. Of the characters that are not ASCII
all but the blanks are let in here, more than a program may use. -/
def isIdentifierChar (c : Char) : Bool :=
  if c.toNat < 0x80 then c.isAlphanum || c == '_' else !isBlank c

/-- A name that is made of the characters of identifiers. -/
def IsIdentifier (name : List Char) : Prop := name ≠ [] ∧ ∀ c ∈ name, isIdentifierChar c = true

instance (name : List Char) : Decidable (IsIdentifier name) :=
  decidable_of_iff (name ≠ [] ∧ name.all isIdentifierChar = true)
    (and_congr_right fun _ => List.all_eq_true)

theorem isBlank_of_isIdentifierChar {c : Char} (h : isIdentifierChar c = true) : isBlank c = false := by
  have hblanks : ∀ n ∈ blankCodes, isIdentifierChar (Char.ofNat n) = false := by decide +kernel
  rw [← Bool.not_eq_true]
  intro blank
  obtain ⟨n, hn, rfl⟩ := exists_of_isBlank blank
  rw [hblanks n hn] at h
  cases h

theorem ne_of_isIdentifierChar {c d : Char} (h : isIdentifierChar c = true)
    (special : isIdentifierChar d = false) : c ≠ d := by
  rintro rfl
  rw [special] at h
  cases h

/-- The marks that stand around the names in a signature are no characters of identifiers. -/
theorem isNeutral_of_isIdentifierChar {c : Char} (h : isIdentifierChar c = true) :
    isNeutral c = true := by
  have hne {d : Char} (special : isIdentifierChar d = false) : (c == d) = false :=
    beq_false_of_ne (ne_of_isIdentifierChar h special)
  simp only [isNeutral, isQuote, isOpening, isClosing, bne, Bool.and_eq_true, Bool.not_eq_true',
    Bool.or_eq_false_iff]
  refine ⟨⟨⟨⟨⟨⟨?_, ?_⟩, ⟨?_, ?_⟩, ?_⟩, ⟨?_, ?_⟩, ?_⟩, ?_⟩, ?_⟩, ?_⟩ <;> exact hne (by decide)

theorem ne_of_isNeutral {c d : Char} (neutral : isNeutral c = true) (special : isNeutral d = false) :
    c ≠ d := by
  rintro rfl
  rw [special] at neutral
  cases neutral

theorem flat_of_isNeutral {c : Char} (neutral : isNeutral c = true) :
    (isQuote c = false ∧ c ≠ '#') ∧ bracketTurn c = 0 := by
  simp only [isNeutral, Bool.and_eq_true, Bool.not_eq_true', bne_iff_ne] at neutral
  obtain ⟨⟨⟨⟨⟨hquote, hopen⟩, hclose⟩, hhash⟩, -⟩, -⟩ := neutral
  refine ⟨⟨hquote, hhash⟩, ?_⟩
  rw [bracketTurn, hopen, hclose]
  rfl

/-! ### Names in the parts of a parameter list -/

theorem trim_of_solid {text : List Char} (nonempty : text ≠ [])
    (solid : ∀ c ∈ text, isBlank c = false) : trim text = text :=
  trim_of_ends (List.head?_eq_some_head nonempty) (List.getLast?_eq_getLast_of_ne_nil nonempty)
    (solid _ (List.head_mem nonempty)) (solid _ (List.getLast_mem nonempty))

/-- Whether a part of a parameter list is a mark between the parameters. -/
def isMark (part : List Char) : Bool := ([[], ['/'], ['*']] : List (List Char)).contains part

/-- The names of the parameters in the parts of a parameter list. -/
def partNames (parts : List (List Char)) : List (List Char) :=
  ((parts.map trim).filter fun part => !isMark part).map parameterName

theorem parameterNames_eq (params : List Char) :
    parameterNames params = (splitTopLevel params [',']).map partNames := by
  rw [parameterNames]
  cases splitTopLevel params [','] <;> rfl

theorem isMark_eq_false {part : List Char} {c : Char} (member : c ∈ part)
    (letter : isIdentifierChar c = true) : isMark part = false := by
  rw [isMark, ← Bool.not_eq_true, List.contains_iff_mem]
  intro hmark
  simp only [List.mem_cons, List.not_mem_nil, or_false] at hmark
  rcases hmark with rfl | rfl | rfl
  · cases member
  · exact ne_of_isIdentifierChar letter (by decide) (List.mem_singleton.mp member)
  · exact ne_of_isIdentifierChar letter (by decide) (List.mem_singleton.mp member)

/-- The name of a parameter stands between the stars in front of it and the default behind it. -/
theorem parameterName_of_parts {stars name more : List Char} (starry : ∀ c ∈ stars, c = '*')
    (identifier : IsIdentifier name) (default : more = [] ∨ more.head? = some '=') :
    parameterName (stars ++ (name ++ more)) = name := by
  have hstarless : (stars ++ (name ++ more)).dropWhile (· == '*') = name ++ more := by
    obtain ⟨c, rest, hname⟩ := List.exists_cons_of_ne_nil identifier.1
    have hc : c ≠ '*' :=
      ne_of_isIdentifierChar (identifier.2 c (hname ▸ List.mem_cons_self)) (by decide)
    rw [List.dropWhile_append_of_pos fun c hc => beq_iff_eq.mpr (starry c hc), hname, List.cons_append,
      List.dropWhile_cons_of_neg (by simpa using hc)]
  have hname : (name ++ more).takeWhile (· != '=') = name := by
    rw [List.takeWhile_append_of_pos fun c member =>
      bne_iff_ne.mpr (ne_of_isIdentifierChar (identifier.2 c member) (by decide))]
    rcases default with rfl | hmore
    · exact List.append_nil _
    · obtain ⟨rest, rfl⟩ := List.head?_eq_some_iff.mp hmore
      exact List.append_nil _
  rw [parameterName, hstarless, hname, trim_of_solid identifier.1 fun c member =>
    isBlank_of_isIdentifierChar (identifier.2 c member)]

/-! ### Entries of a signature -/

namespace Param

/-- The stars in front of the name of a parameter. -/
def stars (p : Param) : List Char :=
  match p.kind with
  | .variadic => ['*']
  | .keywords => ['*', '*']
  | _ => []

/-- What stands for the default of a parameter. -/
def written (p : Param) : List Char :=
  match p.kind with
  | .variadic | .keywords => []
  | _ => if p.hasDefault then "=...".toList else []

theorem toList_print (p : Param) : p.print.toList = p.stars ++ (p.name.toList ++ p.written) := by
  obtain ⟨name, kind, hasDefault⟩ := p
  cases kind <;> cases hasDefault <;> simp [print, stars, written]

theorem stars_cases (p : Param) : p.stars = [] ∨ p.stars = ['*'] ∨ p.stars = ['*', '*'] := by
  unfold stars
  split <;> simp

theorem written_cases (p : Param) : p.written = [] ∨ p.written = "=...".toList := by
  unfold written
  split <;> try split
  all_goals simp

end Param

/-- What stands between the commas of a signature: no blanks and nothing that is noticed there. -/
structure IsEntry (entry : List Char) : Prop where
  nonempty : entry ≠ []
  solid : ∀ c ∈ entry, isBlank c = false
  plain : ∀ c ∈ entry, isNeutral c = true ∧ c ≠ ','

theorem isEntry_print {p : Param} (identifier : IsIdentifier p.name.toList) : IsEntry p.print.toList := by
  have hmarks : ∀ c ∈ p.stars ++ p.written, isBlank c = false ∧ isNeutral c = true ∧ c ≠ ',' := by
    rcases p.stars_cases with h | h | h <;> rcases p.written_cases with h' | h' <;> rw [h, h'] <;>
      exact List.all_iff_forall_prop.mp rfl
  have hall : ∀ c ∈ p.print.toList, isBlank c = false ∧ isNeutral c = true ∧ c ≠ ',' := by
    intro c member
    rw [p.toList_print, List.mem_append, List.mem_append] at member
    rcases member with member | member | member
    · exact hmarks c (List.mem_append_left _ member)
    · have hc := identifier.2 c member
      exact ⟨isBlank_of_isIdentifierChar hc, isNeutral_of_isIdentifierChar hc,
        ne_of_isIdentifierChar hc (by decide)⟩
    · exact hmarks c (List.mem_append_right _ member)
  refine ⟨?_, fun c member => (hall c member).1, fun c member => (hall c member).2⟩
  rw [p.toList_print]
  exact List.append_ne_nil_of_right_ne_nil _ (List.append_ne_nil_of_left_ne_nil identifier.1 _)

namespace Signature

/-- The names of the parameters are identifiers. -/
def Identified (s : Signature) : Prop := ∀ p ∈ s, IsIdentifier p.name.toList

instance (s : Signature) : Decidable s.Identified := List.decidableBAll _ _

theorem Identified.named {s : Signature} (identified : s.Identified) : s.Named :=
  fun p hp c member => isNeutral_of_isIdentifierChar ((identified p hp).2 c member)

theorem isEntry_of_mem {s : Signature} (identified : s.Identified) {slash starred : Bool}
    {entry : String} (member : entry ∈ entries slash starred s) : IsEntry entry.toList := by
  rcases entry_cases member with rfl | rfl | ⟨p, hp, rfl⟩
  · exact ⟨by decide, List.all_iff_forall_prop.mp rfl, List.all_iff_forall_prop.mp rfl⟩
  · exact ⟨by decide, List.all_iff_forall_prop.mp rfl, List.all_iff_forall_prop.mp rfl⟩
  · exact isEntry_print (identified p hp)

/-- The entries of a signature are the parameters, but for the marks between them. -/
theorem filter_entries {s : Signature} (identified : s.Identified) (slash starred : Bool) :
    ((entries slash starred s).map String.toList).filter (fun part => !isMark part) =
      s.map (·.print.toList) := by
  have hslash (slash : Bool) : ((if slash then ["/"] else []).map String.toList).filter
      (fun part => !isMark part) = [] := by
    cases slash <;> rfl
  have hstar (starred : Bool) : ((if starred then [] else ["*"]).map String.toList).filter
      (fun part => !isMark part) = [] := by
    cases starred <;> rfl
  induction s generalizing slash starred with
  | nil => exact hslash slash
  | cons p rest ih =>
      obtain ⟨hp, hrest⟩ := List.forall_mem_cons.mp identified
      have hprint : (!isMark p.print.toList) = true := by
        obtain ⟨c, hc⟩ := List.exists_mem_of_ne_nil _ hp.1
        rw [isMark_eq_false (c := c) ?_ (hp.2 c hc)]
        · rfl
        · rw [p.toList_print]
          exact List.mem_append_right _ (List.mem_append_left _ hc)
      have hlater (slash starred : Bool) :
          ((p.print :: entries slash starred rest).map String.toList).filter
            (fun part => !isMark part) = (p :: rest).map (·.print.toList) := by
        rw [List.map_cons, List.filter_cons, if_pos hprint, ih hrest, List.map_cons]
      rw [entries]
      split
      · exact hlater true starred
      · rw [List.map_append, List.filter_append, hslash, List.nil_append, hlater]
      · rw [List.map_append, List.map_append, List.filter_append, List.filter_append, hslash, hstar,
          List.nil_append, List.nil_append, hlater]
      · rw [List.map_append, List.filter_append, hslash, List.nil_append, hlater]

end Signature

/-! ### The list of the entries -/

/-- Texts with commas and spaces in between. -/
def commaList (parts : List (List Char)) : List Char := [',', ' '].intercalate parts

theorem commaList_cons_cons (part next : List Char) (parts : List (List Char)) :
    commaList (part :: next :: parts) = part ++ ',' :: ' ' :: commaList (next :: parts) := by
  rw [commaList, List.intercalate_cons_cons, List.append_assoc]
  rfl

/-- With the spaces counted to the parts behind them, only commas stand between the parts. -/
theorem commaList_cons (part : List Char) (parts : List (List Char)) :
    commaList (part :: parts) = [','].intercalate (part :: parts.map (' ' :: ·)) := by
  induction parts generalizing part with
  | nil => rfl
  | cons next parts ih =>
      have hnext : ' ' :: commaList (next :: parts) =
          [','].intercalate ((' ' :: next) :: parts.map (' ' :: ·)) := by
        rw [ih]
        cases parts <;> simp [List.intercalate_cons_cons]
      rw [commaList_cons_cons, hnext, List.map_cons, List.intercalate_cons_cons, List.append_assoc]
      rfl

variable {parts : List (List Char)}

theorem IsEntry.head? {entry : List Char} (h : IsEntry entry) (back : List Char) :
    (entry ++ back).head?.any isBlank = false := by
  obtain ⟨c, entry, rfl⟩ := List.exists_cons_of_ne_nil h.nonempty
  exact h.solid c List.mem_cons_self

/-- Nothing is collapsed in a list of entries. -/
theorem collapse_commaList (each : ∀ part ∈ parts, IsEntry part) :
    collapse (commaList parts) = commaList parts := by
  have hsolid {part : List Char} (h : IsEntry part) : collapse part = part := by
    have happend := collapse_append_of_solid h.solid []
    rwa [List.append_nil, collapse_nil, List.append_nil] at happend
  induction parts with
  | nil => rfl
  | cons part parts ih =>
      obtain ⟨hpart, hparts⟩ := List.forall_mem_cons.mp each
      cases parts with
      | nil =>
          rw [commaList, List.intercalate_singleton]
          exact hsolid hpart
      | cons next parts =>
          have hhead : (commaList (next :: parts)).head?.any isBlank = false := by
            have hnext := (hparts next List.mem_cons_self).head?
            cases parts with
            | nil =>
                rw [commaList, List.intercalate_singleton, ← List.append_nil next]
                exact hnext []
            | cons last parts =>
                rw [commaList_cons_cons]
                exact hnext _
          rw [commaList_cons_cons, collapse_append_of_solid hpart.solid,
            collapse_cons_of_not_blank _ (by decide), collapse_space_cons hhead, ih hparts]

theorem trim_space_cons (text : List Char) : trim (' ' :: text) = trim text := by
  rw [trim, trim, trimLeft, trimLeft, List.dropWhile_cons_of_pos isBlank_space]

/-- A list of entries is split into them again. -/
theorem exists_splitTopLevel_commaList (each : ∀ part ∈ parts, IsEntry part) :
    ∃ split, splitTopLevel (commaList parts) [','] = .ok split ∧
      split.map trim = if parts = [] then [[]] else parts := by
  cases parts with
  | nil => exact ⟨[[]], rfl, rfl⟩
  | cons part parts =>
      obtain ⟨hpart, hparts⟩ := List.forall_mem_cons.mp each
      have hplain : ∀ text ∈ part :: parts.map (' ' :: ·), ∀ c ∈ text,
          ((isQuote c = false ∧ c ≠ '#') ∧ bracketTurn c = 0) ∧ c ≠ ',' := by
        have hentry {entry : List Char} (h : IsEntry entry) (c : Char) (member : c ∈ entry) :
            ((isQuote c = false ∧ c ≠ '#') ∧ bracketTurn c = 0) ∧ c ≠ ',' :=
          (h.plain c member).imp_left flat_of_isNeutral
        refine List.forall_mem_cons.mpr ⟨hentry hpart, fun text member => ?_⟩
        obtain ⟨entry, hentry', rfl⟩ := List.mem_map.mp member
        exact List.forall_mem_cons.mpr ⟨by decide, hentry (hparts entry hentry')⟩
      have hsplit := splitTopLevel_intercalate (c := ',')
        (fun text member => settled_of_plain fun c hc => (hplain text member c hc).1) (by decide) rfl
        (List.cons_ne_nil _ _)
      have hwhole : (part :: parts.map (' ' :: ·)).flatMap (topParts [',']) =
          part :: parts.map (' ' :: ·) := by
        refine Eq.trans (List.flatMap_congr fun text member => ?_) (List.flatMap_singleton' _)
        refine topParts_of_absent fun hcomma => ?_
        rw [codeChars_of_plain fun c hc => (hplain text member c hc).1.1] at hcomma
        exact (hplain text member ',' hcomma).2 rfl
      rw [← commaList_cons, hwhole] at hsplit
      refine ⟨_, hsplit, ?_⟩
      rw [if_neg (List.cons_ne_nil _ _), List.map_cons, List.map_map,
        trim_of_solid hpart.nonempty hpart.solid]
      refine congrArg _ ((List.map_congr_left fun entry member => ?_).trans (List.map_id _))
      obtain ⟨hnonempty, hsolid, -⟩ := hparts entry member
      exact (trim_space_cons entry).trans (trim_of_solid hnonempty hsolid)

/-! ### Names that are read again -/

theorem parameterName_print {p : Param} (identifier : IsIdentifier p.name.toList) :
    parameterName p.print.toList = p.name.toList := by
  rw [p.toList_print]
  refine parameterName_of_parts ?_ identifier (p.written_cases.imp_right fun h => by rw [h]; rfl)
  rcases p.stars_cases with h | h | h <;> rw [h] <;> simp

namespace Signature

variable {s : Signature}

theorem toList_printParams (s : Signature) :
    s.printParams.toList = commaList ((entries false false s).map String.toList) :=
  String.toList_intercalate

theorem isEntry_of_mem_map (identified : s.Identified) :
    ∀ part ∈ (entries false false s).map String.toList, IsEntry part := by
  intro part member
  obtain ⟨entry, hentry, rfl⟩ := List.mem_map.mp member
  exact isEntry_of_mem identified hentry

/-- The names of the parameters are read from a written signature in their order. -/
theorem parameterNames_printParams (identified : s.Identified) :
    parameterNames s.printParams.toList = .ok s.names := by
  obtain ⟨split, hsplit, htrim⟩ := exists_splitTopLevel_commaList (isEntry_of_mem_map identified)
  have hparts : (split.map trim).filter (fun part => !isMark part) = s.map (·.print.toList) := by
    rw [htrim, ← filter_entries identified false false]
    split
    next hempty => rw [hempty]; rfl
    next => rfl
  have hnames : (s.map (·.print.toList)).map parameterName = s.names := by
    rw [List.map_map]
    exact List.map_congr_left fun p hp => parameterName_print (identified p hp)
  rw [parameterNames_eq, s.toList_printParams, hsplit]
  change Except.ok (((split.map trim).filter _).map parameterName) = _
  rw [hparts, hnames]

end Signature

/-! ### The word of an anonymous function in the names of parameters -/

namespace Segments

variable {word front back : List Char} {before : Option Char}

/-- What stands in front of a text matters only if a word goes over into it. -/
theorem containsWord_of_not_inside (letters : ∀ c ∈ word, isWord c = true) (nonempty : word ≠ [])
    (cut : ¬ (before.any isWord = true ∧ back.head?.any isWord = true)) :
    containsWord word before back = containsWord word none back := by
  cases back with
  | nil => rfl
  | cons c rest =>
      have hstarts : startsWord word before (c :: rest) = startsWord word none (c :: rest) := by
        have happend : startsWord word before (c :: rest ++ []) = startsWord word none (c :: rest) :=
          startsWord_append (List.cons_ne_nil c rest) letters (fun h => Bool.false_ne_true h.2)
            fun starts => by
            obtain ⟨w, word, rfl⟩ := List.exists_cons_of_ne_nil nonempty
            obtain ⟨rfl, -⟩ := List.cons_prefix_cons.mp starts
            exact Bool.eq_false_iff.mpr fun hbefore => cut ⟨hbefore, letters w List.mem_cons_self⟩
        rwa [List.append_nil] at happend
      rw [containsWord, containsWord, hstarts]

/-- A word stands in one of two texts that no word goes over. -/
theorem containsWord_append (letters : ∀ c ∈ word, isWord c = true) (nonempty : word ≠ [])
    (ahead : front ≠ []) (cut : SplitsNoWord front back) :
    containsWord word before (front ++ back) =
      (containsWord word before front || containsWord word none back) := by
  induction front generalizing before with
  | nil => exact absurd rfl ahead
  | cons c front ih =>
      have hstarts : startsWord word before (c :: front ++ back) = startsWord word before (c :: front) :=
        startsWord_append (List.cons_ne_nil _ _) letters cut fun _ => rfl
      have hlater : containsWord word (some c) (front ++ back) =
          (containsWord word (some c) front || containsWord word none back) := by
        cases front with
        | nil => exact containsWord_of_not_inside letters nonempty cut
        | cons d front => exact ih (List.cons_ne_nil _ _) cut
      rw [List.cons_append, containsWord, ← List.cons_append, hstarts, hlater, containsWord,
        Bool.or_assoc]

/-- Behind marks a word stands where it does in the text behind them. -/
theorem containsWord_marks_append {marks : List Char} (letters : ∀ c ∈ word, isWord c = true)
    (nonempty : word ≠ []) (some : marks ≠ []) (plain : ∀ c ∈ marks, isWord c = false) :
    containsWord word before (marks ++ back) = containsWord word none back := by
  induction marks generalizing before with
  | nil => exact absurd rfl some
  | cons c marks ih =>
      obtain ⟨hc, hmarks⟩ := List.forall_mem_cons.mp plain
      have hstarts : startsWord word before (c :: (marks ++ back)) = false := by
        obtain ⟨w, word, rfl⟩ := List.exists_cons_of_ne_nil nonempty
        have hne : w ≠ c := by
          rintro rfl
          rw [letters w List.mem_cons_self] at hc
          cases hc
        simp [startsWord, List.isPrefixOf, hne]
      rw [List.cons_append, containsWord, hstarts, Bool.false_or]
      cases marks with
      | nil => exact containsWord_of_not_inside letters nonempty (by simp [hc])
      | cons d marks => exact ih (List.cons_ne_nil _ _) hmarks

/-- Between the characters of a word no other word begins. -/
theorem containsWord_of_inside {text : List Char} (inside : before.any isWord = true)
    (letters : ∀ c ∈ text, isWord c = true) : containsWord word before text = false := by
  induction text generalizing before with
  | nil => rfl
  | cons c text ih =>
      obtain ⟨hc, htext⟩ := List.forall_mem_cons.mp letters
      have hlater : containsWord word (some c) text = false := ih hc htext
      rw [containsWord, startsWord, inside, hlater]
      simp

/-- A name without other characters than those of words contains no word but itself. -/
theorem containsWord_of_letters {name : List Char} (letters : ∀ c ∈ name, isWord c = true)
    (other : name ≠ word) : containsWord word none name = false := by
  cases name with
  | nil => rfl
  | cons c name =>
      have hlater : containsWord word (some c) name = false :=
        containsWord_of_inside (letters c List.mem_cons_self)
          fun d hd => letters d (List.mem_cons_of_mem c hd)
      rw [containsWord, hlater, Bool.or_false, startsWord, Option.any_none, Bool.not_false,
        Bool.and_true, Bool.and_eq_false_iff]
      by_cases hprefix : word <+: c :: name
      · right
        obtain ⟨more, hmore⟩ := hprefix
        rw [← hmore, List.drop_left]
        cases more with
        | nil => exact absurd (hmore.symm.trans (List.append_nil _)) other
        | cons d more =>
            have hd : isWord d = true :=
              letters d (hmore ▸ List.mem_append_right word List.mem_cons_self)
            rw [List.head?_cons, Option.any_some, hd]
            rfl
      · exact .inl (Bool.eq_false_iff.mpr (mt List.isPrefixOf_iff_prefix.mp hprefix))

theorem containsWord_print (p : Param) :
    containsWord lambdaWord none p.print.toList = containsWord lambdaWord none p.name.toList := by
  have hwritten : containsWord lambdaWord none (p.name.toList ++ p.written) =
      containsWord lambdaWord none p.name.toList := by
    rcases p.written_cases with h | h
    · rw [h, List.append_nil]
    · rw [h]
      by_cases hname : p.name.toList = []
      · rw [hname]
        decide
      · have hcut : SplitsNoWord p.name.toList "=...".toList := fun ends => Bool.false_ne_true ends.2
        rw [containsWord_append letters_lambdaWord (by decide) hname hcut]
        exact Bool.or_false _
  rw [p.toList_print, ← hwritten]
  have hstars : ∀ c ∈ p.stars, isWord c = false := by
    rcases p.stars_cases with h | h | h <;> rw [h] <;> exact List.all_iff_forall_prop.mp rfl
  by_cases hnone : p.stars = []
  · rw [hnone, List.nil_append]
  · rw [containsWord_marks_append letters_lambdaWord (by decide) hnone hstars]

theorem containsWord_commaList (parts : List (List Char)) :
    containsWord lambdaWord none (commaList parts) = parts.any (containsWord lambdaWord none) := by
  induction parts with
  | nil => rfl
  | cons part parts ih =>
      cases parts with
      | nil =>
          rw [commaList, List.intercalate_singleton, List.any_cons, List.any_nil, Bool.or_false]
      | cons next parts =>
          have hlater : containsWord lambdaWord none (',' :: ' ' :: commaList (next :: parts)) =
              (next :: parts).any (containsWord lambdaWord none) := by
            have hmarks : ∀ c ∈ [',', ' '], isWord c = false := List.all_iff_forall_prop.mp rfl
            rw [← ih]
            exact containsWord_marks_append letters_lambdaWord (by decide) (by decide) hmarks
          have hcut : SplitsNoWord part (',' :: ' ' :: commaList (next :: parts)) :=
            fun ends => Bool.false_ne_true ends.2
          rw [commaList_cons_cons, List.any_cons, ← hlater]
          cases part with
          | nil => rfl
          | cons c part =>
              exact containsWord_append letters_lambdaWord (by decide) (List.cons_ne_nil _ _) hcut

/-- The word of an anonymous function stands in a written signature if it does in a name of it. -/
theorem containsWord_printParams_eq_false_iff {s : Signature} (identified : s.Identified) :
    containsWord lambdaWord none s.printParams.toList = false ↔
      ∀ p ∈ s, containsWord lambdaWord none p.name.toList = false := by
  have hmember {p : Param} (hp : p ∈ s) :
      p.print.toList ∈ (Signature.entries false false s).map String.toList := by
    have hfilter := List.mem_map_of_mem (f := (·.print.toList)) hp
    rw [← Signature.filter_entries identified false false] at hfilter
    exact List.mem_of_mem_filter hfilter
  rw [s.toList_printParams, containsWord_commaList, List.any_eq_false]
  constructor
  · intro absent p hp
    rw [← containsWord_print]
    exact Bool.eq_false_iff.mpr (absent _ (hmember hp))
  · rintro absent part member
    obtain ⟨entry, hentry, rfl⟩ := List.mem_map.mp member
    rw [Bool.not_eq_true]
    rcases Signature.entry_cases hentry with rfl | rfl | ⟨p, hp, rfl⟩
    · decide
    · decide
    · rw [containsWord_print]
      exact absent p hp

/-! ### Segments of the stubs -/

section NeutralSpots

variable {spots rest : List Spot} {s : Spot} (neutral : ∀ t ∈ spots, isNeutral t.char = true)
include neutral

theorem balance_of_neutral : balance spots = 0 := by
  induction spots with
  | nil => rfl
  | cons s rest ih =>
      obtain ⟨hs, hrest⟩ := List.forall_mem_cons.mp neutral
      rw [balance_cons, ih hrest, turn, if_neg (ne_of_isNeutral hs (by decide)),
        if_neg (ne_of_isNeutral hs (by decide))]
      rfl

theorem symbolOf_of_neutral (text : List Char) : SymbolOf text spots none :=
  .absent fun t ht => ne_of_isNeutral (neutral t ht) (by decide)

/-- A front of neutral characters ends with the parenthesis behind it. -/
theorem endsFront_of_neutral {all : List Spot} (parts : all = spots ++ s :: rest)
    (opening : s.char = '(') : EndsFront all spots s rest where
  parts := parts
  ends := .inl opening
  outside := by
    rw [← Brackets.depth_after_initial, Brackets.after_initial_of_no_opening fun t ht =>
      ne_of_isNeutral (neutral t ht) (by decide)]
    rfl
  first := by
    rintro earlier t later rfl -
    have ht := neutral t (List.mem_append_right earlier List.mem_cons_self)
    rintro (hchar | hchar)
    · exact ne_of_isNeutral ht (by decide) hchar
    · exact ne_of_isNeutral ht (by decide) hchar

/-- Parameters of neutral characters are closed by the parenthesis behind them. -/
theorem closesParams_of_neutral (closing : s.char = ')') :
    ClosesParams (spots ++ s :: rest) spots s rest where
  parts := rfl
  closing := closing
  balanced := balance_of_neutral neutral
  inside := fun _ hp =>
    Int.le_of_eq (balance_of_neutral fun t ht => neutral t (hp.subset ht)).symm

end NeutralSpots

/-- Neutral characters are code. -/
theorem exists_lexAt_of_neutral {text part rest : List Char} {start : Nat}
    (neutral : ∀ c ∈ part, isNeutral c = true) (hdrop : text.drop start = part ++ rest) :
    ∃ spots : List Spot, (lexAt text start).spots = spots ++ (lexAt text (start + part.length)).spots ∧
      ∀ s ∈ spots, isNeutral s.char = true := by
  obtain ⟨spots, hlex, hchars⟩ :=
    exists_lexAt_of_plain (fun c member => (flat_of_isNeutral (neutral c member)).1) hdrop
  refine ⟨spots, ?_, fun s hs => neutral _ (hchars ▸ List.mem_map_of_mem hs)⟩
  rw [hlex, Lexed.spots_prepend_code]

/-- A definition without other brackets than those around its parameters is cut at these. -/
theorem scanDefinition_of_neutral {front params : List Char}
    (outside : ∀ c ∈ front, isNeutral c = true) (inside : ∀ c ∈ params, isNeutral c = true)
    (back : List Char) :
    scanDefinition (front ++ '(' :: (params ++ ')' :: back)) =
      .ok ⟨none, collapse front, collapse ('(' :: params ++ [')']), collapse back, false⟩ := by
  generalize htext : front ++ '(' :: (params ++ ')' :: back) = text
  have hopen : text.drop front.length = '(' :: (params ++ ')' :: back) := by
    rw [← htext, List.drop_left]
  have hparams : text.drop (front.length + 1) = params ++ ')' :: back := drop_succ_of_drop_eq_cons hopen
  have hclose : text.drop (front.length + 1 + params.length) = ')' :: back := by
    rw [← List.drop_drop, hparams, List.drop_left]
  -- The lexer reads the front, a parenthesis, the parameters and the other parenthesis.
  have hwhole : text.drop 0 = front ++ '(' :: (params ++ ')' :: back) := htext.symm
  obtain ⟨before, hfront, hbefore⟩ := exists_lexAt_of_neutral outside hwhole
  obtain ⟨within, hinner, hwithin⟩ := exists_lexAt_of_neutral inside hparams
  rw [Nat.zero_add, lexAt_of_character hopen (by decide), Lexed.spots_cons_code, hinner,
    lexAt_of_character hclose (by decide), Lexed.spots_cons_code, lexAt_zero] at hfront
  have hbounded := Bounded.params (endsFront_of_neutral hbefore hfront rfl) rfl
    (closesParams_of_neutral hwithin rfl) (symbolOf_of_neutral hbefore text)
  have htake : text.take front.length = front := by rw [← htext, List.take_left]
  have hslice : slice text front.length (front.length + 1 + params.length + 1) =
      '(' :: params ++ [')'] := by
    have hlength : front.length + 1 + params.length + 1 - front.length = params.length + 1 + 1 := by omega
    rw [slice, hopen, hlength, List.take_succ_cons, List.take_length_add_append]
    rfl
  have hdrop : text.drop (front.length + 1 + params.length + 1) = back :=
    drop_succ_of_drop_eq_cons hclose
  rw [scanDefinition_of_bounded hbounded, htake, hslice, hdrop]

/-- The parameters of an anonymous function without a body are cut off behind the blank in front of
them. -/
theorem scanLambda_spaced {params : List Char} (neutral : ∀ c ∈ params, isNeutral c = true)
    (solid : params.head?.any isBlank = false) (absent : containsWord lambdaWord none params = false) :
    scanLambda (lambdaWord ++ (spaced params ++ ": ...".toList)) =
      .ok ⟨none, if params = [] then lambdaWord else lambdaWord ++ [' '], collapse params,
        ": ...".toList, true⟩ := by
  have hcolon := headerColon_spaced neutral
  rw [if_pos absent] at hcolon
  have hslice : slice (lambdaWord ++ (spaced params ++ ": ...".toList)) lambdaWord.length
      (lambdaWord.length + (spaced params).length) = spaced params := by
    rw [slice, List.drop_left, Nat.add_sub_cancel_left, List.take_left]
  have hdrop : (lambdaWord ++ (spaced params ++ ": ...".toList)).drop
      (lambdaWord.length + (spaced params).length) = ": ...".toList := by
    rw [List.drop_length_add_append, List.drop_left]
  rw [scanLambda]
  dsimp only
  rw [hcolon]
  dsimp only
  rw [hslice, cut, hdrop]
  cases params with
  | nil => rfl
  | cons c params =>
      have hgap : (spaced (c :: params)).takeWhile isBlank = [' '] := by
        have hc : ¬ isBlank c = true := Bool.eq_false_iff.mp solid
        rw [spaced, if_neg (List.cons_ne_nil _ _), List.takeWhile_cons_of_pos isBlank_space,
          List.takeWhile_cons_of_neg hc]
      have hparams : slice (lambdaWord ++ (spaced (c :: params) ++ ": ...".toList))
          (lambdaWord.length + 1) (lambdaWord.length + (spaced (c :: params)).length) = c :: params := by
        rw [spaced, if_neg (List.cons_ne_nil _ _), slice, List.drop_length_add_append,
          List.length_cons, Nat.add_sub_add_left, Nat.add_sub_cancel, List.cons_append,
          List.drop_succ_cons, List.drop_zero, List.take_left]
      rw [hgap, List.length_singleton, hparams, if_neg (List.cons_ne_nil _ _)]
      rfl

end Segments

namespace Signature

variable {s : Signature}

/-- A written signature has neither a blank in front nor runs of blanks. -/
theorem collapse_printParams (identified : s.Identified) :
    collapse s.printParams.toList = s.printParams.toList ∧
      s.printParams.toList.head?.any isBlank = false := by
  have heach := isEntry_of_mem_map identified
  rw [s.toList_printParams]
  refine ⟨collapse_commaList heach, ?_⟩
  cases hparts : (entries false false s).map String.toList with
  | nil => rfl
  | cons part parts =>
      have hpart : IsEntry part := heach part (hparts ▸ List.mem_cons_self)
      rw [commaList_cons]
      cases parts with
      | nil =>
          rw [List.map_nil, List.intercalate_singleton, ← List.append_nil part]
          exact hpart.head? []
      | cons next parts =>
          rw [List.map_cons, List.intercalate_cons_cons, List.append_assoc]
          exact hpart.head? _

end Signature

/-! ### Parameters of declared functions -/

namespace Signature

/-- A list of parameters that a function can be declared with: no name stands twice, a parameter without a
default does not follow one with a default if both may be given by position, and those that take all
further arguments have none. -/
structure Declarable (s : Signature) : Prop where
  distinct : (s.map (·.name)).Nodup
  defaultsLast : s.Pairwise fun p q =>
    p.kind.isPositional = true → p.hasDefault = true → q.kind.isPositional = true →
      q.hasDefault = true
  optional : ∀ p ∈ s, p.hasDefault = true → p.kind.isPositional = true ∨ p.kind = .keywordOnly

instance (s : Signature) : Decidable s.Declarable :=
  decidable_of_iff (_ ∧ _ ∧ _) ⟨fun h => ⟨h.1, h.2.1, h.2.2⟩, fun h => ⟨h.1, h.2, h.3⟩⟩

/-- The defaults of positional parameters are told by their number, the others by the names. -/
theorem withDefaults_kinds {s : Signature} {listed : List String}
    (defaultsLast : s.Pairwise fun p q => p.kind.isPositional = true → p.hasDefault = true →
      q.kind.isPositional = true → q.hasDefault = true)
    (told : ∀ p ∈ s, p.kind.isPositional = false →
      p.hasDefault = (p.kind == .keywordOnly && listed.contains p.name)) :
    withDefaults listed (s.countP fun p => p.kind.isPositional && !p.hasDefault) s.kinds = s := by
  induction s with
  | nil => rfl
  | cons p rest ih =>
      obtain ⟨hfirst, hrest⟩ := List.pairwise_cons.mp defaultsLast
      obtain ⟨htold, hlater⟩ := List.forall_mem_cons.mp told
      have hlater := ih hrest hlater
      obtain ⟨name, kind, hasDefault⟩ := p
      rw [kinds, List.map_cons, withDefaults, ← kinds]
      cases hkind : kind.isPositional with
      | false =>
          rw [if_neg Bool.false_ne_true, List.countP_cons_of_neg (by simp [hkind]), hlater,
            ← htold hkind]
      | true =>
          rw [if_pos rfl]
          cases hasDefault with
          | false =>
              rw [List.countP_cons_of_pos (by simp [hkind]), Nat.add_sub_cancel, hlater]
              rfl
          | true =>
              -- no positional parameter behind one with a default is without one
              have hnone : rest.countP (fun p => p.kind.isPositional && !p.hasDefault) = 0 := by
                refine List.countP_eq_zero.mpr fun q hq => ?_
                cases hpositional : q.kind.isPositional with
                | false => simp
                | true => simp [hfirst q hq hkind rfl hpositional]
              rw [List.countP_cons_of_neg (by simp), hnone]
              rw [hnone] at hlater
              rw [Nat.zero_sub, hlater]
              rfl

end Signature

/-- A function that is declared with some parameters has them. -/
theorem FunctionInfo.signature_ofSignature {params : Signature} (declarable : params.Declarable)
    (name qualname : String) (flavor : Flavor) (body : Body) :
    (ofSignature name qualname flavor params body).signature = params := by
  have htotal : params.kinds.countP (·.2.isPositional) =
      params.countP (fun p => p.kind.isPositional && p.hasDefault) +
        params.countP fun p => p.kind.isPositional && !p.hasDefault := by
    rw [Signature.kinds, List.countP_map, List.countP_eq_countP_filter_add params _ (·.hasDefault),
      List.countP_filter, List.countP_filter]
    rfl
  have hrequired : Signature.required (params.kinds.countP (·.2.isPositional))
      (params.countP fun p => p.kind.isPositional && p.hasDefault) =
        params.countP fun p => p.kind.isPositional && !p.hasDefault := by
    rw [htotal, Signature.required, if_pos (Nat.le_add_right ..), Nat.add_sub_cancel_left]
  rw [signature, FunctionCode.signature, FunctionCode.positionalCount, ofSignature]
  dsimp only
  rw [hrequired]
  refine Signature.withDefaults_kinds declarable.defaultsLast fun p hp hkind => ?_
  cases hdefault : p.hasDefault with
  | true =>
      have hword : p.kind = .keywordOnly :=
        (declarable.optional p hp hdefault).resolve_left (Bool.eq_false_iff.mp hkind)
      have hlisted : p.name ∈ (params.filter fun p => p.kind == .keywordOnly && p.hasDefault).map
          (·.name) :=
        List.mem_map_of_mem (List.mem_filter.mpr ⟨hp, by simp [hword, hdefault]⟩)
      rw [hword, List.contains_iff_mem.mpr hlisted]
      rfl
  | false =>
      refine (Bool.eq_false_iff.mpr fun both => ?_).symm
      obtain ⟨-, hlisted⟩ := Bool.and_eq_true_iff.mp both
      obtain ⟨q, hq, hname⟩ := List.mem_map.mp (List.contains_iff_mem.mp hlisted)
      obtain ⟨hq, hboth⟩ := List.mem_filter.mp hq
      obtain rfl := List.inj_on_of_nodup_map declarable.distinct hq hp hname
      rw [hdefault, Bool.and_false] at hboth
      cases hboth

namespace Heap

open Segments

/-- What the stub of a function with a name is cut into. -/
def routineSegments (isAsync : Bool) (name : String) (s : Signature) : Segments where
  symbolName := none
  head := routineKeyword isAsync ++ name.toList
  params := s.print.toList
  body := ": ...".toList
  implicit := false

/-- What the stub of an anonymous function is cut into. -/
def lambdaSegments (s : Signature) : Segments where
  symbolName := none
  head := if s.printParams = "" then lambdaWord else lambdaWord ++ [' ']
  params := s.printParams.toList
  body := ": ...".toList
  implicit := true

variable {s : Signature}

theorem scan_routineStub_of_identified (identified : s.Identified) (isAsync : Bool) {name : String}
    (identifier : IsIdentifier name.toList) :
    scan (routineStub isAsync name s).toList = .ok (routineSegments isAsync name s) := by
  have hfront : ∀ c ∈ routineKeyword isAsync ++ name.toList, isNeutral c = true := by
    have hkeyword : ∀ c ∈ routineKeyword isAsync, isNeutral c = true :=
      List.all_eq_true.mp (by cases isAsync <;> rfl)
    intro c member
    rcases List.mem_append.mp member with member | member
    · exact hkeyword c member
    · exact isNeutral_of_isIdentifierChar (identifier.2 c member)
  have hhead : collapse (routineKeyword isAsync ++ name.toList) =
      routineKeyword isAsync ++ name.toList := by
    have hsolid : ∀ c ∈ name.toList, isBlank c = false :=
      fun c member => isBlank_of_isIdentifierChar (identifier.2 c member)
    have hname : collapse name.toList = name.toList := by
      have happend := collapse_append_of_solid hsolid []
      rwa [List.append_nil, collapse_nil, List.append_nil] at happend
    have hcut : SplitsNoRun (routineKeyword isAsync) name.toList := by
      obtain ⟨c, rest, hc⟩ := List.exists_cons_of_ne_nil identifier.1
      exact .of_head (c := c) (by rw [hc]; rfl) (hsolid c (hc ▸ List.mem_cons_self))
    rw [collapse_append hcut, hname]
    cases isAsync <;> rfl
  have hparams : collapse ('(' :: s.printParams.toList ++ [')']) = s.print.toList := by
    rw [collapse_between _ (by decide) (by decide), (Signature.collapse_printParams identified).1,
      Signature.print, String.toList_append, String.toList_append]
    rfl
  have hlisted : listed s.printParams.toList =
      '(' :: (s.printParams.toList ++ ')' :: ": ...".toList) := rfl
  rw [scan_routineStub, hlisted, ← List.append_assoc,
    scanDefinition_of_neutral hfront (Signature.neutral_printParams identified.named), hhead, hparams]
  rfl

theorem scan_lambdaStub_of_identified (identified : s.Identified)
    (absent : ∀ p ∈ s, containsWord lambdaWord none p.name.toList = false) :
    scan (lambdaStub s).toList = .ok (lambdaSegments s) := by
  obtain ⟨hcollapse, hsolid⟩ := Signature.collapse_printParams identified
  have hempty : s.printParams.toList = [] ↔ s.printParams = "" := String.toList_eq_nil_iff
  rw [scan_lambdaStub, scanLambda_spaced (Signature.neutral_printParams identified.named) hsolid
    ((containsWord_printParams_eq_false_iff identified).mpr absent), hcollapse, lambdaSegments]
  simp only [hempty]

/-- The stub of a function that wraps nothing is made with its own parameters, unless the function states
another signature. Nothing that it may state is one. -/
theorem stubSignature_of_function {h : Heap} {r : Ref} {info : FunctionInfo}
    (found : h.shape r = .function info)
    (bare : Keyed.find? "__wrapped__" (h.ownAttributes r) = none) :
    h.stubSignature r = .ok (match Keyed.find? "__signature__" (h.ownAttributes r) with
      | some v => if h.isNothing v then info.signature else .anything
      | none => info.signature) := by
  rw [stubSignature, signature?, signatureFrom, callable_of_function found, if_pos rfl,
    unwrap_of_function found bare]
  dsimp only
  rw [signatureOf_of_function found]
  cases Keyed.find? "__signature__" (h.ownAttributes r) with
  | none => rfl
  | some v => cases hv : h.isNothing v <;> simp only [hv] <;> rfl

theorem stubWith_of_function {h : Heap} {r : Ref} {info : FunctionInfo}
    (found : h.shape r = .function info) (s : Signature) :
    h.stubWith r s = if info.name = lambdaName then lambdaStub s
      else routineStub info.flavor.isAsync info.name s := by
  have hname : h.stubName r = info.name := by
    rw [stubName, name?_of_function found]
    rfl
  rw [stubWith, found]
  dsimp only
  rw [hname, flavor_of_function found, lambdaName]

/-- The stub of a function shows its signature, if that can be told: its own, unless it wraps something or
states another one. Whatever the signature is, the names of its parameters are read from it in their order,
whatever their kinds and defaults. If the function has a name, the stub is cut into its name and flavor,
the signature and an empty body. If the function is anonymous, the stub is cut into the word of anonymous
functions, the signature and an empty body, or it cannot be scanned at all. It can be if this word stands
in no name of a parameter, and a name without other characters than those of words does not contain it
unless it is this word. -/
theorem scan_stub_of_function {h : Heap} {r : Ref} {info : FunctionInfo}
    (found : h.shape r = .function info) :
    (Keyed.find? "__wrapped__" (h.ownAttributes r) = none →
      h.stubSignature r = .ok (match Keyed.find? "__signature__" (h.ownAttributes r) with
        | some v => if h.isNothing v then info.signature else .anything
        | none => info.signature)) ∧
    (∀ s, h.stubSignature r = .ok s → h.stub r = .ok (h.stubWith r s)) ∧
    ∀ s : Signature, s.Identified →
      parameterNames s.printParams.toList = .ok s.names ∧
      (IsIdentifier info.name.toList →
        scan (h.stubWith r s).toList = .ok (routineSegments info.flavor.isAsync info.name s)) ∧
      (info.name = lambdaName →
        ((∃ segments, scan (h.stubWith r s).toList = .ok segments) ↔
          ∀ p ∈ s, containsWord lambdaWord none p.name.toList = false) ∧
        (∀ segments, scan (h.stubWith r s).toList = .ok segments → segments = lambdaSegments s) ∧
        ((∀ p ∈ s, p.name.toList ≠ lambdaWord ∧ ∀ c ∈ p.name.toList, isWord c = true) →
          scan (h.stubWith r s).toList = .ok (lambdaSegments s))) := by
  refine ⟨stubSignature_of_function found, fun s signed => ?_, fun s identified => ?_⟩
  · simp only [stub, found, signed]
    rfl
  refine ⟨Signature.parameterNames_printParams identified, fun identifier => ?_, fun anonymous => ?_⟩
  · have hname : info.name ≠ lambdaName := by
      intro anonymous
      rw [anonymous] at identifier
      exact absurd identifier (by decide)
    rw [stubWith_of_function found, if_neg hname]
    exact scan_routineStub_of_identified identified _ identifier
  · rw [stubWith_of_function found, if_pos anonymous, scan_lambdaStub_iff identified.named,
      containsWord_printParams_eq_false_iff identified]
    refine ⟨Iff.rfl, fun segments scanned => ?_, fun words => ?_⟩
    · have habsent := (scan_lambdaStub_iff identified.named).mp ⟨segments, scanned⟩
      rw [containsWord_printParams_eq_false_iff identified] at habsent
      rw [scan_lambdaStub_of_identified identified habsent] at scanned
      exact (Except.ok.inj scanned).symm
    · exact scan_lambdaStub_of_identified identified fun p hp =>
        containsWord_of_letters (words p hp).2 (words p hp).1

/-- Parameters of all kinds. -/
def mixedParams : Signature :=
  [⟨"a", .positionalOnly, false⟩, ⟨"b", .positional, true⟩, ⟨"c", .keywordOnly, false⟩,
    ⟨"d", .keywords, false⟩]

/-- The world with a function that has parameters of all kinds and an anonymous one. -/
def listedFunctions : World := World.initial.run [
  .create (.function (.ofSignature "f" "f" .coroutine mixedParams (.echo "f"))) none,
  .create (.function (.ofSignature "<lambda>" "<lambda>" .plain [⟨"lambdas", .variadic, false⟩]
    (.echo "g"))) none]

/-- The stubs of a function with parameters of all kinds and of an anonymous function. -/
theorem scan_stub_of_listedFunctions :
    let f := World.initial.heap.size
    let g := World.initial.heap.size + 1
    (∃ text, listedFunctions.heap.stub f = .ok text ∧
      parameterNames "a, /, b=..., *, c, **d".toList = .ok [['a'], ['b'], ['c'], ['d']] ∧
      scan text.toList = .ok ⟨none, "async def f".toList, "(a, /, b=..., *, c, **d)".toList,
        ": ...".toList, false⟩) ∧
    ∃ text, listedFunctions.heap.stub g = .ok text ∧
      scan text.toList = .ok ⟨none, "lambda ".toList, "*lambdas".toList, ": ...".toList, true⟩ := by
  intro f g
  have hf : listedFunctions.heap.shape f =
      .function (.ofSignature "f" "f" .coroutine mixedParams (.echo "f")) := rfl
  have hg : listedFunctions.heap.shape g = .function (.ofSignature "<lambda>" "<lambda>" .plain
    [⟨"lambdas", .variadic, false⟩] (.echo "g")) := rfl
  obtain ⟨hsigned, hstub, hscan⟩ := scan_stub_of_function hf
  obtain ⟨hsigned', hstub', hscan'⟩ := scan_stub_of_function hg
  have hshown : (FunctionInfo.ofSignature "f" "f" .coroutine mixedParams (.echo "f")).signature =
      mixedParams := FunctionInfo.signature_ofSignature (by decide) ..
  obtain ⟨hnames, hnamed, -⟩ := hscan mixedParams (by decide)
  obtain ⟨-, -, hanonymous⟩ := hscan' [⟨"lambdas", .variadic, false⟩] (by decide)
  refine ⟨⟨_, hstub _ ((hsigned rfl).trans (congrArg Except.ok hshown)), hnames, hnamed (by decide)⟩, _,
    hstub' _ (hsigned' rfl), (hanonymous rfl).2.2 fun p hp => ?_⟩
  obtain rfl := List.mem_singleton.mp hp
  exact ⟨by decide, List.all_eq_true.mp rfl⟩

/-- The world with an anonymous function whose parameter is called like the word of one, but for a dot in
the middle behind it. -/
def dottedParameter : World := World.initial.run [
  .create (.function (.ofSignature "<lambda>" "<lambda>" .plain [⟨"lambda·", .positional, false⟩]
    (.echo "f"))) none]

/-- The stub of an anonymous function does not read in any case. -/
theorem not_scan_stub_of_function :
    ¬ ∀ (h : Heap) (r : Ref) (info : FunctionInfo) (text : String), h.shape r = .function info →
      info.name = lambdaName → info.signature.Identified →
      (∀ p ∈ info.signature, p.name ≠ "lambda") →
      h.stub r = .ok text → ∃ segments, scan text.toList = .ok segments := by
  intro all
  have hstuck : (scan "lambda lambda·: ...".toList).toOption = none := by decide +kernel
  obtain ⟨segments, scanned⟩ := all dottedParameter.heap World.initial.heap.size
    (.ofSignature "<lambda>" "<lambda>" .plain [⟨"lambda·", .positional, false⟩] (.echo "f"))
    "lambda lambda·: ..." rfl rfl (by decide) (by decide) rfl
  rw [scanned] at hstuck
  cases hstuck

end Heap

end CallableKinds

import CallableKinds.Proofs.Findings
import CallableKinds.Proofs.Headers
import CallableKinds.Proofs.Quoting
import CallableKinds.Source.Stub

/-!
# Stubs that can be scanned

The name of a routine and the names of base classes stand in a stub as they are. So a stub reads as a
definition only if these names do not come in the way of its parameters: which names do is told here
exactly. The own name of a class stands between quotes and never comes in the way.
-/

namespace CallableKinds

/-! ### Parameters -/

/-- A character that neither a lexer nor the search for parameters takes notice of, such as those of
identifiers. -/
def isNeutral (c : Char) : Bool :=
  !isQuote c && !isOpening c && !isClosing c && c != '#' && c != ':' && c != '\n'

/-- A neutral character is none of those that are noticed. -/
theorem not_mem_of_isNeutral {c : Char} (neutral : isNeutral c = true) {noticed : List Char}
    (special : (noticed.all fun d => !isNeutral d) = true) : c ∉ noticed := by
  intro member
  have hspecial := List.all_eq_true.mp special c member
  rw [neutral] at hspecial
  cases hspecial

/-- A text of neutral characters. -/
def Neutral (s : String) : Prop := ∀ c ∈ s.toList, isNeutral c = true

instance (s : String) : Decidable (Neutral s) := List.decidableBAll _ _

namespace Neutral

theorem append {s t : String} (first : Neutral s) (second : Neutral t) : Neutral (s ++ t) := by
  intro c member
  rw [String.toList_append, List.mem_append] at member
  exact member.elim (first c) (second c)

theorem intercalate {separator : String} {parts : List String} (between : Neutral separator)
    (each : ∀ s ∈ parts, Neutral s) : Neutral (separator.intercalate parts) := by
  induction parts with
  | nil =>
      rw [String.intercalate_nil]
      nofun
  | cons s parts ih =>
      obtain ⟨hs, hparts⟩ := List.forall_mem_cons.mp each
      cases parts with
      | nil =>
          rw [String.intercalate_singleton]
          exact hs
      | cons t parts =>
          rw [String.intercalate_cons_cons]
          exact (hs.append between).append (ih hparts)

end Neutral

namespace Signature

/-- The names of the parameters are made of neutral characters. -/
def Named (s : Signature) : Prop := ∀ p ∈ s, Neutral p.name

theorem neutral_print {p : Param} (named : Neutral p.name) : Neutral p.print := by
  have hstar : Neutral "*" := by decide
  have hstars : Neutral "**" := by decide
  have hdefault : Neutral "=..." := by decide
  rw [Param.print]
  split
  · exact hstar.append named
  · exact hstars.append named
  · split
    · exact named.append hdefault
    · exact named

/-- What stands between the commas is a mark or a parameter. -/
theorem entry_cases {s : Signature} {slash starred : Bool} {entry : String}
    (member : entry ∈ entries slash starred s) :
    entry = "/" ∨ entry = "*" ∨ ∃ p ∈ s, entry = p.print := by
  have hslash {slash : Bool} {others : Prop} (member : entry ∈ if slash then ["/"] else []) :
      entry = "/" ∨ others := by
    split at member
    · exact .inl (List.mem_singleton.mp member)
    · cases member
  induction s generalizing slash starred with
  | nil => exact hslash member
  | cons p rest ih =>
      have hlater {slash starred : Bool} (member : entry ∈ p.print :: entries slash starred rest) :
          entry = "/" ∨ entry = "*" ∨ ∃ p' ∈ p :: rest, entry = p'.print := by
        rcases List.mem_cons.mp member with rfl | member
        · exact .inr (.inr ⟨p, List.mem_cons_self, rfl⟩)
        · refine (ih member).imp_right (Or.imp_right ?_)
          rintro ⟨p', hp', rfl⟩
          exact ⟨p', List.mem_cons_of_mem p hp', rfl⟩
      rw [entries] at member
      split at member
      · exact hlater member
      · rcases List.mem_append.mp member with member | member
        · exact hslash member
        · exact hlater member
      · rcases List.mem_append.mp member with member | member
        · rcases List.mem_append.mp member with member | member
          · exact hslash member
          · split at member
            · cases member
            · exact .inr (.inl (List.mem_singleton.mp member))
        · exact hlater member
      · rcases List.mem_append.mp member with member | member
        · exact hslash member
        · exact hlater member

theorem neutral_of_mem_entries {s : Signature} (named : s.Named) {slash starred : Bool}
    {entry : String} (member : entry ∈ entries slash starred s) : Neutral entry := by
  rcases entry_cases member with rfl | rfl | ⟨p, hp, rfl⟩
  · decide
  · decide
  · exact neutral_print (named p hp)

theorem neutral_printParams {s : Signature} (named : s.Named) : Neutral s.printParams :=
  .intercalate (by decide) fun _ => neutral_of_mem_entries named

end Signature

/-! ### Names in front of the parameters -/

namespace Segments

/-- A name that does not come in the way of the parameters behind it. It is closed, neither it nor a
bracket in it ends in front of them, and if it has parentheses of its own, they are closed. -/
def NameReads (name : List Char) : Prop :=
  match header 0 (codeChars name) with
  | .params behind => openDepth 0 behind = none
  | .colon => False
  | .unfinished depth => depth = 0 ∧ (lex name).LeadsOn

/-- Names that leave a tuple of them to be closed inside a call: they are closed themselves, and all
parentheses in them are, or so many more that the call is closed, too. -/
def TupleReads (items : List Char) : Prop :=
  ∀ depth, openDepth 1 (codeChars items) = some depth → depth ≤ 1 ∧ (lex items).LeadsOn

/-- Inside of square brackets only these are noticed. -/
theorem header_inside {depth : Nat} (inside : 0 < depth) {text : List Char}
    (plain : ∀ c ∈ text, c ≠ '[' ∧ c ≠ ']') : header depth text = .unfinished depth := by
  induction text with
  | nil => rfl
  | cons c text ih =>
      obtain ⟨⟨hopen, hclose⟩, htext⟩ := List.forall_mem_cons.mp plain
      rw [header, if_neg hopen, if_neg fun h => hclose h.1, if_pos inside, ih htext]

variable {keyword name params items : List Char}

/-- The parameters of a stub and what is behind them. -/
def listed (params : List Char) : List Char := '(' :: (params ++ "): ...".toList)

theorem openDepth_neutral_append (neutral : ∀ c ∈ params, isNeutral c = true) (depth : Nat)
    (back : List Char) : openDepth depth (params ++ back) = openDepth depth back := by
  have hplain : ∀ c ∈ params, c ∉ ['(', ')'] :=
    fun c member => not_mem_of_isNeutral (neutral c member) (by decide)
  rw [openDepth_append, openDepth_of_plain hplain]
  rfl

theorem openDepth_listed (neutral : ∀ c ∈ params, isNeutral c = true) (depth : Nat) :
    openDepth depth (listed params) = some depth := by
  rw [listed, openDepth, if_pos rfl, openDepth_neutral_append neutral]
  rfl

/-- What neither is neutral nor stands around the parameters is not in the list of them. -/
theorem not_mem_of_mem_listed {noticed : List Char} (neutral : ∀ c ∈ params, isNeutral c = true)
    (special : (noticed.all fun d => !isNeutral d) = true)
    (around : ∀ c ∈ listed [], c ∉ noticed) : ∀ c ∈ listed params, c ∉ noticed := by
  intro c member
  rw [listed, List.mem_cons, List.mem_append] at member
  obtain rfl | member | member := member
  · exact around '(' List.mem_cons_self
  · exact not_mem_of_isNeutral (neutral c member) special
  · exact around c (List.mem_cons_of_mem _ member)

/-- Behind a front that is not at its end the parameters of a stub are found, unless a square bracket
is open. -/
theorem header_listed (neutral : ∀ c ∈ params, isNeutral c = true) (depth : Nat) :
    header depth (listed params) =
      if depth = 0 then .params (params ++ "): ...".toList) else .unfinished depth := by
  split
  next hdepth =>
      rw [hdepth]
      rfl
  next hdepth =>
      apply header_inside (Nat.pos_of_ne_zero hdepth)
      intro c member
      have hnoticed : c ∉ ['[', ']'] :=
        not_mem_of_mem_listed neutral (by decide) (by simp [listed]) c member
      simpa using hnoticed

theorem isQuote_listed (neutral : ∀ c ∈ params, isNeutral c = true) :
    ∀ c ∈ listed params, isQuote c = false ∧ c ≠ '#' ∧ c ≠ '\n' := by
  intro c member
  have hnoticed : c ∉ ['\'', '"', '#', '\n'] :=
    not_mem_of_mem_listed neutral (by decide) (by simp [listed]) c member
  simpa [isQuote, and_assoc] using hnoticed

/-- A name reads in front of parameters if and only if the whole definition does. -/
theorem readsAsDefinition_iff_nameReads (neutral : ∀ c ∈ params, isNeutral c = true)
    (plain : ∀ c ∈ keyword, isQuote c = false ∧ c ≠ '#')
    (front : ∀ c ∈ keyword, c ∉ ['(', '[', ']', ':'])
    (noClass : beginsWith classWord (keyword ++ (name ++ listed params)) = false) :
    ReadsAsDefinition (keyword ++ (name ++ listed params)) ↔ NameReads name := by
  rw [ReadsAsDefinition, noClass, codeChars_plain_append plain, header_append,
    header_of_plain front, codeChars_append_plain _ (isQuote_listed neutral)]
  dsimp only
  rw [header_append, NameReads]
  cases header 0 (codeChars name) with
  | params behind =>
      dsimp only
      rw [openDepth_append]
      cases openDepth 0 behind with
      | none => exact Iff.rfl
      | some depth =>
          rw [Option.bind_some]
          split
          · rw [openDepth_listed neutral]
          · rfl
  | colon =>
      refine ⟨fun closed => ?_, False.elim⟩
      cases closed
  | unfinished depth =>
      dsimp only
      by_cases leads : (lex name).LeadsOn
      · rw [if_pos leads, header_listed neutral]
        by_cases hdepth : depth = 0
        · rw [if_pos hdepth]
          dsimp only
          rw [openDepth_neutral_append neutral]
          exact ⟨fun _ => ⟨hdepth, leads⟩, fun _ => rfl⟩
        · rw [if_neg hdepth]
          exact ⟨False.elim, fun h => hdepth h.1⟩
      · rw [if_neg leads]
        exact ⟨False.elim, fun h => leads h.2⟩

/-- What is behind the names of the bases. -/
def tupleEnd : List Char := "), \x7b...\x7d)".toList

/-- The stub of a class with its own name and a tuple of names. -/
def classCall (own items : List Char) : List Char :=
  ['t', 'y', 'p', 'e', '('] ++ (quote own ++ ([',', ' ', '('] ++ (items ++ tupleEnd)))

/-- The own name of a class is a literal, which is no code. -/
theorem codeChars_classCall (own items : List Char) :
    codeChars (classCall own items) =
      ['t', 'y', 'p', 'e', '('] ++ ([',', ' ', '('] ++
        (codeChars items ++ if (lex items).LeadsOn then tupleEnd else [])) := by
  have hapart : ([',', ' ', '('] ++ (items ++ tupleEnd)).head? ≠ some (quoteFor own) := by
    obtain h | h := quoteFor_eq own
    · rw [h]
      exact nofun
    · rw [h]
      exact nofun
  have hend : ∀ c ∈ tupleEnd, isQuote c = false ∧ c ≠ '#' ∧ c ≠ '\n' := by
    show ∀ c ∈ "), \x7b...\x7d)".toList, isQuote c = false ∧ c ≠ '#' ∧ c ≠ '\n'
    simp [isQuote]
  obtain ⟨inner, hquote, hliteral⟩ := lexeme_quote own hapart
  rw [classCall, codeChars_plain_append (by simp [isQuote]), hquote,
    codeChars_literal hliteral (by rw [hquote, List.length_cons]),
    codeChars_plain_append (by simp [isQuote]), codeChars_append_plain _ hend]

/-- A tuple of names reads if and only if the whole stub of a class does, whatever the class is called
itself. -/
theorem readsAsDefinition_classCall_iff (own items : List Char) :
    ReadsAsDefinition (classCall own items) ↔ TupleReads items := by
  have hheader (behind : List Char) :
      header 0 (['t', 'y', 'p', 'e', '('] ++ behind) = .params behind := rfl
  have htuple (behind : List Char) :
      openDepth 0 ([',', ' ', '('] ++ behind) = openDepth 1 behind := rfl
  have hend (depth : Nat) : openDepth depth tupleEnd = none ↔ depth ≤ 1 := by
    rcases depth with _ | _ | depth
    · exact ⟨fun _ => Nat.zero_le 1, fun _ => rfl⟩
    · exact ⟨fun _ => Nat.le_refl 1, fun _ => rfl⟩
    · have hopen : openDepth (depth + 2) tupleEnd = some depth := rfl
      rw [hopen]
      refine ⟨fun closed => ?_, fun hle => absurd hle (by omega)⟩
      cases closed
  rw [ReadsAsDefinition, codeChars_classCall, hheader, TupleReads]
  dsimp only
  rw [htuple, openDepth_append]
  cases openDepth 1 (codeChars items) with
  | none =>
      refine ⟨fun _ depth leaves => ?_, fun _ => rfl⟩
      cases leaves
  | some depth =>
      rw [Option.bind_some]
      simp only [Option.some.injEq, forall_eq']
      by_cases leads : (lex items).LeadsOn
      · rw [if_pos leads, hend]
        exact ⟨fun hle => ⟨hle, leads⟩, fun h => h.1⟩
      · rw [if_neg leads]
        refine ⟨fun closed => ?_, fun h => absurd h.2 leads⟩
        cases closed

/-! ### Parameters of anonymous functions -/

/-- Whether a keyword stands somewhere in a text as a whole word. -/
def containsWord (keyword : List Char) : (before : Option Char) → List Char → Bool
  | _, [] => false
  | before, c :: rest =>
    startsWord keyword before (c :: rest) || containsWord keyword (some c) rest

/-- What is behind a colon is not part of a word in front of it. -/
theorem startsWord_append_colon {keyword : List Char} (colonless : ':' ∉ keyword)
    (before : Option Char) (front back : List Char) :
    startsWord keyword before (front ++ ':' :: back) = startsWord keyword before front := by
  have hword : (keyword.isPrefixOf (front ++ ':' :: back) &&
      !((front ++ ':' :: back).drop keyword.length).head?.any isWord) =
      (keyword.isPrefixOf front && !(front.drop keyword.length).head?.any isWord) := by
    induction keyword generalizing front with
    | nil =>
        cases front with
        | nil => rfl
        | cons c front => rfl
    | cons k keyword ih =>
        obtain ⟨hk, hkeyword⟩ := not_or.mp (List.mem_cons.not.mp colonless)
        cases front with
        | nil =>
            rw [List.nil_append, isPrefixOf_of_ne hk]
            rfl
        | cons c front =>
            have hlater := ih hkeyword front
            simp only [List.cons_append, List.isPrefixOf, List.length_cons, List.drop_succ_cons,
              Bool.and_assoc, hlater]
  rw [startsWord, startsWord, Bool.and_right_comm, hword, Bool.and_right_comm]

/-- The colon of a stub ends the header unless it is claimed by another header in front of it. -/
theorem headerColon_stub {params : List Char} (neutral : ∀ c ∈ params, isNeutral c = true)
    (headers pos : Nat) (before : Option Char) :
    headerColon 0 headers (lexFrom 0 pos before (params ++ ": ...".toList)).spots =
      if headers = 0 ∧ containsWord lambdaWord before params = false then some (pos + params.length)
      else none := by
  induction params generalizing headers pos before with
  | nil => cases headers <;> rfl
  | cons c params ih =>
      obtain ⟨hc, hparams⟩ := List.forall_mem_cons.mp neutral
      simp only [isNeutral, Bool.and_eq_true, Bool.not_eq_true', bne_iff_ne] at hc
      obtain ⟨⟨⟨⟨⟨hquote, hopen⟩, hclose⟩, hhash⟩, hcolon⟩, -⟩ := hc
      have hcode : lexeme c (params ++ ": ...".toList) = .character :=
        lexeme_eq_character_iff.mpr ⟨hquote, hhash⟩
      have hword : startsWord lambdaWord before (c :: (params ++ ": ...".toList)) =
          startsWord lambdaWord before (c :: params) :=
        startsWord_append_colon (by decide) before (c :: params) " ...".toList
      rw [List.cons_append, lexFrom, hcode]
      dsimp only
      rw [Lexed.spots_cons_code, headerColon, containsWord]
      simp only [hopen, hclose, hcolon, Spot.startsWord, if_false, Bool.false_eq_true,
        decide_true, Bool.true_and, beq_iff_eq, hword]
      cases startsWord lambdaWord before (c :: params) with
      | true =>
          rw [if_pos rfl, ih hparams, if_neg fun h => Nat.succ_ne_zero headers h.1,
            if_neg fun h => Bool.false_ne_true h.2.symm]
      | false =>
          rw [if_neg Bool.false_ne_true, ih hparams, Bool.false_or, List.length_cons,
            Nat.add_right_comm, Nat.add_assoc pos]

theorem scanLambda_ok_iff (text : List Char) :
    (∃ s, scanLambda text = .ok s) ↔
      ∃ colon, headerColon 0 0 (lexAt text lambdaWord.length).spots = some colon := by
  rw [scanLambda]
  dsimp only
  cases headerColon 0 0 (lexAt text lambdaWord.length).spots with
  | some colon =>
      exact ⟨fun _ => ⟨colon, rfl⟩, fun _ => ⟨_, rfl⟩⟩
  | none =>
      refine ⟨?_, nofun⟩
      rintro ⟨s, hs⟩
      dsimp only at hs
      split at hs <;> cases hs

/-- The parameters of an anonymous function in its stub. -/
def spaced (params : List Char) : List Char := if params = [] then [] else ' ' :: params

theorem headerColon_spaced {params : List Char} (neutral : ∀ c ∈ params, isNeutral c = true) :
    headerColon 0 0
        (lexAt (lambdaWord ++ (spaced params ++ ": ...".toList)) lambdaWord.length).spots =
      if containsWord lambdaWord none params = false then
        some (lambdaWord.length + (spaced params).length)
      else none := by
  have hspaced : ∀ c ∈ spaced params, isNeutral c = true := by
    rw [spaced]
    split
    · nofun
    · exact List.forall_mem_cons.mpr ⟨rfl, neutral⟩
  have hword (before : Option Char) :
      containsWord lambdaWord before (spaced params) = containsWord lambdaWord none params := by
    cases params with
    | nil => rfl
    | cons c params => rfl
  rw [lexAt, List.drop_left, headerColon_stub hspaced, hword]
  simp only [true_and]

theorem scanLambda_stub_iff {params : List Char} (neutral : ∀ c ∈ params, isNeutral c = true) :
    (∃ s, scanLambda (lambdaWord ++ (spaced params ++ ": ...".toList)) = .ok s) ↔
      containsWord lambdaWord none params = false := by
  rw [scanLambda_ok_iff, headerColon_spaced neutral]
  split
  next absent => exact ⟨fun _ => absent, fun _ => ⟨_, rfl⟩⟩
  next present => exact ⟨nofun, fun absent => absurd absent present⟩

/-! ### Scanning a stub -/

/-- A text that begins and ends with characters that are no blanks is scanned as it is. -/
theorem scan_of_ends {text : List Char} {c d : Char} (first : text.head? = some c)
    (last : text.getLast? = some d) (hc : isBlank c = false) (hd : isBlank d = false) :
    scan text = if beginsWith lambdaWord text then scanLambda text else scanDefinition text := by
  rw [scan, trim_of_ends first last hc hd]

end Segments

namespace Heap

open Segments

/-- The names in a tuple. -/
def tupleItems : List String → String
  | [name] => name ++ ","
  | names => ", ".intercalate names

theorem neutral_tupleItems {names : List String} (each : ∀ name ∈ names, Neutral name) :
    Neutral (tupleItems names) := by
  unfold tupleItems
  split
  next name => exact (each name (List.mem_singleton_self name)).append (by decide)
  next => exact .intercalate (by decide) each

theorem nameTuple_eq (names : List String) : nameTuple names = "(" ++ tupleItems names ++ ")" := by
  match names with
  | [] => rfl
  | [name] =>
      simp only [nameTuple, tupleItems, String.append_assoc]
      rfl
  | first :: second :: rest => rfl

/-- The names in the stub of an object do not come in the way of its parameters. -/
def StubReads (h : Heap) (r : Ref) (s : Signature) : Prop :=
  match h.shape r with
  | .cls c => TupleReads (tupleItems (h.baseNames c)).toList
  | _ =>
    if h.stubName r = lambdaName then containsWord lambdaWord none s.printParams.toList = false
    else NameReads (h.stubName r).toList

theorem toList_classStub (name : String) (bases : List String) :
    (classStub name bases).toList = classCall name.toList (tupleItems bases).toList := by
  simp only [classStub, nameTuple_eq, quoteString, String.toList_append, String.toList_ofList,
    List.append_assoc]
  rfl

/-- The stub of a class is scanned as a definition. -/
theorem scan_classStub (name : String) (bases : List String) :
    scan (classStub name bases).toList =
      scanDefinition (classCall name.toList (tupleItems bases).toList) := by
  have hlast : (classCall name.toList (tupleItems bases).toList).getLast? = some ')' := by
    simp only [classCall, List.getLast?_append]
    rfl
  rw [toList_classStub, scan_of_ends rfl hlast (by decide) (by decide), if_neg (by nofun)]

theorem scan_classStub_iff (name : String) (bases : List String) :
    (∃ s, scan (classStub name bases).toList = .ok s) ↔ TupleReads (tupleItems bases).toList := by
  rw [scan_classStub, scanDefinition_ok_iff, readsAsDefinition_classCall_iff]

/-- The words in front of the name of a routine in its stub. -/
def routineKeyword (isAsync : Bool) : List Char := (if isAsync then "async def " else "def ").toList

/-- The stub of a routine is scanned as a definition. -/
theorem scan_routineStub (s : Signature) (isAsync : Bool) (name : String) :
    scan (routineStub isAsync name s).toList =
      scanDefinition (routineKeyword isAsync ++ (name.toList ++ listed s.printParams.toList)) := by
  have htext : (routineStub isAsync name s).toList =
      routineKeyword isAsync ++ (name.toList ++ listed s.printParams.toList) := by
    simp only [routineStub, Signature.print, String.toList_append, List.append_assoc]
    rfl
  have hlast : (routineKeyword isAsync ++ (name.toList ++ listed s.printParams.toList)).getLast? =
      some '.' := by
    simp only [listed, List.getLast?_append, List.getLast?_cons]
    rfl
  rw [htext]
  cases isAsync with
  | true => rw [scan_of_ends rfl hlast (by decide) (by decide), if_neg (by nofun)]
  | false => rw [scan_of_ends rfl hlast (by decide) (by decide), if_neg (by nofun)]

theorem scan_routineStub_iff {s : Signature} (named : s.Named) (isAsync : Bool) (name : String) :
    (∃ segments, scan (routineStub isAsync name s).toList = .ok segments) ↔
      NameReads name.toList := by
  have hneutral := Signature.neutral_printParams named
  rw [scan_routineStub, scanDefinition_ok_iff]
  cases isAsync with
  | true =>
      exact readsAsDefinition_iff_nameReads hneutral (by simp [routineKeyword, isQuote])
        (by simp [routineKeyword]) rfl
  | false =>
      exact readsAsDefinition_iff_nameReads hneutral (by simp [routineKeyword, isQuote])
        (by simp [routineKeyword]) rfl

/-- The stub of an anonymous function is scanned as one. -/
theorem scan_lambdaStub (s : Signature) :
    scan (lambdaStub s).toList =
      scanLambda (lambdaWord ++ (spaced s.printParams.toList ++ ": ...".toList)) := by
  have htext : (lambdaStub s).toList =
      lambdaWord ++ (spaced s.printParams.toList ++ ": ...".toList) := by
    by_cases hempty : s.printParams = ""
    · rw [lambdaStub, if_pos hempty, hempty]
      rfl
    · have hparams : s.printParams.toList ≠ [] := fun h => hempty (String.toList_eq_nil_iff.mp h)
      rw [lambdaStub, if_neg hempty, spaced, if_neg hparams]
      simp only [String.toList_append, List.append_assoc]
      rfl
  have hlast : (lambdaWord ++ (spaced s.printParams.toList ++ ": ...".toList)).getLast? =
      some '.' := by
    simp only [List.getLast?_append]
    rfl
  have hword : beginsWith lambdaWord
      (lambdaWord ++ (spaced s.printParams.toList ++ ": ...".toList)) = true := by
    rw [spaced]
    split <;> rfl
  rw [htext, scan_of_ends rfl hlast (by decide) (by decide), if_pos hword]

theorem scan_lambdaStub_iff {s : Signature} (named : s.Named) :
    (∃ segments, scan (lambdaStub s).toList = .ok segments) ↔
      containsWord lambdaWord none s.printParams.toList = false := by
  rw [scan_lambdaStub]
  exact scanLambda_stub_iff (Signature.neutral_printParams named)

/-- The stub of an object can be scanned if and only if the names in it do not come in the way. -/
theorem scan_stubWith_iff {s : Signature} (named : s.Named) (h : Heap) (r : Ref) :
    (∃ segments, scan (h.stubWith r s).toList = .ok segments) ↔ h.StubReads r s := by
  have hroutine : (∃ segments, scan (if h.stubName r = "<lambda>" then lambdaStub s
        else routineStub (h.flavor r).isAsync (h.stubName r) s).toList = .ok segments) ↔
      if h.stubName r = lambdaName then containsWord lambdaWord none s.printParams.toList = false
      else NameReads (h.stubName r).toList := by
    rw [lambdaName]
    split
    next => exact scan_lambdaStub_iff named
    next => exact scan_routineStub_iff named _ _
  rw [stubWith, StubReads]
  cases h.shape r with
  | cls c => exact scan_classStub_iff _ _
  | _ => exact hroutine

theorem stub_of_class {h : Heap} {r : Ref} {c : ClassInfo} (cls : h.shape r = .cls c) :
    h.stub r = .ok (classStub (h.stubName r) (h.baseNames c)) := by
  simp only [stub, stubWith, cls]
  rfl

/-- The stub of an object shows the signature of the object, unless the object is a class. -/
theorem exists_stubWith {h : Heap} {r : Ref} {text : String} (stubbed : h.stub r = .ok text) :
    ∃ s, text = h.stubWith r s ∧ (h.isClass r = true ∨ h.stubSignature r = .ok s) := by
  rw [stub] at stubbed
  split at stubbed
  next c hc =>
      cases stubbed
      exact ⟨[], rfl, Or.inl (by rw [isClass, hc])⟩
  next =>
      obtain ⟨s, hs, made⟩ := ok_of_bind stubbed
      cases made
      exact ⟨s, rfl, Or.inr hs⟩

end Heap

/-! ### Classifying objects with stubs -/

/-- How a text is not cut into segments. -/
inductive Fault.NoSegments : Fault → Prop where
  | unmatched (delimiter : List Char) : NoSegments (.unmatchedDelimiter delimiter)
  | noList : NoSegments .noParameterList
  | noColon : NoSegments .noLambdaColon

theorem Fault.NoSegments.segmentation {f : Fault} (found : f.NoSegments) :
    f.kind.isA "SegmentationError" = true := by
  cases found <;> rfl

namespace Segments

/-- A text cannot be scanned because something in it is not closed, or for want of parameters. -/
theorem failsOnly_scan (source : List Char) : FailsOnly Fault.NoSegments (scan source) := by
  have hlambda (text : List Char) : FailsOnly Fault.NoSegments (scanLambda text) := by
    rw [scanLambda]
    dsimp only
    split
    · exact .ok _
    · split
      · exact .error (.unmatched _)
      · exact .error .noColon
  have hdefinition (text : List Char) : FailsOnly Fault.NoSegments (scanDefinition text) := by
    rw [scanDefinition]
    dsimp only
    split
    · split
      · exact .ok _
      · split <;> exact .error (.unmatched _)
    · split
      · exact .ok _
      · exact .error .noList
    · split
      · exact .error (.unmatched _)
      · split
        · exact .error (.unmatched _)
        · exact .error .noList
  rw [scan]
  split
  · exact hlambda _
  · exact hdefinition _

end Segments

theorem Fault.not_segmentation {f : Fault} (found : (f.Undecided ∨ f.NoRoutine) ∨ f.NoRecord) :
    f.kind.isA "SegmentationError" = false := by
  obtain (hundecided | hroutine) | hrecord := found
  · cases hundecided; rfl
  · cases hroutine <;> rfl
  · cases hrecord <;> rfl

namespace Inquiry

/-- Whether the stub of an object can be scanned is decided by the names in it: the name of a routine,
or the names of the classes that a class is derived from, and for an anonymous function those of its
parameters. This holds for every signature that may be shown; a stub shows that of the object. The
classification of a callable whose text is such a stub fails to cut it into segments if and only if
these names come in the way. -/
theorem stub_scans_iff (h : Heap) (r : Ref) :
    (∀ text, h.stub r = .ok text →
      ∃ s, text = h.stubWith r s ∧ (h.isClass r = true ∨ h.stubSignature r = .ok s)) ∧
    ∀ s : Signature, s.Named →
      ((∃ segments, Segments.scan (h.stubWith r s).toList = .ok segments) ↔ h.StubReads r s) ∧
      ∀ (q : Inquiry) (candidate : Ref) (t : SourceText), q.Coherent → q.tracker.Genuine →
        q.world.heap.callable candidate = true →
        (q.normalizer.request q.world.heap (q.tracker.source candidate)).result = .ok t →
        t.raw = (h.stubWith r s).toList →
        ((∃ f, (outcome (classify candidate) q).1 = .error f ∧
          f.kind.isA "SegmentationError" = true) ↔ ¬ h.StubReads r s) := by
  refine ⟨fun text stubbed => Heap.exists_stubWith stubbed, fun s named => ?_⟩
  have hscan := Heap.scan_stubWith_iff named h r
  refine ⟨hscan, fun q candidate t coherent genuine callable answered raw => ?_⟩
  have hknown := coherent.known_eq answered
  rw [raw] at hknown
  cases hresult : Segments.scan (h.stubWith r s).toList with
  | error f =>
      obtain ⟨asked, hrun⟩ := outcome_classify_of_unknown callable answered (hknown.trans hresult)
      have hkind := (Segments.failsOnly_scan _ f hresult).segmentation
      constructor
      · intro _ reads
        obtain ⟨segments, hs⟩ := hscan.mpr reads
        rw [hresult] at hs
        cases hs
      · intro _
        exact ⟨f, by rw [hrun], hkind⟩
  | ok segments =>
      obtain ⟨asked, hrun⟩ := outcome_classify_of_segments callable answered (hknown.trans hresult)
      have hfails := failsOnly_study q.tracker candidate (q.tracker.source candidate)
        q.classifier.rules (s := .begin q.world q.classifier.tracker
          (q.tracker.source candidate) segments) genuine rfl rfl
      constructor
      · rintro ⟨f, failed, hkind⟩
        rw [hrun] at failed
        rw [Fault.not_segmentation (hfails f failed)] at hkind
        cases hkind
      · intro stuck
        exact absurd (hscan.mp ⟨segments, hresult⟩) stuck

/-- The world with a class whose name has a quote in it, and a class derived from it. -/
def quotedBase : World := World.initial.run [
  .create (.cls ⟨"m", "List['int", "List['int", "type", [Catalog.objectClass], false, false, false,
    none, false⟩) none,
  .create (.cls ⟨"m", "C", "C", "type", [World.initial.heap.size], false, false, false, none,
    false⟩) none]

/-- The derived class. -/
def derivedClass : Ref := World.initial.heap.size + 1

/-- The stub of the derived class cannot be scanned, and the class cannot be classified. -/
theorem stub_scans_iff_quotedBase :
    let q := fresh quotedBase .files World.mainTracker Rule.standard
    let text := "type('C', (List['int,), \x7b...\x7d)"
    quotedBase.heap.stub derivedClass = .ok text ∧
    ¬ (∃ s, Segments.scan text.toList = .ok s) ∧
    ∃ f, (outcome (classify derivedClass) q).1 = .error f ∧
      f.kind.isA "SegmentationError" = true := by
  intro q text
  have hstub : quotedBase.heap.stub derivedClass = .ok text :=
    eq_ok_of_toOption (by decide +kernel)
  have htext : quotedBase.heap.stubWith derivedClass [] = text := by decide +kernel
  have hstuck : ¬ quotedBase.heap.StubReads derivedClass [] := by
    intro reads
    have hdepth : Segments.openDepth 1 (codeChars "List['int,".toList) = some 1 := rfl
    have hleads := (reads 1 hdepth).2.closed
    cases hleads
  obtain ⟨-, hstubs⟩ := stub_scans_iff quotedBase.heap derivedClass
  obtain ⟨hscan, hclassify⟩ := hstubs [] nofun
  rw [htext] at hscan hclassify
  have hraw : (q.normalizer.request q.world.heap (q.tracker.source derivedClass)).result =
      .ok (.ofRaw text.toList true) := eq_ok_of_toOption (by decide +kernel)
  have hcoherent : q.Coherent := coherent_fresh ..
  have hgenuine : q.tracker.Genuine := rfl
  have hcallable : q.world.heap.callable derivedClass = true := by decide +kernel
  have hfails := hclassify q derivedClass _ hcoherent hgenuine hcallable hraw rfl
  exact ⟨hstub, hscan.not.mpr hstuck, hfails.mpr hstuck⟩

/-- The world with a function that has a colon in its name. -/
def colonName : World := World.initial.run [
  .create (.function (.ofSignature "get:users" "get:users" .plain Signature.anything
    (.echo "f"))) none]

/-- Not every stub can be scanned. -/
theorem not_stub_scans :
    ¬ ∀ (h : Heap) (r : Ref) (text : String), h.stub r = .ok text →
      ∃ s, Segments.scan text.toList = .ok s := by
  intro all
  obtain ⟨s, scanned⟩ := all colonName.heap World.initial.heap.size
    "def get:users(*args, **kwargs): ..." rfl
  cases scanned

end Inquiry

end CallableKinds

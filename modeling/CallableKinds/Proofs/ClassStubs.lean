import CallableKinds.Proofs.Caches
import CallableKinds.Proofs.Consistency
import CallableKinds.Proofs.FunctionStubs

/-!
# Stubs of classes

The stub of a class is a call, and the own name of the class is a literal in it. Whatever stands in that
name, the literal is stepped over as a whole, so the parentheses around everything are the parameters.
Nothing of a class statement is in such a text: a class that has no other text constructs objects without
one.
-/

namespace CallableKinds

/-! ### The own name -/

/-- The written form of a text is stepped over as a whole. -/
theorem literalEnd_quote (s : List Char) {rest : List Char} (apart : rest.head? ≠ some (quoteFor s)) :
    literalEnd (quote s ++ rest) 0 = .ok (quote s).length := by
  obtain ⟨inner, hquote, hliteral⟩ := lexeme_quote s apart
  obtain ⟨-, hlength⟩ := lexeme_eq_literal_iff.mp hliteral
  have hdrop : (quote s ++ rest).drop 0 = quoteFor s :: (inner ++ rest) := by
    rw [hquote]
    rfl
  rw [literalEnd, hdrop]
  dsimp only
  rw [hlength]
  dsimp only
  rw [Nat.zero_add]

/-- A written text is one piece. -/
theorem lexAt_of_quote {text rest : List Char} {start : Nat} (s : List Char)
    (apart : rest.head? ≠ some (quoteFor s)) (hdrop : text.drop start = quote s ++ rest) :
    lexAt text start =
      (lexAt text (start + (quote s).length)).cons (.literal start (quote s).length) := by
  obtain ⟨inner, hquote, hliteral⟩ := lexeme_quote s apart
  have hcons : text.drop start = quoteFor s :: (inner ++ rest) := by rw [hdrop, hquote]; rfl
  have hlength : start + 1 + ((quote s).length - 1) = start + (quote s).length := by
    rw [hquote, List.length_cons]
    omega
  rw [lexAt_of_drop hcons (by simp [hliteral]), hliteral]
  dsimp only [Lexeme.taken, Piece.ofLexeme]
  rw [hlength]

namespace Segments

/-- Parentheses that are closed again do not end the parameters. -/
theorem paramsEnd_of_openDepth {depth behind : Nat} {inner : List Spot}
    (reads : openDepth depth (inner.map Spot.char) = some behind) (rest : List Spot) :
    paramsEnd depth (inner ++ rest) = paramsEnd behind rest := by
  induction inner generalizing depth with
  | nil =>
      cases reads
      rfl
  | cons s inner ih =>
      rw [List.map_cons, openDepth] at reads
      rw [List.cons_append, paramsEnd.eq_def]
      dsimp only
      split at reads
      next hopen => rw [if_pos hopen, ih reads]
      next hopen =>
          rw [if_neg hopen]
          split at reads
          next hclose =>
              rw [if_pos hclose]
              cases depth with
              | zero => cases reads
              | succ depth => exact ih reads
          next hclose => rw [if_neg hclose, ih reads]

/-! ### The whole call -/

/-- What stands between the own name and the last parenthesis. -/
def classBases (items : List Char) : List Char := [',', ' ', '('] ++ (items ++ "), \x7b...\x7d".toList)

/-- What a class is made from, in parentheses. -/
def classArguments (own items : List Char) : List Char :=
  '(' :: (quote own ++ (classBases items ++ [')']))

/-- What the call that makes a class is cut into. -/
def classSegments (own items : List Char) : Segments where
  symbolName := none
  head := Study.typeWord
  params := collapse (classArguments own items)
  body := []
  implicit := false

theorem classCall_eq (own items : List Char) :
    classCall own items = Study.typeWord ++ classArguments own items := by
  rw [classCall, classArguments, classBases, List.append_assoc, List.append_assoc]
  rfl

section ClassBases

variable {items : List Char} (neutral : ∀ c ∈ items, isNeutral c = true)
include neutral

/-- Between the own name and the last parenthesis all is code. -/
theorem plain_classBases : ∀ c ∈ classBases items, isQuote c = false ∧ c ≠ '#' := by
  have hfront : ∀ c ∈ [',', ' ', '('], isQuote c = false ∧ c ≠ '#' := by simp [isQuote]
  have hback : ∀ c ∈ "), \x7b...\x7d".toList, isQuote c = false ∧ c ≠ '#' := by simp [isQuote]
  intro c member
  rw [classBases, List.mem_append, List.mem_append] at member
  obtain member | member | member := member
  · exact hfront c member
  · exact (flat_of_isNeutral (neutral c member)).1
  · exact hback c member

/-- One pair of parentheses is opened and closed there. -/
theorem openDepth_classBases : openDepth 0 (classBases items) = some 0 := by
  change openDepth 1 (items ++ _) = _
  rw [openDepth_neutral_append neutral]
  rfl

theorem scanDefinition_classCall (own : List Char) :
    scanDefinition (classCall own items) = .ok (classSegments own items) := by
  have hapart : (classBases items ++ [')']).head? ≠ some (quoteFor own) := by
    obtain h | h := quoteFor_eq own
    · rw [h]
      exact nofun
    · rw [h]
      exact nofun
  generalize htext : classCall own items = text
  rw [classCall_eq] at htext
  have hname : text.drop 5 = quote own ++ (classBases items ++ [')']) := by
    rw [← htext]
    rfl
  have hbehind : text.drop (5 + (quote own).length) = classBases items ++ [')'] := by
    rw [← List.drop_drop, hname, List.drop_left]
  have hlast : text.drop (5 + (quote own).length + (classBases items).length) = [')'] := by
    rw [← List.drop_drop, hbehind, List.drop_left]
  -- The lexer reads a word, a parenthesis, a literal, the bases and the last parenthesis.
  have hfront : front .initial (lex text).spots = .paramList 4 none (lexAt text 5).spots := by
    rw [lexAt, hname, ← htext]
    rfl
  obtain ⟨spots, hspots, hchars⟩ := exists_lexAt_of_plain (plain_classBases neutral) hbehind
  have hspots : (lexAt text 5).spots =
      spots ++ (lexAt text (5 + (quote own).length + (classBases items).length)).spots := by
    rw [lexAt_of_quote own hapart hname, Lexed.spots_cons_literal, hspots, Lexed.spots_prepend_code]
  have hstop : paramsEnd 0 (lexAt text 5).spots =
      some (5 + (quote own).length + (classBases items).length + 1) := by
    rw [hspots, lexAt_of_character hlast (by decide), Lexed.spots_cons_code,
      paramsEnd_of_openDepth (hchars ▸ openDepth_classBases neutral), paramsEnd_of_closing rfl]
  have hsplit : text.take 4 = Study.typeWord ∧ text.drop 4 = classArguments own items :=
    htext ▸ ⟨rfl, rfl⟩
  have hlength : 5 + (quote own).length + (classBases items).length + 1 = text.length := by
    rw [← htext]
    simp only [classArguments, Study.typeWord, List.length_append, List.length_cons,
      List.length_nil]
    omega
  have hslice : slice text 4 text.length = classArguments own items := by
    rw [slice, List.take_of_length_le (by rw [List.length_drop]), hsplit.2]
  rw [scanDefinition]
  dsimp only
  rw [hfront]
  dsimp only
  rw [hstop]
  dsimp only
  rw [hlength, cut, hsplit.1, hslice, List.drop_length]
  rfl

end ClassBases

end Segments

namespace Heap

variable {h : Heap} {r : Ref} {c : ClassInfo}

/-- The stub of a class whose bases have identifiers for names is cut around its parentheses, whatever
its own name is. -/
theorem scan_classStub_of_identifiers (name : String) {bases : List String}
    (identifiers : ∀ base ∈ bases, IsIdentifier base.toList) :
    Segments.scan (classStub name bases).toList =
      .ok (Segments.classSegments name.toList (tupleItems bases).toList) := by
  have hneutral : Neutral (tupleItems bases) := neutral_tupleItems fun base member c hc =>
    isNeutral_of_isIdentifierChar ((identifiers base member).2 c hc)
  rw [scan_classStub, Segments.scanDefinition_classCall hneutral]

theorem name?_of_class (found : h.shape r = .cls c) : h.name? r = some c.name := by
  have hholder : h.attributeHolder r = r := by
    rw [attributeHolder]
    cases h.size with
    | zero => rfl
    | succ n => simp only [attributeHolderFrom, found]
  have hproper : h.properAttribute? r "__name__" = some (.datum (.str c.name)) := by
    rw [properAttribute?, if_pos rfl, properName?, found]
    rfl
  rw [name?, attribute?, hholder, directAttribute?, hproper]
  rfl

theorem stub_of_named_class (found : h.shape r = .cls c) :
    h.stub r = .ok (classStub c.name (h.baseNames c)) := by
  rw [stub_of_class found, stubName, name?_of_class found]
  rfl

end Heap

/-- The text of a class without a source is its stub. -/
theorem Normalizer.anew_of_class {a : Archive} {h : Heap} {r : Ref} {c : ClassInfo} {f : Fault}
    (found : h.shape r = .cls c) (absent : a.lookup h r = .error f)
    (absence : Archive.isAbsence f = true) :
    anew a h r = .ok (.ofRaw (Heap.classStub c.name (h.baseNames c)).toList true) := by
  rw [anew, find]
  dsimp only [ofOrigin]
  rw [Heap.routine_of_class found]
  dsimp only
  rw [ofRoutine, absent]
  dsimp only
  rw [if_pos absence, Heap.stub_of_named_class found]
  rfl

/-! ### What a study finds without a class statement -/

/-- A record tells neither of a class statement nor of an anonymous function, and of all that constructs
objects that it is classic. -/
structure FeatureRecord.WithoutStatement (f : FeatureRecord) : Prop where
  cls : f.isClass = false
  arrow : f.isArrow = false
  classic : f.isClassic = f.isConstructor

namespace Study

variable {s s' : Study} {found : Bool}

/-- A probe for construction is kept, and nothing else that was found before changes. -/
theorem of_outcome_isConstructor (asked : outcome isConstructor s = (.ok found, s')) :
    s'.constructor = some found ∧ s'.segments = s.segments ∧
      s'.classStatement = s.classStatement := by
  rw [outcome_isConstructor] at asked
  split at asked
  next known decided =>
      cases asked
      exact ⟨decided, rfl, rfl⟩
  next =>
      rw [outcome_ask] at asked
      generalize s.world.probe s.tracker .constructible s.subject = probed at asked
      obtain ⟨f | verdict, world⟩ := probed
      · cases asked
      · dsimp only at asked
        split at asked
        next found' s'' same =>
            cases asked
            obtain ⟨-, rfl⟩ := Prod.mk.inj same
            exact ⟨rfl, rfl, rfl⟩
        next => cases asked

/-- Where no class statement stands in the text no probe is needed. -/
theorem outcome_isClass_of_head (head : s.segments.head = typeWord)
    (undecided : s.classStatement = none) :
    outcome isClass s = (.ok false, { s with classStatement := some false }) := by
  have hhead : s.hasClassHead = false := by
    rw [hasClassHead, head]
    rfl
  rw [isClass, outcome_bind, outcome_get]
  dsimp only
  rw [undecided]
  dsimp only
  rw [hhead]
  rfl

/-- What constructs objects does so without a class statement. -/
theorem outcome_isClassic_of_head (head : s.segments.head = typeWord)
    (undecided : s.classStatement = none) :
    (outcome isClassic s).1 = (outcome isConstructor s).1 := by
  rw [isClassic, outcome_bind]
  rcases hasked : outcome isConstructor s with ⟨f | found, s'⟩
  · rfl
  · obtain ⟨-, hsegments, hstatement⟩ := of_outcome_isConstructor hasked
    dsimp only
    cases found with
    | false => rfl
    | true =>
        rw [if_pos rfl, outcome_bind, outcome_isClass_of_head (hsegments ▸ head)
          (hstatement.trans undecided)]
        rfl

end Study

namespace Inquiry

theorem withoutStatement_of_describe {t : Tracker} {target source : Ref} {s : Study}
    {record : FeatureRecord} (head : s.segments.head = Study.typeWord)
    (undecided : s.classStatement = none)
    (described : (outcome (describe t target source) s).1 = .ok record) :
    record.WithoutStatement := by
  obtain ⟨s₁, s₂, s₃, -, hasked, hasked', hasked'', harrow, -⟩ := exists_of_describe described
  obtain ⟨hconstructor, hsegments, hstatement⟩ := Study.of_outcome_isConstructor hasked
  rw [Study.outcome_isClass_of_head (hsegments ▸ head) (hstatement.trans undecided)] at hasked'
  obtain ⟨hclass, rfl⟩ := Prod.mk.inj hasked'
  rw [Study.outcome_isClassic_of_decided (s := { s₁ with classStatement := some false })
    hconstructor rfl, Bool.not_false, Bool.and_true] at hasked''
  obtain ⟨hclassic, rfl⟩ := Prod.mk.inj hasked''
  rw [Study.isArrow, hsegments, head] at harrow
  exact ⟨(Except.ok.inj hclass).symm, harrow.symm, (Except.ok.inj hclassic).symm⟩

/-- By genuine attempts and the standard rules a class with such a text is found to be classic if and only
if it is found to construct objects, and no flags tell something of its calls. -/
theorem study_classic_iff {t : Tracker} {target : Ref} (source : Ref) {s : Study} {c : ClassInfo}
    (genuine : (s.world.tracker s.tracker).Genuine) (undecided : s.constructor = none)
    (undecided' : s.classStatement = none) (cls : s.heap.shape s.subject = .cls c)
    (head : s.segments.head = Study.typeWord)
    (wraps : (t.state target).isProxy = true → (t.state target).isBound = false) :
    (∃ record, (outcome (do checked Rule.standard (← describe t target source)) s).1 = .ok record ∧
      record.isClassic = true) ↔
    s.constructs = .ok true ∧
      ∀ flavor, flavor ≠ .plain → s.heap.codeFlagged s.subject flavor = false := by
  have hwithout {record : FeatureRecord} (hrecord : s.record t target source = .ok record) :
      record.WithoutStatement := by
    have hdescribed := outcome_describe_of_genuine t target source genuine undecided undecided'
    exact withoutStatement_of_describe head undecided'
      ((congrArg Prod.fst hdescribed).trans hrecord)
  constructor
  · rintro ⟨record, handed, classic⟩
    obtain ⟨hrecord, hconsistent⟩ :=
      (study_ok_iff t target source genuine undecided undecided').mp handed
    have hconstructs : s.constructs = .ok true := by
      rw [Study.constructs_of_record hrecord, ← (hwithout hrecord).classic, classic]
    obtain ⟨found, hfound, hiff⟩ :=
      Study.consistent_iff_of_class source cls hconstructs head wraps
    cases hrecord.symm.trans hfound
    exact ⟨hconstructs, hiff.mp hconsistent⟩
  · rintro ⟨hconstructs, unflagged⟩
    obtain ⟨record, hrecord, hiff⟩ :=
      Study.consistent_iff_of_class source cls hconstructs head wraps
    have hconstructor : record.isConstructor = true :=
      Except.ok.inj ((Study.constructs_of_record hrecord).symm.trans hconstructs)
    exact ⟨record, (study_ok_iff t target source genuine undecided undecided').mpr
      ⟨hrecord, hiff.mpr unflagged⟩, (hwithout hrecord).classic.trans hconstructor⟩

/-- Whatever a class is called itself, its stub is cut around the parentheses behind the first word, if
the names of its bases are identifiers; for the own name is stepped over as a whole. This is the text of a
class without a source. With this text a classifier finds neither a class statement nor an anonymous
function, and what constructs objects is classic. By genuine attempts and the standard rules it finds the
class to be classic if and only if the probe says that it constructs objects, and no attribute `__code__`
of the class has a flag of a function that is awaited or gives one value after another. -/
theorem classify_classStub (name : String) {bases : List String}
    (identifiers : ∀ base ∈ bases, IsIdentifier base.toList) :
    (∀ s rest : List Char, rest.head?.any isQuote = false →
      literalEnd (quote s ++ rest) 0 = .ok (quote s).length) ∧
    (∃ arguments, (Heap.classStub name bases).toList = Study.typeWord ++ arguments ∧
      Segments.scan (Heap.classStub name bases).toList =
        .ok ⟨none, Study.typeWord, collapse arguments, [], false⟩) ∧
    (∀ (h : Heap) (r : Ref) (c : ClassInfo), h.shape r = .cls c → c.name = name →
      h.baseNames c = bases → h.stub r = .ok (Heap.classStub name bases) ∧
      ∀ (a : Archive) (f : Fault), a.lookup h r = .error f → Archive.isAbsence f = true →
        Normalizer.anew a h r = .ok (.ofRaw (Heap.classStub name bases).toList true)) ∧
    ∀ (q : Inquiry) (candidate : Ref) (t : SourceText), q.Coherent →
      (q.normalizer.request q.world.heap (q.tracker.source candidate)).result = .ok t →
      t.raw = (Heap.classStub name bases).toList →
      (∃ study, (outcome (analyse (q.tracker.source candidate)) q).1 = .ok study ∧
        study.isArrow = false ∧ (outcome Study.isClass study).1 = .ok false ∧
        (outcome Study.isClassic study).1 = (outcome Study.isConstructor study).1) ∧
      (∀ record, (outcome (classify candidate) q).1 = .ok record → record.WithoutStatement) ∧
      (q.world.heap.callable candidate = true → q.tracker.Genuine →
        q.classifier.rules = Rule.standard →
        q.world.heap.isClass (q.tracker.source candidate) = true →
        ((q.tracker.state candidate).isProxy = true → (q.tracker.state candidate).isBound = false) →
        ((∃ record, (outcome (classify candidate) q).1 = .ok record ∧ record.isClassic = true) ↔
          (q.world.probe q.classifier.tracker .constructible (q.tracker.source candidate)).1 =
            .ok .yes ∧
          ∀ flavor, flavor ≠ .plain →
            q.world.heap.codeFlagged (q.tracker.source candidate) flavor = false)) := by
  have hscan := Heap.scan_classStub_of_identifiers name identifiers
  refine ⟨fun s rest apart => ?_, ⟨_, ?_, hscan⟩, ?_, ?_⟩
  · refine literalEnd_quote s fun first => ?_
    rw [first, Option.any_some, isQuote_quoteFor] at apart
    cases apart
  · rw [Heap.toList_classStub, Segments.classCall_eq]
  · rintro h r c found rfl rfl
    exact ⟨Heap.stub_of_named_class found, fun a f absent absence =>
      Normalizer.anew_of_class found absent absence⟩
  intro q candidate t coherent answered raw
  have hknown := coherent.known_eq answered
  rw [raw, hscan] at hknown
  refine ⟨?_, fun record classified => ?_, fun callable genuine standard cls wraps => ?_⟩
  · obtain ⟨asked, hanalyse⟩ := outcome_analyse_of_text answered
    rw [hknown] at hanalyse
    refine ⟨_, congrArg Prod.fst hanalyse, rfl, ?_, Study.outcome_isClassic_of_head rfl rfl⟩
    rw [Study.outcome_isClass_of_head rfl rfl]
  · have ended := Inquiry.classified q candidate
    generalize outcome (classify candidate) q = run at classified ended
    cases ended with
    | uncallable => cases classified
    | textless => cases classified
    | unscanned => cases classified
    | studied callable answered' known studied =>
        cases answered.symm.trans answered'
        cases hknown.symm.trans known
        obtain ⟨found, s', hdescribed, hchecked⟩ :=
          exists_of_outcome_bind ((congrArg Prod.fst studied).trans classified)
        rw [eq_of_outcome_checked hchecked]
        exact withoutStatement_of_describe rfl rfl (congrArg Prod.fst hdescribed)
  · obtain ⟨asked, hrun⟩ := outcome_classify_of_segments callable answered hknown
    obtain ⟨c, hc⟩ := Heap.isClass_iff.mp cls
    have hclassic := study_classic_iff (s := .begin q.world q.classifier.tracker
      (q.tracker.source candidate) (Segments.classSegments name.toList
        (Heap.tupleItems bases).toList)) (q.tracker.source candidate) genuine rfl rfl hc rfl wraps
    rw [Study.constructs_begin_iff genuine] at hclassic
    rw [hrun, standard]
    exact hclassic

/-- The world with a class and one derived from it that has quotes, brackets and a line break in its
name. -/
def quotedClass : World := World.initial.run [
  .create (.cls ⟨"m", "Base", "Base", "type", [Catalog.objectClass], false, false, false, none,
    false⟩) none,
  .create (.cls ⟨"m", "'\"(\\#\n]", "C", "type", [World.initial.heap.size], false, false, false,
    none, false⟩) none]

/-- The derived class is found to be classic. -/
theorem classify_classStub_quotedClass :
    let q := fresh quotedClass .files World.mainTracker Rule.standard
    let r := World.initial.heap.size + 1
    literalEnd (quote "'\"(\\#\n]".toList ++ ['\n', '"']) 0 = .ok 12 ∧
    Segments.scan "type('\\'\"(\\\\#\\n]', (Base,), \x7b...\x7d)".toList =
      .ok ⟨none, "type".toList, "('\\'\"(\\\\#\\n]', (Base,), \x7b...\x7d)".toList, [], false⟩ ∧
    ∃ record, (outcome (classify r) q).1 = .ok record ∧ record.WithoutStatement ∧
      record.isClassic = true := by
  intro q r
  have htext : Heap.classStub "'\"(\\#\n]" ["Base"] =
      "type('\\'\"(\\\\#\\n]', (Base,), \x7b...\x7d)" := by decide +kernel
  have hidentifiers : ∀ base ∈ ["Base"], IsIdentifier base.toList := by decide +kernel
  obtain ⟨hliteral, ⟨arguments, harguments, hscan⟩, hclass, hclassify⟩ :=
    classify_classStub "'\"(\\#\n]" hidentifiers
  have hnative := (hclass quotedClass.heap r _ rfl rfl rfl).2 .files Archive.noSource rfl rfl
  have hcoherent : q.Coherent := coherent_fresh ..
  obtain ⟨-, hrecord, hclassic⟩ := hclassify q r _ hcoherent hnative rfl
  have hunflagged (flavor : Flavor) (_ : flavor ≠ .plain) :
      q.world.heap.codeFlagged (q.tracker.source r) flavor = false := by
    cases flavor <;> decide +kernel
  obtain ⟨record, hfound, hconstructs⟩ :=
    (hclassic (by decide +kernel) rfl rfl (by decide +kernel) nofun).mpr
      ⟨eq_ok_of_toOption (by decide +kernel), hunflagged⟩
  rw [htext] at harguments hscan
  have hsplit : "type('\\'\"(\\\\#\\n]', (Base,), \x7b...\x7d)".toList =
      Study.typeWord ++ "('\\'\"(\\\\#\\n]', (Base,), \x7b...\x7d)".toList := by decide +kernel
  obtain rfl := List.append_cancel_left (hsplit.symm.trans harguments)
  refine ⟨?_, ?_, record, hfound, hrecord record hfound, hconstructs⟩
  · exact hliteral _ ['\n', '"'] rfl
  · exact hscan

end Inquiry

end CallableKinds

import CallableKinds.Proofs.Classification
import CallableKinds.Proofs.WeakTable
import Mathlib.Data.List.Forall2

/-!
# Violations

What checking a list of rules gives for any record of features: one message for each rule that is
broken, in the order of the rules, unless a rule asks for a feature that is not there. A rule asks for a
feature only as long as it is not decided, so a missing feature may go unnoticed.
-/

namespace CallableKinds

namespace Rule

/-! ### Broken rules and their messages -/

/-- A feature is there, and counts as true or as false. -/
def HasTruth (features : Features) (key : String) (truth : Bool) : Prop :=
  ∃ feature ∈ Keyed.find? key features, feature.truthy = truth

/-- A feature is there and has the value that it is paired with. -/
def Matches (features : Features) (p : String × Datum) : Prop :=
  ∃ feature ∈ Keyed.find? p.1 features, feature.hasValue p.2 = true

instance (features : Features) (key : String) (truth : Bool) :
    Decidable (HasTruth features key truth) :=
  inferInstanceAs (Decidable (∃ feature ∈ Keyed.find? key features, feature.truthy = truth))

instance (features : Features) (p : String × Datum) : Decidable (Matches features p) :=
  inferInstanceAs (Decidable (∃ feature ∈ Keyed.find? p.1 features, feature.hasValue p.2 = true))

/-- The features of a conclusion that do not have their values. -/
def mismatched (features : Features) (conclusion : Keyed String Datum) : Keyed String Datum :=
  conclusion.filter fun p => ¬ Matches features p

/-- Features break a rule. -/
def Broken (features : Features) : Rule → Prop
  | nand a b => HasTruth features a true ∧ HasTruth features b true
  | xor a b => ∃ truth, HasTruth features a truth ∧ HasTruth features b truth
  | implies condition conclusion =>
    (∀ p ∈ condition, Matches features p) ∧ ∃ p ∈ conclusion, ¬ Matches features p

instance (features : Features) (rule : Rule) : Decidable (rule.Broken features) :=
  match rule with
  | nand a b => inferInstanceAs (Decidable (HasTruth features a true ∧ HasTruth features b true))
  | xor a b =>
    inferInstanceAs (Decidable (∃ truth, HasTruth features a truth ∧ HasTruth features b truth))
  | implies condition conclusion =>
    inferInstanceAs (Decidable
      ((∀ p ∈ condition, Matches features p) ∧ ∃ p ∈ conclusion, ¬ Matches features p))

/-- A line tells of a feature which value it should have and which one it has. -/
def TellsMismatch (features : Features) (p : String × Datum) (line : String) : Prop :=
  ∃ actual ∈ Keyed.find? p.1 features,
    line = p.1 ++ " is invalid, expected " ++ p.2.print ++ ", got " ++ actual.print

/-- What is said of a rule that is broken. -/
inductive Told (features : Features) : Rule → String → Prop where
  | nand (a b : String) :
    Told features (.nand a b) ("'" ++ a ++ "' and '" ++ b ++ "' cannot be both True")
  | xorTrue {a b : String} (truth : HasTruth features a true) :
    Told features (.xor a b) ("'" ++ a ++ "' and '" ++ b ++ "' cannot be both True")
  | xorFalse {a b : String} (truth : HasTruth features a false) :
    Told features (.xor a b) ("'" ++ a ++ "' and '" ++ b ++ "' cannot be both False")
  /-- The condition is repeated, and then comes a line for each feature that does not match. -/
  | implies {condition conclusion : Keyed String Datum} {found : List String}
    (tells : List.Forall₂ (TellsMismatch features) (mismatched features conclusion) found) :
    Told features (.implies condition conclusion)
      ("As " ++ describe condition ++ ":\n  " ++ ".\n  ".intercalate found)

/-! ### What a rule asks for -/

/-- The features of a condition that are asked for: each one if all those before it match. -/
def AsksInTurn (features : Features) (condition : Keyed String Datum) (key : String) : Prop :=
  ∃ earlier p later, condition = earlier ++ p :: later ∧ p.1 = key ∧
    ∀ q ∈ earlier, Matches features q

theorem asksInTurn_nil {features : Features} {key : String} : ¬ AsksInTurn features [] key := by
  rintro ⟨earlier, p, later, parts, -, -⟩
  simp at parts

theorem asksInTurn_cons {features : Features} {p : String × Datum} {rest : Keyed String Datum}
    {key : String} :
    AsksInTurn features (p :: rest) key ↔
      p.1 = key ∨ Matches features p ∧ AsksInTurn features rest key := by
  constructor
  · rintro ⟨earlier, q, later, parts, hkey, matched⟩
    cases earlier with
    | nil =>
        obtain ⟨rfl, rfl⟩ := List.cons.inj parts
        exact .inl hkey
    | cons first earlier =>
        obtain ⟨rfl, rfl⟩ := List.cons.inj parts
        obtain ⟨hfirst, hearlier⟩ := List.forall_mem_cons.mp matched
        exact .inr ⟨hfirst, earlier, q, later, rfl, hkey, hearlier⟩
  · rintro (hkey | ⟨hfirst, earlier, q, later, rfl, hkey, hearlier⟩)
    · exact ⟨[], p, rest, rfl, hkey, nofun⟩
    · exact ⟨p :: earlier, q, later, rfl, hkey, List.forall_mem_cons.mpr ⟨hfirst, hearlier⟩⟩

/-- A rule asks for a feature before it is decided. -/
inductive Asks (features : Features) : Rule → String → Prop where
  | nandFirst (a b : String) : Asks features (.nand a b) a
  | nandSecond {a b : String} (first : HasTruth features a true) : Asks features (.nand a b) b
  | xorFirst (a b : String) : Asks features (.xor a b) a
  | xorSecond (a b : String) : Asks features (.xor a b) b
  | condition {condition conclusion : Keyed String Datum} {key : String}
    (inTurn : AsksInTurn features condition key) : Asks features (.implies condition conclusion) key
  | conclusion {condition conclusion : Keyed String Datum} {p : String × Datum}
    (matched : ∀ q ∈ condition, Matches features q) (member : p ∈ conclusion) :
    Asks features (.implies condition conclusion) p.1

theorem asks_nand_iff {features : Features} {a b key : String} :
    (nand a b).Asks features key ↔ key = a ∨ HasTruth features a true ∧ key = b := by
  constructor
  · intro asks
    cases asks with
    | nandFirst => exact .inl rfl
    | nandSecond first => exact .inr ⟨first, rfl⟩
  · rintro (rfl | ⟨first, rfl⟩)
    · exact .nandFirst key b
    · exact .nandSecond first

theorem asks_xor_iff {features : Features} {a b key : String} :
    (xor a b).Asks features key ↔ key = a ∨ key = b := by
  constructor
  · intro asks
    cases asks with
    | xorFirst => exact .inl rfl
    | xorSecond => exact .inr rfl
  · rintro (rfl | rfl)
    · exact .xorFirst key b
    · exact .xorSecond a key

theorem asks_implies_iff {features : Features} {condition conclusion : Keyed String Datum}
    {key : String} :
    (implies condition conclusion).Asks features key ↔ AsksInTurn features condition key ∨
      (∀ q ∈ condition, Matches features q) ∧ ∃ p ∈ conclusion, p.1 = key := by
  constructor
  · intro asks
    cases asks with
    | condition inTurn => exact .inl inTurn
    | conclusion matched member => exact .inr ⟨matched, _, member, rfl⟩
  · rintro (inTurn | ⟨matched, p, member, rfl⟩)
    · exact .condition inTurn
    · exact .conclusion matched member

/-- A rule asks for no other features than those that it may read. -/
theorem Asks.mem_reads {features : Features} {rule : Rule} {key : String}
    (asks : rule.Asks features key) : key ∈ rule.reads := by
  cases asks with
  | nandFirst | nandSecond | xorFirst | xorSecond => simp [reads]
  | condition inTurn =>
      obtain ⟨earlier, p, later, rfl, rfl, -⟩ := inTurn
      exact List.mem_map_of_mem (f := Prod.fst) (by simp)
  | conclusion matched member =>
      exact List.mem_map_of_mem (f := Prod.fst) (List.mem_append_right _ member)

/-- A rule of a list asks for a feature that is missing. -/
def Misses (features : Features) (rules : List Rule) : Prop :=
  ∃ rule ∈ rules, ∃ key, rule.Asks features key ∧ Keyed.find? key features = none

theorem not_misses_of_present {features : Features} {rules : List Rule}
    (present : ∀ rule ∈ rules, ∀ key ∈ rule.reads, Keyed.find? key features ≠ none) :
    ¬ Misses features rules := by
  rintro ⟨rule, member, key, asks, absent⟩
  exact present rule member key asks.mem_reads absent

/-! ### Readings -/

/-- What comes of a reading that asks for some features: a result with a property if all of them are
there, or else the complaint about one that is missing. -/
inductive Reading {α : Type} (features : Features) (asked : String → Prop) (P : α → Prop) :
    Except Fault α → Prop where
  | found {a : α} (present : ∀ key, asked key → Keyed.find? key features ≠ none) (holds : P a) :
    Reading features asked P (.ok a)
  | missing {key : String} (asks : asked key) (absent : Keyed.find? key features = none) :
    Reading features asked P (.error (.missingKey (quoteString key)))

namespace Reading

variable {α β : Type} {features : Features} {asked asked' : String → Prop} {P : α → Prop}
  {Q : β → Prop}

theorem of_read (features : Features) (key : String) :
    Reading features (· = key) (fun feature => feature ∈ Keyed.find? key features)
      (read features key) := by
  rw [read]
  cases hfind : Keyed.find? key features with
  | none => exact .missing rfl hfind
  | some feature =>
      refine .found ?_ rfl
      rintro _ rfl
      rw [hfind]
      exact Option.some_ne_none feature

/-- A result that is there already is given without a question. -/
theorem result {a : α} (holds : P a) : Reading features (fun _ => False) P (.ok a) :=
  .found (fun _ => False.elim) holds

theorem congr {outcome : Except Fault α} (reading : Reading features asked P outcome)
    (same : ∀ key, asked key ↔ asked' key) : Reading features asked' P outcome := by
  cases reading with
  | found present holds => exact .found (fun key asks => present key ((same key).mpr asks)) holds
  | missing asks absent => exact .missing ((same _).mp asks) absent

theorem mono {P' : α → Prop} {outcome : Except Fault α} (reading : Reading features asked P outcome)
    (weaker : ∀ a, P a → P' a) : Reading features asked P' outcome := by
  cases reading with
  | found present holds => exact .found present (weaker _ holds)
  | missing asks absent => exact .missing asks absent

/-- Two readings in turn ask for what either asks for. -/
theorem bind {act : Except Fault α} {next : α → Except Fault β}
    (first : Reading features asked P act) (asked' : String → Prop)
    (later : ∀ a, P a → Reading features asked' Q (next a)) :
    Reading features (fun key => asked key ∨ asked' key) Q (act >>= next) := by
  cases first with
  | missing asks absent => exact .missing (.inl asks) absent
  | @found a present holds =>
      change Reading features _ Q (next a)
      have hnext := later a holds
      generalize next a = outcome at hnext ⊢
      cases hnext with
      | missing asks absent => exact .missing (.inr asks) absent
      | found present' holds' => exact .found (fun key => Or.rec (present key) (present' key)) holds'

/-- Behind a reading what is left to do asks for nothing. -/
theorem followed {act : Except Fault α} {next : α → Except Fault β}
    (first : Reading features asked P act) (later : ∀ a, P a → ∃ b, next a = .ok b ∧ Q b) :
    Reading features asked Q (act >>= next) := by
  refine (first.bind (fun _ => False) fun a holds => ?_).congr (by simp)
  obtain ⟨b, hb, hQ⟩ := later a holds
  rw [hb]
  exact .result hQ

end Reading

variable {features : Features}

theorem hasTruth_iff {key : String} {feature : Feature} (found : feature ∈ Keyed.find? key features)
    (truth : Bool) : HasTruth features key truth ↔ feature.truthy = truth := by
  simp [HasTruth, Option.mem_def.mp found]

theorem matches_iff {key : String} {value : Datum} {feature : Feature}
    (found : feature ∈ Keyed.find? key features) :
    Matches features (key, value) ↔ feature.hasValue value = true := by
  simp [Matches, Option.mem_def.mp found]

/-- A condition is read up to the first feature that does not match. -/
theorem reading_holds (condition : Keyed String Datum) :
    Reading features (AsksInTurn features condition)
      (fun holds => holds = true ↔ ∀ p ∈ condition, Matches features p)
      (holds features condition) := by
  induction condition with
  | nil => exact (Reading.result (by simp)).congr fun key => by simp [asksInTurn_nil]
  | cons p rest ih =>
      have hfirst := Reading.of_read features p.1
      by_cases matched : Matches features p
      · refine (hfirst.bind (AsksInTurn features rest) fun actual found => ?_).congr fun key => ?_
        · rw [if_pos ((matches_iff found).mp matched)]
          exact ih.mono fun holds hrest => by simp [hrest, matched]
        · simp [asksInTurn_cons, matched, eq_comm]
      · refine (hfirst.followed fun actual found => ?_).congr fun key => ?_
        · exact ⟨false, if_neg (mt (matches_iff found).mpr matched), by simp [matched]⟩
        · simp [asksInTurn_cons, matched, eq_comm]

/-- A conclusion is read as a whole, and there is a line for each feature that does not match. -/
theorem reading_mismatches (conclusion : Keyed String Datum) :
    Reading features (fun key => ∃ p ∈ conclusion, p.1 = key)
      (List.Forall₂ (TellsMismatch features) (mismatched features conclusion))
      (mismatches features conclusion) := by
  induction conclusion with
  | nil => exact (Reading.result .nil).congr fun key => by simp
  | cons p rest ih =>
      refine ((Reading.of_read features p.1).bind _ fun actual found => ih.followed
        fun later hlater => ⟨_, rfl, ?_⟩).congr fun key => ?_
      · by_cases matched : Matches features p
        · rw [if_pos ((matches_iff found).mp matched), mismatched,
            List.filter_cons_of_neg (by simpa using matched)]
          exact hlater
        · rw [if_neg (mt (matches_iff found).mpr matched), mismatched,
            List.filter_cons_of_pos (by simpa using matched)]
          exact .cons ⟨actual, found, rfl⟩ hlater
      · simp [eq_comm]

/-! ### Checking rules -/

/-- What checking a rule gives: a message about it if it is broken, or else nothing. -/
inductive Judged (features : Features) (rule : Rule) : Option String → Prop where
  | broken {text : String} (broken : rule.Broken features) (told : rule.Told features text) :
    Judged features rule (some text)
  | kept (kept : ¬ rule.Broken features) : Judged features rule none

theorem bothMessage_true (a b : String) :
    bothMessage a b true = "'" ++ a ++ "' and '" ++ b ++ "' cannot be both True" :=
  String.append_assoc

theorem bothMessage_false (a b : String) :
    bothMessage a b false = "'" ++ a ++ "' and '" ++ b ++ "' cannot be both False" :=
  String.append_assoc

theorem reading_nand (a b : String) :
    Reading features ((nand a b).Asks features) (Judged features (nand a b))
      ((nand a b).check features) := by
  have hfirst := Reading.of_read features a
  by_cases first : HasTruth features a true
  · refine (hfirst.bind (· = b) fun x hx => ?_).congr fun key => by
      rw [asks_nand_iff, and_iff_right first]
    rw [if_pos ((hasTruth_iff hx true).mp first)]
    refine (Reading.of_read features b).followed fun y hy => ?_
    by_cases second : y.truthy = true
    · refine ⟨_, if_pos second, .broken ⟨first, (hasTruth_iff hy true).mpr second⟩ ?_⟩
      rw [bothMessage_true]
      exact .nand a b
    · exact ⟨none, if_neg second, .kept fun broken => second ((hasTruth_iff hy true).mp broken.2)⟩
  · refine (hfirst.followed fun x hx => ?_).congr fun key => by
      simp [asks_nand_iff, first]
    exact ⟨none, if_neg (mt (hasTruth_iff hx true).mpr first), .kept fun broken => first broken.1⟩

theorem reading_xor (a b : String) :
    Reading features ((xor a b).Asks features) (Judged features (xor a b))
      ((xor a b).check features) := by
  refine ((Reading.of_read features a).bind (· = b) fun x hx =>
    (Reading.of_read features b).followed fun y hy => ⟨_, rfl, ?_⟩).congr
      fun key => asks_xor_iff.symm
  have hboth : (xor a b).Broken features ↔ x.truthy = y.truthy := by
    simp [Broken, hasTruth_iff hx, hasTruth_iff hy, eq_comm]
  by_cases same : x.truthy = y.truthy
  · rw [if_pos same]
    refine .broken (hboth.mpr same) ?_
    have truth : HasTruth features a x.truthy := (hasTruth_iff hx _).mpr rfl
    generalize x.truthy = value at truth
    cases value with
    | true => exact bothMessage_true a b ▸ .xorTrue truth
    | false => exact bothMessage_false a b ▸ .xorFalse truth
  · rw [if_neg same]
    exact .kept (mt hboth.mp same)

theorem reading_implies (condition conclusion : Keyed String Datum) :
    Reading features ((implies condition conclusion).Asks features)
      (Judged features (implies condition conclusion))
      ((implies condition conclusion).check features) := by
  have hcondition : Reading features _ _ (holds features condition) := reading_holds condition
  by_cases matched : ∀ p ∈ condition, Matches features p
  · refine (hcondition.bind (fun key => ∃ p ∈ conclusion, p.1 = key) fun holds hholds => ?_).congr
      fun key => ?_
    · rw [if_pos (hholds.mpr matched)]
      refine (reading_mismatches conclusion).followed fun found tells => ?_
      cases found with
      | nil =>
          refine ⟨none, rfl, .kept ?_⟩
          rintro ⟨-, p, member, mismatch⟩
          have hnone := List.filter_eq_nil_iff.mp (List.forall₂_nil_right_iff.mp tells) p member
          simp [mismatch] at hnone
      | cons line lines =>
          refine ⟨_, rfl, .broken ⟨matched, ?_⟩ (.implies tells)⟩
          obtain ⟨p, rest, -, -, hparts⟩ := List.forall₂_cons_right_iff.mp tells
          have member : p ∈ mismatched features conclusion := hparts ▸ List.mem_cons_self
          obtain ⟨hp, mismatch⟩ := List.mem_filter.mp member
          exact ⟨p, hp, of_decide_eq_true mismatch⟩
    · rw [asks_implies_iff, and_iff_right matched]
  · refine (hcondition.followed fun holds hholds => ?_).congr fun key => ?_
    · exact ⟨none, if_neg (mt hholds.mp matched), .kept fun broken => matched broken.1⟩
    · rw [asks_implies_iff, or_iff_left fun h => matched h.1]

/-- Checking a rule asks for features until the rule is decided, and gives a message if and only if it
is broken. -/
theorem reading_check (rule : Rule) :
    Reading features (rule.Asks features) (Judged features rule) (rule.check features) := by
  cases rule with
  | nand a b => exact reading_nand a b
  | xor a b => exact reading_xor a b
  | implies condition conclusion => exact reading_implies condition conclusion

/-- Checking a list of rules gives one message for each rule that is broken, in order. -/
theorem reading_violations (rules : List Rule) :
    Reading features (fun key => ∃ rule ∈ rules, rule.Asks features key)
      (List.Forall₂ (Told features) (rules.filter fun rule => rule.Broken features))
      (violations features rules) := by
  induction rules with
  | nil => exact (Reading.result .nil).congr fun key => by simp
  | cons rule rest ih =>
      refine ((reading_check rule).bind _ fun found judged => ih.followed fun later told =>
        ⟨_, rfl, ?_⟩).congr fun key => by simp
      cases judged with
      | broken broken text =>
          rw [List.filter_cons_of_pos (by simpa using broken)]
          exact .cons text told
      | kept kept =>
          rw [List.filter_cons_of_neg (by simpa using kept)]
          exact told

theorem violations_append (features : Features) (rules more : List Rule) :
    violations features (rules ++ more) = do
      return (← violations features rules) ++ (← violations features more) := by
  induction rules with
  | nil =>
      change violations features more = violations features more >>= fun found => pure found
      rw [bind_pure]
  | cons rule rest ih =>
      rw [List.cons_append, violations, violations, ih]
      cases rule.check features with
      | error fault => rfl
      | ok found =>
          cases violations features rest with
          | error fault => rfl
          | ok later =>
              cases violations features more with
              | error fault => rfl
              | ok last => exact congrArg Except.ok (List.append_assoc ..).symm

/-- Checking rules is sound and complete. Unless a rule asks for a missing feature, which it cannot if
all are there, there is one message for each rule that is broken, in the order of the rules. A message
about a conclusion has a line for each feature of it that does not have its value, and no feature has two
lines if the keys are distinct. Two lists of rules are checked one after the other. A check fails if and
only if a rule asks for a missing feature before it is decided. -/
theorem violations_exact (features : Features) (rules : List Rule) :
    ((∀ rule ∈ rules, ∀ key ∈ rule.reads, Keyed.find? key features ≠ none) →
      ¬ Misses features rules) ∧
    (¬ Misses features rules → ∃ found, violations features rules = .ok found ∧
      List.Forall₂ (Told features) (rules.filter fun rule => rule.Broken features) found) ∧
    (∀ conclusion : Keyed String Datum, conclusion.Distinct →
      (mismatched features conclusion).Distinct) ∧
    (∀ more, violations features (rules ++ more) = do
      return (← violations features rules) ++ (← violations features more)) ∧
    ((∃ fault, violations features rules = .error fault ∧ fault.kind = .standard "KeyError") ↔
      Misses features rules) := by
  have hreading : Reading features _ _ (violations features rules) := reading_violations rules
  refine ⟨not_misses_of_present, ?_, fun conclusion distinct => distinct.sublist List.filter_sublist,
    violations_append features rules, ?_⟩
  · intro complete
    generalize violations features rules = outcome at hreading
    cases hreading with
    | found _ told => exact ⟨_, rfl, told⟩
    | missing asks absent =>
        obtain ⟨rule, member, asks⟩ := asks
        exact absurd ⟨rule, member, _, asks, absent⟩ complete
  · generalize violations features rules = outcome at hreading
    cases hreading with
    | found present _ =>
        refine ⟨nofun, ?_⟩
        rintro ⟨rule, member, key, asks, absent⟩
        exact absurd absent (present key ⟨rule, member, asks⟩)
    | missing asks absent =>
        obtain ⟨rule, member, asks⟩ := asks
        exact ⟨fun _ => ⟨rule, member, _, asks, absent⟩, fun _ => ⟨_, rfl, rfl⟩⟩

/-- Features of several kinds. -/
def mixedFeatures : Features := [("a", .plain (.bool true)), ("b", .plain (.int 1)),
  ("c", .plain (.str "")), ("t", .object "<function t at 0x0>")]

/-- A rule whose condition holds, as a truth value equals the integer, and whose conclusion does not. -/
def mixedImplication : Rule :=
  .implies [("b", .bool true)] [("a", .int 1), ("c", .none), ("t", .bool true)]

/-- Rules of all kinds, of which all but the third one are broken. -/
def mixedRules : List Rule := [.nand "a" "b", .xor "b" "t", .xor "a" "c", mixedImplication]

/-- A missing feature matters only to a rule that is not decided without it. -/
theorem violations_exact_mixed :
    let found := ["'a' and 'b' cannot be both True", "'b' and 't' cannot be both True",
      "As 'b' = True:\n  c is invalid, expected None, got ''.\n" ++
      "  t is invalid, expected True, got <function t at 0x0>"]
    (∀ rule ∈ mixedRules, ∀ key ∈ rule.reads, Keyed.find? key mixedFeatures ≠ none) ∧
    violations mixedFeatures mixedRules = .ok found ∧
    List.Forall₂ (Told mixedFeatures) [.nand "a" "b", .xor "b" "t", mixedImplication] found ∧
    violations mixedFeatures [.nand "c" "d"] = .ok [] ∧
    ∃ fault, violations mixedFeatures [.nand "c" "d", .nand "b" "d"] = .error fault ∧
      fault.kind = .standard "KeyError" := by
  intro found
  have present : ∀ rule ∈ mixedRules, ∀ key ∈ rule.reads,
      Keyed.find? key mixedFeatures ≠ none := by
    simp [mixedRules, mixedImplication, mixedFeatures, reads, Keyed.find?]
  have hfound : violations mixedFeatures mixedRules = .ok found := rfl
  obtain ⟨complete, told, -⟩ := violations_exact mixedFeatures mixedRules
  obtain ⟨found', hfound', told⟩ := told (complete present)
  obtain rfl : found = found' := Except.ok.inj (hfound.symm.trans hfound')
  refine ⟨present, hfound, told, rfl, ?_⟩
  refine (violations_exact mixedFeatures [.nand "c" "d", .nand "b" "d"]).2.2.2.2.mpr ?_
  exact ⟨.nand "b" "d", by simp, "d", .nandSecond ⟨_, rfl, rfl⟩, rfl⟩

end Rule

end CallableKinds

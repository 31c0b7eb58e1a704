import CallableKinds.Proofs.Caches
import CallableKinds.Proofs.Coherence

/-!
# Uses of a classifier

A classifier and its normalizer are asked about objects, again and again, while some of the objects
die. Whatever was asked before, an answer is that of a new classifier with a new normalizer, and the
text of an object that can be referred to weakly is looked up once.
-/

namespace CallableKinds

/-- What happens to a classifier and its normalizer while all that texts are made from stays. -/
inductive Use where
  /-- The normalizer is asked for the text of an object. -/
  | text (r : Ref)
  /-- The classifier is asked for the record of a candidate. -/
  | record (candidate : Ref)
  /-- All objects but the live ones die. -/
  | perish (alive : Ref → Bool)

/-- Whether a use ends the life of an object. -/
def Use.Ends (r : Ref) : Use → Prop
  | .perish alive => alive r = false
  | _ => False

namespace Inquiry

/-- What a use leaves behind. The deaths of objects take away what was kept of them, in the caches as
in the tables of the trackers. -/
def use (q : Inquiry) : Use → Inquiry
  | .text r => (outcome (sourceText r) q).2
  | .record candidate => (outcome (classify candidate) q).2
  | .perish alive =>
    { q with
      world := q.world.perform (.perish alive)
      normalizer := { q.normalizer with cache := q.normalizer.cache.prune alive }
      classifier := { q.classifier with cache := q.classifier.cache.prune alive } }

/-- What some uses leave behind, one after another. -/
def useAll (q : Inquiry) (uses : List Use) : Inquiry := uses.foldl use q

/-- The object whose text is asked for in a use. -/
def about (q : Inquiry) : Use → Option Ref
  | .text r => some r
  | .record candidate =>
    if q.world.heap.callable candidate then some (q.tracker.source candidate) else none
  | .perish _ => none

/-- The routines whose source is asked for in the uses that are about an object. -/
def askedFor (r : Ref) (q : Inquiry) : List Use → List Ref
  | [] => []
  | u :: rest =>
    (if q.about u = some r then (q.use u).asked.drop q.asked.length else []) ++
      askedFor r (q.use u) rest

variable {q : Inquiry} {a : Archive} {w : World} {id : Nat} {rules : List Rule} {r : Ref}

/-! ## What goes on -/

/-- A classification leaves the classifier its tracker and its rules. -/
theorem classifier_classify (q : Inquiry) (candidate : Ref) :
    (outcome (classify candidate) q).2.classifier.tracker = q.classifier.tracker ∧
      (outcome (classify candidate) q).2.classifier.rules = q.classifier.rules := by
  have ended := classified q candidate
  generalize outcome (classify candidate) q = run at ended ⊢
  cases ended with
  | uncallable => exact ⟨rfl, rfl⟩
  | textless => exact ⟨rfl, rfl⟩
  | unscanned => exact ⟨rfl, rfl⟩
  | studied => exact ⟨Classifier.tracker_keep .., Classifier.rules_keep ..⟩

/-- A classifier with the given tracker and rules serves in a world that reads like the given one, and
keeps only what would be found anew. -/
structure Serves (q : Inquiry) (w : World) (a : Archive) (id : Nat) (rules : List Rule) : Prop where
  faithful : q.Faithful a
  tracker : q.classifier.tracker = id
  rules : q.classifier.rules = rules
  alike : q.world.heap.Alike w.heap
  sound : q.world.Sound

namespace Serves

theorem fresh (sound : w.Sound) (a : Archive) (id : Nat) (rules : List Rule) :
    (fresh w a id rules).Serves w a id rules :=
  ⟨faithful_fresh w a id rules, rfl, rfl, .refl w.heap, sound⟩

theorem use (serves : q.Serves w a id rules) (u : Use) : (q.use u).Serves w a id rules := by
  cases u with
  | text r =>
      exact { serves with
        faithful := ⟨serves.faithful.normalizer.request r, serves.faithful.classifier⟩ }
  | record candidate =>
      obtain ⟨tracker, rules⟩ := classifier_classify q candidate
      obtain ⟨events, led⟩ :=
        (keptByRequests_leadsTo q.world).classify candidate q (World.LeadsTo.refl _)
      exact {
        faithful := (serves.faithful.classify candidate).2
        tracker := tracker.trans serves.tracker
        rules := rules.trans serves.rules
        alike := (keptByRequests_alike w.heap).classify candidate q serves.alike
        sound := by
          change (outcome (classify candidate) q).2.world.Sound
          rw [led]
          exact serves.sound.run events }
  | perish alive =>
      exact { serves with
        faithful := ⟨serves.faithful.normalizer.prune alive, serves.faithful.classifier.prune alive⟩
        sound := serves.sound.perform (.perish alive) }

theorem useAll (serves : q.Serves w a id rules) (uses : List Use) :
    (q.useAll uses).Serves w a id rules :=
  List.foldlRecOn (motive := fun q => q.Serves w a id rules) uses Inquiry.use serves
    fun _ serves u _ => serves.use u

/-- What each of some uses keeps while the classifier serves, all of them keep. -/
theorem useAll_induction (serves : q.Serves w a id rules) {P : Inquiry → Prop} {uses : List Use}
    (kept : ∀ q : Inquiry, q.Serves w a id rules → ∀ u ∈ uses, P q → P (q.use u)) (holds : P q) :
    P (q.useAll uses) := by
  refine (List.foldlRecOn (motive := fun q => q.Serves w a id rules ∧ P q) uses Inquiry.use
    ⟨serves, holds⟩ ?_).2
  intro q ⟨serves, holds⟩ u member
  exact ⟨serves.use u, kept q serves u member holds⟩

theorem keeps (serves : q.Serves w a id rules) : q.normalizer.keeps = true := by
  rw [Normalizer.keeps, serves.faithful.normalizer.origin]

/-- A classification is answered as without caches. -/
theorem answer (serves : q.Serves w a id rules) (candidate : Ref) :
    (outcome (classify candidate) q).1 = anew q.world a id rules candidate := by
  rw [(serves.faithful.classify candidate).1, serves.tracker, serves.rules]

/-- A request for a text is answered as in the world at first. -/
theorem result (serves : q.Serves w a id rules) (r : Ref) :
    (q.normalizer.request q.world.heap r).result = Normalizer.anew a w.heap r := by
  rw [serves.faithful.normalizer.result, Normalizer.anew_alike serves.alike]

end Serves

/-! ## Answers -/

/-- Without caches, a classification is answered alike in two worlds that read alike, if what the
tracker tells of the candidate is the same. -/
theorem anew_congr {w' : World} {candidate : Ref} (alike : w'.heap.Alike w.heap)
    (genuine : (w.tracker id).Genuine) (genuine' : (w'.tracker id).Genuine)
    (source : (w'.tracker id).source candidate = (w.tracker id).source candidate)
    (state : (w'.tracker id).state candidate = (w.tracker id).state candidate) :
    anew w' a id rules candidate = anew w a id rules candidate := by
  rw [anew, anew, alike.callable, alike.typeName]
  dsimp only
  rw [source, Normalizer.anew_alike alike]
  split
  · refine bind_congr fun t => bind_congr fun s => ?_
    exact outcome_checked_alike rules _ ⟨alike, rfl, rfl⟩ state genuine genuine' ⟨rfl, rfl⟩
      ⟨rfl, rfl⟩
  · rfl

/-- A tracker with genuine interceptions tells of an object what it told in a world before. -/
structure Sees (q : Inquiry) (w : World) (id : Nat) (candidate : Ref) : Prop where
  genuine : (q.world.tracker id).Genuine
  source : (q.world.tracker id).source candidate = (w.tracker id).source candidate
  state : (q.world.tracker id).state candidate = (w.tracker id).state candidate

theorem Sees.use {candidate : Ref} (sees : q.Sees w id candidate) (serves : q.Serves w a id rules)
    {u : Use} (outlives : ¬ u.Ends candidate) : (q.use u).Sees w id candidate := by
  cases u with
  | text r =>
      exact ⟨sees.genuine, sees.source, sees.state⟩
  | record c =>
      have genuine : q.tracker.Genuine := by
        rw [tracker, serves.tracker]
        exact sees.genuine
      have same : (q.use (.record c)).world.tracker id = q.world.tracker id :=
        World.tracker_congr (trackers_classify_of_genuine genuine c) id
      exact ⟨same ▸ sees.genuine, same ▸ sees.source, same ▸ sees.state⟩
  | perish alive =>
      have living : alive candidate = true := by simpa [Use.Ends] using outlives
      have pruned : (q.use (.perish alive)).world.tracker id = (q.world.tracker id).prune alive :=
        World.Coherent.tracker_perish q.world alive id
      have within := serves.sound.within id
      refine ⟨pruned ▸ sees.genuine, ?_, ?_⟩
      · rw [pruned, within.source_prune, if_pos living]
        exact sees.source
      · rw [pruned, within.state_prune living]
        exact sees.state

theorem Sees.useAll {candidate : Ref} (sees : q.Sees w id candidate)
    (serves : q.Serves w a id rules) {uses : List Use} (outlives : ∀ u ∈ uses, ¬ u.Ends candidate) :
    (q.useAll uses).Sees w id candidate :=
  serves.useAll_induction (P := fun q => q.Sees w id candidate)
    (fun _ serves u member sees => sees.use serves (outlives u member)) sees

/-! ## Requests -/

/-- The study of an object that can be referred to weakly asks for its text twice; the second time it
is kept. -/
theorem request_of_analyse (keeps : q.normalizer.keeps = true)
    (weak : q.world.heap.weaklyReferable r = true) :
    (outcome (analyse r) q).2.normalizer = (q.normalizer.request q.world.heap r).normalizer ∧
      (outcome (analyse r) q).2.asked =
        q.asked ++ (q.normalizer.request q.world.heap r).asked := by
  rw [outcome_analyse, outcome_sourceText]
  cases answered : (q.normalizer.request q.world.heap r).result with
  | error f =>
      exact ⟨rfl, rfl⟩
  | ok t =>
      have kept := Normalizer.kept_of_request keeps weak answered
      dsimp only
      generalize (q.normalizer.request q.world.heap r).normalizer = n at kept ⊢
      generalize q.asked ++ (q.normalizer.request q.world.heap r).asked = asked
      cases known : q.classifier.cache.get? r r with
      | some s =>
          rw [outcome_segments_of_kept (by exact known)]
          exact ⟨rfl, rfl⟩
      | none =>
          rw [outcome_segments_of_missing (by exact known), outcome_sourceText,
            Normalizer.request_of_kept kept]
          dsimp only
          rw [List.append_nil]
          cases Segments.scan t.raw <;> exact ⟨rfl, rfl⟩

/-- A use about an object that can be referred to weakly asks for its text as one request does. -/
theorem request_of_about (keeps : q.normalizer.keeps = true)
    (weak : q.world.heap.weaklyReferable r = true) {u : Use} (about : q.about u = some r) :
    (q.use u).normalizer = (q.normalizer.request q.world.heap r).normalizer ∧
      (q.use u).asked = q.asked ++ (q.normalizer.request q.world.heap r).asked := by
  cases u with
  | text r' =>
      cases about
      exact ⟨rfl, rfl⟩
  | record candidate =>
      rw [Inquiry.about] at about
      split at about
      next callable =>
          cases about
          have analysed := request_of_analyse keeps weak
          rw [use, outcome_classify, if_pos callable]
          generalize outcome (analyse (q.tracker.source candidate)) q = asked at analysed ⊢
          obtain ⟨f | study, q'⟩ := asked
          · exact analysed
          · dsimp only
            rw [outcome_studying]
            exact analysed
      next => cases about
  | perish alive =>
      cases about

/-- Requests leave the text that is kept of an object, as the very same. -/
theorem keptByRequests_entryOf (r : Ref) (e : WeakEntry Ref SourceText) :
    KeptByRequests fun q => q.normalizer.cache.entryOf r r = some e where
  text q r' kept := Normalizer.entryOf_request kept q.world.heap r'
  classifier _ _ kept := kept
  probe _ _ _ _ kept := kept

theorem Serves.entryOf_use (serves : q.Serves w a id rules) {e : WeakEntry Ref SourceText}
    (kept : q.normalizer.cache.entryOf r r = some e) {u : Use} (outlives : ¬ u.Ends r) :
    (q.use u).normalizer.cache.entryOf r r = some e := by
  cases u with
  | text r' =>
      exact (keptByRequests_entryOf r e).text q r' kept
  | record candidate =>
      exact (keptByRequests_entryOf r e).classify candidate q kept
  | perish alive =>
      have living : alive r = true := by simpa [Use.Ends] using outlives
      exact (serves.faithful.normalizer.placed.entryOf_prune living).trans kept

theorem Serves.entryOf_useAll (serves : q.Serves w a id rules) {e : WeakEntry Ref SourceText}
    (kept : q.normalizer.cache.entryOf r r = some e) {uses : List Use}
    (outlives : ∀ u ∈ uses, ¬ u.Ends r) :
    (q.useAll uses).normalizer.cache.entryOf r r = some e :=
  serves.useAll_induction (P := fun q => q.normalizer.cache.entryOf r r = some e)
    (fun _ serves u member kept => serves.entryOf_use kept (outlives u member)) kept

/-- A use about an object asks for what a request for its text asks for. -/
theorem Serves.asked_use (serves : q.Serves w a id rules) (weak : w.heap.weaklyReferable r = true)
    {u : Use} (about : q.about u = some r) :
    (q.use u).asked.drop q.asked.length = (q.normalizer.request q.world.heap r).asked := by
  have weak : q.world.heap.weaklyReferable r = true := (serves.alike.weaklyReferable r).trans weak
  rw [(request_of_about serves.keeps weak about).2, List.drop_left]

/-- Of an object whose text is kept no source is asked for any more. -/
theorem Serves.askedFor_of_entryOf (serves : q.Serves w a id rules)
    (weak : w.heap.weaklyReferable r = true) {e : WeakEntry Ref SourceText}
    (kept : q.normalizer.cache.entryOf r r = some e) {uses : List Use}
    (outlives : ∀ u ∈ uses, ¬ u.Ends r) : q.askedFor r uses = [] := by
  induction uses generalizing q with
  | nil =>
      rfl
  | cons u rest ih =>
      have first := serves.entryOf_use kept (outlives u List.mem_cons_self)
      rw [askedFor, ih (serves.use u) first fun u' later => outlives u' (List.mem_cons_of_mem u later),
        List.append_nil]
      split
      next about =>
          rw [serves.asked_use weak about, Normalizer.request_of_entryOf kept]
      next => rfl

/-- Of an object that is no routine no source is asked for. -/
theorem Serves.askedFor_of_error (serves : q.Serves w a id rules)
    (weak : w.heap.weaklyReferable r = true) {f : Fault} (failed : w.heap.routine r = .error f)
    (uses : List Use) : q.askedFor r uses = [] := by
  induction uses generalizing q with
  | nil =>
      rfl
  | cons u rest ih =>
      have failed : q.world.heap.routine r = .error f := (serves.alike.routine r).trans failed
      rw [askedFor, ih (serves.use u), List.append_nil]
      split
      next about =>
          rw [serves.asked_use weak about, serves.faithful.normalizer.asked_of_error failed]
      next => rfl

/-- Of an object with a text one source is asked for at most. -/
theorem Serves.length_askedFor_le (serves : q.Serves w a id rules)
    (weak : w.heap.weaklyReferable r = true) {t : SourceText}
    (found : Normalizer.anew a w.heap r = .ok t) {uses : List Use}
    (outlives : ∀ u ∈ uses, ¬ u.Ends r) : (q.askedFor r uses).length ≤ 1 := by
  induction uses generalizing q with
  | nil =>
      exact Nat.zero_le 1
  | cons u rest ih =>
      have outlives' : ∀ u' ∈ rest, ¬ u'.Ends r :=
        fun u' later => outlives u' (List.mem_cons_of_mem u later)
      rw [askedFor]
      split
      next about =>
          -- The first use about the object leaves its text behind, and no other asks any more.
          have weak' : q.world.heap.weaklyReferable r = true :=
            (serves.alike.weaklyReferable r).trans weak
          obtain ⟨e, kept⟩ : ∃ e, (q.use u).normalizer.cache.entryOf r r = some e := by
            rw [(request_of_about serves.keeps weak' about).1]
            obtain ⟨e, kept, -⟩ := Option.map_eq_some_iff.mp
              (Normalizer.kept_of_request serves.keeps weak' ((serves.result r).trans found))
            exact ⟨e, kept⟩
          rw [(serves.use u).askedFor_of_entryOf weak kept outlives', List.append_nil,
            serves.asked_use weak about]
          exact serves.faithful.normalizer.length_asked_le r
      next => exact ih (serves.use u) outlives'

/-! ## Invisible caches -/

/-- Whatever was asked of a classifier and its normalizer before, and whichever objects have died, a
classification is answered as by a new classifier with a new normalizer; with genuine interceptions
this is so for the new ones of the beginning as well, if the candidate is still alive. An object that
can be referred to weakly has the very same text as long as it lives, once a request was answered. Its
source is asked for once at most, unless the source cannot be looked up, though not for want of one,
or no text can be made from it or in its place. -/
theorem caches_invisible (events : List Event) (a : Archive) (id : Nat) (rules : List Rule)
    (uses : List Use) :
    let w := World.initial.run events
    let q := (fresh w a id rules).useAll uses
    (∀ candidate,
      (outcome (classify candidate) q).1 =
          (outcome (classify candidate) (fresh q.world a id rules)).1 ∧
        ((w.tracker id).Genuine → (∀ u ∈ uses, ¬ u.Ends candidate) →
          (outcome (classify candidate) q).1 =
            (outcome (classify candidate) (fresh w a id rules)).1)) ∧
      ∀ r, w.heap.weaklyReferable r = true →
        (∀ t later, (q.normalizer.request q.world.heap r).result = .ok t →
          (∀ u ∈ later, ¬ u.Ends r) →
          let given := q.use (.text r)
          let again := given.useAll later
          again.normalizer.request again.world.heap r = ⟨.ok t, again.normalizer, []⟩ ∧
            ∃ ticket, given.normalizer.identity? r = some ticket ∧
              again.normalizer.identity? r = some ticket) ∧
        ((∀ u ∈ uses, ¬ u.Ends r) →
          ((fresh w a id rules).askedFor r uses).length ≤ 1 ∨
            ∃ routine f, w.heap.routine r = .ok routine ∧
              Normalizer.Textless w.heap a routine.func f) := by
  intro w q
  have sound : w.Sound := World.sound_run events
  have start : (fresh w a id rules).Serves w a id rules := .fresh sound a id rules
  have serves : q.Serves w a id rules := start.useAll uses
  refine ⟨fun candidate => ⟨?_, fun genuine outlives => ?_⟩, fun r weak => ⟨?_, fun outlives => ?_⟩⟩
  · rw [serves.answer, (Serves.fresh serves.sound a id rules).answer]
    rfl
  · have sees : q.Sees w id candidate :=
      Sees.useAll ⟨genuine, rfl, rfl⟩ start outlives
    rw [serves.answer, start.answer]
    exact anew_congr serves.alike genuine sees.genuine sees.source sees.state
  · intro t later answered outlives given again
    have weak : q.world.heap.weaklyReferable r = true := (serves.alike.weaklyReferable r).trans weak
    obtain ⟨e, kept, same⟩ := Option.map_eq_some_iff.mp
      (Normalizer.kept_of_request serves.keeps weak answered)
    have keptOn : again.normalizer.cache.entryOf r r = some e :=
      (serves.use (.text r)).entryOf_useAll kept outlives
    refine ⟨same ▸ Normalizer.request_of_entryOf keptOn again.world.heap, e.ticket, ?_, ?_⟩
    · exact congrArg (Option.map (·.ticket)) kept
    · exact congrArg (Option.map (·.ticket)) keptOn
  · cases found : Normalizer.anew a w.heap r with
    | ok t =>
        exact Or.inl (start.length_askedFor_le weak found outlives)
    | error f =>
        obtain failed | ⟨routine, isRoutine, textless⟩ := Normalizer.textless_of_anew found
        · rw [start.askedFor_of_error weak failed]
          exact Or.inl (Nat.zero_le 1)
        · exact Or.inr ⟨routine, f, isRoutine, textless⟩

/-- Two functions are made. -/
def twoFunctions : List Event :=
  [.create (.function (.ofSignature "f" "f" .plain [] (.echo "f"))) none,
    .create (.function (.ofSignature "g" "g" .plain [] (.echo "g"))) none]

/-- The first of the functions. -/
def visitedFunction : Ref := Heap.initial.size

/-- The second one. -/
def sourcelessFunction : Ref := visitedFunction + 1

/-- An archive that has the source of the first function and refuses to look for that of the second. -/
def oneSource : Archive :=
  .listed [(visitedFunction, .ok "def f():  pass".toList),
    (sourcelessFunction, .error (.ofMessage (.standard "ValueError") "no"))]

/-- A classifier of these functions that nothing was asked of yet. -/
def visitor : Inquiry := fresh (World.initial.run twoFunctions) oneSource World.mainTracker []

/-- It is asked about both functions again and again, until the second one dies. -/
def visits : List Use :=
  [.record sourcelessFunction, .record visitedFunction, .text visitedFunction,
    .record sourcelessFunction, .perish (· != sourcelessFunction), .record visitedFunction]

/-- One source is looked up once, and the other one twice, in vain. In the end the record of the first
function is that of a new classifier, and its text is still the one that was kept at first. -/
theorem caches_invisible_visits :
    visitor.askedFor visitedFunction visits = [visitedFunction] ∧
      visitor.askedFor sourcelessFunction visits = [sourcelessFunction, sourcelessFunction] ∧
      (outcome (classify visitedFunction) (visitor.useAll visits)).1 =
        (outcome (classify visitedFunction) visitor).1 ∧
      (outcome (classify visitedFunction) visitor).1.toOption.isSome = true ∧
      ((visitor.use (.text visitedFunction)).useAll visits).normalizer.identity? visitedFunction =
        some 0 := by
  obtain ⟨answers, -⟩ := caches_invisible twoFunctions oneSource World.mainTracker [] visits
  obtain ⟨-, texts⟩ := caches_invisible twoFunctions oneSource World.mainTracker [] []
  have weak : (World.initial.run twoFunctions).heap.weaklyReferable visitedFunction = true := by
    decide +kernel
  have genuine : ((World.initial.run twoFunctions).tracker World.mainTracker).Genuine := rfl
  have outlives : ∀ u ∈ visits, ¬ u.Ends visitedFunction := by
    simp [visits, Use.Ends, visitedFunction, sourcelessFunction]
  have answered : (visitor.normalizer.request visitor.world.heap visitedFunction).result =
      .ok ⟨"def f():  pass".toList, "def f(): pass".toList, [], false⟩ :=
    eq_ok_of_toOption (by decide +kernel)
  obtain ⟨-, ticket, given, again⟩ := (texts visitedFunction weak).1 _ visits answered outlives
  have first : (visitor.use (.text visitedFunction)).normalizer.identity? visitedFunction = some 0 :=
    by decide +kernel
  refine ⟨by decide +kernel, by decide +kernel, (answers visitedFunction).2 genuine outlives,
    by decide +kernel, ?_⟩
  exact again.trans (given.symm.trans first)

end Inquiry

end CallableKinds

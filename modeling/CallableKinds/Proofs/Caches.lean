import CallableKinds.Proofs.Alike
import CallableKinds.Proofs.LeadsTo
import CallableKinds.Proofs.Purity

/-!
# Caches

A classifier and its normalizer keep what they have found of objects that can be referred to weakly.
What is kept is what would be found anew, since nothing that texts are made from changes while
callables are classified. So what is asked before, in whichever order, and which of the objects have
died makes no difference to an answer.
-/

namespace CallableKinds

/-! ## Stubs -/

namespace Heap

section Reads

variable {P : Fault → Prop} {read : SignatureReader} (reads : ∀ r, FailsOnly P (read r))

include reads

theorem failsOnly_slotSignature (h : Heap) (slot : Ref) : FailsOnly P (h.slotSignature? read slot) := by
  rw [slotSignature?]
  split
  · exact (reads slot).bind fun _ => .ok _
  · split_ifs
    · exact reads slot
    · exact .ok _
    · exact .ok _
  · exact reads slot

theorem failsOnly_plainSignature (h : Heap) (r : Ref) : FailsOnly P (h.plainSignature read r) := by
  rw [plainSignature]
  split
  · exact .ok _
  · exact .ok _
  · exact .ok _
  · exact (reads _).bind fun _ => .ok _
  · split
    · exact failsOnly_slotSignature reads h _
    · exact .ok _
  · exact .ok _
  · exact .ok _

/-- A signature that is read from others fails only as they do. -/
theorem failsOnly_signatureOf (h : Heap) (r : Ref) : FailsOnly P (h.signatureOf read r) := by
  rw [signatureOf]
  split
  · exact (reads _).bind fun _ => .ok _
  · split
    · split
      · exact failsOnly_plainSignature reads h r
      · exact .ok _
    · exact failsOnly_slotSignature reads h _
    · exact failsOnly_plainSignature reads h r

end Reads

theorem failsOnly_signatureFrom (h : Heap) (fuel : Nat) (r : Ref) :
    FailsOnly (· = .endlessSignature) (h.signatureFrom fuel r) := by
  induction fuel generalizing r with
  | zero =>
      exact .error rfl
  | succ fuel ih =>
      rw [signatureFrom]
      split
      · split
        · exact failsOnly_signatureOf ih h _
        · exact .ok _
        · exact .ok _
      · exact .ok _

/-- There is a stub of every object with a signature that ends. -/
theorem failsOnly_stub (h : Heap) (r : Ref) : FailsOnly (· = .endlessSignature) (h.stub r) := by
  rw [stub]
  split
  · exact .ok _
  · exact ((h.failsOnly_signatureFrom _ r).bind fun _ => .ok _).bind fun s => .ok _

end Heap

/-! ## Texts -/

namespace Normalizer

variable {n : Normalizer} {a : Archive} {h h' : Heap} {r : Ref} {t : SourceText}

/-- The text that is found of an object by a normalizer that has found nothing yet. -/
def anew (a : Archive) (h : Heap) (r : Ref) : Except Fault SourceText :=
  ((ofOrigin (.archive a)).find h r).1

theorem find_of_origin (origin : n.origin = .archive a) (h : Heap) (r : Ref) :
    n.find h r = (ofOrigin (.archive a)).find h r := by
  unfold find
  rw [origin]
  rfl

/-- The texts that a normalizer keeps are those that would be found anew. -/
structure Faithful (n : Normalizer) (a : Archive) (h : Heap) : Prop where
  origin : n.origin = .archive a
  placed : n.cache.Placed
  texts : ∀ r t, n.cache.get? r r = some t → anew a h r = .ok t

theorem faithful_ofArchive (a : Archive) (h : Heap) : (ofOrigin (.archive a)).Faithful a h :=
  ⟨rfl, nofun, nofun⟩

/-- A request is answered as by a normalizer that has found nothing yet. -/
theorem Faithful.result (faithful : n.Faithful a h) (r : Ref) :
    (n.request h r).result = anew a h r := by
  rw [request]
  split
  next t kept => exact (faithful.texts r t kept).symm
  next missing =>
      rw [anew, ← find_of_origin faithful.origin]
      split
      next found => rw [found]
      next failed => rw [failed]

theorem Faithful.remember (faithful : n.Faithful a h) (found : anew a h r = .ok t) (h' : Heap) :
    (n.remember h' r t).Faithful a h := by
  rw [Normalizer.remember]
  split
  · refine ⟨faithful.origin, faithful.placed.set r t, fun r' t' kept => ?_⟩
    obtain ⟨rfl, rfl⟩ | kept := WeakTable.eq_or_get?_of_get?_set kept
    · exact found
    · exact faithful.texts r' t' kept
  · exact faithful

theorem Faithful.request (faithful : n.Faithful a h) (r : Ref) :
    (n.request h r).normalizer.Faithful a h := by
  cases result : (n.request h r).result with
  | error f => rwa [request_error result]
  | ok t =>
      rcases request_ok result with ⟨-, same⟩ | ⟨-, found, after⟩
      · rwa [same]
      · rw [find_of_origin faithful.origin] at found
        rw [after]
        exact faithful.remember found h

theorem Faithful.prune (faithful : n.Faithful a h) (alive : Ref → Bool) :
    Faithful { n with cache := n.cache.prune alive } a h where
  origin := faithful.origin
  placed := faithful.placed.prune alive
  texts r t kept := faithful.texts r t (faithful.placed.get?_of_prune kept)

theorem anew_alike (alike : h'.Alike h) (a : Archive) (r : Ref) : anew a h' r = anew a h r := by
  rw [anew, anew, alike.find]

theorem Faithful.alike (faithful : n.Faithful a h) (alike : h'.Alike h) : n.Faithful a h' where
  origin := faithful.origin
  placed := faithful.placed
  texts r t kept := (anew_alike alike a r).trans (faithful.texts r t kept)

/-- The text that is kept of an object is kept on by all requests, as the very same. -/
theorem entryOf_request {e : WeakEntry Ref SourceText} (kept : n.cache.entryOf r r = some e)
    (h : Heap) (r' : Ref) : (n.request h r').normalizer.cache.entryOf r r = some e := by
  cases result : (n.request h r').result with
  | error f => rwa [request_error result]
  | ok t' =>
      rcases request_ok result with ⟨-, same⟩ | ⟨missing, -, after⟩
      · rwa [same]
      · have different : r ≠ r' := by
          rintro rfl
          rw [WeakTable.get?, kept] at missing
          cases missing
        rw [after, Normalizer.remember]
        split
        · rwa [WeakTable.entryOf, WeakTable.set, Keyed.find?_put_of_ne different]
        · exact kept

/-- A kept text answers a request, and no source is asked for. -/
theorem request_of_entryOf {e : WeakEntry Ref SourceText} (kept : n.cache.entryOf r r = some e)
    (h : Heap) : n.request h r = ⟨.ok e.value, n, []⟩ :=
  request_of_kept (by rw [WeakTable.get?, kept, Option.map_some])

/-- Why an object whose source was asked for has no text: the source could not be looked up, though
not for want of one; or the text could not be made, be it from the source that was found or, for want
of one, as a stub. There is no stub of an object only if its signature has no end. -/
inductive Textless (h : Heap) (a : Archive) (func : Ref) : Fault → Prop where
  | refused {f : Fault} (failed : a.lookup h func = .error f)
      (present : Archive.isAbsence f = false) : Textless h a func f
  | unreadable {f : Fault} {source : List Char} (found : a.lookup h func = .ok source)
      (failed : SourceText.ofSource (h.isolate func) source = .error f) : Textless h a func f
  | stubless {absence : Fault} (absent : a.lookup h func = .error absence)
      (isAbsence : Archive.isAbsence absence = true)
      (failed : h.stub func = .error .endlessSignature) : Textless h a func .endlessSignature

theorem textless_of_ofRoutine {func : Ref} {f : Fault} (failed : ofRoutine h a func = .error f) :
    Textless h a func f := by
  rw [ofRoutine] at failed
  split at failed
  next source found => exact .unreadable found failed
  next absence absent =>
      split at failed
      next isAbsence =>
          cases stub : h.stub func with
          | error f' =>
              rw [stub] at failed
              cases failed
              have endless := h.failsOnly_stub func f stub
              subst endless
              exact .stubless absent isAbsence stub
          | ok text =>
              rw [stub] at failed
              cases failed
      next present =>
          cases failed
          exact .refused absent (by simpa using present)

/-- A request asks for one source at most. -/
theorem Faithful.length_asked_le (faithful : n.Faithful a h) (r : Ref) :
    (n.request h r).asked.length ≤ 1 := by
  have found : (n.find h r).2.length ≤ 1 := by
    rw [find_of_origin faithful.origin, find]
    dsimp only [ofOrigin]
    split
    next routine _ =>
        cases a with
        | listed sources => exact Nat.le_refl 1
        | files => exact Nat.zero_le 1
    next => exact Nat.zero_le 1
  rw [Normalizer.request]
  split
  · exact Nat.zero_le 1
  · split
    next same => rwa [same] at found
    next same => rwa [same] at found

/-- Of an object that is no routine no source is asked for. -/
theorem Faithful.asked_of_error (faithful : n.Faithful a h) {f : Fault}
    (failed : h.routine r = .error f) : (n.request h r).asked = [] := by
  have found : n.find h r = (.error f, []) := by
    rw [find_of_origin faithful.origin, find]
    dsimp only [ofOrigin]
    rw [failed]
  rw [Normalizer.request]
  split
  · rfl
  · rw [found]

/-- An object without a text is no routine, or a routine whose text cannot be found. -/
theorem textless_of_anew {f : Fault} (failed : anew a h r = .error f) :
    h.routine r = .error f ∨ ∃ routine, h.routine r = .ok routine ∧ Textless h a routine.func f := by
  rw [anew, find] at failed
  dsimp only [ofOrigin] at failed
  cases found : h.routine r with
  | error f' =>
      rw [found] at failed
      cases failed
      exact Or.inl rfl
  | ok routine =>
      rw [found] at failed
      exact Or.inr ⟨routine, rfl, textless_of_ofRoutine failed⟩

end Normalizer

/-! ## Segments -/

namespace Classifier

variable {c : Classifier} {a : Archive} {h h' : Heap} {r : Ref} {t : SourceText} {s : Segments}

/-- The segments that a classifier keeps are those of the texts that would be found anew. -/
structure Faithful (c : Classifier) (a : Archive) (h : Heap) : Prop where
  placed : c.cache.Placed
  segments : ∀ r s, c.cache.get? r r = some s →
    ∃ t, Normalizer.anew a h r = .ok t ∧ Segments.scan t.raw = .ok s

theorem faithful_make (tracker : Nat) (rules : List Rule) (a : Archive) (h : Heap) :
    (make tracker rules).Faithful a h :=
  ⟨nofun, nofun⟩

/-- The segments of a text are those that would be scanned. -/
theorem Faithful.known (faithful : c.Faithful a h) (found : Normalizer.anew a h r = .ok t) :
    c.known r t = Segments.scan t.raw := by
  rw [Classifier.known]
  split
  next s kept =>
      obtain ⟨t', found', scanned⟩ := faithful.segments r s kept
      rw [found, Except.ok.injEq] at found'
      rw [found', scanned]
  next => rfl

theorem Faithful.keep (faithful : c.Faithful a h) (found : Normalizer.anew a h r = .ok t)
    (scanned : Segments.scan t.raw = .ok s) (h' : Heap) : (c.keep h' r s).Faithful a h := by
  rw [Classifier.keep]
  split
  · exact faithful
  rw [remember]
  split
  · refine ⟨faithful.placed.set r s, fun r' s' kept => ?_⟩
    obtain ⟨rfl, rfl⟩ | kept := WeakTable.eq_or_get?_of_get?_set kept
    · exact ⟨t, found, scanned⟩
    · exact faithful.segments r' s' kept
  · exact faithful

theorem Faithful.prune (faithful : c.Faithful a h) (alive : Ref → Bool) :
    Faithful { c with cache := c.cache.prune alive } a h where
  placed := faithful.placed.prune alive
  segments r s kept := faithful.segments r s (faithful.placed.get?_of_prune kept)

theorem Faithful.alike (faithful : c.Faithful a h) (alike : h'.Alike h) : c.Faithful a h' where
  placed := faithful.placed
  segments r s kept := by
    obtain ⟨t, found, scanned⟩ := faithful.segments r s kept
    exact ⟨t, (Normalizer.anew_alike alike a r).trans found, scanned⟩

end Classifier

namespace Inquiry

/-! ## Answers without caches -/

/-- What a classification answers without anything that is kept. -/
def anew (w : World) (a : Archive) (tracker : Nat) (rules : List Rule) (candidate : Ref) :
    Except Fault FeatureRecord :=
  if w.heap.callable candidate then do
    let t := w.tracker tracker
    let source := t.source candidate
    let s ← Segments.scan (← Normalizer.anew a w.heap source).raw
    (outcome (do checked rules (← describe t candidate source)) (.begin w tracker source s)).1
  else .error (.callableExpected (w.heap.typeName candidate))

theorem anew_of_callable {q : Inquiry} {candidate : Ref} (a : Archive)
    (callable : q.world.heap.callable candidate = true) :
    anew q.world a q.classifier.tracker q.classifier.rules candidate =
      (Normalizer.anew a q.world.heap (q.tracker.source candidate) >>= fun t =>
        Segments.scan t.raw >>= fun s =>
          (outcome (do
            checked q.classifier.rules
              (← describe q.tracker candidate (q.tracker.source candidate)))
            (.begin q.world q.classifier.tracker (q.tracker.source candidate) s)).1) := by
  rw [anew, if_pos callable]
  rfl

/-- What is kept is what would be found anew. -/
structure Faithful (q : Inquiry) (a : Archive) : Prop where
  normalizer : q.normalizer.Faithful a q.world.heap
  classifier : q.classifier.Faithful a q.world.heap

variable {q : Inquiry} {a : Archive}

theorem faithful_fresh (w : World) (a : Archive) (tracker : Nat) (rules : List Rule) :
    (fresh w a tracker rules).Faithful a :=
  ⟨Normalizer.faithful_ofArchive a w.heap, Classifier.faithful_make tracker rules a w.heap⟩

/-- Classifications leave the heap as it reads. -/
theorem keptByRequests_alike (h : Heap) : KeptByRequests fun q => q.world.heap.Alike h where
  text _ _ alike := alike
  classifier _ _ alike := alike
  probe q id p r alike := by
    cases p with
    | constructible => exact (Heap.Alike.touchDict q.world.heap r).trans alike
    | constructsOnly => exact alike

/-- A classification is answered as without caches, and what is kept afterwards is again what would
be found anew. -/
theorem Faithful.classify (faithful : q.Faithful a) (candidate : Ref) :
    (outcome (classify candidate) q).1 =
        anew q.world a q.classifier.tracker q.classifier.rules candidate ∧
      (outcome (classify candidate) q).2.Faithful a := by
  have alike := (keptByRequests_alike q.world.heap).classify candidate q (.refl _)
  have result := faithful.normalizer.result (q.tracker.source candidate)
  have requested := faithful.normalizer.request (q.tracker.source candidate)
  have ended := classified q candidate
  generalize outcome (Inquiry.classify candidate) q = run at alike ended ⊢
  cases ended with
  | uncallable callable =>
      rw [anew, callable, if_neg Bool.false_ne_true]
      exact ⟨rfl, faithful⟩
  | textless callable failed =>
      rw [anew_of_callable a callable, ← result, failed]
      exact ⟨rfl, faithful.normalizer, faithful.classifier⟩
  | unscanned callable answered unknown =>
      rw [faithful.classifier.known (result.symm.trans answered)] at unknown
      rw [anew_of_callable a callable, ← result, answered]
      change _ = (Segments.scan _ >>= _) ∧ _
      rw [unknown]
      exact ⟨rfl, requested, faithful.classifier⟩
  | studied callable answered known studied =>
      have found := result.symm.trans answered
      rw [faithful.classifier.known found] at known
      rw [anew_of_callable a callable, ← result, answered]
      change _ = (Segments.scan _ >>= _) ∧ _
      rw [known]
      refine ⟨congrArg Prod.fst studied.symm, requested.alike alike, ?_⟩
      exact (faithful.classifier.keep found known _).alike alike

end Inquiry

end CallableKinds

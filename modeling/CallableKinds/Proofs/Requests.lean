import CallableKinds.Classifier
import CallableKinds.Proofs.Outcome
import CallableKinds.Proofs.Scanning
import CallableKinds.Proofs.WeakTable

/-!
# Requests to a classifier

A classifier and its normalizer serve one request after another, while the world changes around
them. What they keep stays coherent: a kept text is squeezed from its raw form, and kept segments
are those of the text that the normalizer keeps of the same object.
-/

namespace CallableKinds

/-! ### Texts of a normalizer -/

namespace SourceText

/-- The collapsed form of a text belongs to its raw form. -/
def Squeezed (t : SourceText) : Prop := t.text = squeeze t.raw

theorem squeezed_ofSource {isolate : List Char → Except Fault (List Char)} {source : List Char}
    {t : SourceText} (made : ofSource isolate source = .ok t) : t.Squeezed := by
  obtain ⟨d, -, made⟩ := ok_of_bind made
  obtain ⟨raw, -, made⟩ := ok_of_bind made
  cases made
  rfl

end SourceText

namespace Normalizer

variable {n : Normalizer} {h : Heap} {r : Ref} {t : SourceText}

theorem squeezed_ofRoutine {a : Archive} (made : ofRoutine h a r = .ok t) : t.Squeezed := by
  rw [ofRoutine] at made
  split at made
  next source _ => exact SourceText.squeezed_ofSource made
  next f _ =>
      split at made
      · obtain ⟨stub, -, made⟩ := ok_of_bind made
        cases made
        rfl
      · cases made

theorem squeezed_find {asked : List Ref} (found : n.find h r = (.ok t, asked)) : t.Squeezed := by
  rw [find] at found
  split at found
  · split at found
    · cases found
      rfl
    · cases found
  · split at found
    · exact squeezed_ofRoutine (Prod.mk.inj found).1
    · cases found

/-- A normalizer over an archive that keeps texts with their collapsed forms only. -/
structure Coherent (n : Normalizer) : Prop where
  archived : ∃ a, n.origin = .archive a
  squeezed : ∀ r t, n.cache.get? r r = some t → t.Squeezed

theorem coherent_ofArchive (a : Archive) : (ofOrigin (.archive a)).Coherent where
  archived := ⟨a, rfl⟩
  squeezed := nofun

/-- Texts that are not kept were written down beforehand. -/
theorem find_of_not_keeps (keeps : n.keeps = false) (h h' : Heap) (r : Ref) :
    n.find h r = n.find h' r := by
  rw [Normalizer.keeps] at keeps
  unfold find
  split at keeps
  next => cases keeps
  next texts horigin => simp only [horigin]

/-- A request answers with what is kept, or with what is found and then kept if the object can be
referred to weakly. -/
theorem request_ok (answered : (n.request h r).result = .ok t) :
    (n.cache.get? r r = some t ∧ (n.request h r).normalizer = n) ∨
    (n.cache.get? r r = none ∧ (n.find h r).1 = .ok t ∧
      (n.request h r).normalizer = n.remember h r t) := by
  rw [request] at answered ⊢
  split
  next kept hkept =>
      simp only [hkept, Except.ok.injEq] at answered
      exact Or.inl ⟨answered ▸ hkept, rfl⟩
  next hmiss =>
      simp only [hmiss] at answered
      split
      next found asked hfind =>
          simp only [hfind, Except.ok.injEq] at answered
          subst answered
          exact Or.inr ⟨hmiss, by rw [hfind], rfl⟩
      next f asked hfind => simp [hfind] at answered

theorem request_error {f : Fault} (failed : (n.request h r).result = .error f) :
    (n.request h r).normalizer = n := by
  rw [request] at failed ⊢
  split
  next kept hkept => rfl
  next hmiss =>
      simp only [hmiss] at failed
      split
      next found asked hfind => simp [hfind] at failed
      next f asked hfind => rfl

/-- Keeping a text of an object without one changes the text of no other object. -/
theorem get?_remember_of_kept {r' : Ref} {t' : SourceText} (hmiss : n.cache.get? r r = none)
    (kept : n.cache.get? r' r' = some t') :
    (n.remember h r t).cache.get? r' r' = some t' := by
  have hne : r' ≠ r := by
    rintro rfl
    simp [hmiss] at kept
  rw [remember]
  split
  · rw [← kept]
    exact WeakTable.get?_set_of_ne _ hne _ _ _
  · exact kept

theorem Coherent.remember (coherent : n.Coherent) (squeezed : t.Squeezed) :
    (n.remember h r t).Coherent := by
  obtain ⟨a, ha⟩ := coherent.archived
  rw [Normalizer.remember]
  split
  · refine ⟨⟨a, ha⟩, fun r' t' kept => ?_⟩
    by_cases hr : r' = r
    · subst hr
      rw [WeakTable.get?_set_self, Option.some.injEq] at kept
      exact kept ▸ squeezed
    · rw [WeakTable.get?_set_of_ne _ hr] at kept
      exact coherent.squeezed r' t' kept
  · exact coherent

/-- A request to a coherent normalizer gives a squeezed text, and what was kept is kept on. -/
theorem Coherent.request (coherent : n.Coherent) (h : Heap) (r : Ref) :
    (n.request h r).normalizer.Coherent ∧
    (∀ t, (n.request h r).result = .ok t → t.Squeezed) ∧
    ∀ r' t', n.cache.get? r' r' = some t' →
      (n.request h r).normalizer.cache.get? r' r' = some t' := by
  cases hresult : (n.request h r).result with
  | error f =>
      rw [request_error hresult]
      exact ⟨coherent, nofun, fun _ _ kept => kept⟩
  | ok t =>
      rcases request_ok hresult with ⟨hkept, hsame⟩ | ⟨hmiss, hfound, hafter⟩
      · rw [hsame]
        refine ⟨coherent, ?_, fun _ _ kept => kept⟩
        rintro _ ⟨⟩
        exact coherent.squeezed r t hkept
      · have hsqueezed : t.Squeezed := squeezed_find (Prod.ext hfound rfl)
        rw [hafter]
        refine ⟨coherent.remember hsqueezed, ?_, fun r' t' => get?_remember_of_kept hmiss⟩
        rintro _ ⟨⟩
        exact hsqueezed

/-- The text of an object that can be referred to weakly is kept once it was found. -/
theorem kept_of_request (keeps : n.keeps = true) (weak : h.weaklyReferable r = true)
    (answered : (n.request h r).result = .ok t) :
    (n.request h r).normalizer.cache.get? r r = some t := by
  rcases request_ok answered with ⟨hkept, hsame⟩ | ⟨-, -, hafter⟩
  · rw [hsame, hkept]
  · rw [hafter]
    simp [Normalizer.remember, keeps, weak]

theorem Coherent.kept_of_request (coherent : n.Coherent) (weak : h.weaklyReferable r = true)
    (answered : (n.request h r).result = .ok t) :
    (n.request h r).normalizer.cache.get? r r = some t := by
  obtain ⟨a, ha⟩ := coherent.archived
  exact Normalizer.kept_of_request (by simp [keeps, ha]) weak answered

/-- A normalizer gives a text of an object without a change of its own. -/
structure Gives (n : Normalizer) (h : Heap) (r : Ref) (t : SourceText) : Prop where
  result : (n.request h r).result = .ok t
  same : (n.request h r).normalizer = n

/-- A text that was given is given again. For an object that can be referred to weakly, the heap may
have become another one. -/
theorem gives_of_request {h' : Heap} (answered : (n.request h r).result = .ok t)
    (same : h' = h ∨ h.weaklyReferable r = true) : (n.request h r).normalizer.Gives h' r t := by
  rcases request_ok answered with ⟨hkept, hsame⟩ | ⟨hmiss, hfound, hafter⟩
  · rw [hsame]
    exact ⟨by rw [request_of_kept hkept], by rw [request_of_kept hkept]⟩
  · rw [hafter]
    by_cases hkeeps : (n.keeps && h.weaklyReferable r) = true
    · have hhit : (n.remember h r t).cache.get? r r = some t := by
        simp [Normalizer.remember, hkeeps]
      exact ⟨by rw [request_of_kept hhit], by rw [request_of_kept hhit]⟩
    · have hsame : n.remember h r t = n := by
        simp only [Normalizer.remember, hkeeps, if_false, Bool.false_eq_true]
      have hfind : n.find h' r = n.find h r := by
        rcases same with rfl | hweak
        · rfl
        · exact find_of_not_keeps (by simpa [hweak] using hkeeps) h' h r
      have hunchanged : n.remember h' r t = n := by
        rcases same with rfl | hweak
        · exact hsame
        · have hkeeps : n.keeps = false := by simpa [hweak] using hkeeps
          simp [Normalizer.remember, hkeeps]
      have hrequest : n.request h' r = ⟨.ok t, n, (n.find h r).2⟩ := by
        have hpair : n.find h r = (.ok t, (n.find h r).2) := Prod.ext hfound rfl
        simp only [request, hmiss, hfind]
        rw [hpair]
        simp only [hunchanged]
      rw [hsame]
      exact ⟨by rw [hrequest], by rw [hrequest]⟩

end Normalizer

/-! ### Segments of a classifier -/

namespace Classifier

variable {c : Classifier} {r : Ref} {t : SourceText} {s : Segments}

/-- The segments that a classifier has of an object with a text. -/
def known (c : Classifier) (r : Ref) (t : SourceText) : Except Fault Segments :=
  match c.cache.get? r r with
  | some s => .ok s
  | none => Segments.scan t.raw

/-- The classifier after the segments of an object were asked for. -/
def keep (c : Classifier) (h : Heap) (r : Ref) (s : Segments) : Classifier :=
  match c.cache.get? r r with
  | some _ => c
  | none => c.remember h r s

@[simp] theorem tracker_keep (c : Classifier) (h : Heap) (r : Ref) (s : Segments) :
    (c.keep h r s).tracker = c.tracker := by
  rw [keep, remember]
  split
  · rfl
  · split <;> rfl

@[simp] theorem rules_keep (c : Classifier) (h : Heap) (r : Ref) (s : Segments) :
    (c.keep h r s).rules = c.rules := by
  rw [keep, remember]
  split
  · rfl
  · split <;> rfl

/-- Segments that were asked for are known, whether they are kept or not. -/
theorem known_keep (found : c.known r t = .ok s) (h : Heap) : (c.keep h r s).known r t = .ok s := by
  cases hcache : c.cache.get? r r with
  | some kept =>
      have hsame : c.keep h r s = c := by simp only [keep, hcache]
      rw [hsame, found]
  | none =>
      have hkeep : c.keep h r s = c.remember h r s := by simp only [keep, hcache]
      rw [hkeep]
      by_cases hweak : h.weaklyReferable r = true
      · simp [known, remember, hweak]
      · have hsame : c.remember h r s = c := by
          simp only [remember, hweak, if_false, Bool.false_eq_true]
        rw [hsame, found]

end Classifier

/-- What a program may ask of a classifier and its normalizer, and what may happen in between. -/
inductive Request where
  /-- The normalizer is asked for the text of an object. -/
  | text (r : Ref)
  | segments (r : Ref)
  | record (r : Ref)
  /-- The world becomes another one. -/
  | move (world : World)

namespace Inquiry

/-- A classifier and a normalizer over an archive that have served no request yet. -/
def fresh (world : World) (a : Archive) (tracker : Nat) (rules : List Rule) : Inquiry :=
  ⟨world, .ofOrigin (.archive a), .make tracker rules, []⟩

/-- What a request leaves behind. -/
def after (q : Inquiry) : Request → Inquiry
  | .text r => (outcome (sourceText r) q).2
  | .segments r => (outcome (segments r) q).2
  | .record r => (outcome (classify r) q).2
  | .move world => { q with world }

/-- What some requests leave behind, one after another. -/
def afterAll (q : Inquiry) (requests : List Request) : Inquiry := requests.foldl after q

theorem outcome_sourceText (q : Inquiry) (r : Ref) :
    outcome (sourceText r) q = ((q.normalizer.request q.world.heap r).result,
      { q with
        normalizer := (q.normalizer.request q.world.heap r).normalizer
        asked := q.asked ++ (q.normalizer.request q.world.heap r).asked }) := rfl

theorem outcome_segments_of_kept {q : Inquiry} {r : Ref} {s : Segments}
    (hit : q.classifier.cache.get? r r = some s) : outcome (segments r) q = (.ok s, q) := by
  change outcome (match q.classifier.cache.get? r r with | some s => _ | none => _) q = _
  rw [hit]
  rfl

/-- Segments that are not kept are scanned from the text that the normalizer gives. -/
theorem outcome_segments_of_missing {q : Inquiry} {r : Ref}
    (miss : q.classifier.cache.get? r r = none) :
    outcome (segments r) q =
      match outcome (sourceText r) q with
      | (.ok t, q') =>
        match Segments.scan t.raw with
        | .ok s => (.ok s, { q' with classifier := q'.classifier.remember q'.world.heap r s })
        | .error f => (.error f, q')
      | (.error f, q') => (.error f, q') := by
  change outcome (match q.classifier.cache.get? r r with | some s => _ | none => _) q = _
  rw [miss]
  dsimp only
  rw [outcome_bind]
  rcases outcome (sourceText r) q with ⟨f | t, q'⟩
  · rfl
  · dsimp only
    cases Segments.scan t.raw <;> rfl

theorem outcome_analyse (q : Inquiry) (r : Ref) :
    outcome (analyse r) q =
      match outcome (sourceText r) q with
      | (.ok _, q') =>
        match outcome (segments r) q' with
        | (.ok s, q'') => (.ok (.begin q''.world q''.classifier.tracker r s), q'')
        | (.error f, q'') => (.error f, q'')
      | (.error f, q') => (.error f, q') := by
  rw [analyse]
  rw [outcome_bind]
  rcases outcome (sourceText r) q with ⟨f | t, q'⟩
  · rfl
  · dsimp only
    rw [outcome_bind]
    rcases outcome (segments r) q' with ⟨f | s, q''⟩ <;> rfl

/-- With a text that the normalizer gives, the segments are those that the classifier has. -/
theorem outcome_segments_of_gives {q : Inquiry} {r : Ref} {t : SourceText}
    (gives : q.normalizer.Gives q.world.heap r t) :
    ∃ asked, outcome (segments r) q =
      match q.classifier.known r t with
      | .ok s => (.ok s, ⟨q.world, q.normalizer, q.classifier.keep q.world.heap r s, asked⟩)
      | .error f => (.error f, ⟨q.world, q.normalizer, q.classifier, asked⟩) := by
  cases hcache : q.classifier.cache.get? r r with
  | some kept =>
      refine ⟨q.asked, ?_⟩
      rw [outcome_segments_of_kept hcache]
      simp only [Classifier.known, Classifier.keep, hcache]
  | none =>
      refine ⟨q.asked ++ (q.normalizer.request q.world.heap r).asked, ?_⟩
      rw [outcome_segments_of_missing hcache, outcome_sourceText, gives.result, gives.same]
      simp only [Classifier.known, Classifier.keep, hcache]

/-- The study of an object with a text. -/
theorem outcome_analyse_of_text {q : Inquiry} {r : Ref} {t : SourceText}
    (answered : (q.normalizer.request q.world.heap r).result = .ok t) :
    ∃ asked, outcome (analyse r) q =
      match q.classifier.known r t with
      | .ok s => (.ok (.begin q.world q.classifier.tracker r s),
          ⟨q.world, (q.normalizer.request q.world.heap r).normalizer,
            q.classifier.keep q.world.heap r s, asked⟩)
      | .error f => (.error f, ⟨q.world, (q.normalizer.request q.world.heap r).normalizer,
          q.classifier, asked⟩) := by
  have hgives := Normalizer.gives_of_request answered (Or.inl rfl)
  obtain ⟨asked, hsegments⟩ := outcome_segments_of_gives
    (q := { q with
      normalizer := (q.normalizer.request q.world.heap r).normalizer
      asked := q.asked ++ (q.normalizer.request q.world.heap r).asked }) hgives
  refine ⟨asked, ?_⟩
  rw [outcome_analyse, outcome_sourceText, answered]
  dsimp only at hsegments ⊢
  rw [hsegments]
  cases q.classifier.known r t with
  | error f => rfl
  | ok s => simp only [Classifier.tracker_keep]

/-- An object without a text cannot be studied. -/
theorem outcome_analyse_of_error {q : Inquiry} {r : Ref} {f : Fault}
    (failed : (q.normalizer.request q.world.heap r).result = .error f) :
    outcome (analyse r) q = (.error f, { q with
      asked := q.asked ++ (q.normalizer.request q.world.heap r).asked }) := by
  rw [outcome_analyse, outcome_sourceText, failed, Normalizer.request_error failed]

theorem outcome_studying {α : Type} (q : Inquiry) (study : Study) (find : Finding α) :
    outcome (studying study find) q =
      ((outcome find study).1, { q with world := (outcome find study).2.world }) := by
  have hrun : outcome (studying study find) q =
      match outcome find study with
      | (result, study') => outcome (do
          modify fun q => { q with world := study'.world }
          result) q := rfl
  rw [hrun]
  rcases outcome find study with ⟨f | a, study'⟩ <;> rfl

/-- A classification looks at the candidate only to see whether it can be called, what it goes back
to and how it was wrapped. -/
theorem outcome_classify (q : Inquiry) (candidate : Ref) :
    outcome (classify candidate) q =
      if q.world.heap.callable candidate then
        match outcome (analyse (q.tracker.source candidate)) q with
        | (.ok study, q') =>
          outcome (studying study (do
            checked q.classifier.rules
              (← describe q.tracker candidate (q.tracker.source candidate)))) q'
        | (.error f, q') => (.error f, q')
      else (.error (.callableExpected (q.world.heap.typeName candidate)), q) := by
  change outcome (if !q.world.heap.callable candidate then _ else _) q = _
  cases q.world.heap.callable candidate with
  | false => rfl
  | true =>
      change outcome (analyse (q.tracker.source candidate) >>= _) q = _
      rw [outcome_bind, if_pos rfl]
      rcases outcome (analyse (q.tracker.source candidate)) q with ⟨f | study, q'⟩ <;> rfl

/-! ### Coherence -/

/-- The segments that a classifier keeps of an object are those of the text that its normalizer
keeps of it. -/
structure Coherent (q : Inquiry) : Prop where
  texts : q.normalizer.Coherent
  scanned : ∀ r s, q.classifier.cache.get? r r = some s →
    ∃ t, q.normalizer.cache.get? r r = some t ∧ Segments.scan t.raw = .ok s

theorem coherent_fresh (world : World) (a : Archive) (tracker : Nat) (rules : List Rule) :
    (fresh world a tracker rules).Coherent where
  texts := Normalizer.coherent_ofArchive a
  scanned := nofun

/-- A coherent state in which the normalizer still keeps what it kept before. -/
structure Follows (q' q : Inquiry) : Prop where
  coherent : q'.Coherent
  kept : ∀ r t, q.normalizer.cache.get? r r = some t → q'.normalizer.cache.get? r r = some t

theorem Follows.trans {q q' q'' : Inquiry} (later : q''.Follows q') (first : q'.Follows q) :
    q''.Follows q :=
  ⟨later.coherent, fun r t kept => later.kept r t (first.kept r t kept)⟩

namespace Coherent

variable {q : Inquiry}

theorem refl (coherent : q.Coherent) : q.Follows q := ⟨coherent, fun _ _ kept => kept⟩

theorem move (coherent : q.Coherent) (world : World) : { q with world }.Follows q :=
  ⟨⟨coherent.texts, coherent.scanned⟩, fun _ _ kept => kept⟩

theorem sourceText (coherent : q.Coherent) (r : Ref) :
    (outcome (sourceText r) q).2.Follows q := by
  obtain ⟨htexts, -, hkept⟩ := coherent.texts.request q.world.heap r
  refine ⟨⟨htexts, fun r' s hs => ?_⟩, hkept⟩
  obtain ⟨t, ht, hscan⟩ := coherent.scanned r' s hs
  exact ⟨t, hkept r' t ht, hscan⟩

/-- Remembering the segments of a text that the normalizer has just given. -/
theorem remember (coherent : q.Coherent) {r : Ref} {t : SourceText} {s : Segments}
    (answered : (q.normalizer.request q.world.heap r).result = .ok t)
    (scanned : Segments.scan t.raw = .ok s) (asked : List Ref) :
    Coherent ⟨q.world, (q.normalizer.request q.world.heap r).normalizer,
      q.classifier.remember q.world.heap r s, asked⟩ := by
  obtain ⟨htexts, -, hkept⟩ := coherent.texts.request q.world.heap r
  refine ⟨htexts, fun r' s' hs => ?_⟩
  by_cases hweak : q.world.heap.weaklyReferable r = true
  · by_cases hr : r' = r
    · subst hr
      have hs' : s = s' := by simpa [Classifier.remember, hweak] using hs
      exact ⟨t, coherent.texts.kept_of_request hweak answered, hs' ▸ scanned⟩
    · have hs : q.classifier.cache.get? r' r' = some s' := by
        rw [← WeakTable.get?_set_of_ne q.classifier.cache hr r r' s]
        simpa [Classifier.remember, hweak] using hs
      obtain ⟨t', ht', hscan⟩ := coherent.scanned r' s' hs
      exact ⟨t', hkept r' t' ht', hscan⟩
  · obtain ⟨t', ht', hscan⟩ := coherent.scanned r' s' (by
      simpa [Classifier.remember, hweak] using hs)
    exact ⟨t', hkept r' t' ht', hscan⟩

/-- Segments are those of the text that the normalizer gives, before and after they are asked
for. -/
theorem segments (coherent : q.Coherent) (r : Ref) :
    (outcome (segments r) q).2.Follows q ∧
    ∀ s, (outcome (Inquiry.segments r) q).1 = .ok s →
      ∃ t, (outcome (Inquiry.sourceText r) q).1 = .ok t ∧
        (outcome (Inquiry.sourceText r) (outcome (Inquiry.segments r) q).2).1 = .ok t ∧
        (q.world.heap.weaklyReferable r = true →
          (outcome (Inquiry.segments r) q).2.normalizer.cache.get? r r = some t) ∧
        Segments.scan t.raw = .ok s := by
  cases hcache : q.classifier.cache.get? r r with
  | some kept =>
      rw [outcome_segments_of_kept hcache]
      refine ⟨coherent.refl, ?_⟩
      rintro s ⟨⟩
      obtain ⟨t, ht, hscan⟩ := coherent.scanned r kept hcache
      have hrequest := Normalizer.request_of_kept (h := q.world.heap) ht
      have hgiven : (outcome (Inquiry.sourceText r) q).1 = .ok t := by
        rw [outcome_sourceText, hrequest]
      exact ⟨t, hgiven, hgiven, fun _ => ht, hscan⟩
  | none =>
      have hasked := coherent.sourceText r
      rw [outcome_segments_of_missing hcache]
      rw [outcome_sourceText] at hasked ⊢
      cases hresult : (q.normalizer.request q.world.heap r).result with
      | error f =>
          exact ⟨hasked, nofun⟩
      | ok t =>
          dsimp only
          cases hscan : Segments.scan t.raw with
          | error f =>
              exact ⟨hasked, nofun⟩
          | ok s =>
              refine ⟨⟨coherent.remember hresult hscan _, hasked.kept⟩, ?_⟩
              rintro _ ⟨⟩
              refine ⟨t, rfl, ?_, fun weak => coherent.texts.kept_of_request weak hresult, hscan⟩
              rw [outcome_sourceText]
              exact (Normalizer.gives_of_request hresult (Or.inl rfl)).result

theorem analyse (coherent : q.Coherent) (r : Ref) :
    (outcome (analyse r) q).2.Follows q := by
  have htext := coherent.sourceText r
  rw [outcome_analyse]
  generalize outcome (Inquiry.sourceText r) q = asked at htext ⊢
  obtain ⟨f | t, q'⟩ := asked
  · exact htext
  · have hsegments := ((htext.coherent.segments r).1).trans htext
    dsimp only at hsegments ⊢
    generalize outcome (Inquiry.segments r) q' = found at hsegments ⊢
    obtain ⟨f | s, q''⟩ := found <;> exact hsegments

theorem classify (coherent : q.Coherent) (r : Ref) :
    (outcome (classify r) q).2.Follows q := by
  rw [outcome_classify]
  split
  · have hanalysed := coherent.analyse (q.tracker.source r)
    generalize outcome (Inquiry.analyse (q.tracker.source r)) q = analysed at hanalysed ⊢
    obtain ⟨f | study, q'⟩ := analysed
    · exact hanalysed
    · dsimp only
      rw [outcome_studying]
      exact (hanalysed.coherent.move _).trans hanalysed
  · exact coherent.refl

/-- A request leaves a coherent state behind, and texts that were kept are kept on. -/
theorem after (coherent : q.Coherent) (request : Request) : (q.after request).Follows q := by
  cases request with
  | text r =>
      exact coherent.sourceText r
  | segments r =>
      exact (coherent.segments r).1
  | record r =>
      exact coherent.classify r
  | move world =>
      exact coherent.move world

theorem afterAll (coherent : q.Coherent) (requests : List Request) :
    (q.afterAll requests).Follows q := by
  induction requests generalizing q with
  | nil =>
      exact coherent.refl
  | cons request rest ih =>
      have hafter := coherent.after request
      exact (ih hafter.coherent).trans hafter

/-- A text that is kept is given whatever was asked for since. -/
theorem sourceText_afterAll (coherent : q.Coherent) {r : Ref} {t : SourceText}
    (kept : q.normalizer.cache.get? r r = some t) (requests : List Request) :
    (outcome (Inquiry.sourceText r) (q.afterAll requests)).1 = .ok t := by
  have hkept := (coherent.afterAll requests).kept r t kept
  rw [outcome_sourceText, Normalizer.request_of_kept hkept]

end Coherent

/-! ### Coverage -/

/-- The parts of a text that can be scanned put together are its squeezed form, and its symbol is a
bracketed piece of the head. So are the parts that a classifier gives of an object, whatever was
asked for and changed before, for the text that its normalizer gives of it then and later on. -/
theorem segments_cover_text :
    (∀ source s, Segments.scan source = .ok s →
      s.head ++ s.params ++ s.body = squeeze source ∧
      ∀ name, s.symbolName = some name →
        name <:+: s.head ∧ name.head? = some '[' ∧ name.getLast? = some ']') ∧
    ∀ world a tracker rules requests r s q',
      outcome (segments r) ((fresh world a tracker rules).afterAll requests) = (.ok s, q') →
      ∃ t, (outcome (sourceText r) ((fresh world a tracker rules).afterAll requests)).1 = .ok t ∧
        (outcome (sourceText r) q').1 = .ok t ∧
        (((fresh world a tracker rules).afterAll requests).world.heap.weaklyReferable r = true →
          ∀ later, (outcome (sourceText r) (q'.afterAll later)).1 = .ok t) ∧
        s.head ++ s.params ++ s.body = t.text ∧
        ∀ name, s.symbolName = some name →
          name <:+: s.head ∧ name.head? = some '[' ∧ name.getLast? = some ']' := by
  refine ⟨fun source s scanned => ?_, fun world a tracker rules requests r s q' found => ?_⟩
  · have hcovers := Segments.covers_of_scan scanned
    exact ⟨by rw [hcovers.append, squeeze_eq_collapse_trim], hcovers.symbol⟩
  · have hcoherent := ((coherent_fresh world a tracker rules).afterAll requests).coherent
    obtain ⟨hfollows, hsegments⟩ := hcoherent.segments r
    obtain ⟨t, hbefore, hlater, hkept, hscan⟩ := hsegments s (by rw [found])
    rw [found] at hfollows hlater hkept
    have hcovers := Segments.covers_of_scan hscan
    refine ⟨t, hbefore, hlater, fun weak => hfollows.coherent.sourceText_afterAll (hkept weak), ?_,
      hcovers.symbol⟩
    have hsqueezed := (hcoherent.texts.request _ r).2.1 t hbefore
    rw [hcovers.append, hsqueezed, squeeze_eq_collapse_trim]

/-- A function with a type parameter, whose text was asked for before its segments. -/
theorem segments_cover_text_of_generic :
    let source := "def f[T](x):  pass".toList
    let f := World.initial.heap.size
    let world := World.initial.add (.function (.ofSignature "f" "f" .plain [] (.echo "f")))
    let q := (fresh world (.listed [(f, .ok source)]) World.mainTracker []).afterAll [.text f]
    (∃ s, Segments.scan source = .ok s ∧ s.symbolName = some "[T]".toList ∧
      s.head ++ s.params ++ s.body = squeeze source) ∧
    ∃ s q' t, outcome (segments f) q = (.ok s, q') ∧ (outcome (sourceText f) q').1 = .ok t ∧
      s.head ++ s.params ++ s.body = t.text := by
  intro source f world q
  have hscan : Segments.scan source = .ok ⟨some "[T]".toList, "def f[T]".toList, "(x)".toList,
      ": pass".toList, false⟩ := rfl
  have hfound : outcome (segments f) q = (.ok ⟨some "[T]".toList, "def f[T]".toList, "(x)".toList,
      ": pass".toList, false⟩, (outcome (segments f) q).2) := rfl
  obtain ⟨hsource, hinquiry⟩ := segments_cover_text
  obtain ⟨t, -, htext, -, hcover, -⟩ := hinquiry _ _ _ _ _ _ _ _ hfound
  exact ⟨⟨_, hscan, rfl, (hsource _ _ hscan).1⟩, _, _, t, hfound, htext, hcover⟩

end Inquiry

end CallableKinds

import CallableKinds.Proofs.LeadsTo
import CallableKinds.Session.Step

/-!
# Sessions are histories

Whatever is done in a session, its world comes about by events. So what holds along every history
holds in every session.
-/

namespace CallableKinds

namespace Step

open Session

theorem leadsTo_readProperties (study : Study) (names : List String) :
    study.world.LeadsTo (readProperties study names).1 := by
  induction names generalizing study with
  | nil =>
      exact World.LeadsTo.refl _
  | cons name rest ih =>
      rw [readProperties]
      split
      next => exact ih study
      next find hfind =>
          have hleads := Study.keeps_property_of_probes (.keptByProbes study.world) hfind study
            (World.LeadsTo.refl study.world)
          exact hleads.trans (ih (outcome find study).2)

theorem keeps_leadsTo_propertiesOf (w : World) (r : Ref) (names : List String) :
    Keeps (fun q => w.LeadsTo q.world) (propertiesOf r names) := by
  intro q leads
  obtain ⟨hworld, hstudy⟩ := Inquiry.world_analyse q r
  rw [propertiesOf]
  rw [outcome_bind]
  generalize outcome (Inquiry.analyse r) q = analysed at hworld hstudy ⊢
  obtain ⟨f | study, q'⟩ := analysed
  · rw [hworld]
    exact leads
  · have hread := leadsTo_readProperties study names
    rw [hstudy study rfl] at hread
    exact leads.trans hread

end Step

namespace Session

/-- The world of a session comes about by events, and its trackers are there. -/
structure Reached (s : Session) : Prop where
  world : World.initial.LeadsTo s.world
  numbered : ∀ name id, Keyed.find? name s.trackerNames = some id → id < s.world.trackers.length

variable {P : Session → Prop} {s s' : Session} {α : Type}

/-- Events go on, and the names of trackers stay. -/
theorem Reached.mono (reached : s.Reached) (leads : s.world.LeadsTo s'.world)
    (same : s'.trackerNames = s.trackerNames) : s'.Reached := by
  refine ⟨reached.world.trans leads, fun name id found => ?_⟩
  rw [same] at found
  exact Nat.lt_of_lt_of_le (reached.numbered name id found) leads.length_trackers_le

theorem reached_initial : initial.Reached where
  world := World.LeadsTo.refl _
  numbered name id found := by
    simp only [initial, Keyed.find?] at found
    split at found
    · cases found
      decide
    · cases found

/-! ### Questions -/

theorem keeps_lookup {β : Type} (names : Session → Keyed String β) (name : String) :
    Keeps P (lookup names name) := by
  apply Keeps.get_bind
  intro s holds
  split <;> exact holds

/-- What comes after a look at a name may rely on what it stands for. -/
theorem keeps_lookup_bind {β : Type} {names : Session → Keyed String β} {name : String}
    {next : β → InSession α}
    (later : ∀ s b, P s → Keyed.find? name (names s) = some b → P (outcome (next b) s).2) :
    Keeps P (lookup names name >>= next) := by
  rw [lookup, bind_assoc]
  apply Keeps.get_bind
  intro s holds
  cases hfound : Keyed.find? name (names s) with
  | none => exact holds
  | some b => exact later s b holds hfound

theorem keeps_heap : Keeps P heap := fun _ holds => holds

theorem keeps_normalizerId (name : Option String) : Keeps P (normalizerId name) := by
  cases name with
  | none => exact Keeps.pure _
  | some name => exact keeps_lookup _ name

theorem keeps_value (input : Input) : Keeps P (value input) := by
  cases input with
  | plain d => exact Keeps.pure _
  | named name => exact (keeps_lookup _ name).bind fun r => Keeps.pure _

theorem keeps_arguments (positional : List Input) (keywords : Keyed String Input) :
    Keeps P (arguments positional keywords) := by
  refine (Keeps.mapM keeps_value positional).bind fun values => ?_
  refine (Keeps.mapM (fun entry => ?_) keywords).bind fun pairs => Keeps.pure _
  exact (keeps_value entry.2).bind fun v => Keeps.pure _

theorem keeps_cls (name : ClassName) : Keeps P (cls name) := by
  cases name with
  | usual => exact Keeps.get_bind fun s holds => holds
  | instrumented => exact Keeps.pure _
  | plain => exact Keeps.pure _
  | named name => exact keeps_lookup _ name

/-! ### Changes -/

theorem Reached.setWorld (reached : s.Reached) {w : World} (leads : s.world.LeadsTo w) :
    Reached (outcome (Session.setWorld w) s).2 :=
  reached.mono leads rfl

theorem keeps_name (label : String) (r : Ref) : Keeps Reached (name label r) :=
  Keeps.change fun _ reached => reached.mono (World.LeadsTo.refl _) rfl

theorem keeps_add (shape : Shape) : Keeps Reached (add shape) := by
  apply Keeps.get_bind
  intro s reached
  exact Keeps.follow (reached.setWorld (.add s.world shape)) fun _ => Keeps.pure _

theorem keeps_atOnce {act : World → Except Fault (World × α)}
    (leads : ∀ (w w' : World) a, act w = .ok (w', a) → w.LeadsTo w') : Keeps Reached (atOnce act) := by
  apply Keeps.get_bind
  intro s reached
  rw [outcome_bind, outcome_lift]
  cases hact : act s.world with
  | error f =>
      exact reached
  | ok made =>
      obtain ⟨w, a⟩ := made
      exact Keeps.follow (reached.setWorld (leads s.world w a hact)) fun _ => Keeps.pure a

theorem keeps_inParts {act : World → World × Except Fault α}
    (leads : ∀ w : World, w.LeadsTo (act w).1) : Keeps Reached (inParts act) := by
  apply Keeps.get_bind
  intro s reached
  exact Keeps.follow (reached.setWorld (leads s.world)) fun _ => Keeps.lift _

/-- What comes after a look at the heap may rely on the present one. -/
theorem keeps_heap_bind {next : Heap → InSession α}
    (later : ∀ s, P s → P (outcome (next s.world.heap) s).2) : Keeps P (heap >>= next) := by
  intro s holds
  have hheap : outcome heap s = (.ok s.world.heap, s) := rfl
  rw [outcome_bind, hheap]
  exact later s holds

/-- What comes after an attribute was set begins with the heap that has it. -/
theorem keeps_setAttribute_bind (r : Ref) (label : String) {input : InSession Value}
    {next : Unit → InSession α} (question : ∀ Q, Keeps Q input)
    (later : ∀ u, Keeps Reached (next u)) :
    Keeps Reached (do
      let u ← setHeap (← (← heap).setAttribute r label (← input))
      next u) := by
  apply keeps_heap_bind
  intro s reached
  refine Keeps.question_bind question reached fun v => ?_
  rw [outcome_bind, outcome_lift]
  cases hset : s.world.heap.setAttribute r label v with
  | error f =>
      exact reached
  | ok h =>
      exact Keeps.follow (reached.setWorld (.setAttribute hset)) later

end Session

namespace Definition

open Session

variable {P : Session → Prop}

theorem keeps_attributeValue (input : AttributeInput) : Keeps P (attributeValue input) := by
  cases input with
  | plain d => exact Keeps.pure _
  | named name => exact (keeps_lookup _ name).bind fun r => Keeps.pure _
  | code flags => exact Keeps.pure _

theorem keeps_makeClass (label : String) (c : ClassDefinition) :
    Keeps Reached (makeClass label c) := by
  refine (Keeps.mapM (fun base => keeps_lookup _ base) c.bases).bind fun bases => ?_
  refine (Keeps.mapOption (fun slot => keeps_lookup _ slot) c.call).bind fun call => ?_
  apply keeps_heap_bind
  intro s reached
  refine Keeps.question_bind (fun Q => Keeps.lift _) reached fun metaclass => ?_
  exact Keeps.follow (reached.setWorld (.event s.world (.create _ (some _)))) fun _ => Keeps.pure _

theorem keeps_makeInstance (cls : String) (attributes : List (String × AttributeInput)) :
    Keeps Reached (makeInstance cls attributes) := by
  refine (keeps_lookup _ cls).bind fun c => ?_
  refine (keeps_add _).bind fun r => ?_
  refine (Keeps.forM (fun entry => ?_) attributes).bind fun _ => Keeps.pure r
  refine (keeps_attributeValue entry.2).bind fun v => ?_
  exact keeps_setAttribute_bind r entry.1 (fun Q => Keeps.pure v) fun _ => Keeps.pure ()

theorem keeps_makeMethod (func receiver : String) : Keeps Reached (makeMethod func receiver) := by
  refine (keeps_lookup _ func).bind fun func => ?_
  refine (keeps_lookup _ receiver).bind fun receiver => ?_
  apply keeps_heap_bind
  intro s reached
  dsimp only
  split
  · exact reached
  · split
    · exact reached
    · exact keeps_add _ s reached

/-- Whatever is declared, objects are made and get attributes. -/
theorem keeps_make (label : String) (d : Definition) : Keeps Reached (d.make label) := by
  cases d with
  | function f =>
      exact keeps_add _
  | cls c =>
      exact keeps_makeClass label c
  | instanceOf cls attributes =>
      exact keeps_makeInstance cls attributes
  | method func receiver =>
      exact keeps_makeMethod func receiver
  | builtin path =>
      rw [make]
      split
      · exact Keeps.pure _
      · exact Keeps.throw _
  | value d =>
      apply keeps_heap_bind
      intro s reached
      split
      · exact reached
      · exact keeps_add _ s reached

end Definition

namespace Step

open Session

variable {P : Session → Prop} {α : Type}

theorem keeps_stationNumber (name : Option String) : Keeps P (stationNumber name) := by
  cases name with
  | none => exact Keeps.pure _
  | some name => exact keeps_lookup _ name

theorem keeps_statusNow (returned : Option String) : Keeps P (statusNow returned) :=
  Keeps.get_bind fun _ holds => holds

theorem keeps_sizesOf (tracker : String) : Keeps P (sizesOf tracker) := by
  refine (keeps_lookup _ tracker).bind fun id => ?_
  exact Keeps.get_bind fun s holds => holds

theorem keeps_provenanceOf (tracker : String) (r : Ref) : Keeps P (provenanceOf tracker r) := by
  refine (keeps_lookup _ tracker).bind fun id => ?_
  exact Keeps.get_bind fun s holds => holds

theorem keeps_describeAs (as : String) (r : Ref) : Keeps Reached (describeAs as r) :=
  (keeps_name as r).bind fun _ => Keeps.get_bind fun _ reached => reached

theorem keeps_inquire (number : Nat) {part : Inquire α}
    (leads : ∀ w : World, Keeps (fun q => w.LeadsTo q.world) part) :
    Keeps Reached (inquire number part) := by
  apply Keeps.get_bind
  intro s reached
  split
  next => exact reached
  next station _ =>
      have hleads := leads s.world ⟨s.world, (s.normalizers[station.normalizer]?).getD .standard,
        station.classifier, []⟩ (World.LeadsTo.refl s.world)
      refine Keeps.follow (reached.mono hleads rfl) fun _ => ?_
      exact (Keeps.lift _).bind fun a => Keeps.pure _

theorem keeps_normalizeWith (normalizer : Option String) (obj : String) :
    Keeps Reached (normalizeWith normalizer obj) := by
  refine (keeps_normalizerId normalizer).bind fun id => ?_
  refine (keeps_lookup _ obj).bind fun r => ?_
  apply Keeps.get_bind
  intro s reached
  refine Keeps.follow (reached.mono (World.LeadsTo.refl _) rfl) fun _ => ?_
  refine (Keeps.lift _).bind fun t => ?_
  refine Keeps.bind (Keeps.change fun s reached => ?_) fun _ => Keeps.pure _
  exact reached.mono (World.LeadsTo.refl _) rfl

theorem keeps_addNormalizer (as : String) (origin : Origin) :
    Keeps Reached (addNormalizer as origin) := by
  refine Keeps.bind (Keeps.change fun s reached => ?_) fun _ => Keeps.pure defined
  exact reached.mono (World.LeadsTo.refl _) rfl

theorem keeps_addClassifier (as tracker : String) (normalizer : Option String)
    (rules : List Rule) : Keeps Reached (addClassifier as tracker normalizer rules) := by
  refine (keeps_lookup _ tracker).bind fun id => ?_
  refine (keeps_normalizerId normalizer).bind fun number => ?_
  refine Keeps.bind (Keeps.change fun s reached => ?_) fun _ => Keeps.pure defined
  exact reached.mono (World.LeadsTo.refl _) rfl

theorem keeps_callObject (as : Option String) (r : Ref) (a : Arguments) :
    Keeps Reached (callObject as r a) := by
  refine (keeps_inParts fun w => .callFrom w _ r a).bind fun returned => ?_
  cases as with
  | none =>
      exact Keeps.get_bind fun s reached => reached
  | some as =>
      cases returned with
      | object made =>
          exact keeps_describeAs as made
      | told label arguments =>
          apply Keeps.get_bind
          intro s reached
          exact (keeps_add _).bind (keeps_describeAs as) s reached

/-- A new tracker gets a number that no other has. -/
theorem keeps_makeTracker (as : String) (script : List Interception) :
    Keeps Reached (perform (.makeTracker as script)) := by
  refine Keeps.bind (Keeps.change fun s reached => ?_) fun _ => keeps_statusNow none
  have hleads := World.LeadsTo.event s.world (.addTracker script)
  have hlength : (s.world.addTracker script).trackers.length = s.world.trackers.length + 1 := by
    simp [World.addTracker]
  refine ⟨reached.world.trans hleads, fun name id found => ?_⟩
  dsimp only at found ⊢
  rw [hlength]
  by_cases hname : name = as
  · subst hname
    rw [Keyed.find?_put_self] at found
    cases found
    exact Nat.lt_succ_self _
  · rw [Keyed.find?_put_of_ne hname] at found
    exact Nat.lt_succ_of_lt (reached.numbered name id found)

/-- A tracker is installed by a name that it has. -/
theorem keeps_install (tracker : String) : Keeps Reached (perform (.install tracker)) := by
  apply keeps_lookup_bind
  intro s id reached found
  have hinstall : s.world.perform (.install id) = s.world.install id :=
    if_pos (reached.numbered tracker id found)
  have hleads : s.world.LeadsTo (s.world.install id) := hinstall ▸ .event s.world (.install id)
  rw [outcome_bind, outcome_get]
  refine Keeps.follow (reached.setWorld hleads) fun _ => ?_
  exact Keeps.get_bind fun s' holds => keeps_statusNow _ s' holds

theorem keeps_probe (tracker obj : String) (question : Probe) :
    Keeps Reached (perform (.probe tracker question obj)) := by
  refine (keeps_lookup _ tracker).bind fun id => ?_
  refine (keeps_lookup _ obj).bind fun r => ?_
  apply Keeps.get_bind
  intro s reached
  have hleads := World.LeadsTo.probe s.world id question r
  refine Keeps.follow (reached.setWorld hleads) fun _ => ?_
  exact (Keeps.lift _).bind fun verdict => Keeps.pure _

/-- A step that only asks. -/
def asks : Step → Bool
  | describe .. | status | demote .. | provenance .. | sizes .. | isInstance .. | isSubclass ..
  | routine .. | printRoutine .. | sameRoutine .. | stub .. | isolate .. => true
  | _ => false

/-- A question changes nothing. -/
theorem keeps_perform_of_asks {step : Step} (question : step.asks = true) : Keeps P step.perform := by
  cases step with
  | describe obj =>
      apply Keeps.get_bind
      intro s holds
      exact (keeps_lookup _ obj).bind (fun r => Keeps.pure _) s holds
  | status =>
      exact keeps_statusNow none
  | demote states =>
      exact Keeps.pure _
  | provenance tracker obj =>
      exact (keeps_lookup _ obj).bind fun r => keeps_provenanceOf tracker r
  | sizes tracker =>
      exact keeps_sizesOf tracker
  | isInstance obj c =>
      refine keeps_heap.bind fun h => ?_
      refine (keeps_lookup _ obj).bind fun r => ?_
      exact (keeps_cls c).bind fun c => Keeps.pure _
  | isSubclass sub c =>
      refine (keeps_cls sub).bind fun sub => ?_
      refine keeps_heap.bind fun h => ?_
      split
      · exact (keeps_cls c).bind fun c => Keeps.pure _
      · exact Keeps.throw _
  | routine obj =>
      refine (keeps_lookup _ obj).bind fun r => ?_
      apply Keeps.get_bind
      intro s holds
      exact (Keeps.lift _).bind (fun routine => Keeps.pure _) s holds
  | printRoutine obj =>
      refine (keeps_lookup _ obj).bind fun r => ?_
      refine keeps_heap.bind fun h => ?_
      exact (Keeps.lift _).bind fun routine => Keeps.pure _
  | sameRoutine obj other =>
      refine (keeps_lookup _ obj).bind fun r => ?_
      refine (keeps_lookup _ other).bind fun r' => ?_
      refine keeps_heap.bind fun h => ?_
      exact (Keeps.lift _).bind fun routine => (Keeps.lift _).bind fun routine' => Keeps.pure _
  | stub obj =>
      refine keeps_heap.bind fun h => ?_
      refine (keeps_lookup _ obj).bind fun r => ?_
      exact (Keeps.lift _).bind fun text => Keeps.pure _
  | isolate text obj =>
      refine keeps_heap.bind fun h => ?_
      refine (keeps_lookup _ obj).bind fun r => ?_
      refine (Keeps.lift _).bind fun names => ?_
      exact (Keeps.lift _).bind fun isolated => Keeps.pure _
  | _ =>
      cases question

/-- A part of a classification finds its object and its classifier by name. -/
theorem keeps_inquiry (classifier : Option String) (obj : String) {part : Ref → Inquire α}
    {next : α × List Datum → InSession Answer}
    (leads : ∀ (w : World) r, Keeps (fun q => w.LeadsTo q.world) (part r))
    (later : ∀ answer, Keeps Reached (next answer)) :
    Keeps Reached (do
      let r ← object obj
      let number ← stationNumber classifier
      let answer ← inquire number (part r)
      next answer) := by
  refine (keeps_lookup _ obj).bind fun r => ?_
  refine (keeps_stationNumber classifier).bind fun number => ?_
  exact (keeps_inquire number fun w => leads w r).bind later

/-- Whatever a step does, the world comes about by events. -/
theorem keeps_perform (step : Step) : Keeps Reached step.perform := by
  cases step with
  | define as d =>
      refine (Definition.keeps_make as d).bind fun r => ?_
      exact (keeps_name as r).bind fun _ => Keeps.pure defined
  | «alias» as obj =>
      refine (keeps_lookup _ obj).bind fun r => ?_
      exact (keeps_name as r).bind fun _ => Keeps.pure defined
  | drop obj =>
      refine (keeps_lookup _ obj).bind fun r => ?_
      refine Keeps.bind (Keeps.change fun s reached => ?_) fun _ => Keeps.pure _
      exact reached.mono (World.LeadsTo.refl _) rfl
  | setAttribute obj attr input =>
      refine (keeps_lookup _ obj).bind fun r => ?_
      exact keeps_setAttribute_bind r attr (fun Q => keeps_value input) fun _ => Keeps.pure _
  | call as obj args keywords =>
      refine (keeps_lookup _ obj).bind fun r => ?_
      exact (keeps_arguments args keywords).bind fun a => keeps_callObject as r a
  | makeTracker as script =>
      exact keeps_makeTracker as script
  | install tracker =>
      exact keeps_install tracker
  | uninstall tracker =>
      refine (keeps_lookup _ tracker).bind fun id => ?_
      apply Keeps.get_bind
      intro s reached
      exact Keeps.follow (reached.setWorld (.event s.world (.uninstall id))) fun _ =>
        keeps_statusNow none
  | recordWrap tracker target result kind =>
      refine (keeps_lookup _ tracker).bind fun id => ?_
      refine (keeps_lookup _ target).bind fun target => ?_
      refine (keeps_lookup _ result).bind fun r => ?_
      apply Keeps.get_bind
      intro s reached
      exact Keeps.follow (reached.setWorld (.event s.world (.record id target r (.ofBits kind))))
        fun _ => keeps_provenanceOf tracker r
  | bind as c func args keywords =>
      refine (keeps_cls c).bind fun c => ?_
      refine (Keeps.mapOption (fun name => keeps_lookup _ name) func).bind fun func => ?_
      refine (keeps_arguments args keywords).bind fun a => ?_
      exact (keeps_atOnce fun w w' r => .bind).bind (keeps_describeAs as)
  | derive as module =>
      apply Keeps.get_bind
      intro s reached
      refine Keeps.follow (reached.setWorld (.add s.world _)) fun _ => ?_
      exact (keeps_name as _).bind fun _ => Keeps.pure _
  | bindUnwrapped as tracker func args keywords =>
      refine (keeps_lookup _ tracker).bind fun id => ?_
      refine (keeps_lookup _ func).bind fun func => ?_
      refine (keeps_arguments args keywords).bind fun a => ?_
      exact (keeps_inParts fun w => .bindUnwrapped w id func a).bind (keeps_describeAs as)
  | imitate as wrapper wrapped assigned =>
      refine (keeps_lookup _ wrapper).bind fun wrapper => ?_
      refine (keeps_lookup _ wrapped).bind fun wrapped => ?_
      exact (keeps_inParts fun w => .imitate w _ wrapper wrapped _ _).bind (keeps_describeAs as)
  | imitateUnwrapped as wrapper wrapped =>
      refine (keeps_lookup _ wrapper).bind fun wrapper => ?_
      refine (keeps_lookup _ wrapped).bind fun wrapped => ?_
      exact (keeps_inParts fun w => .imitate w _ wrapper wrapped _ _).bind (keeps_describeAs as)
  | decorator as wrapped =>
      refine (keeps_lookup _ wrapped).bind fun wrapped => ?_
      exact (keeps_atOnce fun w w' r => .bind).bind (keeps_describeAs as)
  | copy as deep obj =>
      refine (keeps_lookup _ obj).bind fun r => ?_
      exact (keeps_atOnce fun w w' made => .copy).bind (keeps_describeAs as)
  | probe tracker question obj =>
      exact keeps_probe tracker obj question
  | makeArchive as sources =>
      refine (Keeps.mapM (fun entry => ?_) sources).bind fun sources => keeps_addNormalizer as _
      exact (keeps_lookup _ entry.1).bind fun r => Keeps.pure _
  | makeTexts as texts =>
      refine (Keeps.mapM (fun entry => ?_) texts).bind fun texts => keeps_addNormalizer as _
      exact (keeps_lookup _ entry.1).bind fun r => Keeps.pure _
  | normalize normalizer obj =>
      exact keeps_normalizeWith normalizer obj
  | makeClassifier as tracker normalizer rules =>
      exact keeps_addClassifier as tracker normalizer rules
  | segments classifier obj =>
      exact keeps_inquiry (some classifier) obj
        (fun w => (Inquiry.keptByRequests_leadsTo w).segments) fun _ => Keeps.pure _
  | classify classifier obj =>
      apply keeps_inquiry classifier obj fun w => (Inquiry.keptByRequests_leadsTo w).classify
      intro answer
      exact Keeps.get_bind fun s reached => reached
  | properties classifier obj names =>
      exact keeps_inquiry (some classifier) obj (fun w r => keeps_leadsTo_propertiesOf w r names)
        fun _ => Keeps.pure _
  | dump classifier obj =>
      exact keeps_inquiry (some classifier) obj
        (fun w => (Inquiry.keptByRequests_leadsTo w).analyse) fun _ => Keeps.pure _
  | _ =>
      exact keeps_perform_of_asks rfl

end Step

namespace Session

variable {s : Session}

/-- The session after some steps. -/
def after (s : Session) (steps : List Step) : Session := steps.foldl (fun s step => (s.step step).1) s

/-- What a step leaves to die is an event like any other. -/
theorem Reached.step (reached : s.Reached) (step : Step) : (s.step step).1.Reached := by
  have hperformed := Step.keeps_perform step s reached
  exact hperformed.mono (World.LeadsTo.settle _ _) rfl

theorem Reached.after (reached : s.Reached) (steps : List Step) : (s.after steps).Reached := by
  induction steps generalizing s with
  | nil =>
      exact reached
  | cons step rest ih =>
      exact ih (reached.step step)

/-- The world after any steps of a session is that after some history. -/
theorem exists_history (steps : List Step) :
    ∃ events, (initial.after steps).world = World.initial.run events :=
  (reached_initial.after steps).world

end Session

end CallableKinds

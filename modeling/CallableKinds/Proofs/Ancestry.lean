import CallableKinds.Proofs.Transparency
import CallableKinds.World.Lifetime
import Mathlib.Logic.Relation

/-!
# Checks against classes

The ancestors of a class are its bases and the ancestors of these. The instrumented class is derived
from the plain one, so checks that go by ancestry would tell the two apart; the metaclass of the
instrumented class answers checks against that class as if they were against the plain one, and
classes derived from the instrumented class inherit the metaclass. However trackers come and go
while classes are derived from whatever stands under the usual name and from each other, the checks
remain a preorder that differs from ancestry at the instrumented class only, and a check against the
usual name does not tell whether a tracker is installed.
-/

namespace CallableKinds

/-! ### Ancestry -/

/-- The classes that an object of some shape is made of are there: the bases of a class and the
class of an instance. -/
def Shape.FoundedIn (h : Heap) : Shape → Prop
  | .cls c => ∀ b ∈ c.bases, h.isClass b = true
  | .instanceOf k => h.isClass k = true
  | .partialOf p => h.isClass p.cls = true
  | _ => True

theorem Shape.FoundedIn.mono {h h' : Heap} {s : Shape} (founded : s.FoundedIn h)
    (grows : h.Grows h') : s.FoundedIn h' := by
  cases s with
  | cls c => exact fun b hb => grows.isClass (founded b hb)
  | instanceOf k => exact grows.isClass founded
  | partialOf p => exact grows.isClass founded
  | _ => trivial

instance (h : Heap) : (s : Shape) → Decidable (s.FoundedIn h)
  | .cls c => List.decidableBAll (fun b => h.isClass b = true) c.bases
  | .instanceOf k => inferInstanceAs (Decidable (h.isClass k = true))
  | .partialOf p => inferInstanceAs (Decidable (h.isClass p.cls = true))
  | .function _ | .method _ _ | .builtin _ | .datum _ => isTrue trivial

namespace Heap

variable {h h' : Heap} {a b k r s : Ref}

/-- A class has another one among its bases. -/
def DerivedFrom (h : Heap) (sub base : Ref) : Prop := ∃ c, h.shape sub = .cls c ∧ base ∈ c.bases

/-- A class is another one or has it among its ancestors. -/
def Descends (h : Heap) (sub cls : Ref) : Prop := Relation.ReflTransGen h.DerivedFrom sub cls

/-- The classes that objects are made of are there, and the bases of a class were there before
it. -/
structure Founded (h : Heap) : Prop where
  made : ∀ r, (h.shape r).FoundedIn h
  before : ∀ r b, h.DerivedFrom r b → b < r

theorem lt_size_of_isClass (found : h.isClass r = true) : r < h.size := by
  obtain ⟨c, hc⟩ := isClass_iff.mp found
  exact lt_size_of_shape (by rw [hc]; nofun)

theorem shape_of_size_le (outside : h.size ≤ r) : h.shape r = default := by
  by_contra found
  exact Nat.not_lt.mpr outside (lt_size_of_shape found)

namespace Founded

theorem isClass_base (founded : h.Founded) (derived : h.DerivedFrom r b) : h.isClass b = true := by
  obtain ⟨c, hc, hb⟩ := derived
  have hmade := founded.made r
  rw [hc] at hmade
  exact hmade b hb

theorem isClass_of_classOf? (founded : h.Founded) (classed : h.classOf? r = some k) :
    h.isClass k = true := by
  have hmade := founded.made r
  rw [classOf?] at classed
  split at classed
  next c hc =>
      cases classed
      rwa [hc] at hmade
  next p hp =>
      cases classed
      rwa [hp] at hmade
  next => cases classed

/-- Only a class has a lineage. -/
theorem isClass_of_mem_lineageFrom {n : Nat} (member : s ∈ h.lineageFrom n r) :
    h.isClass r = true := by
  cases n with
  | zero =>
      cases member
  | succ n =>
      obtain ⟨c, hc, -⟩ := mem_lineageFrom_succ.mp member
      exact isClass_iff.mpr ⟨c, hc⟩

/-- The lineage of a class holds the class and its ancestors: the bases of a class stand before it,
so the lineage does not end too soon. -/
theorem mem_lineageFrom_iff (founded : h.Founded) {n : Nat} (below : r < n) :
    s ∈ h.lineageFrom n r ↔ h.isClass r = true ∧ h.Descends r s := by
  induction n generalizing r with
  | zero =>
      exact absurd below (Nat.not_lt_zero r)
  | succ n ih =>
      have hbase : ∀ b, h.DerivedFrom r b → b < n := fun b derived =>
        Nat.lt_of_lt_of_le (founded.before r b derived) (Nat.le_of_lt_succ below)
      rw [mem_lineageFrom_succ, isClass_iff]
      constructor
      · rintro ⟨c, hc, rfl | hs | ⟨b, hb, hs⟩⟩
        · exact ⟨⟨c, hc⟩, .refl⟩
        · exact ⟨⟨c, hc⟩, .single ⟨c, hc, hs⟩⟩
        · have hderived : h.DerivedFrom r b := ⟨c, hc, hb⟩
          exact ⟨⟨c, hc⟩, .head hderived ((ih (hbase b hderived)).mp hs).2⟩
      · rintro ⟨⟨c, hc⟩, descends⟩
        refine ⟨c, hc, ?_⟩
        rcases Relation.ReflTransGen.cases_head descends with hself | ⟨b, derived, hs⟩
        · exact Or.inl hself.symm
        · obtain ⟨c', hc', hb⟩ := derived
          obtain rfl : c' = c := Shape.cls.inj (hc'.symm.trans hc)
          have hderived : h.DerivedFrom r b := ⟨c', hc, hb⟩
          exact Or.inr (Or.inr ⟨b, hb,
            (ih (hbase b hderived)).mpr ⟨founded.isClass_base hderived, hs⟩⟩)

theorem derives_iff (founded : h.Founded) :
    h.derives a b = true ↔ h.isClass a = true ∧ h.Descends a b := by
  rw [derives, List.contains_iff_mem]
  constructor
  · intro member
    have inside := lt_size_of_isClass (isClass_of_mem_lineageFrom member)
    exact (founded.mem_lineageFrom_iff inside).mp member
  · rintro ⟨hclass, descends⟩
    exact (founded.mem_lineageFrom_iff (lt_size_of_isClass hclass)).mpr ⟨hclass, descends⟩

end Founded

/-! ### What is founded stays so -/

namespace Grows

/-- An object of a growing heap is founded in what it was founded in. -/
theorem foundedIn (grows : h.Grows h') (inside : r < h.size) (founded : (h.shape r).FoundedIn h) :
    (h'.shape r).FoundedIn h' := by
  obtain ⟨f, f', -, hf', -⟩ | ⟨c, c', hc, hc', hunnamed⟩ | hsame := grows.shape_cases inside
  · rw [hf']
    trivial
  · have hbases : c'.bases = c.bases := by simpa using congrArg ClassInfo.bases hunnamed
    rw [hc] at founded
    rw [hc', Shape.FoundedIn, hbases]
    exact fun b hb => grows.isClass (founded b hb)
  · rw [hsame]
    exact founded.mono grows

/-- Classes keep their bases. -/
theorem derivedFrom_iff (grows : h.Grows h') (inside : r < h.size) :
    h'.DerivedFrom r b ↔ h.DerivedFrom r b := by
  obtain ⟨f, f', hf, hf', -⟩ | ⟨c, c', hc, hc', hunnamed⟩ | hsame := grows.shape_cases inside
  · simp [DerivedFrom, hf, hf']
  · have hbases : c'.bases = c.bases := by simpa using congrArg ClassInfo.bases hunnamed
    simp [DerivedFrom, hc, hc', hbases]
  · rw [DerivedFrom, DerivedFrom, hsame]

/-- Classes keep their ancestors. -/
theorem descends_iff (grows : h.Grows h') (founded : h.Founded) (inside : a < h.size) :
    h'.Descends a b ↔ h.Descends a b := by
  constructor
  · intro descends
    induction descends using Relation.ReflTransGen.head_induction_on with
    | refl => exact .refl
    | head derived _ ih =>
        have hderived := (grows.derivedFrom_iff inside).mp derived
        exact .head hderived (ih (lt_size_of_isClass (founded.isClass_base hderived)))
  · intro descends
    induction descends using Relation.ReflTransGen.head_induction_on with
    | refl => exact .refl
    | head derived _ ih =>
        exact .head ((grows.derivedFrom_iff inside).mpr derived)
          (ih (lt_size_of_isClass (founded.isClass_base derived)))

theorem classOf? (grows : h.Grows h') (classed : h.classOf? r = some k) :
    h'.classOf? r = some k := by
  have inside : r < h.size := lt_size_of_shape fun hdefault => by
    rw [Heap.classOf?, hdefault] at classed
    cases classed
  obtain ⟨f, f', hf, -, -⟩ | ⟨c, c', hc, -, -⟩ | hsame := grows.shape_cases inside
  · rw [Heap.classOf?, hf] at classed
    cases classed
  · rw [Heap.classOf?, hc] at classed
    cases classed
  · rwa [Heap.classOf?, hsame]

end Grows

namespace Founded

/-- A heap with at most one new object is founded if the new object is founded in what was there. -/
theorem extend (founded : h.Founded) (grows : h.Grows h') (size : h'.size ≤ h.size + 1)
    (new : (h'.shape h.size).FoundedIn h) : h'.Founded := by
  have hbeyond : ∀ r, h.size < r → h'.shape r = default := fun r late =>
    shape_of_size_le (Nat.le_trans size late)
  refine ⟨fun r => ?_, fun r b derived => ?_⟩
  · rcases Nat.lt_trichotomy r h.size with old | rfl | late
    · exact grows.foundedIn old (founded.made r)
    · exact new.mono grows
    · rw [hbeyond r late]
      trivial
  · rcases Nat.lt_trichotomy r h.size with old | rfl | late
    · exact founded.before r b ((grows.derivedFrom_iff old).mp derived)
    · obtain ⟨c, hc, hb⟩ := derived
      rw [hc] at new
      exact lt_size_of_isClass (new b hb)
    · obtain ⟨c, hc, -⟩ := derived
      rw [hbeyond r late] at hc
      cases hc

theorem alters (founded : h.Founded) (alters : h.Alters h') : h'.Founded := by
  refine founded.extend alters.grows (by rw [alters.size]; exact Nat.le_succ _) ?_
  rw [shape_of_size_le (Nat.le_of_eq alters.size)]
  trivial

theorem add (founded : h.Founded) {shape : Shape} (new : shape.FoundedIn h) :
    (h.add shape).Founded := by
  refine founded.extend ((Continues.refl h).add shape).grows (by simp) ?_
  rwa [shape_add_size]

theorem addWith (founded : h.Founded) {shape : Shape} (new : shape.FoundedIn h)
    (attributes : Attributes) : (h.addWith shape attributes).Founded := by
  refine founded.extend ((Continues.refl h).addWith shape attributes).grows (by simp) ?_
  have hshape : (h.addWith shape attributes).shape h.size = shape := by
    simp [Heap.shape, object, Heap.addWith, size]
  rwa [hshape]

end Founded

theorem founded_initial : initial.Founded := by
  have hobjects : ∀ r < initial.size, (initial.shape r).FoundedIn initial ∧
      ∀ b ∈ initial.parts r, b < r := by decide +kernel
  refine ⟨fun r => ?_, fun r b derived => ?_⟩
  · by_cases inside : r < initial.size
    · exact (hobjects r inside).1
    · rw [shape_of_size_le (Nat.not_lt.mp inside)]
      trivial
  · obtain ⟨c, hc, hb⟩ := derived
    have inside : r < initial.size := lt_size_of_shape (by rw [hc]; nofun)
    refine (hobjects r inside).2 b ?_
    rwa [parts, hc]

end Heap

/-! ### Founded histories -/

/-- An event makes objects only of classes that are there. -/
def Event.FoundedIn (h : Heap) : Event → Prop
  | .create shape _ => shape.FoundedIn h
  | .bind cls .. => h.isClass cls = true
  | _ => True

instance (h : Heap) : (e : Event) → Decidable (e.FoundedIn h)
  | .create shape _ => inferInstanceAs (Decidable (shape.FoundedIn h))
  | .bind cls .. => inferInstanceAs (Decidable (h.isClass cls = true))
  | .setAttribute .. | .touch _ | .copy .. | .imitate .. | .addTracker _ | .install _
  | .uninstall _ | .record .. | .intercept _ | .perish _ => isTrue trivial

namespace World

variable {w w' : World} {cls made r : Ref} {args : List Value} {keywords : Keyed String Value}

/-- Each of some events makes objects only of classes that are there when its turn comes. -/
def Founds (w : World) : List Event → Prop
  | [] => True
  | e :: rest => e.FoundedIn w.heap ∧ (w.perform e).Founds rest

instance decidableFounds (w : World) : (events : List Event) → Decidable (w.Founds events)
  | [] => isTrue trivial
  | e :: rest =>
    have := decidableFounds (w.perform e) rest
    inferInstanceAs (Decidable (e.FoundedIn w.heap ∧ (w.perform e).Founds rest))

theorem Sound.isClass_partialClass (sound : w.Sound) : w.heap.isClass w.partialClass = true := by
  have hclass : World.initial.heap.isClass w.partialClass = true := by
    rw [partialClass, sound.usual]
    cases w.active <;> rfl
  exact sound.builtin.isClass hclass

theorem founded_bind {func : Option Ref} (founded : w.heap.Founded)
    (there : w.heap.isClass cls = true)
    (done : w.bind cls func args keywords = .ok (w', made)) : w'.heap.Founded := by
  obtain ⟨target, -, -, -, -, rfl⟩ := bind_eq_ok_iff.mp done
  have hmade : (w.add (.partialOf (w.heap.fixing cls target args keywords))).heap.Founded := by
    refine founded.add ?_
    change w.heap.isClass (w.heap.fixing cls target args keywords).cls = true
    rwa [Heap.cls_fixing]
  split
  · rwa [heap_report]
  · exact hmade

/-- The copy of an object with fixed arguments differs from it by its class only. -/
theorem shape_copy {deep : Bool} {p : PartialInfo} (found : w.heap.shape r = .partialOf p)
    (done : w.copy deep r = .ok (w', made)) :
    w'.heap.shape made = .partialOf { p with cls := w.copyingClass p.cls } := by
  rw [copy, found] at done
  dsimp only at done
  obtain ⟨⟨w₁, made'⟩, hbind, hcopied⟩ := ok_of_bind done
  cases hcopied
  obtain ⟨-, -, hmade, -⟩ := bind_eq_ok_iff.mp hbind
  have inside : made' < w₁.heap.size := hmade ▸ (tracker_bind hbind mainTracker).1
  dsimp only
  split
  · exact Heap.shape_reshape_self inside _
  · rw [Heap.shape_shareDict]
    exact Heap.shape_reshape_self inside _

theorem founded_copy {deep : Bool} (sound : w.Sound) (founded : w.heap.Founded)
    (done : w.copy deep r = .ok (w', made)) : w'.heap.Founded := by
  rcases copy_ok done with
    ⟨rfl, -⟩ | ⟨p, w₀, w₁, hp, hw₀, hbind, -, -, -, hsize, hcontinues⟩
  · exact founded
  · have halters : w.heap.Alters w₀.heap := by
      rcases hw₀ with rfl | rfl
      · exact .refl _
      · exact .touchDict w.heap r
    have hthere : w.heap.isClass (w.copyingClass p.cls) = true := by
      have hown := founded.made r
      rw [hp] at hown
      rw [copyingClass]
      split
      · exact sound.isClass_partialClass
      · exact hown
    obtain ⟨target, -, rfl, -, -, hw₁⟩ := bind_eq_ok_iff.mp hbind
    have hsize₁ : w₁.heap.size = w₀.heap.size + 1 := by
      rw [hw₁]
      split <;> simp [add]
    refine (founded.alters halters).extend hcontinues.grows ?_ ?_
    · exact Nat.le_of_eq (hsize.trans hsize₁)
    · rw [shape_copy hp done]
      exact halters.grows.isClass hthere

/-- Events keep a heap founded. -/
theorem founded_perform (sound : w.Sound) (founded : w.heap.Founded) {e : Event}
    (new : e.FoundedIn w.heap) : (w.perform e).heap.Founded := by
  cases e with
  | create shape attributes =>
      cases attributes with
      | none =>
          exact founded.add new
      | some attributes =>
          exact founded.addWith new attributes
  | setAttribute r name value =>
      unfold perform
      dsimp only
      split
      next heap hset => exact founded.alters (.setAttribute hset)
      next => exact founded
  | touch r =>
      exact founded.alters (.touchDict w.heap r)
  | bind cls func args keywords =>
      unfold perform
      dsimp only
      split
      next w' made hbind => exact founded_bind founded new hbind
      next => exact founded
  | copy deep r =>
      unfold perform
      dsimp only
      split
      next w' made hcopy => exact founded_copy sound founded hcopy
      next => exact founded
  | imitate tracked wrapper wrapped assigned updated =>
      change (w.imitate tracked wrapper wrapped assigned updated).1.heap.Founded
      rw [heap_imitate]
      exact founded.alters (.imitate w.heap wrapper wrapped assigned updated)
  | install id =>
      unfold perform
      dsimp only
      split
      · rwa [heap_install]
      · exact founded
  | uninstall id =>
      change (w.uninstall id).heap.Founded
      rwa [heap_uninstall]
  | _ => exact founded

theorem Founds.founded (sound : w.Sound) (founded : w.heap.Founded) {events : List Event}
    (founds : w.Founds events) : (w.run events).heap.Founded := by
  induction events generalizing w with
  | nil =>
      exact founded
  | cons e rest ih =>
      exact ih (sound.perform e) (founded_perform sound founded founds.1) founds.2

end World

/-! ### Checks -/

namespace Heap

variable {h : Heap} {a c : Ref}

/-- Checks against classes make sense. -/
structure CoherentChecks (h : Heap) : Prop where
  reflexive : ∀ a, h.isClass a = true → h.isSubclass a a = true
  transitive : ∀ a b c, h.isSubclass a b = true → h.isSubclass b c = true →
    h.isSubclass a c = true
  /-- An object belongs to the classes that its own class counts as. -/
  instances : ∀ x k c, h.classOf? x = some k → h.isInstance x c = h.isSubclass k c
  /-- The instrumented class and the plain one count as each other. -/
  interchangeable : h.isSubclass Catalog.trackedPartialClass Catalog.partialClass = true ∧
    h.isSubclass Catalog.partialClass Catalog.trackedPartialClass = true
  /-- Apart from the instrumented class, a class counts as itself and as its ancestors only. -/
  ancestry : ∀ a c, h.isClass a = true → c ≠ Catalog.trackedPartialClass →
    (h.isSubclass a c = true ↔ c = a ∨ Relation.TransGen h.DerivedFrom a c)

/-- Checks against any other class than the instrumented one go by ancestry, whatever metaclass the
class has. -/
theorem classCheck_of_ne (other : c ≠ Catalog.trackedPartialClass) (check : Ref → Bool) :
    h.classCheck c check = check c := by
  simp [classCheck, other]

end Heap

namespace World

variable {w : World} {a b c : Ref}

/-- Checks against the instrumented class are made against the plain one. -/
theorem Sound.classCheck_tracked (sound : w.Sound) (check : Ref → Bool) :
    w.heap.classCheck Catalog.trackedPartialClass check = check Catalog.partialClass := by
  obtain ⟨c, hc, hunnamed⟩ := sound.builtin.cls (r := Catalog.trackedPartialClass) rfl
  have hmetaclass : w.heap.metaclass? Catalog.trackedPartialClass =
      some Catalog.trackedMetaclass := by
    rw [Heap.metaclass?, hc]
    exact congrArg (fun c => some c.metaclass) hunnamed
  rw [Heap.classCheck, if_pos hmetaclass, if_pos rfl]

/-- The class under the usual name is checked against like the plain one, whichever it is. -/
theorem Sound.isSubclass_partialClass (sound : w.Sound) (a : Ref) :
    w.heap.isSubclass a w.partialClass = w.heap.derives a Catalog.partialClass := by
  rw [Heap.isSubclass, partialClass, sound.usual]
  cases w.active with
  | none => exact Heap.classCheck_of_ne (by decide) _
  | some id => exact sound.classCheck_tracked _

theorem Sound.derivedFrom_tracked_iff (sound : w.Sound) :
    w.heap.DerivedFrom Catalog.trackedPartialClass b ↔ b = Catalog.partialClass := by
  obtain ⟨c, hc, hbases⟩ := sound.cls (r := Catalog.trackedPartialClass) rfl
  simp [Heap.DerivedFrom, hc, hbases]

/-- A class counts as another one if that is an ancestor, and as the instrumented class if the plain
one is. -/
theorem Sound.isSubclass_iff (sound : w.Sound) (founded : w.heap.Founded) :
    w.heap.isSubclass a c = true ↔ w.heap.isClass a = true ∧
      w.heap.Descends a (if c = Catalog.trackedPartialClass then Catalog.partialClass else c) := by
  rw [Heap.isSubclass]
  split
  next htracked =>
      rw [htracked, sound.classCheck_tracked]
      exact founded.derives_iff
  next hother =>
      rw [Heap.classCheck_of_ne hother]
      exact founded.derives_iff

theorem Sound.isSubclass_self (sound : w.Sound) (founded : w.heap.Founded)
    (hclass : w.heap.isClass a = true) : w.heap.isSubclass a a = true := by
  rw [sound.isSubclass_iff founded]
  refine ⟨hclass, ?_⟩
  split
  next htracked => exact .single (htracked ▸ sound.derivedFrom_tracked_iff.mpr rfl)
  next => exact .refl

/-- What the instrumented class descends from, apart from itself, the plain class descends from. -/
theorem Sound.descends_plain (sound : w.Sound)
    (descends : w.heap.Descends Catalog.trackedPartialClass c)
    (other : c ≠ Catalog.trackedPartialClass) : w.heap.Descends Catalog.partialClass c := by
  rcases Relation.ReflTransGen.cases_head descends with hself | ⟨b, derived, above⟩
  · exact absurd hself.symm other
  · rwa [sound.derivedFrom_tracked_iff.mp derived] at above

theorem Sound.isSubclass_trans (sound : w.Sound) (founded : w.heap.Founded)
    (first : w.heap.isSubclass a b = true) (later : w.heap.isSubclass b c = true) :
    w.heap.isSubclass a c = true := by
  rw [sound.isSubclass_iff founded] at first later ⊢
  obtain ⟨hclass, hfirst⟩ := first
  obtain ⟨-, hlater⟩ := later
  refine ⟨hclass, ?_⟩
  split at hfirst
  next htracked =>
      -- the checks pass through the plain class, which stands in for the instrumented one
      rw [htracked] at hlater
      refine hfirst.trans (sound.descends_plain hlater ?_)
      split
      · decide
      next hother => exact hother
  next => exact hfirst.trans hlater

theorem Sound.isInstance_eq (sound : w.Sound) (founded : w.heap.Founded) {x k : Ref}
    (classed : w.heap.classOf? x = some k) (c : Ref) :
    w.heap.isInstance x c = w.heap.isSubclass k c := by
  have hclass := founded.isClass_of_classOf? classed
  have hself : ∀ c, (k == c || w.heap.derives k c) = w.heap.derives k c := by
    intro c
    by_cases same : k = c
    · subst same
      rw [founded.derives_iff.mpr ⟨hclass, .refl⟩, Bool.or_true]
    · simp [same]
  rw [Heap.isInstance, classed]
  simp only [hself]
  by_cases same : k = c
  · subst same
    rw [sound.isSubclass_self founded hclass, beq_self_eq_true, Bool.true_or]
  · simp [same, Heap.isSubclass]

theorem Sound.coherentChecks (sound : w.Sound) (founded : w.heap.Founded) :
    w.heap.CoherentChecks where
  reflexive a hclass := sound.isSubclass_self founded hclass
  transitive a b c first later := sound.isSubclass_trans founded first later
  instances x k c classed := sound.isInstance_eq founded classed c
  interchangeable := by
    have hplain : w.heap.isClass Catalog.partialClass = true := sound.builtin.isClass rfl
    have htracked : w.heap.isClass Catalog.trackedPartialClass = true :=
      sound.builtin.isClass rfl
    rw [sound.isSubclass_iff founded, sound.isSubclass_iff founded, if_pos rfl,
      if_neg (by decide)]
    exact ⟨⟨htracked, .single (sound.derivedFrom_tracked_iff.mpr rfl)⟩, hplain, .refl⟩
  ancestry a c hclass other := by
    rw [sound.isSubclass_iff founded, if_neg other, and_iff_right hclass, Heap.Descends,
      Relation.reflTransGen_iff_eq_or_transGen]

/-- Whatever stands under the usual name later on, what counted as it goes on to do so, and nothing
else begins to. -/
theorem isSubclass_partialClass_of_grows {w' : World} (sound : w.Sound) (sound' : w'.Sound)
    (founded : w.heap.Founded) (founded' : w'.heap.Founded) (grows : w.heap.Grows w'.heap)
    (hclass : w.heap.isClass a = true) :
    w'.heap.isSubclass a w'.partialClass = w.heap.isSubclass a w.partialClass := by
  rw [sound.isSubclass_partialClass, sound'.isSubclass_partialClass, Bool.eq_iff_iff,
    founded.derives_iff, founded'.derives_iff, and_iff_right hclass,
    and_iff_right (grows.isClass hclass)]
  exact grows.descends_iff founded (Heap.lt_size_of_isClass hclass)

/-- However trackers come and go while classes are derived, checks make sense, and a check against
the class under the usual name answers the same at any later time, whether a tracker is installed
then or not. -/
theorem coherentChecks_run (events : List Event) (founds : initial.Founds events) :
    (initial.run events).heap.CoherentChecks ∧
    ∀ later, (initial.run events).Founds later →
      (∀ a, (initial.run events).heap.isClass a = true →
        ((initial.run events).run later).heap.isSubclass a
            ((initial.run events).run later).partialClass =
          (initial.run events).heap.isSubclass a (initial.run events).partialClass) ∧
      ∀ x k, (initial.run events).heap.classOf? x = some k →
        ((initial.run events).run later).heap.isInstance x
            ((initial.run events).run later).partialClass =
          (initial.run events).heap.isInstance x (initial.run events).partialClass := by
  have hsound := sound_run events
  have hfounded := founds.founded sound_initial Heap.founded_initial
  generalize initial.run events = w at hsound hfounded ⊢
  refine ⟨hsound.coherentChecks hfounded, fun later founds' => ?_⟩
  have hgrows := grows_run w later
  have hsound' := hsound.run later
  have hfounded' := founds'.founded hsound hfounded
  have hsame := fun a => isSubclass_partialClass_of_grows (a := a) hsound hsound' hfounded hfounded'
    hgrows
  refine ⟨hsame, fun x k classed => ?_⟩
  rw [hsound.isInstance_eq hfounded classed,
    hsound'.isInstance_eq hfounded' (hgrows.classOf? classed)]
  exact hsame k (hfounded.isClass_of_classOf? classed)

/-- A class is derived from what stands under the usual name without a tracker and one with it, then
a third class from both, and an object of the third class is made. -/
def derivedInTurn : List Event :=
  let derived (name metaclass : String) (bases : List Ref) : Shape :=
    .cls ⟨"__main__", name, name, metaclass, bases, false, false, false, none, false⟩
  let size := Heap.initial.size
  [.uninstall mainTracker,
    .create (derived "Plain" Heap.plainMetaclass [Catalog.partialClass]) none,
    .install mainTracker,
    .create (derived "Tracked" Catalog.trackedMetaclass [Catalog.trackedPartialClass]) none,
    .create (derived "Both" Catalog.trackedMetaclass [size + 1, size]) none,
    .bind (size + 2) (some Catalog.updateWrapper) [] []]

/-- The object belongs to the class under the usual name, with a tracker and without one. -/
theorem coherentChecks_run_derivedInTurn :
    initial.Founds derivedInTurn ∧
    (initial.run derivedInTurn).Founds [.uninstall mainTracker] ∧
    (initial.run derivedInTurn).heap.CoherentChecks ∧
    (initial.run derivedInTurn).partialClass = Catalog.trackedPartialClass ∧
    ((initial.run derivedInTurn).run [.uninstall mainTracker]).partialClass =
      Catalog.partialClass ∧
    (initial.run derivedInTurn).heap.isInstance (Heap.initial.size + 3)
      Catalog.trackedPartialClass = true ∧
    ((initial.run derivedInTurn).run [.uninstall mainTracker]).heap.isInstance
      (Heap.initial.size + 3) Catalog.partialClass = true := by
  have hfounds : initial.Founds derivedInTurn := by decide +kernel
  have hfounds' : (initial.run derivedInTurn).Founds [.uninstall mainTracker] := by decide +kernel
  obtain ⟨hcoherent, hlater⟩ := coherentChecks_run derivedInTurn hfounds
  have hclassed : (initial.run derivedInTurn).heap.classOf? (Heap.initial.size + 3) =
      some (Heap.initial.size + 2) := by decide +kernel
  have hsame := (hlater _ hfounds').2 _ _ hclassed
  have hbelongs : (initial.run derivedInTurn).heap.isInstance (Heap.initial.size + 3)
      Catalog.trackedPartialClass = true := by decide +kernel
  exact ⟨hfounds, hfounds', hcoherent, by decide +kernel, by decide +kernel, hbelongs,
    hsame.trans hbelongs⟩

end World

end CallableKinds

import CallableKinds.Proofs.Outcome
import CallableKinds.Proofs.WeakTable
import CallableKinds.World.Binding
import CallableKinds.World.Likeness
import Mathlib.Data.List.Basic

/-!
# Growth of heaps

Objects and attributes come into a heap and never go. What can be changed of the shape of an object
is how it is named, the default values of a function, and whether a class is abstract, so classes keep
their lineages, and what can be called or referred to weakly stays so.
-/

namespace CallableKinds

namespace Keyed

variable {κ α : Type} [DecidableEq κ]

theorem has_put_of_has {key other : κ} {value : α} {m : Keyed κ α} (h : has other m = true) :
    has other (put key value m) = true := by
  by_cases hk : other = key
  · subst hk
    simp [has, find?_put_self]
  · simpa only [has, find?_put_of_ne hk] using h

theorem has_putAll_of_has {other : κ} {pairs : List (κ × α)} {m : Keyed κ α}
    (h : has other m = true) : has other (putAll m pairs) = true := by
  induction pairs generalizing m with
  | nil =>
      exact h
  | cons p rest ih =>
      exact ih (has_put_of_has h)

end Keyed

/-! ### Shapes without names -/

/-- A function apart from the names and the default values, which can be changed. -/
def FunctionInfo.unnamed (f : FunctionInfo) : FunctionInfo :=
  { f with name := "", qualname := "", defaults := 0, keywordDefaults := [] }

/-- A class apart from the names and whether it is abstract, which can be changed. -/
def ClassInfo.unnamed (c : ClassInfo) : ClassInfo :=
  { c with module := "", name := "", qualname := "", abstract := false }

@[simp] theorem ClassInfo.bases_unnamed (c : ClassInfo) : c.unnamed.bases = c.bases := rfl

@[simp] theorem ClassInfo.slots_unnamed (c : ClassInfo) : c.unnamed.slots = c.slots := rfl

namespace Shape

/-- A shape apart from the names and what else can be changed of it. -/
def unnamed : Shape → Shape
  | .function f => .function f.unnamed
  | .cls c => .cls c.unnamed
  | s => s

/-- Two shapes that differ in what can be changed only are both functions, both classes, or the same. -/
theorem cases_of_unnamed_eq {s s' : Shape} (h : s'.unnamed = s.unnamed) :
    (∃ f f', s = function f ∧ s' = function f' ∧ f'.unnamed = f.unnamed) ∨
    (∃ c c', s = cls c ∧ s' = cls c' ∧ c'.unnamed = c.unnamed) ∨ s' = s := by
  cases s with
  | function f =>
      cases s' with
      | function f' =>
          exact Or.inl ⟨f, f', rfl, rfl, by simpa [unnamed] using h⟩
      | _ => cases h
  | cls c =>
      cases s' with
      | cls c' =>
          exact Or.inr (Or.inl ⟨c, c', rfl, rfl, by simpa [unnamed] using h⟩)
      | _ => cases h
  | _ =>
      refine Or.inr (Or.inr ?_)
      cases s' with
      | function f' => cases h
      | cls c' => cases h
      | _ => exact h

end Shape

namespace Heap

variable {h h' h'' : Heap} {r s : Ref}

theorem lt_size_of_shape (found : h.shape r ≠ default) : r < h.size := by
  by_contra outside
  have hnone : h.objects[r]? = none := List.getElem?_eq_none (Nat.le_of_not_lt outside)
  exact found (by simp [shape, object, hnone]; rfl)

theorem lt_size_of_callable (found : h.callable r = true) : r < h.size :=
  lt_size_of_shape fun hdefault => by
    rw [callable, hdefault] at found
    cases found

theorem lt_size_of_weaklyReferable (found : h.weaklyReferable r = true) : r < h.size :=
  lt_size_of_shape fun hdefault => by
    rw [weaklyReferable, hdefault] at found
    cases found

@[simp] theorem shape_shareDict (h : Heap) (deep : Bool) (r source s : Ref) :
    (h.shareDict deep r source).shape s = h.shape s := by
  unfold shareDict
  split <;>
  · simp only [shape, object, List.getElem?_modify]
    cases h.objects[s]? with
    | none => rfl
    | some o => by_cases hr : r = s <;> simp [hr]

theorem shape_reshape_self (inside : r < h.size) (shape : Shape) :
    (h.reshape r shape).shape r = shape := by
  have hr : h.objects[r]? = some h.objects[r] := List.getElem?_eq_getElem inside
  simp [Heap.shape, object, reshape, hr]

theorem isClass_iff : h.isClass r = true ↔ ∃ c, h.shape r = .cls c := by
  rw [isClass]
  cases h.shape r <;> simp

@[simp] theorem size_touchDict (h : Heap) (r : Ref) : (h.touchDict r).size = h.size := by
  rw [touchDict]
  split
  · exact size_withDict h r
  · rfl

@[simp] theorem size_putAttributes (h : Heap) (r : Ref) (attributes : List (String × Value)) :
    (h.putAttributes r attributes).size = h.size := by
  rw [← size_withDict h r]
  unfold putAttributes
  dsimp only
  split <;> rfl

@[simp] theorem size_shareDict (h : Heap) (deep : Bool) (r source : Ref) :
    (h.shareDict deep r source).size = h.size := by
  unfold shareDict
  split <;> simp [size]

@[simp] theorem shape_withDict (h : Heap) (r s : Ref) : (h.withDict r).shape s = h.shape s := by
  rw [withDict]
  split
  · rfl
  · simp only [shape, object, List.getElem?_modify]
    cases h.objects[s]? with
    | none => rfl
    | some o =>
        by_cases hr : r = s <;> simp [hr]

@[simp] theorem shape_touchDict (h : Heap) (r s : Ref) : (h.touchDict r).shape s = h.shape s := by
  rw [touchDict]
  split
  · exact shape_withDict h r s
  · rfl

/-! ### Lineages -/

/-- The classes in a lineage are the class, its bases and what is in the lineages of these. -/
theorem mem_lineageFrom_succ {n : Nat} :
    s ∈ h.lineageFrom (n + 1) r ↔
      ∃ c, h.shape r = .cls c ∧ (s = r ∨ s ∈ c.bases ∨ ∃ b ∈ c.bases, s ∈ h.lineageFrom n b) := by
  cases hr : h.shape r with
  | cls c =>
      simp only [lineageFrom, hr, List.mem_cons, Lineage.mem_join, List.mem_append, List.mem_map,
        List.not_mem_nil, or_false, Shape.cls.injEq, exists_eq_left']
      constructor
      · rintro (rfl | ⟨l, ⟨b, hb, rfl⟩ | rfl, hs⟩)
        · exact Or.inl rfl
        · exact Or.inr (Or.inr ⟨b, hb, hs⟩)
        · exact Or.inr (Or.inl hs)
      · rintro (rfl | hs | ⟨b, hb, hs⟩)
        · exact Or.inl rfl
        · exact Or.inr ⟨_, Or.inr rfl, hs⟩
        · exact Or.inr ⟨_, Or.inl ⟨b, hb, rfl⟩, hs⟩
  | _ => simp [lineageFrom, hr]

theorem mem_lineage_self {c : ClassInfo} (found : h.shape r = .cls c) : r ∈ h.lineage r := by
  have hpos : 0 < h.size := Nat.zero_lt_of_lt (lt_size_of_shape (by rw [found]; nofun))
  obtain ⟨n, hn⟩ : ∃ n, h.size = n + 1 := ⟨h.size - 1, by omega⟩
  rw [lineage, hn]
  exact mem_lineageFrom_succ.mpr ⟨c, found, Or.inl rfl⟩

/-- Lineages depend on the shapes of the objects only. -/
theorem lineageFrom_congr (same : ∀ r, h'.shape r = h.shape r) (n : Nat) (r : Ref) :
    h'.lineageFrom n r = h.lineageFrom n r := by
  induction n generalizing r with
  | zero =>
      rfl
  | succ n ih =>
      have hbelow : h'.lineageFrom n = h.lineageFrom n := funext ih
      rw [lineageFrom, lineageFrom, same, hbelow]

/-! ### Growth -/

/-- A heap becomes another one in which every object is what it was, apart from its names, and has
the attributes that it had, possibly with other values. -/
structure Grows (h h' : Heap) : Prop where
  size_le : h.size ≤ h'.size
  shape : ∀ r, r < h.size → (h'.shape r).unnamed = (h.shape r).unnamed
  dict : ∀ r i, (h.object r).dict = some i → (h'.object r).dict = some i
  keys : ∀ (i : Nat) (d : Attributes), h.dicts[i]? = some d →
    ∃ d' : Attributes, h'.dicts[i]? = some d' ∧ ∀ name, Keyed.has name d = true → Keyed.has name d' = true

namespace Grows

theorem refl (h : Heap) : h.Grows h where
  size_le := Nat.le_refl _
  shape _ _ := rfl
  dict _ _ found := found
  keys _ d found := ⟨d, found, fun _ hd => hd⟩

theorem trans (first : h.Grows h') (later : h'.Grows h'') : h.Grows h'' where
  size_le := Nat.le_trans first.size_le later.size_le
  shape r hr := (later.shape r (Nat.lt_of_lt_of_le hr first.size_le)).trans (first.shape r hr)
  dict r i found := later.dict r i (first.dict r i found)
  keys i d found := by
    obtain ⟨d', hd', hkeys⟩ := first.keys i d found
    obtain ⟨d'', hd'', hkeys'⟩ := later.keys i d' hd'
    exact ⟨d'', hd'', fun name hname => hkeys' name (hkeys name hname)⟩

/-- Only functions and classes change at all. -/
theorem shape_cases (grows : h.Grows h') (hr : r < h.size) :
    (∃ f f', h.shape r = .function f ∧ h'.shape r = .function f' ∧ f'.unnamed = f.unnamed) ∨
    (∃ c c', h.shape r = .cls c ∧ h'.shape r = .cls c' ∧ c'.unnamed = c.unnamed) ∨
    h'.shape r = h.shape r :=
  Shape.cases_of_unnamed_eq (grows.shape r hr)

theorem cls (grows : h.Grows h') {c : ClassInfo} (found : h.shape r = .cls c) :
    ∃ c', h'.shape r = .cls c' ∧ c'.unnamed = c.unnamed := by
  have hr : r < h.size := lt_size_of_shape (by rw [found]; nofun)
  rcases grows.shape_cases hr with ⟨f, f', hf, -⟩ | ⟨d, d', hd, hd', hunnamed⟩ | hsame
  · rw [found] at hf
    cases hf
  · rw [found] at hd
    cases hd
    exact ⟨d', hd', hunnamed⟩
  · exact ⟨c, hsame.trans found, rfl⟩

theorem isClass (grows : h.Grows h') (found : h.isClass r = true) : h'.isClass r = true := by
  obtain ⟨c, hc⟩ := isClass_iff.mp found
  obtain ⟨c', hc', -⟩ := grows.cls hc
  exact isClass_iff.mpr ⟨c', hc'⟩

theorem hasAttribute (grows : h.Grows h') {name : String}
    (found : Keyed.has name (h.ownAttributes r) = true) :
    Keyed.has name (h'.ownAttributes r) = true := by
  cases hdict : (h.object r).dict with
  | none =>
      simp [ownAttributes, hdict, Keyed.has, Keyed.find?] at found
  | some i =>
      cases hd : h.dicts[i]? with
      | none =>
          simp [ownAttributes, hdict, hd, Keyed.has, Keyed.find?] at found
      | some d =>
          obtain ⟨d', hd', hkeys⟩ := grows.keys i d hd
          rw [ownAttributes, hdict, Option.bind_some, hd, Option.getD_some] at found
          rw [ownAttributes, grows.dict r i hdict, Option.bind_some, hd', Option.getD_some]
          exact hkeys name found

/-! What a growing heap keeps. -/

theorem lineageFrom (grows : h.Grows h') {n m : Nat} (le : n ≤ m) (member : s ∈ h.lineageFrom n r) :
    s ∈ h'.lineageFrom m r := by
  induction n generalizing m r with
  | zero =>
      cases member
  | succ n ih =>
      obtain ⟨m, rfl⟩ : ∃ k, m = k + 1 := ⟨m - 1, by omega⟩
      obtain ⟨c, hc, hs⟩ := mem_lineageFrom_succ.mp member
      obtain ⟨c', hc', hunnamed⟩ := grows.cls hc
      have hbases : c'.bases = c.bases := by simpa using congrArg ClassInfo.bases hunnamed
      refine mem_lineageFrom_succ.mpr ⟨c', hc', ?_⟩
      rw [hbases]
      rcases hs with hself | hbase | ⟨b, hb, hs⟩
      · exact Or.inl hself
      · exact Or.inr (Or.inl hbase)
      · exact Or.inr (Or.inr ⟨b, hb, ih (by omega) hs⟩)

theorem lineage (grows : h.Grows h') (member : s ∈ h.lineage r) : s ∈ h'.lineage r :=
  grows.lineageFrom grows.size_le member

theorem inherits (grows : h.Grows h') {p : ClassInfo → Bool}
    (blind : ∀ c c' : ClassInfo, c'.unnamed = c.unnamed → p c' = p c)
    (found : h.inherits r p = true) : h'.inherits r p = true := by
  obtain ⟨s, member, hs⟩ := List.any_eq_true.mp found
  refine List.any_eq_true.mpr ⟨s, grows.lineage member, ?_⟩
  cases hshape : h.shape s with
  | cls c =>
      obtain ⟨c', hc', hunnamed⟩ := grows.cls hshape
      rw [hshape] at hs
      rw [hc']
      exact (blind c c' hunnamed).trans hs
  | _ => simp [hshape] at hs

theorem classAttribute (grows : h.Grows h') {name : String}
    (found : (h.classAttribute? r name).isSome = true) :
    (h'.classAttribute? r name).isSome = true := by
  rw [classAttribute?, List.findSome?_isSome_iff] at found ⊢
  obtain ⟨c, member, hc⟩ := found
  exact ⟨c, grows.lineage member, grows.hasAttribute hc⟩

/-- What can be called can be called later on. -/
theorem callable (grows : h.Grows h') (found : h.callable r = true) : h'.callable r = true := by
  have hr := lt_size_of_callable found
  rcases grows.shape_cases hr with ⟨f, f', -, hf', -⟩ | ⟨c, c', -, hc', -⟩ | hsame
  · rw [Heap.callable, hf']
  · rw [Heap.callable, hc']
  · rw [Heap.callable] at found ⊢
    rw [hsame]
    split
    next d hd =>
        rw [hd] at found
        cases found
    next c hc =>
        rw [hc] at found
        exact grows.classAttribute found
    next => rfl

/-- What can be referred to weakly can be so later on. -/
theorem weaklyReferable (grows : h.Grows h') (found : h.weaklyReferable r = true) :
    h'.weaklyReferable r = true := by
  have hr := lt_size_of_weaklyReferable found
  rcases grows.shape_cases hr with ⟨f, f', -, hf', -⟩ | ⟨c, c', -, hc', -⟩ | hsame
  · rw [Heap.weaklyReferable, hf']
  · rw [Heap.weaklyReferable, hc']
  · rw [Heap.weaklyReferable] at found ⊢
    rw [hsame]
    split
    next d hd =>
        rw [hd] at found
        cases found
    next c hc =>
        rw [hc] at found
        refine grows.inherits (fun c c' hunnamed => ?_) found
        have hslots : c'.slots = c.slots := by simpa using congrArg ClassInfo.slots hunnamed
        rw [hslots]
    next b hb =>
        rw [hb] at found
        exact found
    next => rfl

/-! Operations by which a heap grows. -/

/-- An object may get another name. -/
theorem reshape {shape : Shape} (named : shape.unnamed = (h.shape r).unnamed) :
    h.Grows (h.reshape r shape) where
  size_le := Nat.le_of_eq (size_reshape h r shape).symm
  shape s hs := by
    obtain ⟨o, ho⟩ : ∃ o, h.objects[s]? = some o := ⟨_, List.getElem?_eq_getElem hs⟩
    by_cases hr : r = s
    · subst hr
      simpa [Heap.shape, object, Heap.reshape, List.getElem?_modify, ho] using named
    · simp [Heap.shape, object, Heap.reshape, ho, hr]
  dict s i found := by
    rw [← found]
    simp only [object, Heap.reshape, List.getElem?_modify]
    cases h.objects[s]? with
    | none => rfl
    | some o =>
        by_cases hr : r = s <;> simp [hr]
  keys i d found := ⟨d, found, fun _ hd => hd⟩

theorem withDict (h : Heap) (r : Ref) : h.Grows (h.withDict r) := by
  rw [Heap.withDict]
  split
  · exact refl h
  next hnone =>
      refine ⟨by simp [size], ?_, ?_, ?_⟩
      · intro s hs
        obtain ⟨o, ho⟩ : ∃ o, h.objects[s]? = some o := ⟨_, List.getElem?_eq_getElem hs⟩
        by_cases hr : r = s <;> simp [Heap.shape, object, ho, hr]
      · intro s i found
        have hr : r ≠ s := by
          rintro rfl
          simp [found] at hnone
        rw [← found]
        simp [object, hr]
      · intro i d found
        have hi : i < h.dicts.length := (List.getElem?_eq_some_iff.mp found).1
        exact ⟨d, by rw [List.getElem?_append_left hi, found], fun _ hd => hd⟩

theorem touchDict (h : Heap) (r : Ref) : h.Grows (h.touchDict r) := by
  rw [Heap.touchDict]
  split
  · exact withDict h r
  · exact refl h

theorem putAttributes (h : Heap) (r : Ref) (attributes : List (String × Value)) :
    h.Grows (h.putAttributes r attributes) := by
  refine (withDict h r).trans ?_
  unfold Heap.putAttributes
  dsimp only
  split
  next i hi =>
      refine ⟨Nat.le_refl _, fun _ _ => rfl, fun _ _ found => found, fun j d found => ?_⟩
      by_cases hj : i = j
      · subst hj
        refine ⟨Keyed.putAll d attributes, ?_, fun _ hd => Keyed.has_putAll_of_has hd⟩
        simp [found]
      · exact ⟨d, by simp [found, hj], fun _ hd => hd⟩
  next => exact refl _

end Grows

/-! ### Changes without new objects -/

/-- A heap grows, but no object is made. -/
structure Alters (h h' : Heap) : Prop where
  grows : h.Grows h'
  size : h'.size = h.size

namespace Alters

theorem refl (h : Heap) : h.Alters h := ⟨.refl h, rfl⟩

theorem trans (first : h.Alters h') (later : h'.Alters h'') : h.Alters h'' :=
  ⟨first.grows.trans later.grows, later.size.trans first.size⟩

theorem reshape {shape : Shape} (named : shape.unnamed = (h.shape r).unnamed) :
    h.Alters (h.reshape r shape) :=
  ⟨.reshape named, size_reshape h r shape⟩

theorem withDict (h : Heap) (r : Ref) : h.Alters (h.withDict r) := ⟨.withDict h r, size_withDict h r⟩

theorem touchDict (h : Heap) (r : Ref) : h.Alters (h.touchDict r) :=
  ⟨.touchDict h r, size_touchDict h r⟩

theorem putAttributes (h : Heap) (r : Ref) (attributes : List (String × Value)) :
    h.Alters (h.putAttributes r attributes) :=
  ⟨.putAttributes h r attributes, size_putAttributes h r attributes⟩

theorem rename {complaint : String} {value : Value} {shape : String → Shape}
    (named : ∀ name, (shape name).unnamed = (h.shape r).unnamed)
    (done : h.rename r complaint value shape = .ok h') : h.Alters h' := by
  rw [Heap.rename] at done
  split at done
  next name _ =>
      cases done
      exact reshape (named name)
  next => cases done

theorem setOfFunction {f : FunctionInfo} {name : String} {value : Value}
    (found : h.shape r = .function f) (done : h.setOfFunction r f name value = .ok h') :
    h.Alters h' := by
  rw [Heap.setOfFunction] at done
  split_ifs at done
  · exact rename (fun _ => by rw [found]; rfl) done
  · exact rename (fun _ => by rw [found]; rfl) done
  · obtain ⟨defaults, -, done⟩ := ok_of_bind done
    cases done
    exact reshape (by rw [found]; rfl)
  · obtain ⟨keywordDefaults, -, done⟩ := ok_of_bind done
    cases done
    exact reshape (by rw [found]; rfl)
  · obtain ⟨_, -, done⟩ := ok_of_bind done
    cases done
    exact refl _
  · cases done
    exact refl _
  · cases done
    exact putAttributes h r _

theorem setOfClass {c : ClassInfo} {name : String} {value : Value}
    (found : h.shape r = .cls c) (done : h.setOfClass r c name value = .ok h') : h.Alters h' := by
  rw [Heap.setOfClass] at done
  split_ifs at done
  · cases hname : checkClassName ((h.text? value).getD "") with
    | error f =>
        rw [hname] at done
        cases done
    | ok u =>
        rw [hname] at done
        exact rename (fun _ => by rw [found]; rfl) done
  · exact rename (fun _ => by rw [found]; rfl) done
  · cases done
    exact reshape (by rw [found]; rfl)
  · cases done
    exact (reshape (by rw [found]; rfl)).trans (putAttributes _ r _)
  · cases done
    exact putAttributes h r _

theorem setAttribute {name : String} {value : Value}
    (done : h.setAttribute r name value = .ok h') : h.Alters h' := by
  rw [Heap.setAttribute] at done
  split at done
  next => cases done
  split at done
  next f hf => exact setOfFunction hf done
  next c hc => exact setOfClass hc done
  next c hc =>
      split_ifs at done
      cases done
      exact putAttributes h r _
  next p hp =>
      split_ifs at done
      cases done
      exact putAttributes h r _
  next b hb =>
      split_ifs at done
      cases done
      exact refl _
  next => cases done
  next => cases done

theorem takeOver (h : Heap) (wrapper wrapped : Ref) (names : List String) :
    h.Alters (h.takeOver wrapper wrapped names).1 := by
  induction names generalizing h with
  | nil =>
      exact refl h
  | cons name rest ih =>
      rw [Heap.takeOver]
      split
      · exact ih h
      next v _ =>
          split
          next h' hset => exact (setAttribute hset).trans (ih h')
          next => exact refl h

theorem mergeAttributes {source : Ref} (done : h.mergeAttributes r source = .ok h') :
    h.Alters h' := by
  rw [Heap.mergeAttributes] at done
  dsimp only at done
  have hmerged := ((withDict h (h.attributeHolder r)).trans
    (touchDict _ (h.attributeHolder source))).trans (putAttributes _ (h.attributeHolder r)
      (((h.withDict (h.attributeHolder r)).touchDict (h.attributeHolder source)).copiedAttributes
        source))
  split at done
  next => cases done
  next => cases done
  next => cases done
  next c hc =>
      split_ifs at done
      cases done
      exact hmerged
  next =>
      cases done
      exact hmerged

/-- Making one object look like another, even if it fails on the way. -/
theorem imitate (h : Heap) (wrapper wrapped : Ref) (assigned updated : List String) :
    h.Alters (h.imitate wrapper wrapped assigned updated).1 := by
  have htaken := takeOver h wrapper wrapped assigned
  rw [Heap.imitate]
  split
  next h₁ f hrun => exact hrun ▸ htaken
  next h₁ hrun =>
      rw [hrun] at htaken
      dsimp only
      split
      next f _ => exact htaken
      next h₂ hmerge =>
          have hmerged : h₁.Alters h₂ := by
            split_ifs at hmerge
            · exact mergeAttributes hmerge
            · cases hmerge
              exact refl _
          split
          next h₃ hset => exact (htaken.trans hmerged).trans (setAttribute hset)
          next f _ => exact htaken.trans hmerged

end Alters

/-! ### New objects -/

/-- What is done to an object that is not in a list yet leaves the list in its place. -/
theorem prefix_modify {α : Type} {l l' : List α} (initial : l <+: l') {i : Nat}
    (outside : l.length ≤ i) (change : α → α) : l <+: l'.modify i change := by
  rw [List.prefix_iff_getElem?] at initial ⊢
  intro j hj
  have hne : i ≠ j := by omega
  rw [List.getElem?_modify, initial j hj]
  simp only [if_neg hne, id_map']

/-- A heap in which everything of another one stays in its place. -/
structure Continues (h' h : Heap) : Prop where
  objects : h.objects <+: h'.objects
  dicts : h.dicts <+: h'.dicts

namespace Continues

theorem refl (h : Heap) : h.Continues h := ⟨List.prefix_refl _, List.prefix_refl _⟩

theorem add (continues : h'.Continues h) (shape : Shape) : (h'.add shape).Continues h :=
  ⟨continues.objects.trans (List.prefix_append _ _), continues.dicts⟩

theorem addWith (continues : h'.Continues h) (shape : Shape) (attributes : Attributes) :
    (h'.addWith shape attributes).Continues h :=
  ⟨continues.objects.trans (List.prefix_append _ _),
    continues.dicts.trans (List.prefix_append _ _)⟩

theorem reshape (continues : h'.Continues h) (outside : h.size ≤ r) (shape : Shape) :
    (h'.reshape r shape).Continues h :=
  ⟨prefix_modify continues.objects outside _, continues.dicts⟩

theorem shareDict (continues : h'.Continues h) (outside : h.size ≤ r) (deep : Bool)
    (source : Ref) : (h'.shareDict deep r source).Continues h := by
  unfold Heap.shareDict
  split
  · exact ⟨prefix_modify continues.objects outside _,
      continues.dicts.trans (List.prefix_append _ _)⟩
  · exact ⟨prefix_modify continues.objects outside _, continues.dicts⟩

theorem object (continues : h'.Continues h) (hr : r < h.size) : h'.object r = h.object r := by
  obtain ⟨rest, hrest⟩ := continues.objects
  rw [Heap.object, Heap.object, ← hrest, List.getElem?_append_left hr]

theorem grows (continues : h'.Continues h) : h.Grows h' := by
  refine ⟨continues.objects.length_le, ?_, ?_, ?_⟩
  · intro r hr
    rw [shape, continues.object hr]
    rfl
  · intro r i found
    by_cases hr : r < h.size
    · rw [continues.object hr, found]
    · have hnone : h.objects[r]? = none := List.getElem?_eq_none (Nat.le_of_not_lt hr)
      simp [Heap.object, hnone] at found
      cases found
  · intro i d found
    obtain ⟨rest, hrest⟩ := continues.dicts
    refine ⟨d, ?_, fun _ hd => hd⟩
    have hi : i < h.dicts.length := (List.getElem?_eq_some_iff.mp found).1
    rw [← hrest, List.getElem?_append_left hi, found]

end Continues

end Heap

end CallableKinds

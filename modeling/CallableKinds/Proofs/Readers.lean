import CallableKinds.Probe
import CallableKinds.Proofs.Growth
import CallableKinds.Source.Normalizer

/-!
# Heaps that read alike

Whatever is read off a heap is read off the shapes of its objects and their attributes. Two heaps
that agree on these give the same for everything that a normalizer or a classifier looks at. A
dictionary that came into being when somebody looked for it holds nothing, so heaps before and after
a look are alike.
-/

namespace CallableKinds

namespace Heap

/-- Two heaps have as many objects, of the same shapes and with the same attributes. -/
structure Alike (h' h : Heap) : Prop where
  size : h'.size = h.size
  shape : ∀ r, h'.shape r = h.shape r
  attributes : ∀ r, h'.ownAttributes r = h.ownAttributes r

namespace Alike

variable {h h' h'' : Heap}

theorem refl (h : Heap) : h.Alike h := ⟨rfl, fun _ => rfl, fun _ => rfl⟩

theorem symm (alike : h'.Alike h) : h.Alike h' :=
  ⟨alike.size.symm, fun r => (alike.shape r).symm, fun r => (alike.attributes r).symm⟩

theorem trans (later : h''.Alike h') (first : h'.Alike h) : h''.Alike h where
  size := later.size.trans first.size
  shape r := (later.shape r).trans (first.shape r)
  attributes r := (later.attributes r).trans (first.attributes r)

/-- One empty dictionary more gives no object an attribute. -/
theorem getD_append_empty (dicts : List Attributes) (place : Option Nat) :
    (place.bind fun i => (dicts ++ [[]])[i]?).getD [] = (place.bind fun i => dicts[i]?).getD [] := by
  cases place with
  | none => rfl
  | some i =>
      by_cases inside : i < dicts.length
      · simp only [Option.bind_some, List.getElem?_append_left inside]
      · have beyond := Nat.not_lt.mp inside
        simp only [Option.bind_some, List.getElem?_append_right beyond,
          List.getElem?_eq_none beyond]
        cases i - dicts.length <;> rfl

theorem withDict (h : Heap) (r : Ref) : (h.withDict r).Alike h where
  size := size_withDict h r
  shape := shape_withDict h r
  attributes s := by
    rw [Heap.withDict]
    split
    · rfl
    rename_i missing
    simp only [ownAttributes, object, List.getElem?_modify]
    rw [getD_append_empty]
    by_cases same : r = s
    · subst same
      have before : ((h.objects[r]?).getD default).dict = none := by simpa [object] using missing
      rw [before]
      cases h.objects[r]? with
      | none => rfl
      | some o => simp
    · simp [same]

/-- A look at the dictionary of an object changes nothing that can be read. -/
theorem touchDict (h : Heap) (r : Ref) : (h.touchDict r).Alike h := by
  rw [Heap.touchDict]
  split
  · exact withDict h r
  · exact refl h

/-! ## Attributes -/

section Readers

variable (alike : h'.Alike h)

include alike

theorem lineageFrom (fuel : Nat) (r : Ref) : h'.lineageFrom fuel r = h.lineageFrom fuel r := by
  induction fuel generalizing r with
  | zero => rfl
  | succ fuel ih => simp only [Heap.lineageFrom, alike.shape, funext ih]

theorem lineage (r : Ref) : h'.lineage r = h.lineage r := by
  rw [Heap.lineage, Heap.lineage, alike.size, alike.lineageFrom]

theorem classAttribute? (cls : Ref) (name : String) :
    h'.classAttribute? cls name = h.classAttribute? cls name := by
  simp only [Heap.classAttribute?, alike.lineage, alike.attributes]

theorem inherits (cls : Ref) (p : ClassInfo → Bool) : h'.inherits cls p = h.inherits cls p := by
  simp only [Heap.inherits, alike.lineage, alike.shape]

theorem classOf? (r : Ref) : h'.classOf? r = h.classOf? r := by
  simp only [Heap.classOf?, alike.shape]

theorem properName? (r : Ref) : h'.properName? r = h.properName? r := by
  simp only [Heap.properName?, alike.shape]

theorem properQualname? (r : Ref) : h'.properQualname? r = h.properQualname? r := by
  simp only [Heap.properQualname?, alike.shape]

theorem properAttribute? (r : Ref) (name : String) :
    h'.properAttribute? r name = h.properAttribute? r name := by
  simp only [Heap.properAttribute?, alike.properName?, alike.properQualname?, alike.shape]

theorem attributeHolderFrom (fuel : Nat) (r : Ref) :
    h'.attributeHolderFrom fuel r = h.attributeHolderFrom fuel r := by
  induction fuel generalizing r with
  | zero => rfl
  | succ fuel ih => simp only [Heap.attributeHolderFrom, alike.shape, ih]

theorem attributeHolder (r : Ref) : h'.attributeHolder r = h.attributeHolder r := by
  rw [Heap.attributeHolder, Heap.attributeHolder, alike.size, alike.attributeHolderFrom]

theorem directAttribute? (r : Ref) (name : String) :
    h'.directAttribute? r name = h.directAttribute? r name := by
  simp only [Heap.directAttribute?, alike.properAttribute?, alike.shape, alike.attributes,
    alike.classOf?, alike.classAttribute?]

theorem attribute? (r : Ref) (name : String) : h'.attribute? r name = h.attribute? r name := by
  rw [Heap.attribute?, Heap.attribute?, alike.attributeHolder, alike.directAttribute?]

theorem datum? (v : Value) : h'.datum? v = h.datum? v := by
  cases v <;> simp only [Heap.datum?, alike.shape]

theorem isNothing (v : Value) : h'.isNothing v = h.isNothing v := by
  simp only [Heap.isNothing, alike.datum?]

theorem truthyValue (v : Value) : h'.truthyValue v = h.truthyValue v := by
  cases v <;> simp only [Heap.truthyValue, alike.datum?]

theorem tupleSize? (v : Value) : h'.tupleSize? v = h.tupleSize? v := by
  cases v <;> simp only [Heap.tupleSize?, alike.isNothing]

theorem keys? (v : Value) : h'.keys? v = h.keys? v := by
  simp only [Heap.keys?, alike.datum?, funext alike.classOf?, alike.lineage]

theorem items? (v : Value) : h'.items? v = h.items? v := by
  cases v <;> simp only [Heap.items?, alike.datum?]

theorem text? (v : Value) : h'.text? v = h.text? v := by
  rw [Heap.text?, Heap.text?, alike.datum?]

theorem name? (r : Ref) : h'.name? r = h.name? r := by
  simp only [Heap.name?, alike.attribute?, funext alike.text?]

theorem qualname? (r : Ref) : h'.qualname? r = h.qualname? r := by
  simp only [Heap.qualname?, alike.attribute?, funext alike.text?]

theorem wrapped? (r : Ref) : h'.wrapped? r = h.wrapped? r := by
  rw [Heap.wrapped?, Heap.wrapped?, alike.attribute?]

theorem flags? (v : Value) : h'.flags? v = h.flags? v := by
  cases v <;> simp only [Heap.flags?, alike.attribute?, funext alike.datum?]

theorem codeFlags? (r : Ref) : h'.codeFlags? r = h.codeFlags? r := by
  simp only [Heap.codeFlags?, alike.attribute?, funext alike.flags?]

/-! ## What objects are -/

theorem isClass (r : Ref) : h'.isClass r = h.isClass r := by
  simp only [Heap.isClass, alike.shape]

theorem isMethod (r : Ref) : h'.isMethod r = h.isMethod r := by
  simp only [Heap.isMethod, alike.shape]

theorem callable (r : Ref) : h'.callable r = h.callable r := by
  simp only [Heap.callable, alike.shape, alike.classAttribute?]

theorem asFunction? (r : Ref) : h'.asFunction? r = h.asFunction? r := by
  have hsize : h'.tupleSize? = h.tupleSize? := funext alike.tupleSize?
  have hkeys : h'.keys? = h.keys? := funext alike.keys?
  simp only [Heap.asFunction?, alike.attribute?, alike.callable, alike.isClass, alike.name?, hsize, hkeys]

theorem weaklyReferable (r : Ref) : h'.weaklyReferable r = h.weaklyReferable r := by
  simp only [Heap.weaklyReferable, Heap.hasInstanceDict, alike.shape, alike.inherits]

theorem ownFinalizer? (cls : Ref) : h'.ownFinalizer? cls = h.ownFinalizer? cls := by
  simp only [Heap.ownFinalizer?, alike.attributes, alike.shape, alike.isNothing]

theorem finalizes (cls : Ref) : h'.finalizes cls = h.finalizes cls := by
  rw [Heap.finalizes, Heap.finalizes, alike.lineage, funext alike.ownFinalizer?]

theorem hasFinalizer (r : Ref) : h'.hasFinalizer r = h.hasFinalizer r := by
  simp only [Heap.hasFinalizer, alike.shape, alike.finalizes, alike.attributes, alike.isNothing,
    alike.classOf?, funext alike.finalizes]

theorem className (r : Ref) : h'.className r = h.className r := by
  rw [Heap.className, Heap.className, alike.properName?]

theorem typeName (r : Ref) : h'.typeName r = h.typeName r := by
  simp only [Heap.typeName, alike.shape, alike.className]

theorem valueType (v : Value) : h'.valueType v = h.valueType v := by
  cases v <;> simp only [Heap.valueType, alike.classOf?, Heap.classPath, alike.shape,
    alike.typeName]

/-! ## Allocation -/

theorem layoutOf (r : Ref) : h'.layoutOf r = h.layoutOf r := by
  have own : h'.hasOwnLayout = h.hasOwnLayout := by
    funext r
    simp only [Heap.hasOwnLayout, alike.shape]
  rw [Heap.layoutOf, Heap.layoutOf, alike.lineage, own]

theorem isAllocator (v : Value) : h'.isAllocator v = h.isAllocator v := by
  simp only [Heap.isAllocator, funext alike.shape]

theorem ownConstructor? (cls : Ref) : h'.ownConstructor? cls = h.ownConstructor? cls := by
  simp only [Heap.ownConstructor?, alike.attributes, alike.shape, alike.isAllocator]

theorem constructsByCode (cls : Ref) : h'.constructsByCode cls = h.constructsByCode cls := by
  rw [Heap.constructsByCode, Heap.constructsByCode, alike.lineage, funext alike.ownConstructor?]

theorem leading? (classes : List Ref) : h'.leading? classes = h.leading? classes := by
  cases classes <;> simp only [Heap.leading?, alike.lineage, alike.layoutOf]

theorem allocatorFrom (fuel : Nat) (cls : Ref) :
    h'.allocatorFrom fuel cls = h.allocatorFrom fuel cls := by
  induction fuel generalizing cls with
  | zero => rfl
  | succ fuel ih =>
      simp only [Heap.allocatorFrom, alike.shape, alike.constructsByCode, alike.leading?,
        funext ih]

theorem allocatorTitle (cls : Ref) (c : ClassInfo) :
    h'.allocatorTitle cls c = h.allocatorTitle cls c := by
  simp only [Heap.allocatorTitle, alike.size, alike.allocatorFrom, alike.shape]

theorem abstractComplaint (c : ClassInfo) (missing : Value) :
    h'.abstractComplaint c missing = h.abstractComplaint c missing := by
  simp only [Heap.abstractComplaint, alike.items?, alike.valueType]

theorem abstractRefusal? (cls : Ref) (c : ClassInfo) :
    h'.abstractRefusal? cls c = h.abstractRefusal? cls c := by
  rw [Heap.abstractRefusal?, Heap.abstractRefusal?, alike.layoutOf, alike.attributes,
    funext (alike.abstractComplaint c)]

theorem allocationComplaint? (cls : Ref) :
    h'.allocationComplaint? cls = h.allocationComplaint? cls := by
  simp only [Heap.allocationComplaint?, alike.shape, alike.layoutOf, alike.allocatorTitle,
    alike.abstractRefusal?]

/-! ## Attempts -/

theorem attempt (p : Probe) (subject : Ref) : p.attempt h' subject = p.attempt h subject := by
  cases p <;> simp only [Probe.attempt, alike.hasFinalizer]

theorem refusal? (subject : Ref) (a : Attempt) : a.refusal? h' subject = a.refusal? h subject := by
  simp only [Attempt.refusal?, alike.isClass, alike.typeName, alike.allocationComplaint?]

theorem outcome (subject : Ref) (a : Attempt) : a.outcome h' subject = a.outcome h subject := by
  rw [Attempt.outcome, Attempt.outcome, alike.refusal?]

/-! ## Written forms -/

theorem methodLabel (func : Ref) : h'.methodLabel func = h.methodLabel func := by
  simp only [Heap.methodLabel, alike.attribute?, funext alike.text?]

theorem printFrom (fuel : Nat) (r : Ref) : h'.printFrom fuel r = h.printFrom fuel r := by
  induction fuel generalizing r with
  | zero => rfl
  | succ fuel ih =>
      simp only [Heap.printFrom, alike.shape, alike.className, alike.methodLabel, funext ih]

theorem print (r : Ref) : h'.print r = h.print r := by
  rw [Heap.print, Heap.print, alike.size, alike.printFrom]

theorem printValue (v : Value) : h'.printValue v = h.printValue v := by
  rw [Heap.printValue, Heap.printValue, funext alike.print]

theorem displayValue (v : Value) : h'.displayValue v = h.displayValue v := by
  cases v <;> simp only [Heap.displayValue, alike.shape, alike.print, alike.printValue]

/-! ## Signatures -/

theorem unwrapFrom (stop : Ref → Bool) (fuel : Nat) (r : Ref) :
    h'.unwrapFrom stop fuel r = h.unwrapFrom stop fuel r := by
  induction fuel generalizing r with
  | zero => rfl
  | succ fuel ih => simp only [Heap.unwrapFrom, alike.isClass, alike.wrapped?, ih]

theorem unwrap (stop : Ref → Bool) (r : Ref) : h'.unwrap stop r = h.unwrap stop r := by
  rw [Heap.unwrap, Heap.unwrap, alike.size, alike.unwrapFrom]

theorem classSignature? (r : Ref) (c : ClassInfo) :
    h'.classSignature? r c = h.classSignature? r c := by
  simp only [Heap.classSignature?, alike.shape, alike.lineage]

theorem slotSignature? (read : SignatureReader) (slot : Ref) :
    h'.slotSignature? read slot = h.slotSignature? read slot := by
  simp only [Heap.slotSignature?, alike.shape, alike.className]

theorem isBound (slot : Ref) : h'.isBound slot = h.isBound slot := by
  simp only [Heap.isBound, alike.shape]

theorem boundWrapped? (r : Ref) : h'.boundWrapped? r = h.boundWrapped? r := by
  simp only [Heap.boundWrapped?, alike.isBound, alike.attributes, alike.classOf?,
    alike.classAttribute?]

theorem statedSignature? (r : Ref) : h'.statedSignature? r = h.statedSignature? r := by
  rw [Heap.statedSignature?, Heap.statedSignature?, alike.attribute?]

theorem endsWrapping (r : Ref) : h'.endsWrapping r = h.endsWrapping r := by
  rw [Heap.endsWrapping, Heap.endsWrapping, alike.isMethod, alike.statedSignature?,
    alike.boundWrapped?]

theorem plainSignature (read : SignatureReader) (r : Ref) :
    h'.plainSignature read r = h.plainSignature read r := by
  simp only [Heap.plainSignature, alike.asFunction?, alike.shape, alike.classSignature?,
    alike.classAttribute?, alike.slotSignature?]

theorem signatureOf (read : SignatureReader) (r : Ref) :
    h'.signatureOf read r = h.signatureOf read r := by
  simp only [Heap.signatureOf, alike.shape, alike.statedSignature?, alike.boundWrapped?,
    alike.isNothing, alike.plainSignature, alike.slotSignature?]

theorem signatureFrom (fuel : Nat) (r : Ref) :
    h'.signatureFrom fuel r = h.signatureFrom fuel r := by
  induction fuel generalizing r with
  | zero => rfl
  | succ fuel ih =>
      simp only [Heap.signatureFrom, alike.callable, alike.unwrap, funext alike.endsWrapping,
        alike.signatureOf, funext ih]

theorem signature? (r : Ref) : h'.signature? r = h.signature? r := by
  rw [Heap.signature?, Heap.signature?, alike.size, alike.signatureFrom]

theorem parameterNames? (r : Ref) : h'.parameterNames? r = h.parameterNames? r := by
  rw [Heap.parameterNames?, Heap.parameterNames?, alike.signature?]

/-! ## Routines -/

theorem callSlot (r cls : Ref) : h'.callSlot r cls = h.callSlot r cls := by
  simp only [Heap.callSlot, alike.attributes, alike.classAttribute?]

theorem boundDescriptor (r slot : Ref) (b : BuiltinInfo) :
    h'.boundDescriptor r slot b = h.boundDescriptor r slot b := by
  simp only [Heap.boundDescriptor, alike.className, alike.typeName]

theorem routineFrom (fuel : Nat) (r : Ref) : h'.routineFrom fuel r = h.routineFrom fuel r := by
  induction fuel generalizing r with
  | zero => rfl
  | succ fuel ih =>
      simp only [Heap.routineFrom, alike.shape, alike.callSlot, alike.boundDescriptor,
        alike.printValue, alike.print, ih]

theorem routine (r : Ref) : h'.routine r = h.routine r := by
  rw [Heap.routine, Heap.routine, alike.size, alike.routineFrom]

theorem isMember (r : Routine) : r.isMember h' = r.isMember h := by
  simp only [Routine.isMember, Routine.ownerName, alike.qualname?]

theorem unfixFrom (fuel : Nat) (r : Ref) : h'.unfixFrom fuel r = h.unfixFrom fuel r := by
  induction fuel generalizing r with
  | zero => rfl
  | succ fuel ih => simp only [Heap.unfixFrom, alike.shape, ih]

theorem flavor (r : Ref) : h'.flavor r = h.flavor r := by
  simp only [Heap.flavor, alike.size, alike.attributeHolder, alike.unfixFrom, alike.asFunction?]

/-! ## Texts -/

theorem stubName (r : Ref) : h'.stubName r = h.stubName r := by
  rw [Heap.stubName, Heap.stubName, alike.name?, alike.typeName]

theorem stubSignature (r : Ref) : h'.stubSignature r = h.stubSignature r := by
  rw [Heap.stubSignature, Heap.stubSignature, alike.signature?]

theorem baseNames (c : ClassInfo) : h'.baseNames c = h.baseNames c := by
  rw [Heap.baseNames, Heap.baseNames, funext alike.className]

theorem stubWith (r : Ref) (s : Signature) : h'.stubWith r s = h.stubWith r s := by
  simp only [Heap.stubWith, alike.shape, alike.stubName, alike.flavor, alike.baseNames]

theorem stub (r : Ref) : h'.stub r = h.stub r := by
  simp only [Heap.stub, alike.shape, alike.stubSignature, alike.stubWith]

theorem isolate (r : Ref) (definition : List Char) :
    h'.isolate r definition = h.isolate r definition := by
  simp only [Heap.isolate, alike.name?, alike.parameterNames?]

theorem lookup (subject : Ref) (a : Archive) : a.lookup h' subject = a.lookup h subject := by
  cases a with
  | listed sources => rfl
  | files => simp only [Archive.lookup, alike.unwrap, alike.print]

theorem ofRoutine (a : Archive) (subject : Ref) :
    Normalizer.ofRoutine h' a subject = Normalizer.ofRoutine h a subject := by
  simp only [Normalizer.ofRoutine, alike.lookup, funext (alike.isolate subject), alike.stub]

/-- The text of an object is the same in heaps that read alike. -/
theorem find (n : Normalizer) (r : Ref) : n.find h' r = n.find h r := by
  simp only [Normalizer.find, alike.routine, alike.ofRoutine]

end Readers

end Alike

end Heap

end CallableKinds

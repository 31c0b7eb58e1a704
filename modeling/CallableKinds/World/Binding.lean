import CallableKinds.Heap.Derivation
import CallableKinds.World

/-!
# Fixing arguments

Making callables with fixed arguments, deriving classes of them, copying them, and telling whether
they belong to a class. A callable with fixed arguments is flat: fixing further arguments of it goes
through to the callable behind it, unless it has attributes that would be lost or is called in
another way. What is reported is the target that was given, and the type of the answer says that a
failure changes nothing.
-/

namespace CallableKinds

namespace Heap

/-- Whether the objects of a class report when they are made. -/
def reports (h : Heap) (cls : Ref) : Bool := (h.lineage cls).contains Catalog.trackedPartialClass

/-- Whether the objects of a class of callables with fixed arguments are called as such. A class may
have a `__call__` of its own instead. -/
def callsFixed (h : Heap) (cls : Ref) : Bool :=
  match h.classAttribute? cls "__call__" with
  | none => true
  | some v => v.object? == some Catalog.partialCall

/-- What an object with fixed arguments is made of. -/
def fixing (h : Heap) (cls func : Ref) (args : List Value) (keywords : Keyed String Value) :
    PartialInfo :=
  match h.shape func, (h.object func).dict with
  | .partialOf p, none =>
    if h.callsFixed p.cls then ⟨cls, p.func, p.args ++ args, Keyed.putAll p.keywords keywords⟩
    else ⟨cls, func, args, keywords⟩
  | _, _ => ⟨cls, func, args, keywords⟩

@[simp] theorem cls_fixing (h : Heap) (cls func : Ref) (args : List Value)
    (keywords : Keyed String Value) : (h.fixing cls func args keywords).cls = cls := by
  unfold fixing
  split
  · split <;> rfl
  · rfl

/-- Whether a class is another one or derived from it. -/
def derives (h : Heap) (sub cls : Ref) : Bool := (h.lineage sub).contains cls

/-- What a check against a class comes to. The metaclass of the instrumented class has checks of its
own, and classes derived from the instrumented class inherit them: for the instrumented class itself
they check against the plain one, and else as usual. -/
def classCheck (h : Heap) (cls : Ref) (check : Ref → Bool) : Bool :=
  if h.metaclass? cls = some Catalog.trackedMetaclass then
    if cls = Catalog.trackedPartialClass then check Catalog.partialClass else check cls
  else check cls

/-- Whether a class counts as another one or as derived from it. -/
def isSubclass (h : Heap) (sub cls : Ref) : Bool := h.classCheck cls (h.derives sub)

/-- Whether an object belongs to a class. Its own class is not asked. -/
def isInstance (h : Heap) (r cls : Ref) : Bool :=
  match h.classOf? r with
  | some own => own == cls || h.classCheck cls fun c => own == c || h.derives own c
  | none => cls == Catalog.objectClass

/-- The heap in which an object has the dictionary of another one: the same, or its own copy. -/
def shareDict (h : Heap) (deep : Bool) (r source : Ref) : Heap :=
  match deep, (h.object source).dict with
  | true, some _ =>
    { objects := h.objects.modify r fun o => { o with dict := some h.dicts.length }
      dicts := h.dicts ++ [h.ownAttributes source] }
  | _, dict => { h with objects := h.objects.modify r fun o => { o with dict } }

end Heap

namespace World

/-- The parameter of the instrumented constructor that no keyword can be named like. -/
def constructedClass : String := "cls"

/-- Makes an object of a class of callables with fixed arguments. -/
def bind (w : World) (cls : Ref) (func : Option Ref) (args : List Value)
    (keywords : Keyed String Value) : Except Fault (World × Ref) :=
  if w.heap.reports cls && Keyed.has constructedClass keywords then
    .error (.repeatedArgument "partial.__new__" constructedClass)
  else
    match func with
    | none => .error .bindNothing
    | some target =>
      let info := w.heap.fixing cls target args keywords
      if w.heap.callable info.func then
        let made := w.heap.size
        let w' := w.add (.partialOf info)
        .ok (if w.heap.reports cls then w'.report target made .bound else w', made)
      else .error .bindNotCallable

/-- Derives a class from the class under the usual name of callables with fixed arguments. It has the
metaclass of that class. -/
def derive (w : World) (module name : String) : World × Ref :=
  let metaclass := (w.heap.metaclass? w.partialClass).getD Heap.plainMetaclass
  (w.add (.cls ⟨module, name, name, metaclass, [w.partialClass], false, false, false,
    none, false⟩),
    w.heap.size)

/-- Whether copies of an object are made through the class under the usual name. -/
def copiedAsUsual (w : World) (cls : Ref) : Bool :=
  cls == Catalog.trackedPartialClass || (cls == Catalog.partialClass && w.usual.copying)

/-- The class that copies of an object of some class are made through. -/
def copyingClass (w : World) (cls : Ref) : Ref :=
  if w.copiedAsUsual cls then w.partialClass else cls

/-- Copies a callable with fixed arguments: a new object of the same callable, which then gets the
same arguments and attributes. Any other object stands for its own copy. -/
def copy (w : World) (deep : Bool) (r : Ref) : Except Fault (World × Ref) :=
  match w.heap.shape r with
  | .partialOf p => do
    let usual := w.copiedAsUsual p.cls
    let cls := w.copyingClass p.cls
    let w := if usual then { w with heap := w.heap.touchDict r } else w
    let (w, made) ← w.bind cls (some p.func) [] []
    let h := w.heap.reshape made (.partialOf { p with cls })
    let h := if usual && (h.ownAttributes r).isEmpty then h else h.shareDict deep made r
    return ({ w with heap := h }, made)
  | _ => return (w, r)

end World

end CallableKinds

import CallableKinds.Heap.Attribute

/-!
# Written forms of objects

How an object is written in a message. Addresses are written as zero.
-/

namespace CallableKinds

namespace Heap

/-- The written form of a class. -/
def printClass (c : ClassInfo) : String :=
  "<class '" ++ (if c.module = "builtins" then "" else c.module ++ ".") ++ c.qualname ++ "'>"

/-- What a method is called in its written form. -/
def methodLabel (h : Heap) (func : Ref) : String :=
  (((h.attribute? func "__qualname__").or (h.attribute? func "__name__")).bind h.text?).getD "?"

/-- The written form of a fixed list of names. -/
def printNames : List String → String
  | [name] => "(" ++ quoteString name ++ ",)"
  | names => "(" ++ ", ".intercalate (names.map quoteString) ++ ")"

/-- The written form of a value, from that of an object. -/
def printValueWith (object : Ref → String) : Value → String
  | .datum d => d.print
  | .object r => object r
  | .code _ | .compiled _ => "<code>"
  | .names items => printNames items
  | .defaults _ => "(...)"

/-- The written form of an object, through so many objects inside each other. -/
def printFrom (h : Heap) : Nat → Ref → String
  | 0, _ => "..."
  | fuel + 1, r =>
    let value := printValueWith (printFrom h fuel)
    match h.shape r with
    | .function f => "<function " ++ f.qualname ++ " at 0x0>"
    | .cls c => printClass c
    | .instanceOf c => "<" ++ h.className c ++ " instance>"
    | .method func receiver =>
      "<bound method " ++ h.methodLabel func ++ " of " ++ printFrom h fuel receiver ++ ">"
    | .builtin b => b.printed
    | .datum d => d.print
    | .partialOf p =>
      let name := if p.cls = Catalog.partialClass then "functools.partial" else h.className p.cls
      name ++ "(" ++ ", ".intercalate (printFrom h fuel p.func :: p.args.map value ++
        p.keywords.map fun (key, v) => key ++ "=" ++ value v) ++ ")"

/-- The written form of an object. -/
def print (h : Heap) (r : Ref) : String := h.printFrom (h.size + 1) r

/-- The written form of a value. -/
def printValue (h : Heap) : Value → String := printValueWith h.print

/-- The plain text of a value: a string stands for itself. -/
def displayValue (h : Heap) : Value → String
  | .datum d => d.display
  | .object r =>
    match h.shape r with
    | .datum d => d.display
    | _ => h.print r
  | v => h.printValue v

end Heap

end CallableKinds

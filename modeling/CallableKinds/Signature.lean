/-!
# Signatures

The parameters of a callable: how they are written, what is left of them when the callable is bound
to a receiver, and what is left when some arguments are fixed.
-/

namespace CallableKinds

/-- How a parameter takes its argument. -/
inductive ParamKind where
  | positionalOnly
  | positional
  /-- Takes all further positional arguments. -/
  | variadic
  | keywordOnly
  /-- Takes all further keyword arguments. -/
  | keywords
  deriving Repr, DecidableEq, Inhabited

namespace ParamKind

/-- Whether a parameter takes one argument that may be given by position. -/
def isPositional : ParamKind → Bool
  | positionalOnly | positional => true
  | _ => false

end ParamKind

/-- A parameter; of its default value it only matters whether there is one. -/
structure Param where
  name : String
  kind : ParamKind
  hasDefault : Bool
  deriving Repr, DecidableEq, Inhabited

namespace Param

/-- The written form of a parameter. -/
def print (p : Param) : String :=
  match p.kind with
  | .variadic => "*" ++ p.name
  | .keywords => "**" ++ p.name
  | _ => if p.hasDefault then p.name ++ "=..." else p.name

end Param

/-- The parameters of a callable in order. -/
abbrev Signature := List Param

namespace Signature

/-- The signature of a callable that takes any arguments. -/
def anything : Signature := [⟨"args", .variadic, false⟩, ⟨"kwargs", .keywords, false⟩]

/-- The names of the parameters. -/
def names (s : Signature) : List (List Char) := s.map (·.name.toList)

/-- The names and the kinds of the parameters. -/
def kinds (s : Signature) : List (String × ParamKind) := s.map fun p => (p.name, p.kind)

/-- The number of parameters without a default among `total` positional ones, if `count` default
values are there. The values belong to the last parameters; surplus values are counted off them. -/
def required (total count : Nat) : Nat :=
  if count ≤ total then total - count else total - (count - total)

/-- The parameters with given names and kinds, of which the first `required` positional ones have no
default, and those that are keyword only have one if they are listed. -/
def withDefaults (listed : List String) : (required : Nat) → List (String × ParamKind) → Signature
  | _, [] => []
  | required, (name, kind) :: rest =>
    if kind.isPositional then
      ⟨name, kind, required == 0⟩ :: withDefaults listed (required - 1) rest
    else
      ⟨name, kind, kind == .keywordOnly && listed.contains name⟩ :: withDefaults listed required rest

/-- The written parameters with the marks between them. A slash stands after the parameters that are
positional only, if `slash` says that there are any in front; a star stands before the first that is
keyword only, unless `starred` says that a variadic parameter stands in front. -/
def entries (slash starred : Bool) : Signature → List String
  | [] => if slash then ["/"] else []
  | p :: rest =>
    match p.kind with
    | .positionalOnly => p.print :: entries true starred rest
    | .variadic => (if slash then ["/"] else []) ++ p.print :: entries false true rest
    | .keywordOnly =>
      (if slash then ["/"] else []) ++ (if starred then [] else ["*"]) ++
        p.print :: entries false true rest
    | _ => (if slash then ["/"] else []) ++ p.print :: entries false starred rest

/-- The written parameters. -/
def printParams (s : Signature) : String := ", ".intercalate (entries false false s)

/-- The written form of a signature. -/
def print (s : Signature) : String := "(" ++ s.printParams ++ ")"

/-- The signature of a callable that is bound to a receiver: without the parameter that takes it. A
variadic parameter takes it and stays. -/
def bound : Signature → Option Signature
  | [] => none
  | p :: rest =>
    match p.kind with
    | .positionalOnly | .positional => some rest
    | .variadic => some (p :: rest)
    | .keywordOnly | .keywords => none

/-- The parameters that `count` positional arguments go to and those after them, or `none` if there
are too many arguments or one of the keywords names a parameter that has its argument already. -/
def takePositional (keywords : List String) : (count : Nat) → Signature →
    Option (List String × Signature)
  | 0, rest => some ([], rest)
  | _ + 1, [] => none
  | count + 1, p :: rest =>
    match p.kind with
    | .keywordOnly | .keywords => none
    | .variadic => some ([p.name], rest)
    | .positionalOnly =>
      (takePositional keywords count rest).map fun (taken, left) => (p.name :: taken, left)
    | .positional =>
      if keywords.contains p.name then none
      else (takePositional keywords count rest).map fun (taken, left) => (p.name :: taken, left)

/-- The names of the parameters that `count` positional arguments and the given keywords are for, or
`none` if the callable does not take them. -/
def receivers (s : Signature) (count : Nat) (keywords : List String) : Option (List String) := do
  let (taken, rest) ← takePositional keywords count s
  let named := rest.filter fun p => p.kind != .variadic && p.kind != .keywords &&
    keywords.contains p.name
  if named.any (·.kind == .positionalOnly) then none
  else
    let surplus := keywords.filter fun k => !named.any (·.name == k)
    match rest.find? (·.kind == .keywords) with
    | some p =>
      return taken ++ named.map (·.name) ++ (if surplus.isEmpty then [] else [p.name])
    | none => if surplus.isEmpty then return taken ++ named.map (·.name) else none

/-- What is left of the parameters of which those in `given` have an argument. A parameter that a
keyword was given for keeps the argument as its default; from the first such parameter on that could
also be given by position, all must be given by keyword. -/
def afterFixing (given keywords : List String) (byKeyword : Bool) : Signature → Signature
  | [] => []
  | p :: rest =>
    let isGiven := given.contains p.name
    match p.kind with
    | .positionalOnly =>
      if isGiven then afterFixing given keywords byKeyword rest
      else p :: afterFixing given keywords byKeyword rest
    | .positional =>
      if isGiven && !keywords.contains p.name then afterFixing given keywords byKeyword rest
      else if isGiven || byKeyword then
        { p with kind := .keywordOnly, hasDefault := p.hasDefault || isGiven } ::
          afterFixing given keywords true rest
      else p :: afterFixing given keywords byKeyword rest
    | .variadic =>
      if byKeyword then afterFixing given keywords byKeyword rest
      else p :: afterFixing given keywords byKeyword rest
    | .keywordOnly =>
      { p with hasDefault := p.hasDefault || isGiven } :: afterFixing given keywords byKeyword rest
    | .keywords => p :: afterFixing given keywords byKeyword rest

/-- The signature of a callable some of whose arguments are fixed. -/
def fixed (s : Signature) (count : Nat) (keywords : List String) : Option Signature :=
  (s.receivers count keywords).map fun given => afterFixing given keywords false s

end Signature

end CallableKinds

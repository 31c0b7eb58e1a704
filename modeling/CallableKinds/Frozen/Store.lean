import CallableKinds.Frozen

/-!
# Stores of frozen dictionaries

Named frozen dictionaries. Two names may stand for the very same dictionary, which shows in the
ordinary attributes of a plain dictionary: they belong to the dictionary and not to its items.
-/

namespace CallableKinds

/-- An object that may stand in a frozen dictionary. -/
inductive Token where
  | bool (b : Bool)
  | named (name : String)
  deriving Repr, DecidableEq, Inhabited

namespace Token

/-- The written form of an object. -/
def print : Token → String
  | bool b => if b then "True" else "False"
  | named name => "<" ++ name ++ ">"

end Token

/-- A value: an object or nothing. -/
abbrev FrozenValue := Option Token

/-- A dictionary with its ordinary attributes. -/
structure FrozenObject where
  dict : Frozen String Token
  attributes : Keyed String FrozenValue
  deriving Inhabited

/-- Dictionaries by their names. -/
structure FrozenStore where
  objects : List FrozenObject
  names : Keyed String Nat

/-- What `update` is given in first place. -/
inductive FrozenArgument where
  | pairs (items : List (String × FrozenValue))
  | dict (name : String)
  /-- Something without items, of a type with that name. -/
  | scalar (typeName : String)

/-- A question to a store or a change of it. -/
inductive FrozenStep where
  | make (as : String) (cls : FrozenClass) (items : List (String × FrozenValue))
  | set (on as key : String) (value : FrozenValue)
  | update (on as : String) (args : List FrozenArgument) (keywords : List (String × FrozenValue))
  | items (on : String)
  | print (on : String)
  | get (on key : String)
  | getItem (on key : String)
  | sameItems (on other : String)
  /-- Any attempt to change the dictionary itself. -/
  | mutate (on : String)
  | getAttribute (on key : String)
  | setAttribute (on key : String) (value : FrozenValue)
  | deleteAttribute (on key : String)

/-- The answer to a step. -/
inductive FrozenAnswer where
  /-- A dictionary, and whether it is the very one that was asked, if that can be. -/
  | dict (d : Frozen String Token) (same : Option Bool)
  | text (s : String)
  | value (v : FrozenValue)
  | truth (b : Bool)
  | method (name : String)
  | failed (f : Fault)

namespace FrozenStore

/-- The store without dictionaries. -/
def empty : FrozenStore := ⟨[], []⟩

/-- The identity of the dictionary with a name. -/
def resolve (s : FrozenStore) (name : String) : Nat := (Keyed.find? name s.names).getD 0

/-- The dictionary with a name. -/
def object (s : FrozenStore) (name : String) : FrozenObject :=
  (s.objects[s.resolve name]?).getD default

/-- The store in which a name stands for an existing dictionary. -/
def bind (s : FrozenStore) (name : String) (identity : Nat) : FrozenStore :=
  { s with names := Keyed.put name identity s.names }

/-- The store in which a name stands for a new dictionary. -/
def add (s : FrozenStore) (name : String) (d : Frozen String Token) : FrozenStore :=
  { objects := s.objects ++ [⟨d, []⟩], names := Keyed.put name s.objects.length s.names }

/-- The store in which the ordinary attributes of a dictionary are other ones. -/
def withAttributes (s : FrozenStore) (name : String) (attributes : Keyed String FrozenValue) :
    FrozenStore :=
  { s with objects := s.objects.modify (s.resolve name) fun o => { o with attributes } }

/-- The store and the answer after a change that gave a new dictionary or none. -/
def changed (s : FrozenStore) (on as : String) :
    Option (Frozen String Token) → FrozenStore × FrozenAnswer
  | some d => (s.add as d, .dict d (some false))
  | none => (s.bind as (s.resolve on), .dict (s.object on).dict (some true))

/-- The items that an update takes from its first argument. -/
def argumentItems (s : FrozenStore) : List FrozenArgument →
    Except Fault (List (String × FrozenValue))
  | [] => .ok []
  | .pairs items :: _ => .ok items
  | .dict name :: _ => .ok (s.object name).dict.items
  | .scalar typeName :: _ => .error (.notIterable typeName)

/-- What dictionaries are asked by name: attributes that all of them have as methods. -/
def methods : List String := ["clear", "copy", "fromkeys", "get", "items", "keys", "pop", "popitem",
  "set", "setdefault", "update", "values", "_mutate"]

/-- The value of an attribute: an ordinary one, a method, or an item of a class that shows its items
as attributes. -/
def readAttribute (o : FrozenObject) (key : String) : FrozenAnswer :=
  match Keyed.find? key o.attributes with
  | some value => .value value
  | none =>
    if methods.contains key then .method key
    else if o.dict.cls = .plain then .failed (.noAttributeOf o.dict.cls.name key)
    else
      match Keyed.find? key o.dict.items with
      | some value => .value value
      | none => .failed (.noAttribute key)

/-- The parameter of `update` that no keyword can be named like. -/
def updateReceiver : String := "self"

/-- Carries out a step. -/
def step (s : FrozenStore) : FrozenStep → FrozenStore × FrozenAnswer
  | .make as cls items =>
    let d : Frozen String Token := ⟨cls, Keyed.ofPairs items⟩
    (s.add as d, .dict d none)
  | .set on as key value => s.changed on as ((s.object on).dict.set? key value)
  | .update on as args keywords =>
    if keywords.any (·.1 == updateReceiver) then
      (s, .failed (.repeatedArgument "immutabledict.update" updateReceiver))
    else
      match s.argumentItems args with
      | .error f => (s, .failed f)
      | .ok items =>
        s.changed on as ((s.object on).dict.update? (Keyed.putAll (Keyed.ofPairs items) keywords))
  | .items on => (s, .dict (s.object on).dict none)
  | .print on => (s, .text ((s.object on).dict.print Token.print))
  | .get on key => (s, .value ((s.object on).dict.get key))
  | .getItem on key =>
    match (s.object on).dict.getItem key with
    | .ok value => (s, .value value)
    | .error f => (s, .failed f)
  | .sameItems on other => (s, .truth ((s.object on).dict.sameItems (s.object other).dict))
  | .mutate _ => (s, .failed .frozenItems)
  | .getAttribute on key => (s, readAttribute (s.object on) key)
  | .setAttribute on key value =>
    if (s.object on).dict.cls = .plain then
      (s.withAttributes on (Keyed.put key value (s.object on).attributes), .text "set")
    else (s, .failed .frozenAttribute)
  | .deleteAttribute on key =>
    if (s.object on).dict.cls = .plain then
      if Keyed.has key (s.object on).attributes then
        (s.withAttributes on (Keyed.erase key (s.object on).attributes), .text "deleted")
      else (s, .failed (.noAttributeOf (s.object on).dict.cls.name key))
    else (s, .failed .frozenDeletion)

/-- The answers to a list of steps. -/
def run (s : FrozenStore) : List FrozenStep → List FrozenAnswer
  | [] => []
  | step :: rest => let (t, answer) := s.step step; answer :: t.run rest

end FrozenStore

end CallableKinds

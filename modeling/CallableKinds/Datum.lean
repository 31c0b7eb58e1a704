import CallableKinds.Text.Quoted

/-!
# Plain data

Data without identity: nothing, truth values, integers, texts, lists and string-keyed dictionaries.
Two data are the same to a rule when `Datum.same` says so, where a truth value counts as the integer
it stands for.
-/

namespace CallableKinds

/-- Plain data. A dictionary keeps the order of its keys. -/
inductive Datum where
  | none
  | bool (b : Bool)
  | int (n : Int)
  | str (s : String)
  | list (items : List Datum)
  | dict (entries : List (String × Datum))
  deriving Repr, Inhabited

namespace Datum

/-- The name of the type of a datum. -/
def typeName : Datum → String
  | none => "NoneType"
  | bool _ => "bool"
  | int _ => "int"
  | str _ => "str"
  | list _ => "list"
  | dict _ => "dict"

mutual
/-- The written form of a datum. -/
def print : Datum → String
  | none => "None"
  | bool b => if b then "True" else "False"
  | int n => toString n
  | str s => quoteString s
  | list items => "[" ++ ", ".intercalate (printAll items) ++ "]"
  | dict entries => "\x7b" ++ ", ".intercalate (printEntries entries) ++ "\x7d"

/-- The written forms of the items of a list. -/
def printAll : List Datum → List String
  | [] => []
  | d :: rest => d.print :: printAll rest

/-- The written forms of the entries of a dictionary. -/
def printEntries : List (String × Datum) → List String
  | [] => []
  | (key, d) :: rest => (quoteString key ++ ": " ++ d.print) :: printEntries rest
end

/-- The plain text of a datum: a string stands for itself. -/
def display : Datum → String
  | str s => s
  | d => d.print

/-- Nothing, zero and whatever is empty count as false. -/
def truthy : Datum → Bool
  | none => false
  | bool b => b
  | int n => n != 0
  | str s => s != ""
  | list items => !items.isEmpty
  | dict entries => !entries.isEmpty

/-- The string that a datum is. -/
def text? : Datum → Option String
  | str s => some s
  | _ => Option.none

/-- The integer that a number or a truth value stands for. -/
def number? : Datum → Option Int
  | bool b => some (if b then 1 else 0)
  | int n => some n
  | _ => Option.none

mutual
/-- Equality of data: numbers by value, lists item by item, dictionaries key by key. -/
def same : Datum → Datum → Bool
  | none, none => true
  | str s, str t => s == t
  | bool a, bool b => a == b
  | bool a, int n => (if a then 1 else 0) == n
  | int m, bool b => m == (if b then 1 else 0)
  | int m, int n => m == n
  | list xs, list ys => sameAll xs ys
  | dict xs, dict ys => xs.length == ys.length && sameEntries xs ys
  | _, _ => false

/-- Equality of lists, item by item. -/
def sameAll : List Datum → List Datum → Bool
  | [], [] => true
  | x :: xs, y :: ys => same x y && sameAll xs ys
  | _, _ => false

/-- Whether every entry of the first dictionary has an equal one in the second. -/
def sameEntries : List (String × Datum) → List (String × Datum) → Bool
  | [], _ => true
  | (key, x) :: xs, ys =>
    (match ys.lookup key with
      | some y => same x y
      | Option.none => false) && sameEntries xs ys
end

end Datum

end CallableKinds

import CallableKinds.Fault
import CallableKinds.Keyed

/-!
# Consistency rules

A rule relates the features of a record. Checking it gives a violation, nothing, or a failure when
it reads a feature that the record does not have; a rule reads no more features than it needs to
decide. Truth and equality are different tests: every value is true or false, and only equal values
are the same.
-/

namespace CallableKinds

/-- The value of a feature: plain data or an object, of which only the written form matters. -/
inductive Feature where
  | plain (d : Datum)
  | object (printed : String)
  deriving Inhabited

namespace Feature

/-- Objects count as true. -/
def truthy : Feature → Bool
  | plain d => d.truthy
  | object _ => true

/-- Whether a feature has a value; an object has none that could be written down. -/
def hasValue : Feature → Datum → Bool
  | plain d, value => d.same value
  | object _, _ => false

/-- The written form of a feature. -/
def print : Feature → String
  | plain d => d.print
  | object printed => printed

end Feature

/-- A record of features. -/
abbrev Features := Keyed String Feature

/-- A consistency rule. -/
inductive Rule where
  /-- The two features are not both true. -/
  | nand (a b : String)
  /-- Exactly one of the two features is true. -/
  | xor (a b : String)
  /-- If every feature of the condition has its value, so has every feature of the conclusion. -/
  | implies (condition conclusion : Keyed String Datum)

namespace Rule

/-- The value of a feature that has to be there. -/
def read (features : Features) (key : String) : Except Fault Feature :=
  match Keyed.find? key features with
  | some value => .ok value
  | none => .error (.missingKey (quoteString key))

/-- The message about two features that are both true or both false. -/
def bothMessage (a b : String) (value : Bool) : String :=
  "'" ++ a ++ "' and '" ++ b ++ "' cannot be both " ++ (Datum.bool value).print

/-- Whether every feature of a condition has its value. -/
def holds (features : Features) : Keyed String Datum → Except Fault Bool
  | [] => .ok true
  | (key, value) :: rest => do
    if (← read features key).hasValue value then holds features rest else return false

/-- One message for every feature of a conclusion that does not have its value. -/
def mismatches (features : Features) : Keyed String Datum → Except Fault (List String)
  | [] => .ok []
  | (key, value) :: rest => do
    let actual ← read features key
    let later ← mismatches features rest
    return if actual.hasValue value then later
      else (key ++ " is invalid, expected " ++ value.print ++ ", got " ++ actual.print) :: later

/-- The condition of a rule in words. -/
def describe (condition : Keyed String Datum) : String :=
  ", ".intercalate (condition.map fun (key, value) => "'" ++ key ++ "' = " ++ value.print)

/-- The violation of a rule, if the features violate it. -/
def check (features : Features) : Rule → Except Fault (Option String)
  | nand a b => do
    if (← read features a).truthy then
      if (← read features b).truthy then return some (bothMessage a b true)
    return none
  | xor a b => do
    let x := (← read features a).truthy
    let y := (← read features b).truthy
    return if x = y then some (bothMessage a b x) else none
  | implies condition conclusion => do
    if ← holds features condition then
      let found ← mismatches features conclusion
      if !found.isEmpty then
        return some ("As " ++ describe condition ++ ":\n  " ++ ".\n  ".intercalate found)
    return none

/-- The violations of a list of rules, in the order of the rules. -/
def violations (features : Features) : List Rule → Except Fault (List String)
  | [] => .ok []
  | rule :: rest => do
    let found ← rule.check features
    let later ← violations features rest
    return found.toList ++ later

/-- The rules that every feature record of a callable obeys. -/
def standard : List Rule := [
  nand "is_arrow" "is_constructor",
  nand "is_arrow" "is_member_method",
  nand "is_arrow" "is_class",
  nand "is_async" "is_constructor",
  nand "is_async" "is_class",
  nand "is_member_method" "is_constructor",
  nand "is_member_method" "is_class",
  nand "is_generator" "is_constructor",
  nand "is_generator" "is_class",
  nand "is_proxy" "is_bound",
  nand "is_classic" "is_class",
  implies [("is_class", .bool true)] [("is_constructor", .bool true)],
  implies [("is_classic", .bool true)] [("is_constructor", .bool true)]]

end Rule

end CallableKinds

import CallableKinds.Datum
import CallableKinds.ErrorKind

/-!
# Faults

Why an operation failed. A `Fault` is a cause; `Fault.report` says how it is told: its kind, its
message and the parts that a handler may read. An error of the code under study is carried through
as the report it came with.
-/

namespace CallableKinds

/-- What a handler sees of an error. -/
structure Report where
  kind : ErrorKind
  message : String
  /-- The written forms of what the error was made from. -/
  arguments : List String
  /-- The delimiter that is not matched, of an error about one. -/
  delimiter : Option Datum
  /-- The violations and the diagnostics of an error about a feature record. -/
  contradictions : Option (List Datum × Datum)
  deriving Inhabited

namespace Report

/-- An error that has a message and nothing else. -/
def ofMessage (kind : ErrorKind) (message : String) : Report :=
  ⟨kind, message, [quoteString message], none, none⟩

/-- The written form of an error: its kind and what it was made from. -/
def print (r : Report) : String := r.kind.name ++ "(" ++ ", ".intercalate r.arguments ++ ")"

end Report

/-- Why a source serializer is not trusted. -/
inductive Tampering where
  | missing
  | notCallable
  | failed (error : Report)
  | notText
  | foreignText

namespace Tampering

/-- The observation that gave the tampering away. -/
def observation : Tampering → String
  | missing => "is missing"
  | notCallable => "is not callable"
  | failed error => "cannot serialize itself (" ++ error.print ++ ")"
  | notText => "does not return a string"
  | foreignText => "does not serialize its own definition"

end Tampering

/-- Why an operation failed. -/
inductive Fault where
  | unmatchedDelimiter (delimiter : List Char)
  | noParameterList
  | noLambdaColon
  | pastEnd
  | tampered (how : Tampering)
  | notCallable (printed : String)
  | callableExpected (typeName : String)
  | indeterminate (subject property dump : String)
  | inconsistent (violations : List String) (diagnostics : String)
  | missingKey (printed : String)
  | frozenItems
  | frozenAttribute
  | frozenDeletion
  | noAttribute (name : String)
  | noAttributeOf (typeName name : String)
  | readOnlyAttribute (typeName name : String)
  | unwritableAttribute (typeName name : String)
  | readOnly
  | endlessCall
  | endlessSignature
  | notIterable (typeName : String)
  | noWeakReference (typeName : String)
  | bindNothing
  | bindNotCallable
  | repeatedArgument (callee parameter : String)
  | wrapperLoop (printed : String)
  | invalidCall (message : String)
  | raised (error : Report)

namespace Fault

/-- The message about a delimiter that is not closed, from the written form of the delimiter. -/
def unmatchedMessage (printed : String) : String :=
  "There is an unmatched " ++ printed ++ " in the source text, cannot parse the callable"

/-- The message about a record that breaks the rules. -/
def inconsistentMessage (violations : List String) (diagnostics : String) : String :=
  "Inconsistent features:\n " ++ "\n ".intercalate violations ++
    (if diagnostics = "" then "" else "\n" ++ diagnostics)

/-- How a fault is told. -/
def report : Fault → Report
  | unmatchedDelimiter d =>
    { Report.ofMessage .unmatchedDelimiter (unmatchedMessage (String.ofList (quote d))) with
      delimiter := some (.str (String.ofList d)) }
  | noParameterList => .ofMessage .noParameterList
      "There is no parameter list in the source text, cannot parse the callable"
  | noLambdaColon => .ofMessage .noParameterList
      "There is no parameter list terminator in the lambda, cannot parse the callable"
  | pastEnd => .ofMessage (.standard "IndexError") "string index out of range"
  | tampered how => .ofMessage .tamperedRuntime
      ("The source serialization primitive " ++ how.observation ++
        ". It has definitely been tampered with!")
  | notCallable printed => .ofMessage .invalidArgument (printed ++ " is not callable")
  | callableExpected typeName => .ofMessage .invalidArgument
      ("Expected a callable, got an object of type " ++ typeName)
  | indeterminate subject property dump => .ofMessage .indeterminateProbe
      ("Cannot determine whether " ++ subject ++ " " ++ property ++ "\n" ++ dump)
  | inconsistent violations diagnostics =>
    { Report.ofMessage .logicInconsistency (inconsistentMessage violations diagnostics) with
      contradictions := some (violations.map .str, .str diagnostics) }
  | missingKey printed => ⟨.standard "KeyError", printed, [printed], none, none⟩
  | frozenItems => .ofMessage (.standard "AttributeError")
      "Immutable dict does not support mutation"
  | frozenAttribute => .ofMessage (.standard "AttributeError")
      "Immutable dict does not support mutating attribute setting"
  | frozenDeletion => .ofMessage (.standard "AttributeError")
      "Immutable dict does not support mutating attribute deletion"
  | noAttribute name => .ofMessage (.standard "AttributeError") name
  | noAttributeOf typeName name => .ofMessage (.standard "AttributeError")
      ("'" ++ typeName ++ "' object has no attribute '" ++ name ++ "'")
  | readOnlyAttribute typeName name => .ofMessage (.standard "AttributeError")
      ("'" ++ typeName ++ "' object attribute '" ++ name ++ "' is read-only")
  | unwritableAttribute typeName name => .ofMessage (.standard "AttributeError")
      ("attribute '" ++ name ++ "' of '" ++ typeName ++ "' objects is not writable")
  | endlessCall => .ofMessage (.standard "RecursionError")
      "maximum recursion depth exceeded in comparison"
  | endlessSignature => .ofMessage (.standard "RecursionError")
      "maximum recursion depth exceeded while calling a Python object"
  | readOnly => .ofMessage (.standard "AttributeError") "readonly attribute"
  | notIterable typeName => .ofMessage (.standard "TypeError")
      ("'" ++ typeName ++ "' object is not iterable")
  | noWeakReference typeName => .ofMessage (.standard "TypeError")
      ("cannot create weak reference to '" ++ typeName ++ "' object")
  | bindNothing => .ofMessage (.standard "TypeError")
      "type 'partial' takes at least one argument"
  | bindNotCallable => .ofMessage (.standard "TypeError") "the first argument must be callable"
  | repeatedArgument callee parameter => .ofMessage (.standard "TypeError")
      (callee ++ "() got multiple values for argument '" ++ parameter ++ "'")
  | wrapperLoop printed => .ofMessage (.standard "ValueError")
      ("wrapper loop when unwrapping " ++ printed)
  | invalidCall message => .ofMessage (.standard "TypeError") message
  | raised error => error

/-- The kind of error that a fault is. -/
def kind (f : Fault) : ErrorKind := f.report.kind

/-- The message of a fault. -/
def message (f : Fault) : String := f.report.message

end Fault

namespace Report

/-- The text of an error of a kind without a constructor of its own. -/
def plainMessage (kind : ErrorKind) : List Datum → String
  | [] => ""
  | [d] => if kind.isA "KeyError" then d.print else d.display
  | [number, text] =>
    if kind.isA "OSError" then "[Errno " ++ number.display ++ "] " ++ text.display
    else "(" ++ number.print ++ ", " ++ text.print ++ ")"
  | ds => "(" ++ ", ".intercalate (Datum.printAll ds) ++ ")"

/-- The items that iterating over a datum gives. -/
def items? : Datum → Option (List Datum)
  | .str s => some (s.toList.map fun c => Datum.str c.toString)
  | .list ds => some ds
  | .dict entries => some (entries.map fun e => Datum.str e.1)
  | _ => none

/-- The texts of a list of data, or the place and the type of the first item that is no text. -/
def texts (position : Nat) : List Datum → Except Fault (List String)
  | [] => .ok []
  | .str s :: rest => (s :: ·) <$> texts (position + 1) rest
  | d :: _ => .error (.invalidCall
      ("sequence item " ++ toString position ++ ": expected str instance, " ++ d.typeName ++
        " found"))

/-- The complaint about a call with fewer arguments than the one required. -/
def missingArgument (kind : ErrorKind) (parameter : String) : Fault :=
  .invalidCall (kind.name ++ ".__init__() missing 1 required positional argument: '" ++
    parameter ++ "'")

/-- The complaint about a call with more arguments than the two that are taken. -/
def surplusArguments (kind : ErrorKind) (given : Nat) : Fault :=
  .invalidCall (kind.name ++ ".__init__() takes from 2 to 3 positional arguments but " ++
    toString (given + 1) ++ " were given")

/-- The error about a delimiter, with the usual message if none is given. -/
def makeUnmatched (delimiter message : Datum) : Report :=
  let told : Datum := match message with
    | .none => .str (Fault.unmatchedMessage delimiter.print)
    | d => d
  ⟨.unmatchedDelimiter, told.display, [told.print], some delimiter, none⟩

/-- The error about a feature record, from a list of violations and diagnostics. -/
def makeInconsistent (violations diagnostics : Datum) : Except Fault Report :=
  match items? violations with
  | none => .error (.invalidCall "can only join an iterable")
  | some ds => do
    let message := Fault.inconsistentMessage (← texts 0 ds) ""
    let told ← match diagnostics with
      | .str s => .ok (if s = "" then message else message ++ "\n" ++ s)
      | d =>
        if d.truthy then
          .error (.invalidCall ("can only concatenate str (not \"" ++ d.typeName ++ "\") to str"))
        else .ok message
    return ⟨.logicInconsistency, told, [quoteString told], none, some (ds, diagnostics)⟩

/-- The error of a kind that is made from the given arguments. -/
def make (kind : ErrorKind) (args : List Datum) : Except Fault Report :=
  match kind, args with
  | .unmatchedDelimiter, [] => .error (missingArgument kind "delimiter")
  | .unmatchedDelimiter, [d] => .ok (makeUnmatched d .none)
  | .unmatchedDelimiter, [d, message] => .ok (makeUnmatched d message)
  | .unmatchedDelimiter, _ => .error (surplusArguments kind args.length)
  | .logicInconsistency, [] => .error (missingArgument kind "violations")
  | .logicInconsistency, [violations] => makeInconsistent violations (.str "")
  | .logicInconsistency, [violations, diagnostics] => makeInconsistent violations diagnostics
  | .logicInconsistency, _ => .error (surplusArguments kind args.length)
  | _, _ => .ok ⟨kind, plainMessage kind args, Datum.printAll args, none, none⟩

/-- The error that raising a kind with a message gives. -/
def raise (kind : String) (message : String) : Fault :=
  match make (.ofName kind) [.str message] with
  | .ok error => .raised error
  | .error fault => fault

end Report

end CallableKinds

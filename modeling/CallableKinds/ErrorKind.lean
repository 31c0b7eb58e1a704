/-!
# Kinds of errors

The kinds that the library reports of its own and the standard kinds that they, or errors of the
code under study, belong to. `ErrorKind.ancestors` lists the more general kinds of a kind, nearest
first, so that a handler for a general kind also takes the special ones.
-/

namespace CallableKinds

/-- A kind of error. -/
inductive ErrorKind where
  /-- Any error of the classification. -/
  | feature
  /-- The object handed in is not callable. -/
  | invalidArgument
  /-- The source serializer cannot be trusted. -/
  | tamperedRuntime
  /-- A source text cannot be cut into segments. -/
  | segmentation
  /-- A string literal or a bracket is not closed. -/
  | unmatchedDelimiter
  /-- A source text has no parameter list. -/
  | noParameterList
  /-- A probe ended in an error that it does not recognize. -/
  | indeterminateProbe
  /-- A feature record contradicts itself. -/
  | logicInconsistency
  /-- A kind that every program knows. -/
  | standard (name : String)
  deriving Repr, DecidableEq, Inhabited

namespace ErrorKind

/-- The name that a kind is reported under. -/
def name : ErrorKind → String
  | feature => "FeatureError"
  | invalidArgument => "InvalidArgumentError"
  | tamperedRuntime => "TamperedRuntimeError"
  | segmentation => "SegmentationError"
  | unmatchedDelimiter => "UnmatchedDelimiterError"
  | noParameterList => "NoParameterListError"
  | indeterminateProbe => "IndeterminateProbeError"
  | logicInconsistency => "LogicInconsistencyError"
  | standard name => name

/-- Other names that standard kinds go by. -/
def aliases : List (String × String) := [("IOError", "OSError"), ("EnvironmentError", "OSError")]

/-- The kind with a given name. -/
def ofName (name : String) : ErrorKind :=
  match [feature, invalidArgument, tamperedRuntime, segmentation, unmatchedDelimiter,
      noParameterList, indeterminateProbe, logicInconsistency].find? (·.name == name) with
  | some kind => kind
  | none => standard ((aliases.lookup name).getD name)

/-- The standard kinds that stand directly below a kind other than the most general one. -/
def standardParents : List (String × String) := [
  ("FloatingPointError", "ArithmeticError"), ("OverflowError", "ArithmeticError"),
  ("ZeroDivisionError", "ArithmeticError"), ("ModuleNotFoundError", "ImportError"),
  ("IndexError", "LookupError"), ("KeyError", "LookupError"), ("UnboundLocalError", "NameError"),
  ("BlockingIOError", "OSError"), ("ChildProcessError", "OSError"), ("ConnectionError", "OSError"),
  ("FileExistsError", "OSError"), ("FileNotFoundError", "OSError"), ("InterruptedError", "OSError"),
  ("IsADirectoryError", "OSError"), ("NotADirectoryError", "OSError"),
  ("PermissionError", "OSError"), ("ProcessLookupError", "OSError"), ("TimeoutError", "OSError"),
  ("NotImplementedError", "RuntimeError"), ("RecursionError", "RuntimeError"),
  ("UnicodeError", "ValueError")]

/-- The standard kinds that stand two below such a kind, with both kinds above them. -/
def standardGrandparents : List (String × List String) := [
  ("BrokenPipeError", ["ConnectionError", "OSError"]),
  ("ConnectionAbortedError", ["ConnectionError", "OSError"]),
  ("ConnectionRefusedError", ["ConnectionError", "OSError"]),
  ("ConnectionResetError", ["ConnectionError", "OSError"]),
  ("IndentationError", ["SyntaxError"]), ("TabError", ["IndentationError", "SyntaxError"]),
  ("UnicodeDecodeError", ["UnicodeError", "ValueError"]),
  ("UnicodeEncodeError", ["UnicodeError", "ValueError"])]

/-- The kinds above a standard kind, nearest first. -/
def standardAncestors (name : String) : List String :=
  if name == "Exception" then []
  else
    match standardGrandparents.lookup name with
    | some above => above ++ ["Exception"]
    | none =>
      match standardParents.lookup name with
      | some parent => [parent, "Exception"]
      | none => ["Exception"]

/-- The names of the more general kinds, nearest first. -/
def ancestors : ErrorKind → List String
  | feature => ["Exception"]
  | invalidArgument => ["FeatureError", "TypeError", "Exception"]
  | tamperedRuntime => ["FeatureError", "RuntimeError", "Exception"]
  | segmentation => ["FeatureError", "ValueError", "Exception"]
  | unmatchedDelimiter => ["SegmentationError", "FeatureError", "ValueError", "Exception"]
  | noParameterList => ["SegmentationError", "FeatureError", "ValueError", "Exception"]
  | indeterminateProbe => ["FeatureError", "RuntimeError", "Exception"]
  | logicInconsistency => ["FeatureError", "AssertionError", "Exception"]
  | standard name => standardAncestors name

/-- Whether a handler for errors named `name` takes errors of this kind. -/
def isA (kind : ErrorKind) (name : String) : Bool :=
  kind.name == name || kind.ancestors.contains name

end ErrorKind

end CallableKinds

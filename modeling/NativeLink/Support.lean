import NativeLink.Operation

/-!
# Reports on native support

Which of the three routines could be bound.  An embedder asks once, at startup,
and switches off what depends on a missing routine.
-/

namespace NativeLink

/-- What came of binding each routine. -/
structure Support where
  nullPointer : Except ResolveError Unit
  dynamicCast : Except ResolveError Unit
  freeException : Except ResolveError Unit

namespace Support

/-- What came of binding a routine. -/
def result (s : Support) : Operation → Except ResolveError Unit
  | .nullPointer => s.nullPointer
  | .dynamicCast => s.dynamicCast
  | .freeException => s.freeException

/-- Whether a routine could be bound. -/
def has (s : Support) (o : Operation) : Bool := (s.result o).isOk

/-- The routines that could not be bound, with the reason. -/
def unavailable (s : Support) : List (Operation × ResolveError) :=
  [Operation.nullPointer, .dynamicCast, .freeException].filterMap fun o =>
    match s.result o with
    | .ok _ => none
    | .error error => some (o, error)

/-- Whether every routine could be bound. -/
def isComplete (s : Support) : Bool := s.unavailable.isEmpty

/-- The warnings that go with a report. -/
def warnings (s : Support) : List Event :=
  s.unavailable.map fun (o, error) => .unavailable o.feature error

def inspectResult : Except ResolveError Unit → Inspect
  | .ok _ => .tuple "Ok" [.word "()"]
  | .error error => .tuple "Err" [error.inspect]

def inspect (s : Support) : Inspect :=
  .record "AbiSupport"
    [("null_pointer", inspectResult s.nullPointer), ("dynamic_cast", inspectResult s.dynamicCast),
      ("free_exception", inspectResult s.freeException)] false

end Support

end NativeLink

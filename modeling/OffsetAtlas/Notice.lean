/-
OffsetAtlas.Notice — what the library reports while it works.

Notices never change an answer; they are kept in the order in which they are made.
-/

namespace OffsetAtlas

/-- How much a notice matters, the gravest first. -/
inductive Severity where
  | error
  | warning
  | info
  | debug
  deriving DecidableEq, Repr

/-- The rank of a severity, the gravest being lowest. -/
def Severity.rank : Severity → Nat
  | .error => 0
  | .warning => 1
  | .info => 2
  | .debug => 3

/-- A line for the log. -/
structure Notice where
  severity : Severity
  text : String
  deriving DecidableEq, Repr

namespace Notice

/-- A notice about a denied request. -/
def error (text : String) : Notice := ⟨.error, text⟩

/-- A notice about doubtful input. -/
def warning (text : String) : Notice := ⟨.warning, text⟩

/-- A notice about a result. -/
def info (text : String) : Notice := ⟨.info, text⟩

/-- A notice about a step on the way. -/
def debug (text : String) : Notice := ⟨.debug, text⟩

end Notice

end OffsetAtlas

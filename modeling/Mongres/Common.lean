/-!
# Errors that cross crate boundaries
-/

namespace Mongres

/-- A stable classification of the errors a client can see. -/
inductive ErrorKind where
  | invalidSyntax
  | featureNotSupported
  | invalidInput
  | ambiguousWrite
  | database
  | dependency
  deriving DecidableEq, Repr

/-- The PostgreSQL code of an error at the protocol boundary. -/
def ErrorKind.sqlState : ErrorKind → String
  | invalidSyntax => "42601"
  | featureNotSupported => "0A000"
  | invalidInput => "22023"
  | ambiguousWrite => "22000"
  | database => "XX000"
  | dependency => "08006"

structure ProxyError where
  kind : ErrorKind
  message : String
  deriving DecidableEq, Repr

abbrev Result (α : Type) := Except ProxyError α

def invalidInput (message : String) : ProxyError := ⟨.invalidInput, message⟩

def unsupportedFeature (feature : String) : ProxyError :=
  ⟨.featureNotSupported, s!"SQL feature is not supported: {feature}"⟩

end Mongres

import CommandGrammar.Parse

/-! Equality of two parses under one grammar, part by part. Floats are compared as numbers, so a
parse that holds a NaN differs from itself. -/
namespace CommandGrammar

def Verdict.equal : Verdict → Verdict → Bool
  | accepted a byDefault, accepted b otherwise => a.equal b && byDefault == otherwise
  | refused a, refused b => a == b
  | _, _ => false

def Resolved.equal (a b : Resolved) : Bool :=
  a.kind == b.kind && a.symbol.id == b.symbol.id && a.token == b.token &&
    a.parent == b.parent && a.children == b.children && a.tokens == b.tokens &&
    a.implicit == b.implicit && a.verdict.equal b.verdict

def Resolved.equalAll : List Resolved → List Resolved → Bool
  | [], [] => true
  | a :: as, b :: bs => a.equal b && equalAll as bs
  | _, _ => false

/-- Everything else in a parse follows from the parts compared here. -/
def Parse.equal (a b : Parse) : Bool :=
  a.args == b.args && a.tokens == b.tokens && Resolved.equalAll a.occurrences b.occurrences &&
    a.command == b.command && a.unmatched == b.unmatched

end CommandGrammar

import CommandGrammar.Symbol

/-! The outline of a grammar: one symbol a line, indented under its command. -/
namespace CommandGrammar

namespace Symbol

/-- Aliases, values, visibility and description of a symbol. -/
def summary (symbol : Symbol) : String :=
  let type := (symbol.argument.type.map ValueType.name).getD "custom"
  let values := if symbol.arity.takesValues then s!" <{type}> [{symbol.arity.text}]" else ""
  let hidden := if symbol.hidden then " (hidden)" else ""
  let description := if symbol.description.isEmpty then "" else s!"  {symbol.description}"
  ", ".intercalate symbol.aliases ++ values ++ hidden ++ description

mutual

def outlineFrom (depth : Nat) : Symbol → String
  | symbol@{ children, .. } =>
    "".pushn ' ' (2 * depth) ++ symbol.summary ++ "\n" ++ outlineAll (depth + 1) children

def outlineAll (depth : Nat) : List Symbol → String
  | [] => ""
  | symbol :: rest => symbol.outlineFrom depth ++ outlineAll depth rest

end

def outline (root : Symbol) : String := root.outlineFrom 0

end Symbol
end CommandGrammar

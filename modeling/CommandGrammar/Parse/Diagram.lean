import CommandGrammar.Parse

/-! A parse drawn as nested brackets: `!` marks an occurrence with an error, `*` an implicit one,
and values that nothing took stand behind the brackets. -/
namespace CommandGrammar

namespace Resolved

/-- The values in angle brackets; an implicit occurrence shows its default. -/
def sketchValues (resolved : Resolved) : List String :=
  let shown :=
    if resolved.implicit then resolved.verdict.value?.toList.map Value.text else resolved.texts
  shown.map fun text => s!" <{text}>"

end Resolved

namespace Parse

/-- An occurrence with all below it. Occurrences are nested less deeply than `depth`. -/
def sketch (parse : Parse) : Nat → Nat × Resolved → String
  | 0, _ => ""
  | depth + 1, (i, resolved) =>
    let flag := if (parse.errorsOf i).isEmpty then "" else "!"
    let star := if resolved.implicit then "*" else ""
    let inner := (parse.children i).map fun child => " " ++ parse.sketch depth child
    s!"{flag}{star}[ {resolved.token.text}{String.join resolved.sketchValues}{String.join inner} ]"

def diagram (parse : Parse) : String :=
  let roots := parse.indexed.take 1
  let leftover := parse.unmatched.map fun token => " " ++ token.text
  String.join (roots.map (parse.sketch parse.occurrences.length)) ++
    if parse.unmatched.isEmpty then "" else "   ???-->" ++ String.join leftover

end Parse
end CommandGrammar

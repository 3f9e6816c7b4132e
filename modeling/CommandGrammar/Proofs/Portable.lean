import CommandGrammar.Proofs.Acceptance
import CommandGrammar.Proofs.Keyed
import CommandGrammar.Proofs.Stored

/-! What files keep of a grammar. Nothing that is computed has a place in a file: converters,
validators and suggestion sources are left out, as is an argument that takes no values and has no
type. Writing a grammar without them changes nothing but its arguments. -/
namespace CommandGrammar

/-- Bounds that leave no room for a value. -/
theorem Arity.eq_zero {arity : Arity} (ordered : arity.min ≤ arity.max)
    (closed : arity.max = 0) : arity = .zero := by
  obtain ⟨min, max⟩ := arity
  dsimp only at ordered closed
  rw [closed, Nat.le_zero] at ordered
  rw [closed, ordered]
  rfl

theorem ArgumentDraft.nodup_settle (draft : ArgumentDraft) (forCommand : Bool) :
    (draft.settle forCommand).allowed.Nodup :=
  nodup_eraseDups draft.allowed

namespace Argument
variable {argument : Argument}

/-- Whether a file leaves the argument out: it takes no values and has no type. -/
def isElided (argument : Argument) : Bool :=
  !argument.arity.takesValues && argument.type.isNone

/-- What a file keeps of an argument. -/
def portable (argument : Argument) : Argument :=
  if argument.isElided then { arity := argument.arity }
  else { argument with converter := none, validators := [], sources := [] }

/-- The draft that is read from the file of an argument. -/
def redraft (argument : Argument) : ArgumentDraft :=
  if argument.isElided then {}
  else
    { argument with
      arity := some argument.arity, converter := none, validators := [], sources := [] }

theorem portable_of_elided (elided : argument.isElided = true) :
    argument.portable = { arity := argument.arity } :=
  if_pos elided

theorem portable_of_kept (kept : argument.isElided = false) :
    argument.portable = { argument with converter := none, validators := [], sources := [] } :=
  if_neg (Bool.eq_false_iff.mp kept)

theorem arity_portable (argument : Argument) : argument.portable.arity = argument.arity := by
  unfold portable
  split <;> rfl

theorem max_of_elided (elided : argument.isElided = true) :
    argument.arity.max = 0 ∧ argument.type = none := by
  simpa [isElided, Arity.takesValues] using elided

/-- Once it is settled, the draft that is read says all that the file has kept. -/
theorem settle_redraft (ordered : argument.arity.min ≤ argument.arity.max)
    (distinct : argument.allowed.Nodup) (forCommand : Bool) :
    argument.redraft.settle forCommand = argument.portable := by
  cases elided : argument.isElided with
  | true =>
    have arity := Arity.eq_zero ordered (max_of_elided elided).1
    rw [redraft, elided, portable_of_elided elided, arity]
    rfl
  | false =>
    rw [redraft, elided, portable_of_kept elided]
    simp only [ArgumentDraft.settle, Bool.false_eq_true, if_false, eraseDups_of_nodup distinct]
    rfl

end Argument

namespace ArgumentEntry
variable {argument : Argument}

theorem ofArgument_of_elided (elided : argument.isElided = true) : ofArgument? argument = none :=
  if_pos elided

theorem ofArgument_portable (argument : Argument) :
    ofArgument? argument.portable = ofArgument? argument := by
  cases elided : argument.isElided with
  | false =>
    rw [Argument.portable_of_kept elided]
    rfl
  | true =>
    have closed := (Argument.max_of_elided elided).1
    rw [ofArgument_of_elided elided, Argument.portable_of_elided elided]
    exact ofArgument_of_elided (by simp [Argument.isElided, Arity.takesValues, closed])

theorem declaredType_of_name {entry : ArgumentEntry} {type : Option ValueType}
    (named : entry.type = type.map ValueType.name) : entry.declaredType = .ok type := by
  rw [declaredType, named]
  cases type with
  | none => rfl
  | some type => simp only [Option.map_some, ValueType.parse_name]

theorem defaultValue_of_stored {entry : ArgumentEntry} {type : Option ValueType}
    {default : Option Value} (given : entry.default = default.bind Value.toJson?)
    (stored : ∀ value, default = some value → Value.Stored type value) :
    entry.defaultValue type = .ok default := by
  rw [defaultValue, given]
  cases default with
  | none => rfl
  | some value =>
    obtain ⟨json, writes, reads⟩ := stored value rfl
    rw [Option.bind_some, writes]
    simp only [reads]
    rfl

/-- Type, arity and default of an argument are read back from its file. -/
theorem draftOf_ofArgument
    (stored : ∀ value, argument.default = some value → Value.Stored argument.type value) :
    draftOf (ofArgument? argument) = .ok argument.redraft := by
  cases elided : argument.isElided with
  | true =>
    rw [ofArgument_of_elided elided, Argument.redraft, elided]
    rfl
  | false =>
    have kept : ofArgument? argument = some _ := if_neg (Bool.eq_false_iff.mp elided)
    rw [kept, Argument.redraft, elided, draftOf, draft]
    refine bind_eq_ok_iff.mpr ⟨argument.type, declaredType_of_name rfl, ?_⟩
    refine bind_eq_ok_iff.mpr ⟨argument.default, defaultValue_of_stored rfl stored, ?_⟩
    simp only [Option.map_some, ArityEntry.toArity_ofArity]
    rfl

end ArgumentEntry

namespace Symbol

mutual

/-- A grammar with what files keep of its arguments. -/
def portable : Symbol → Symbol
  | symbol@{ children, .. } =>
    { symbol with argument := symbol.argument.portable, children := portableAll children }

def portableAll : List Symbol → List Symbol
  | [] => []
  | symbol :: rest => symbol.portable :: portableAll rest

end

theorem portable_eq (symbol : Symbol) :
    symbol.portable = { symbol with
      argument := symbol.argument.portable, children := portableAll symbol.children } := by
  cases symbol
  rfl

theorem portableAll_eq (symbols : List Symbol) : portableAll symbols = symbols.map portable := by
  induction symbols with
  | nil => rfl
  | cons symbol rest ih => rw [portableAll, ih, List.map_cons]

theorem isOption_portable (symbol : Symbol) : symbol.portable.isOption = symbol.isOption := by
  rw [portable_eq]
  rfl

theorem isCommand_portable (symbol : Symbol) : symbol.portable.isCommand = symbol.isCommand := by
  rw [portable_eq]
  rfl

theorem preorder_portable (root : Symbol) :
    root.portable.preorder = root.preorder.map portable := by
  refine Symbol.rec
    (motive_1 := fun symbol => symbol.portable.preorder = symbol.preorder.map portable)
    (motive_2 := fun symbols =>
      preorderAll (portableAll symbols) = (preorderAll symbols).map portable)
    ?_ ?_ ?_ root
  · intro id kind aliases name description hidden argument children below
    rw [portable_eq, preorder_eq, preorder_eq, List.map_cons, portable_eq]
    exact congrArg _ below
  · rfl
  · intro first rest tree siblings
    rw [portableAll, preorderAll, preorderAll, List.map_append, tree, siblings]

theorem parentOf_portable (root : Symbol) (id : Nat) :
    root.portable.parentOf? id = (root.parentOf? id).map portable := by
  rw [parentOf?, preorder_portable, List.find?_map, parentOf?]
  congr 2
  funext symbol
  rw [Function.comp_apply, portable_eq, portableAll_eq]
  simp [Function.comp_def, portable_eq]

end Symbol

namespace OptionEntry

theorem ofSymbol_portable (option : Symbol) : ofSymbol option.portable = ofSymbol option := by
  rw [Symbol.portable_eq]
  simp only [ofSymbol, ArgumentEntry.ofArgument_portable]

end OptionEntry

namespace CommandEntry

theorem ofSymbol_eq (symbol : Symbol) :
    ofSymbol symbol =
      { name := symbol.aliases.headD ""
        aliases := symbol.aliases.tail
        description := symbol.description
        hidden := symbol.hidden
        subcommandRequired := some symbol.subcommandRequired
        strict := some symbol.isStrict
        argument := ArgumentEntry.ofArgument? symbol.argument
        options := (symbol.children.filter (·.isOption)).map .ofSymbol
        commands := ofSymbols symbol.children } := by
  cases symbol
  rfl

theorem ofSymbol_portable (root : Symbol) : ofSymbol root.portable = ofSymbol root := by
  refine Symbol.rec
    (motive_1 := fun symbol => ofSymbol symbol.portable = ofSymbol symbol)
    (motive_2 := fun symbols => ofSymbols (Symbol.portableAll symbols) = ofSymbols symbols)
    ?_ ?_ ?_ root
  · intro id kind aliases name description hidden argument children below
    rw [Symbol.portableAll_eq] at below
    rw [Symbol.portable_eq, ofSymbol_eq, ofSymbol_eq]
    simp only [ArgumentEntry.ofArgument_portable, below, Symbol.portableAll_eq, List.filter_map,
      List.map_map, Function.comp_def, Symbol.isOption_portable, OptionEntry.ofSymbol_portable]
    rfl
  · rfl
  · intro first rest tree siblings
    rw [Symbol.portableAll, ofSymbols, ofSymbols, Symbol.isCommand_portable, tree, siblings]

end CommandEntry

namespace Heading
variable {heading : Heading}

/-- The heading that is read from the file of its symbol. -/
def rewritten (heading : Heading) (forCommand : Bool) : Heading where
  aliases := heading.aliases
  name := if heading.givenName = Alias.defaultName heading.aliases then none
    else some heading.givenName
  description := heading.description
  hidden := heading.hidden
  argument := (heading.argument.settle forCommand).redraft

theorem givenName_rewritten (heading : Heading) (forCommand : Bool) :
    (heading.rewritten forCommand).givenName = heading.givenName := by
  rw [givenName, rewritten]
  dsimp only
  split
  · rename_i plain
    exact plain.symm
  · rfl

theorem draw_rewritten {kind : SymbolKind} (sound : heading.Sound (kind ≠ .option))
    (number : Nat) :
    (heading.rewritten (kind ≠ .option)).draw number kind =
      { heading.draw number kind with
        argument := (heading.draw number kind).argument.portable } := by
  rw [draw, givenName_rewritten]
  simp only [rewritten, draw]
  rw [Argument.settle_redraft sound.arity (ArgumentDraft.nodup_settle _ _)]

theorem Sound.rewritten {forCommand : Bool} (sound : heading.Sound forCommand) :
    (heading.rewritten forCommand).Sound forCommand where
  named := sound.named
  aliases := sound.aliases
  apart := sound.apart
  name := by
    intro name given
    rw [Heading.rewritten] at given
    dsimp only at given
    split at given
    · contradiction
    · rename_i own
      cases given
      cases explicit : heading.name with
      | none =>
        rw [givenName, explicit] at own
        exact absurd rfl own
      | some name =>
        rw [givenName, explicit]
        exact sound.name name explicit
  arity := by
    have arity : (heading.rewritten forCommand).argument.effectiveArity forCommand =
        heading.argument.effectiveArity forCommand :=
      (congrArg Argument.arity (Argument.settle_redraft sound.arity
        (ArgumentDraft.nodup_settle _ _) forCommand)).trans (Argument.arity_portable _)
    rw [arity]
    exact sound.arity

end Heading

namespace Declaration

mutual

/-- The declaration that is read from the file of its symbols. -/
def rewritten : Declaration → Declaration
  | option heading => .option (heading.rewritten false)
  | command heading subcommandRequired strict children =>
    .command (heading.rewritten true) (some (subcommandRequired.getD (children.any isCommand)))
      strict (rewrittenAll children)

def rewrittenAll : List Declaration → List Declaration
  | [] => []
  | declaration :: rest => declaration.rewritten :: rewrittenAll rest

end

theorem rewrittenAll_eq (declarations : List Declaration) :
    rewrittenAll declarations = declarations.map rewritten := by
  induction declarations with
  | nil => rfl
  | cons declaration rest ih => rw [rewrittenAll, ih, List.map_cons]

theorem children_rewritten (declaration : Declaration) :
    declaration.rewritten.children = declaration.children.map rewritten := by
  cases declaration with
  | option => rfl
  | command => exact rewrittenAll_eq _

theorem bareAliases_rewritten (declaration : Declaration) :
    declaration.rewritten.bareAliases = declaration.bareAliases := by
  cases declaration <;> rfl

mutual

theorem preorder_rewritten (declaration : Declaration) :
    declaration.rewritten.preorder = declaration.preorder.map rewritten := by
  rw [preorder_eq, preorder_eq, List.map_cons]
  congr 1
  cases declaration with
  | option => rfl
  | command heading subcommandRequired strict children => exact preorderAll_rewritten children

theorem preorderAll_rewritten (declarations : List Declaration) :
    preorderAll (rewrittenAll declarations) = (preorderAll declarations).map rewritten := by
  cases declarations with
  | nil => rfl
  | cons declaration rest =>
    rw [rewrittenAll, preorderAll, preorderAll, List.map_append, preorder_rewritten declaration,
      preorderAll_rewritten rest]

end

mutual

theorem size_rewritten (declaration : Declaration) :
    declaration.rewritten.size = declaration.size := by
  cases declaration with
  | option => rfl
  | command heading subcommandRequired strict children =>
    rw [rewritten, size, size, sizeAll_rewritten children]

theorem sizeAll_rewritten (declarations : List Declaration) :
    sizeAll (rewrittenAll declarations) = sizeAll declarations := by
  cases declarations with
  | nil => rfl
  | cons declaration rest =>
    rw [rewrittenAll, sizeAll, sizeAll, size_rewritten declaration, sizeAll_rewritten rest]

end

mutual

theorem draw_rewritten (declaration : Declaration) (number : Nat)
    (sound : ∀ node ∈ declaration.preorder, node.Sound) :
    declaration.rewritten.draw number = (declaration.draw number).portable := by
  have here := (sound declaration (preorder_eq declaration ▸ List.mem_cons_self)).heading
  cases declaration with
  | option heading =>
    rw [Symbol.portable_eq]
    exact @Heading.draw_rewritten heading .option here number
  | command heading subcommandRequired strict children =>
    have below := drawAll_rewritten children (number + 1) fun node member =>
      sound node (List.mem_cons_of_mem _ member)
    have head := @Heading.draw_rewritten heading
      (.command (subcommandRequired.getD (children.any isCommand)) strict) here number
    rw [Symbol.portable_eq, draw_eq, draw_eq, rewritten]
    simp only [Declaration.heading, kind, Declaration.children, Option.getD_some, below]
    exact congrArg (fun symbol : Symbol =>
      { symbol with children := Symbol.portableAll (drawAll (number + 1) children) }) head

theorem drawAll_rewritten (declarations : List Declaration) (number : Nat)
    (sound : ∀ node ∈ preorderAll declarations, node.Sound) :
    drawAll number (rewrittenAll declarations) =
      Symbol.portableAll (drawAll number declarations) := by
  cases declarations with
  | nil => rfl
  | cons declaration rest =>
    obtain ⟨first, others⟩ := List.forall_mem_append.mp sound
    rw [rewrittenAll, drawAll, drawAll, Symbol.portableAll, draw_rewritten declaration number first,
      size_rewritten, drawAll_rewritten rest _ others]

end

theorem Sound.rewritten {declaration : Declaration} (sound : declaration.Sound) :
    declaration.rewritten.Sound where
  heading := by
    cases declaration <;> exact sound.heading.rewritten
  apart := by
    rw [children_rewritten, List.pairwise_map]
    exact sound.apart.imp fun apart => by rwa [bareAliases_rewritten, bareAliases_rewritten]

theorem sound_rewritten {declaration : Declaration}
    (sound : ∀ node ∈ declaration.preorder, node.Sound) :
    ∀ node ∈ declaration.rewritten.preorder, node.Sound := by
  rw [preorder_rewritten, List.forall_mem_map]
  exact fun node member => (sound node member).rewritten

end Declaration

end CommandGrammar

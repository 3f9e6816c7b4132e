import CommandGrammar.Occurrence

/-! What becomes of the values of an occurrence. Checks run in a fixed order and the first that
fails decides: enough values, not too many, allowed ones, convertible ones, valid ones. -/
namespace CommandGrammar

/-- Why the values of an occurrence are refused. -/
inductive Fault where
  | missing
  | tooMany (found : Nat)
  | disallowed (text : String)
  | unconvertible (message : String)
  | invalid (message : String)
deriving DecidableEq

namespace Fault

/-- Commands are quoted by name, options by their longest alias. -/
def missingMessage (symbol : Symbol) : String :=
  if symbol.isCommand then s!"Required argument missing for command: {symbol.name}"
  else s!"Required argument missing for option: {symbol.display}"

def tooManyMessage (symbol : Symbol) (found : Nat) : String :=
  let subject :=
    if symbol.isCommand then s!"Command '{symbol.name}'" else s!"Option '{symbol.display}'"
  if symbol.arity.max = 1 then
    s!"{subject} expects a single argument but {found} were provided."
  else s!"{subject} expects no more than {symbol.arity.max} arguments, but {found} were provided."

def message (symbol : Symbol) : Fault → String
  | missing | disallowed _ => missingMessage symbol
  | tooMany found => tooManyMessage symbol found
  | unconvertible message | invalid message => message

/-- An option that needs no value gives one back that it cannot convert. -/
def isRetryable (symbol : Symbol) : Fault → Bool
  | unconvertible _ => symbol.isOption && symbol.arity.min == 0
  | _ => false

end Fault

namespace Symbol

def disallowed? (symbol : Symbol) (texts : List String) : Option Fault :=
  (texts.find? fun text => !symbol.argument.allows text).map .disallowed

/-- What speaks against these values while an option may still take more. -/
def objection? (symbol : Symbol) (texts : List String) : Option Fault :=
  if symbol.arity.max < texts.length then some (.tooMany texts.length)
  else
    match symbol.disallowed? texts with
    | some fault => some fault
    | none =>
      match symbol.argument.convert texts with
      | .ok _ => none
      | .error message => some (.unconvertible message)

/-- Whether an option leaves the last of these values to its command. -/
def declines (symbol : Symbol) (texts : List String) : Bool :=
  match symbol.objection? texts with
  | some fault => fault.isRetryable symbol
  | none => false

end Symbol

/-- What became of the values of an occurrence. -/
inductive Outcome where
  | success (value : Value)
  | missing
  | tooMany
  | unconvertible (message : String)
  /-- Some value is not allowed, or a validator has complained. -/
  | unparsed

namespace Outcome

def isSuccess : Outcome → Bool
  | success _ => true
  | missing | tooMany | unconvertible _ | unparsed => false

def ofFault : Fault → Outcome
  | .missing => missing
  | .tooMany _ => tooMany
  | .unconvertible message => unconvertible message
  | .disallowed _ | .invalid _ => unparsed

end Outcome

/-- The value of an occurrence, and whether it is the default; or why there is none. -/
inductive Verdict where
  | accepted (value : Value) (byDefault : Bool)
  | refused (fault : Fault)

namespace Verdict

def value? : Verdict → Option Value
  | accepted value _ => some value
  | refused _ => none

def fault? : Verdict → Option Fault
  | accepted .. => none
  | refused fault => some fault

def outcome : Verdict → Outcome
  | accepted value _ => .success value
  | refused fault => .ofFault fault

def isAccepted (verdict : Verdict) : Bool := verdict.value?.isSome

def isDefault : Verdict → Bool
  | accepted _ byDefault => byDefault
  | refused _ => false

/-- The first message of a validator that is not blank. -/
def complaint? (files : Files) (view : View) (validators : List Validator) : Option String :=
  (validators.filterMap (Validator.check files view)).find? fun message => !Text.allBlank message

/-- The default if there is one, or else what is given in its place. -/
def defaultOr (argument : Argument) (otherwise : Verdict) : Verdict :=
  match argument.default with
  | some value => accepted value true
  | none => otherwise

/-- The verdict on values that are converted and validated. -/
def ofConversion (files : Files) (all : List Glimpse) (occurrence : Occurrence) : Verdict :=
  let argument := occurrence.symbol.argument
  match argument.convert occurrence.texts with
  | .error message => refused (.unconvertible message)
  | .ok value =>
    match complaint? files ⟨occurrence.glimpse, value, all⟩ argument.validators with
    | some message => refused (.invalid message)
    | none => accepted value false

/-- The verdict on the values that an occurrence was given. A flag needs none to be true, and a
command falls back to its default even if it requires values. -/
def ofValues (files : Files) (all : List Glimpse) (occurrence : Occurrence) : Verdict :=
  let symbol := occurrence.symbol
  let texts := occurrence.texts
  if symbol.isOption && texts.isEmpty && symbol.argument.isFlag then accepted (.bool true) false
  else if texts.length < symbol.arity.min then
    if texts.isEmpty && symbol.isCommand then defaultOr symbol.argument (refused .missing)
    else refused .missing
  else if symbol.arity.max < texts.length then refused (.tooMany texts.length)
  else
    match symbol.disallowed? texts with
    | some fault => refused fault
    | none =>
      let converted := ofConversion files all occurrence
      if texts.isEmpty then defaultOr symbol.argument converted else converted

/-- The verdict on an occurrence among all that were met. -/
def of (files : Files) (all : List Glimpse) (occurrence : Occurrence) : Verdict :=
  if occurrence.implicit then accepted (occurrence.symbol.argument.default.getD .unit) true
  else ofValues files all occurrence

end Verdict
end CommandGrammar

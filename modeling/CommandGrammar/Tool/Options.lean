import CommandGrammar.Tool.Position

/-! How the tool reads its own arguments. Options are long or short and may stand between values;
behind `--` there are only values. A form may take values that begin with a dash, and it may close
itself at its first value so that everything behind belongs to it. Arguments are judged in their
order, so that a fault outranks a request for help that comes later. -/
namespace CommandGrammar.Tool

/-- What a value stands for. -/
inductive Kind where
  | path
  | position
  | text

/-- A path may not be empty, and a position has to be readable. -/
def Kind.accepts : Kind → String → Bool
  | path, value => !value.isEmpty
  | position, value => (Tool.position value).isOk
  | text, _ => true

structure Choice where
  long : String
  short : Option Char
  /-- What its value stands for, if it takes one. -/
  value : Option Kind

/-- The options of a form, and what it makes of values. -/
structure Form where
  choices : List Choice
  /-- What its values stand for. -/
  value : Kind
  /-- A value may begin with a dash if no option is meant. -/
  dashes : Bool
  /-- The first value begins a list of any length, otherwise there is at most one. -/
  rest : Bool

/-- Why there is nothing to do. -/
inductive Stop where
  | usage
  | help

/-- What has been read of a form. -/
structure Filled where
  options : List (String × String)
  values : List String
  /-- The name of an option that waits for its value. -/
  pending : Option (String × Kind)
  closed : Bool

namespace Filled

def empty : Filled := ⟨[], [], none, false⟩

def addValue (filled : Filled) (form : Form) (text : String) : Except Stop Filled :=
  if !form.value.accepts text then .error .usage
  else if form.rest then .ok { filled with values := filled.values ++ [text], closed := true }
  else if filled.values.isEmpty then .ok { filled with values := [text] }
  else .error .usage

/-- An option may be given once, and not in place of a value. -/
def addOption (filled : Filled) (name value : String) : Except Stop Filled :=
  if filled.pending.isSome || (filled.options.lookup name).isSome then .error .usage
  else .ok { filled with options := filled.options ++ [(name, value)] }

/-- An option that takes no value. -/
def addFlag (filled : Filled) (name : String) : Except Stop Filled :=
  if name = "help" ∧ filled.pending.isNone then .error .help else filled.addOption name ""

/-- An option with its value. -/
def addSetting (filled : Filled) (name : String) (kind : Kind) (value : String) :
    Except Stop Filled :=
  if kind.accepts value then filled.addOption name value else .error .usage

/-- An option without its value. -/
def await (filled : Filled) (name : String) (kind : Kind) : Except Stop Filled :=
  if filled.pending.isSome then .error .usage else .ok { filled with pending := some (name, kind) }

/-- The value of an option that waits for one, or else a value of the form. -/
def addWord (filled : Filled) (form : Form) (text : String) : Except Stop Filled :=
  match filled.pending with
  | some (name, kind) => { filled with pending := none }.addSetting name kind text
  | none => filled.addValue form text

/-- Whether a word with a dash may be a value at this point. -/
def takesDashes (filled : Filled) (form : Form) : Bool :=
  form.dashes && (form.rest || filled.values.isEmpty)

end Filled

namespace Form

def long? (form : Form) (name : List Char) : Option Choice :=
  form.choices.find? fun choice => choice.long.toList == name

def short? (form : Form) (c : Char) : Option Choice :=
  form.choices.find? fun choice => choice.short == some c

/-- Reads `name` or `name=value` behind two dashes. -/
def readLong (form : Form) (filled : Filled) (raw : String) (body : List Char) :
    Except Stop Filled :=
  match form.long? (body.takeWhile (· != '=')), body.dropWhile (· != '=') with
  | some ⟨name, _, none⟩, [] => filled.addFlag name
  | some ⟨_, _, none⟩, _ :: _ => .error .usage
  | some ⟨name, _, some kind⟩, [] => filled.await name kind
  | some ⟨name, _, some kind⟩, _ :: value => filled.addSetting name kind (.ofList value)
  | none, _ => if filled.takesDashes form then filled.addWord form raw else .error .usage

/-- Reads short options behind one dash, up to one that takes the rest as its value. -/
def readShort (form : Form) (filled : Filled) : List Char → Except Stop Filled
  | [] => .ok filled
  | c :: rest =>
    match form.short? c, rest with
    | none, _ => .error .usage
    | some ⟨name, _, none⟩, _ => do readShort form (← filled.addFlag name) rest
    | some ⟨name, _, some kind⟩, [] => filled.await name kind
    | some ⟨name, _, some kind⟩, '=' :: value | some ⟨name, _, some kind⟩, value =>
      filled.addSetting name kind (.ofList value)

def step (form : Form) (filled : Filled) (raw : String) : Except Stop Filled :=
  match raw.toList with
  | ['-', '-'] =>
    if filled.pending.isSome then .error .usage else .ok { filled with closed := true }
  | '-' :: '-' :: body => form.readLong filled raw body
  | '-' :: c :: body =>
    if filled.takesDashes form && (c :: body).any fun c => (form.short? c).isNone then
      filled.addWord form raw
    else form.readShort filled (c :: body)
  | _ => filled.addWord form raw

def readFrom (form : Form) (filled : Filled) : List String → Except Stop Filled
  | [] => if filled.pending.isSome then .error .usage else .ok filled
  | raw :: rest => do
    let filled ← if filled.closed then filled.addValue form raw else form.step filled raw
    form.readFrom filled rest

def read (form : Form) (args : List String) : Except Stop Filled := form.readFrom .empty args

end Form
end CommandGrammar.Tool

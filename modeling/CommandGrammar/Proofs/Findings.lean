import CommandGrammar.Proofs.Errors
import CommandGrammar.Proofs.Fidelity
import CommandGrammar.Proofs.Ledger

/-! All that a parse tells of symbols and errors, without numbers and places. If validators see
nothing but texts it can be read off the ledger. -/
namespace CommandGrammar

/-- What a parse tells of a symbol that has an occurrence. -/
structure Finding where
  symbol : Symbol
  /-- The text that introduced it. -/
  name : String
  values : List String
  implicit : Bool
  verdict : Verdict
  /-- The symbol of the occurrence above. -/
  parent : Option Symbol

/-- What a parse tells of an error. -/
structure Grievance where
  cause : Cause
  message : String
  isRetryable : Bool
  /-- The text to blame. -/
  text : String
  /-- The symbol whose occurrence the error is about. -/
  subject : Option Symbol

/-- A value that nothing took. -/
def Grievance.leftover (text : String) : Grievance :=
  ⟨.unrecognized, s!"Unrecognized command or argument '{text}'", false, text, none⟩

def Finding.grievance? (finding : Finding) : Option Grievance :=
  finding.verdict.fault?.map fun fault =>
    ⟨.ofFault finding.symbol fault, fault.message finding.symbol,
      fault.isRetryable finding.symbol, finding.name, some finding.symbol⟩

namespace Parse
variable {parse : Parse}

def symbolAt? (parse : Parse) (i : Nat) : Option Symbol := parse.occurrences[i]?.map (·.symbol)

def finding (parse : Parse) (resolved : Resolved) : Finding where
  symbol := resolved.symbol
  name := resolved.token.text
  values := resolved.texts
  implicit := resolved.implicit
  verdict := resolved.verdict
  parent := resolved.parent.bind parse.symbolAt?

def findings (parse : Parse) : List Finding := parse.occurrences.map parse.finding

def grievance (parse : Parse) (error : ParseError) : Grievance where
  cause := error.cause
  message := error.message
  isRetryable := error.isRetryable
  text := error.token.text
  subject := error.occurrence?.bind parse.symbolAt?

def grievances (parse : Parse) : List Grievance := parse.errors.map parse.grievance

theorem grievances_refusals (parse : Parse) :
    parse.refusals.map parse.grievance = parse.findings.filterMap Finding.grievance? := by
  have items : parse.occurrences = parse.indexed.map Prod.snd := by
    rw [indexed, List.map_map]
    exact (List.zipIdx_map_fst 0 _).symm
  rw [findings, items, refusals, List.map_filterMap, List.filterMap_map, List.filterMap_map]
  apply List.filterMap_congr
  rintro ⟨i, resolved⟩ member
  have found : parse.symbolAt? i = some resolved.symbol := by
    rw [symbolAt?, mem_indexed.mp member]
    rfl
  simp only [Function.comp_apply, Option.map_map, Finding.grievance?, finding]
  congr 1
  funext fault
  simp only [Function.comp_apply, grievance, ParseError.occurrence?, Option.bind_some, found]
  rfl

theorem grievances_leftovers (parse : Parse) : parse.leftovers.map parse.grievance =
    if parse.innermost.isStrict then (parse.unmatched.map Token.text).map .leftover else [] := by
  rw [leftovers]
  split
  · rw [List.map_map, List.map_map]
    rfl
  · rfl

end Parse

namespace Ledger.Entry

/-- An occurrence with this entry. -/
def occurrence (entry : Entry) : Occurrence where
  kind := .option
  symbol := entry.symbol
  token := .implicit entry.name .option
  parent := none
  children := []
  tokens := entry.values.map fun text => .implicit text .argument
  implicit := entry.implicit

def finding (entry : Entry) (root : Symbol) (files : Files) : Finding where
  symbol := entry.symbol
  name := entry.name
  values := entry.values
  implicit := entry.implicit
  verdict := .of files [] entry.occurrence
  parent := root.parentOf? entry.symbol.id

end Ledger.Entry

namespace Ledger

def leftovers (ledger : Ledger) : List Grievance :=
  if ledger.commands.innermost.isStrict then ledger.unmatched.map .leftover else []

def missingSubcommand (ledger : Ledger) : List Grievance :=
  let command := ledger.commands.innermost
  if command.subcommandRequired && command.children.any Symbol.isCommand then
    [⟨.subcommandMissing, "Required command was not provided.", false,
      ((ledger.entry command.id).map Entry.name).getD "", some command⟩]
  else []

end Ledger

namespace Symbol
variable {root : Symbol} {args other : List String} {files : Files}

/-- No checks of the user's own. -/
def Builtin (root : Symbol) : Prop :=
  ∀ symbol ∈ root.preorder, ∀ validator ∈ symbol.argument.validators, ∀ check,
    validator ≠ .custom check

theorem parent_finding (numbered : root.Numbered) {i : Nat} {resolved : Resolved}
    (found : (root.parse files args).occurrences[i]? = some resolved) :
    resolved.parent.bind (root.parse files args).symbolAt? =
      root.parentOf? resolved.symbol.id := by
  rcases Nat.eq_zero_or_pos i with rfl | later
  · obtain ⟨first, foundFirst, same⟩ :=
      link_parse_inv files (grown_arena numbered args).arena.first
    cases found.symm.trans foundFirst
    obtain ⟨symbol, parent⟩ := Prod.mk.inj same
    rw [symbol, parent, numbered.parentOf_root]
    rfl
  · obtain ⟨p, owner, parent, -, foundOwner, -, owned⟩ := above_parse numbered found later
    rw [parent, owned, Option.bind_some, Parse.symbolAt?, foundOwner]
    rfl

/-- What is told of an occurrence can be read off its entry. -/
theorem finding_parse (numbered : root.Numbered) (builtin : root.Builtin) {i : Nat}
    {resolved : Resolved} (found : (root.parse files args).occurrences[i]? = some resolved) :
    (root.parse files args).finding resolved = resolved.entry.finding root files := by
  obtain ⟨occurrence, member, rfl⟩ := List.mem_map.mp (List.mem_of_getElem? found)
  have texts : occurrence.entry.occurrence.texts = occurrence.texts := by
    rw [Occurrence.texts, Ledger.Entry.occurrence, List.map_map]
    exact List.map_id _
  have verdict := Verdict.of_texts occurrence.entry.occurrence
    (builtin _ (symbol_arena numbered member)) rfl texts rfl files
    ((root.arena args).occurrences.map Occurrence.glimpse) []
  have parent := parent_finding numbered found
  rw [Parse.finding, Ledger.Entry.finding, parent, ← verdict]
  rfl

theorem findings_parse (numbered : root.Numbered) (builtin : root.Builtin) (files : Files)
    (args : List String) : (root.parse files args).findings =
      ((root.arena args).occurrences.map Occurrence.entry).map
        (Ledger.Entry.finding · root files) := by
  rw [← occurrences_parse root files, List.map_map, List.map_map]
  apply List.map_congr_left
  intro resolved member
  obtain ⟨i, found⟩ := List.mem_iff_getElem?.mp member
  exact finding_parse numbered builtin found

theorem mem_entries (numbered : root.Numbered) {entry : Ledger.Entry} :
    entry ∈ (root.arena args).occurrences.map Occurrence.entry ↔
      (root.arena args).ledger.entry entry.symbol.id = some entry := by
  constructor
  · intro member
    obtain ⟨occurrence, listed, rfl⟩ := List.mem_map.mp member
    obtain ⟨i, found⟩ := List.mem_iff_getElem?.mp listed
    exact Routing.entry_found (grown_arena numbered args).arena numbered found
  · exact List.mem_of_find?_eq_some

theorem entries_nodup (numbered : root.Numbered) (args : List String) :
    ((root.arena args).occurrences.map Occurrence.entry).Nodup := by
  have ids := (grown_arena numbered args).arena.ids_nodup numbered
  apply List.Nodup.of_map fun entry : Ledger.Entry => entry.symbol.id
  rw [List.map_map]
  rw [Routing.links, List.map_map] at ids
  exact ids

theorem findings_of_ledger (numbered : root.Numbered) (builtin : root.Builtin) (files : Files)
    (same : (root.arena args).ledger = (root.arena other).ledger) :
    (root.parse files args).findings.Perm (root.parse files other).findings := by
  rw [findings_parse numbered builtin, findings_parse numbered builtin]
  apply List.Perm.map
  apply (List.perm_ext_iff_of_nodup (entries_nodup numbered args)
    (entries_nodup numbered other)).mpr
  intro entry
  rw [mem_entries numbered, mem_entries numbered, same]

theorem commands_ledger (root : Symbol) (files : Files) (args : List String) :
    (root.arena args).ledger.commands = (root.parse files args).path.map Frame.command := by
  rw [path_parse]
  rfl

theorem unmatched_ledger (root : Symbol) (files : Files) (args : List String) :
    (root.arena args).ledger.unmatched = (root.parse files args).unmatched.map Token.text :=
  congrArg (List.map Token.text) (Routing.completes_completed _).unmatched

theorem grievances_missing (numbered : root.Numbered) (files : Files) (args : List String) :
    (root.parse files args).missingSubcommand.map (root.parse files args).grievance =
      (root.arena args).ledger.missingSubcommand := by
  obtain ⟨resolved, found, symbol, -⟩ := innermost_parse numbered files args
  have innermost : (root.arena args).ledger.commands.innermost = resolved.symbol := by
    rw [commands_ledger root files, symbol]
    rfl
  have foundToo : (root.arena args).occurrences[(root.parse files args).command]? =
      some resolved.toOccurrence := by
    rw [← occurrences_parse root files, List.getElem?_map, found]
    rfl
  have entry := Routing.entry_found (grown_arena numbered args).arena numbered foundToo
  rw [Parse.missingSubcommand, Ledger.missingSubcommand, innermost, ← symbol]
  split
  · simp only [List.map_singleton, Parse.grievance, ParseError.token, ParseError.occurrence?,
      Option.bind_some, Parse.symbolAt?, Parse.tokenOf, found, entry, Option.map_some]
    rfl
  · rfl

/-- Errors about occurrences and values left over can be read off the ledger. -/
theorem grievances_parse (numbered : root.Numbered) (files : Files) (args : List String) :
    (root.parse files args).grievances =
      (Token.malformed (root.tokenize args)).map
          ((root.parse files args).grievance ∘ .malformedDirective) ++
        (root.parse files args).findings.filterMap Finding.grievance? ++
        (root.arena args).ledger.leftovers ++ (root.arena args).ledger.missingSubcommand := by
  have leftovers := (root.parse files args).grievances_leftovers
  rw [← unmatched_ledger] at leftovers
  rw [Parse.grievances, Parse.errors, List.map_append, List.map_append, List.map_append,
    List.map_map, Parse.grievances_refusals, leftovers, grievances_missing numbered,
    Ledger.leftovers, commands_ledger root files]
  rfl

theorem grievances_of_ledger (numbered : root.Numbered) (builtin : root.Builtin) (files : Files)
    (same : (root.arena args).ledger = (root.arena other).ledger)
    (malformed : Token.malformed (root.tokenize args) = Token.malformed (root.tokenize other)) :
    (root.parse files args).grievances.Perm (root.parse files other).grievances := by
  rw [grievances_parse numbered, grievances_parse numbered, same, malformed]
  apply List.Perm.append_right
  apply List.Perm.append_right
  exact .append (.of_eq rfl) ((findings_of_ledger numbered builtin files same).filterMap _)

end Symbol

end CommandGrammar

import CommandGrammar.GrammarFile.Build
import CommandGrammar.GrammarFile.Reader
import CommandGrammar.Proofs.JsonFields

/-! Grammar files read back from the text they are written as. Each kind of entry that was read is
read again, at the same level of nesting, from the record that it is written as. So the text of a
file that was read holds the same file. -/
namespace CommandGrammar
open Json RawJson

theorem wordCount_limits :
    Nat.pow 2 64 ≤ Numeral.wordCount ∧ Nat.pow 2 32 ≤ Numeral.wordCount := by
  decide

theorem rereads_texts (levels : Nat) :
    Rereads (texts? levels) fun texts => array (texts.map string) :=
  rereads_list fun _ _ => rereads_text

/-- Flags are false unless they are given, and always written. -/
theorem restored_flag {fields : Fields} {name : String} {flag : Bool}
    (given : fields.withDefault name false bool? = some flag) :
    Restored [(name, some (bool flag))] (·.withDefault name false bool?) flag :=
  restored_written rereads_bool ⟨.bool false, rfl⟩ given

theorem restored_description {fields : Fields} {name text : String}
    (given : fields.withDefault name "" text? = some text) :
    Restored [(name, shownUnless text.isEmpty (string text))] (·.withDefault name "" text?) text :=
  restored_unless rereads_text String.isEmpty_iff given

namespace ArityEntry

def slots (entry : ArityEntry) : List (String × Option Json) :=
  [("min", some (ofNat entry.min)), ("max", entry.max.map ofNat)]

theorem toJson_eq_record (entry : ArityEntry) : entry.toJson = record entry.slots := by
  simp only [toJson, record, slots, List.flatMap_cons, List.flatMap_nil, List.append_nil]
  rfl

theorem rereads : ∀ levels, Rereads (read? levels) toJson
  | 0 => rereads_none
  | levels + 1 => by
    refine rereads_record (fun _ => rfl) toJson_eq_record (fun _ => rfl) (by decide) ?_
    intro fields entry found
    obtain ⟨min, readMin, found⟩ := Option.bind_eq_some_iff.mp found
    obtain ⟨max, readMax, found⟩ := Option.bind_eq_some_iff.mp found
    cases found
    have natural := rereads_nat wordCount_limits.1
    have zero := (nat_ofNat (m := 0) wordCount_limits.1 (by decide)).2
    exact .bind (restored_written natural ⟨_, zero⟩ readMin)
      (.bind (restored_optional natural readMax) (restored_nil _))

end ArityEntry

namespace ArgumentEntry

def slots (entry : ArgumentEntry) : List (String × Option Json) :=
  [("name", entry.name.map string),
    ("description", shownUnless entry.description.isEmpty (string entry.description)),
    ("value-type", entry.type.map string),
    ("arity", entry.arity.map ArityEntry.toJson),
    ("default", entry.default.map id),
    ("allowed-values", shownUnless entry.allowed.isEmpty (array (entry.allowed.map string))),
    ("suggestions", shownUnless entry.suggestions.isEmpty (array (entry.suggestions.map string))),
    ("existing-files-only", some (bool entry.existingFiles)),
    ("existing-directories-only", some (bool entry.existingDirectories)),
    ("legal-file-paths-only", some (bool entry.legalPaths))]

theorem toJson_eq_record (entry : ArgumentEntry) : entry.toJson = record entry.slots := by
  simp only [toJson, record, slots, textMember_eq, listMember_eq, List.isEmpty_map, Option.map_id,
    id, List.append_assoc]
  rfl

theorem rereads : ∀ levels, Rereads (read? levels) toJson
  | 0 => rereads_none
  | levels + 1 => by
    refine rereads_record (fun _ => rfl) toJson_eq_record (fun _ => rfl) (by decide) ?_
    intro fields entry found
    obtain ⟨name, readName, found⟩ := Option.bind_eq_some_iff.mp found
    obtain ⟨description, readDescription, found⟩ := Option.bind_eq_some_iff.mp found
    obtain ⟨type, readType, found⟩ := Option.bind_eq_some_iff.mp found
    obtain ⟨arity, readArity, found⟩ := Option.bind_eq_some_iff.mp found
    obtain ⟨default, readDefault, found⟩ := Option.bind_eq_some_iff.mp found
    obtain ⟨allowed, readAllowed, found⟩ := Option.bind_eq_some_iff.mp found
    obtain ⟨suggestions, readSuggestions, found⟩ := Option.bind_eq_some_iff.mp found
    obtain ⟨files, readFiles, found⟩ := Option.bind_eq_some_iff.mp found
    obtain ⟨directories, readDirectories, found⟩ := Option.bind_eq_some_iff.mp found
    obtain ⟨paths, readPaths, found⟩ := Option.bind_eq_some_iff.mp found
    cases found
    refine .bind (restored_optional rereads_text readName) ?_
    refine .bind (restored_description readDescription) ?_
    refine .bind (restored_optional rereads_text readType) ?_
    refine .bind (restored_optional (ArityEntry.rereads levels) readArity) ?_
    refine .bind (restored_optional (rereads_json levels) readDefault) ?_
    refine .bind (restored_unless (rereads_texts levels) List.isEmpty_iff readAllowed) ?_
    refine .bind (restored_unless (rereads_texts levels) List.isEmpty_iff readSuggestions) ?_
    refine .bind (restored_flag readFiles) ?_
    refine .bind (restored_flag readDirectories) ?_
    exact .bind (restored_flag readPaths) (restored_nil _)

end ArgumentEntry

namespace OptionEntry

def slots (entry : OptionEntry) : List (String × Option Json) :=
  [("aliases", some (array (entry.aliases.map string))),
    ("name", entry.name.map string),
    ("description", shownUnless entry.description.isEmpty (string entry.description)),
    ("hidden", some (bool entry.hidden)),
    ("argument", entry.argument.map ArgumentEntry.toJson)]

theorem toJson_eq_record (entry : OptionEntry) : entry.toJson = record entry.slots := by
  simp only [toJson, record, slots, textMember_eq, List.append_assoc, List.flatMap_cons,
    List.flatMap_nil, List.append_nil]
  rfl

theorem rereads : ∀ levels, Rereads (read? levels) toJson
  | 0 => rereads_none
  | levels + 1 => by
    refine rereads_record (fun _ => rfl) toJson_eq_record (fun _ => rfl) (by decide) ?_
    intro fields entry found
    obtain ⟨aliases, readAliases, found⟩ := Option.bind_eq_some_iff.mp found
    obtain ⟨name, readName, found⟩ := Option.bind_eq_some_iff.mp found
    obtain ⟨description, readDescription, found⟩ := Option.bind_eq_some_iff.mp found
    obtain ⟨hidden, readHidden, found⟩ := Option.bind_eq_some_iff.mp found
    obtain ⟨argument, readArgument, found⟩ := Option.bind_eq_some_iff.mp found
    cases found
    refine .bind (restored_required (rereads_texts levels) readAliases) ?_
    refine .bind (restored_optional rereads_text readName) ?_
    refine .bind (restored_description readDescription) ?_
    refine .bind (restored_flag readHidden) ?_
    exact .bind (restored_optional (ArgumentEntry.rereads levels) readArgument) (restored_nil _)

end OptionEntry

namespace CommandEntry

theorem toJsons_eq_map (entries : List CommandEntry) : toJsons entries = entries.map toJson := by
  induction entries with
  | nil => rfl
  | cons entry rest ih => rw [toJsons, ih, List.map_cons]

theorem readAll_eq_list (levels : Nat) : readAll? levels = list? read? levels := by
  funext json
  cases levels with
  | zero => rfl
  | succ levels => cases json <;> rfl

def slots (entry : CommandEntry) : List (String × Option Json) :=
  [("name", some (string entry.name)),
    ("aliases", shownUnless entry.aliases.isEmpty (array (entry.aliases.map string))),
    ("description", shownUnless entry.description.isEmpty (string entry.description)),
    ("hidden", some (bool entry.hidden)),
    ("subcommand-required", entry.subcommandRequired.map bool),
    ("treat-unmatched-tokens-as-errors", entry.strict.map bool),
    ("argument", entry.argument.map ArgumentEntry.toJson),
    ("options", shownUnless entry.options.isEmpty (array (entry.options.map OptionEntry.toJson))),
    ("commands", shownUnless entry.commands.isEmpty (array (entry.commands.map toJson)))]

theorem toJson_eq_record (entry : CommandEntry) : entry.toJson = record entry.slots := by
  cases entry
  simp only [toJson, toJsons_eq_map, record, slots, textMember_eq, listMember_eq, List.isEmpty_map,
    List.append_assoc, List.flatMap_cons, List.flatMap_nil, List.append_nil]
  rfl

/-- Subcommands are two levels down, where the same holds by induction. -/
theorem rereads (levels : Nat) : Rereads (read? levels) toJson := by
  induction levels using Nat.strongRecOn with
  | _ levels ih =>
    cases levels with
    | zero => exact rereads_none
    | succ levels =>
      have options : Rereads (list? OptionEntry.read? levels) _ :=
        rereads_list fun below _ => OptionEntry.rereads below
      have commands : Rereads (readAll? levels) _ :=
        readAll_eq_list levels ▸ rereads_list fun below _ => ih below (by omega)
      refine rereads_record (fun _ => rfl) toJson_eq_record (fun _ => rfl) (by decide) ?_
      intro fields entry found
      obtain ⟨name, readName, found⟩ := Option.bind_eq_some_iff.mp found
      obtain ⟨aliases, readAliases, found⟩ := Option.bind_eq_some_iff.mp found
      obtain ⟨description, readDescription, found⟩ := Option.bind_eq_some_iff.mp found
      obtain ⟨hidden, readHidden, found⟩ := Option.bind_eq_some_iff.mp found
      obtain ⟨subcommandRequired, readRequired, found⟩ := Option.bind_eq_some_iff.mp found
      obtain ⟨strict, readStrict, found⟩ := Option.bind_eq_some_iff.mp found
      obtain ⟨argument, readArgument, found⟩ := Option.bind_eq_some_iff.mp found
      obtain ⟨readOptions, foundOptions, found⟩ := Option.bind_eq_some_iff.mp found
      obtain ⟨readCommands, foundCommands, found⟩ := Option.bind_eq_some_iff.mp found
      cases found
      refine .bind (restored_required rereads_text readName) ?_
      refine .bind (restored_unless (rereads_texts levels) List.isEmpty_iff readAliases) ?_
      refine .bind (restored_description readDescription) ?_
      refine .bind (restored_flag readHidden) ?_
      refine .bind (restored_optional rereads_bool readRequired) ?_
      refine .bind (restored_optional rereads_bool readStrict) ?_
      refine .bind (restored_optional (ArgumentEntry.rereads levels) readArgument) ?_
      refine .bind (restored_unless options List.isEmpty_iff foundOptions) ?_
      exact .bind (restored_unless commands List.isEmpty_iff foundCommands) (restored_nil _)

end CommandEntry

namespace GrammarFile

def slots (file : GrammarFile) : List (String × Option Json) :=
  [("format-version", some (ofNat file.version)), ("command", some file.command.toJson)]

theorem toJson_eq_record (file : GrammarFile) : file.toJson = record file.slots := rfl

theorem rereads : ∀ levels, Rereads (read? levels) toJson
  | 0 => rereads_none
  | levels + 1 => by
    refine rereads_record (fun _ => rfl) toJson_eq_record (fun _ => rfl) (by decide) ?_
    intro fields file found
    obtain ⟨version, readVersion, found⟩ := Option.bind_eq_some_iff.mp found
    obtain ⟨command, readCommand, found⟩ := Option.bind_eq_some_iff.mp found
    cases found
    refine .bind (restored_required (rereads_nat wordCount_limits.2) readVersion) ?_
    exact .bind (restored_required (CommandEntry.rereads levels) readCommand) (restored_nil _)

variable {text : String} {file : GrammarFile}

theorem parse_eq_ok_iff : parse text = .ok file ↔
    (RawJson.parse? text).bind (read? levelLimit) = some file ∧ file.version = currentVersion := by
  unfold parse
  cases (RawJson.parse? text).bind (read? levelLimit) with
  | none => simp
  | some found =>
    dsimp only
    split
    · rename_i current
      constructor
      · rintro ⟨⟩
        exact ⟨rfl, current⟩
      · rintro ⟨⟨⟩, -⟩
        rfl
    · rename_i other
      constructor
      · nofun
      · rintro ⟨⟨⟩, current⟩
        exact absurd current other

/-- The text of a grammar file that was read holds the same grammar file, as long as its doubles
are read again from what they are printed as. -/
theorem rereads_parse (parsed : parse text = .ok file) (floats : file.toJson.FloatsReadBack) :
    ∃ again, parse file.text = .ok again ∧ again = file ∧ again.text = file.text ∧
      again.build = file.build := by
  obtain ⟨read, current⟩ := parse_eq_ok_iff.mp parsed
  obtain ⟨json, -, read⟩ := Option.bind_eq_some_iff.mp read
  obtain ⟨readsBack, again⟩ := (rereads levelLimit).again read floats
  refine ⟨file, parse_eq_ok_iff.mpr ⟨?_, current⟩, rfl, rfl, rfl⟩
  rw [GrammarFile.text, parse_pretty file.toJson readsBack, Option.bind_some, again]

/-- A file with a double for a default; the command is written as an array of its fields. -/
def factorText : String :=
  "\x7b\"format-version\": 1, \"command\": [\"tool\", [], \"\", false, null, null, " ++
    "\x7b\"default\": 1.5\x7d]\x7d"

def oneAndHalf : Binary64 := ⟨0x3FF8000000000000⟩

theorem readsBack_oneAndHalf : (JsonNumber.float oneAndHalf).ReadsBack := by
  have printed : (Json.number (.float oneAndHalf)).text = "1.5" := by decide +kernel
  have meant : Numeral.number? ⟨false, ['1'], some ['5'], none⟩ = some (.float oneAndHalf) := by
    decide +kernel
  have parsed : RawJson.parse? "1.5" = some (.number ⟨false, ['1'], some ['5'], none⟩) := rfl
  rw [JsonNumber.ReadsBack, printed, parsed, Option.bind_some, RawJson.json?, meant]
  rfl

theorem rereads_parse_sample : ∃ file, parse factorText = .ok file ∧ file.toJson.FloatsReadBack ∧
    ∃ again, parse file.text = .ok again ∧ again = file ∧ again.text = file.text ∧
      again.build = file.build := by
  have numbers : (parse factorText).toOption.map (fun file => file.toJson.numbers) =
      some [.int 1, .float oneAndHalf] := by decide +kernel
  cases parsed : parse factorText with
  | error error =>
    rw [parsed] at numbers
    contradiction
  | ok file =>
    rw [parsed] at numbers
    have numbers : file.toJson.numbers = [.int 1, .float oneAndHalf] := Option.some.inj numbers
    have floats : file.toJson.FloatsReadBack := by
      intro x member
      rw [numbers] at member
      obtain rfl : x = oneAndHalf := by simpa using member
      exact readsBack_oneAndHalf
    exact ⟨file, rfl, floats, rereads_parse parsed floats⟩

end GrammarFile
end CommandGrammar

import CommandGrammar.Files.Tree
import CommandGrammar.Proofs.Directives
import CommandGrammar.Proofs.Offers
import CommandGrammar.Proofs.Rendering
import CommandGrammar.Tool

/-! Requests to complete a list of arguments. The line rendered from them ends in the last argument
and never in a blank. So it is the last argument that is completed, behind the others. -/
namespace CommandGrammar

namespace Line
open Text

theorem getLast_renderWord (word : List Char) :
    ∃ c, (renderWord word).getLast? = some c ∧ isBlank c = false := by
  unfold renderWord
  split
  · exact ⟨'"', List.getLast?_concat, by decide⟩
  · rename_i unquoted
    obtain ⟨nonempty, plain⟩ := needsQuotes_eq_false_iff.mp (Bool.eq_false_iff.mpr unquoted)
    exact ⟨_, List.getLast?_eq_some_getLast nonempty, (plain _ (List.getLast_mem nonempty)).1⟩

theorem intercalate_concat (words : List (List Char)) (last : List Char) :
    ∃ front, [' '].intercalate (words ++ [last]) = front ++ last := by
  induction words with
  | nil => exact ⟨[], List.intercalate_singleton⟩
  | cons word words ih =>
    obtain ⟨front, same⟩ := ih
    have nonempty := List.append_ne_nil_of_right_ne_nil words (List.cons_ne_nil last [])
    obtain ⟨next, rest, listed⟩ := List.exists_cons_of_ne_nil nonempty
    refine ⟨word ++ [' '] ++ front, ?_⟩
    rw [List.cons_append, listed, List.intercalate_cons_cons, ← listed, same]
    simp only [List.append_assoc]

/-- Completion is asked for the last word behind the others. -/
theorem split_render_concat (words : List String) (last : String) :
    Completion.split (render (words ++ [last])) = (words, last) := by
  obtain ⟨front, same⟩ := intercalate_concat (words.map fun word => renderWord word.toList)
    (renderWord last.toList)
  obtain ⟨c, ends, solid⟩ := getLast_renderWord last.toList
  have chars : (render (words ++ [last])).toList.getLast? = some c := by
    rw [render, String.toList_ofList, List.map_append, List.map_singleton, same,
      List.getLast?_append, ends]
    rfl
  rw [Completion.split, split_render, chars]
  dsimp only
  rw [if_neg (by simp [solid]), List.dropLast_concat, List.getLast?_concat]
  rfl

end Line

namespace Completion

theorem pairwise_insert {texts : List String} (ascending : texts.Pairwise (· < ·))
    (text : String) : (insert text texts).Pairwise (· < ·) := by
  induction texts with
  | nil => exact List.pairwise_singleton _ _
  | cons first rest ih =>
    obtain ⟨above, further⟩ := List.pairwise_cons.mp ascending
    rw [insert]
    split_ifs with same below
    · exact ascending
    · refine List.pairwise_cons.mpr ⟨?_, ascending⟩
      exact List.forall_mem_cons.mpr ⟨below, fun other member => below.trans (above other member)⟩
    · refine List.pairwise_cons.mpr ⟨fun other member => ?_, ih further⟩
      rcases mem_insert.mp member with rfl | member
      · exact (lt_or_gt_of_ne same).resolve_left below
      · exact above other member

theorem pairwise_sorted (texts : List String) : (sorted texts).Pairwise (· < ·) := by
  induction texts with
  | nil => exact .nil
  | cons text rest ih => exact pairwise_insert ih text

end Completion

namespace Tool

namespace Form
variable {form : Form} {filled after : Filled} {raw : String}

/-- While an option waits for its value, a word is that value or a mistake. -/
theorem addWord_of_pending (waits : filled.pending.isSome = true)
    (read : form.step filled raw = .ok after) : filled.addWord form raw = .ok after := by
  have noOption (name value : String) : filled.addOption name value = .error .usage := by
    rw [Filled.addOption, if_pos (by simp [waits])]
  have noFlag (name : String) : filled.addFlag name = .error .usage := by
    rw [Filled.addFlag, if_neg fun request => by simp [← Option.not_isSome, waits] at request,
      noOption]
  have noSetting (name : String) (kind : Kind) (value : String) :
      filled.addSetting name kind value = .error .usage := by
    rw [Filled.addSetting, noOption, ite_self]
  have noAwait (name : String) (kind : Kind) : filled.await name kind = .error .usage := by
    rw [Filled.await, if_pos waits]
  unfold step at read
  split at read
  · rw [if_pos waits] at read
    contradiction
  · unfold readLong at read
    simp only [noFlag, noSetting, noAwait] at read
    split at read <;> try contradiction
    split at read
    · exact read
    · contradiction
  · split at read
    · exact read
    · unfold readShort at read
      simp only [noFlag, noSetting, noAwait] at read
      split at read <;> contradiction
  · exact read

/-- Behind `--` a form that collects texts takes all of them. -/
theorem readFrom_closed (collects : form.rest = true)
    (accepts : ∀ text, form.value.accepts text = true) (options : List (String × String))
    (values args : List String) :
    form.readFrom ⟨options, values, none, true⟩ args =
      .ok ⟨options, values ++ args, none, true⟩ := by
  induction args generalizing values with
  | nil => rw [List.append_nil]; rfl
  | cons text rest ih =>
    have taken : Filled.addValue ⟨options, values, none, true⟩ form text =
        .ok ⟨options, values ++ [text], none, true⟩ := by
      rw [Filled.addValue, if_neg (by simp [accepts]), if_pos collects]
    have further := ih (values ++ [text])
    rw [← List.append_cons] at further
    rw [readFrom, if_pos rfl, taken]
    exact further

end Form

/-- What has been read of a request up to the path of the grammar. -/
def awaitingPath : Filled := { Filled.empty with pending := some ("grammar", .path) }

theorem order_awaits (path : String) (args : List String) :
    order ("parse" :: "-g" :: path :: args) = (do
      let filled ← parseForm.step awaitingPath path >>= fun filled => parseForm.readFrom filled args
      let path ← Filled.path (filled.options.lookup "grammar")
      .ok ⟨path, .parse (filled.has "json") filled.values⟩) := rfl

/-- A path that is taken after the option is taken in front of more arguments, too. -/
theorem order_closed {path : String}
    (taken : order ["parse", "-g", path] = .ok ⟨path, .parse false []⟩) (args : List String) :
    order (["parse", "-g", path, "--"] ++ args) = .ok ⟨path, .parse false args⟩ := by
  have read : parseForm.step awaitingPath path = .ok ⟨[("grammar", path)], [], none, false⟩ := by
    rw [order_awaits] at taken
    cases reading : parseForm.step awaitingPath path with
    | error stop =>
      rw [reading] at taken
      contradiction
    | ok after =>
      have word : awaitingPath.addWord parseForm path = if Kind.path.accepts path
          then .ok ⟨[("grammar", path)], [], none, false⟩ else .error .usage := rfl
      have value := Form.addWord_of_pending rfl reading
      rw [word] at value
      split at value
      · exact value.symm
      · contradiction
  change order ("parse" :: "-g" :: path :: "--" :: args) = _
  rw [order_awaits, read]
  have closed : parseForm.readFrom ⟨[("grammar", path)], [], none, false⟩ ("--" :: args) =
      parseForm.readFrom ⟨[("grammar", path)], [], none, true⟩ args := rfl
  have values := parseForm.readFrom_closed rfl (fun _ => rfl) [("grammar", path)] [] args
  simp only [bind, Except.bind, closed, values]
  rfl

section Request
variable {root : Symbol} {files : Files} {path : String} {rest : List String}

theorem opens_request : ∀ raw ∈ ["[suggest]"], Classifier.opensBracket raw = true := by
  decide +kernel

theorem behindDirectives_request (root : Symbol) (files : Files)
    (plain : ∀ raw ∈ rest.head?, Classifier.opensBracket raw = false) :
    behindDirectives (root.parse files (["[suggest]"] ++ rest)) = rest := by
  have tokens := root.tokenize_directives opens_request plain
  simp only [behindDirectives, Symbol.parse, tokens]
  rfl

theorem parse_request (loaded : load files path = .ok root) (json : Bool)
    (plain : ∀ raw ∈ rest.head?, Classifier.opensBracket raw = false) :
    parse files path json (["[suggest]"] ++ rest) = .ok
      { code := 0
        output := lines (root.suggest (Line.render rest) (Line.render rest).length) } := by
  have directives : (root.parse files (["[suggest]"] ++ rest)).directives = [("suggest", [])] :=
    Symbol.directives_behind files opens_request plain
  have behind := behindDirectives_request root files plain
  simp only [parse, loaded, bind, Except.bind, directives, complete, behind]
  rfl

end Request
end Tool

/-- What completion offers for arguments that have been made into a line, at the end of it. -/
structure CompletesLast (root : Symbol) (args : List String) : Prop where
  /-- The last argument is completed, in the context of those before it. -/
  last : ∀ words text, args = words ++ [text] → ∀ candidate,
    candidate ∈ root.suggest (Line.render args) (Line.render args).length ↔
      candidate ∈ (Context.ofWords root words).candidates text ∧
        text.toList <:+: candidate.toList
  /-- Without arguments everything is offered that the root has to offer. -/
  none : args = [] → ∀ candidate,
    candidate ∈ root.suggest (Line.render args) (Line.render args).length ↔
      candidate ∈ (Context.start root).candidates ""
  /-- The candidates behind any words, which may be none. -/
  candidates : ∀ words text candidate,
    candidate ∈ (Context.ofWords root words).candidates text ↔
      (Context.ofWords root words).Offers text candidate
  innermost : ∀ files words,
    (Context.ofWords root words).commands.innermost = (root.parse files words).innermost
  ascending : (root.suggest (Line.render args) (Line.render args).length).Pairwise (· < ·)

theorem completes_last (root : Symbol) (args : List String) : CompletesLast root args := by
  constructor
  case last =>
    rintro words text rfl candidate
    rw [Completion.mem_suggest_end (Line.split_render_concat words text), Text.contains_iff]
  case none =>
    rintro rfl candidate
    have cut : Completion.split (Line.render []) = ([], "") := by decide
    rw [Completion.mem_suggest_end cut]
    exact and_iff_left (Text.contains_iff.mpr List.nil_infix)
  case candidates => exact fun _ _ _ => Context.mem_candidates
  case innermost => exact root.innermost_ofWords
  case ascending => exact Completion.pairwise_sorted _

/-- A request is answered by what completion offers for its last argument. -/
theorem requests_complete_last :
    (∀ root args, CompletesLast root args) ∧
    ∀ (files : Files) (path : String) (root : Symbol) (rest : List String),
      Tool.load files path = .ok root →
      Tool.order ["parse", "-g", path] = .ok ⟨path, .parse false []⟩ →
      (∀ raw ∈ rest.head?, raw.toList.head? ≠ some '[') →
      Tool.run files (["parse", "-g", path, "--", "[suggest]"] ++ rest) =
        { code := 0
          output := Tool.lines (root.suggest (Line.render rest) (Line.render rest).length) } := by
  refine ⟨completes_last, fun files path root rest loaded taken plain => ?_⟩
  have plain : ∀ raw ∈ rest.head?, Classifier.opensBracket raw = false :=
    fun raw first => beq_eq_false_iff_ne.mpr (plain raw first)
  have ordered : Tool.order (["parse", "-g", path, "--", "[suggest]"] ++ rest) =
      .ok ⟨path, .parse false (["[suggest]"] ++ rest)⟩ := Tool.order_closed taken _
  have performed : Tool.perform files ⟨path, .parse false (["[suggest]"] ++ rest)⟩ = _ :=
    Tool.parse_request loaded false plain
  rw [Tool.run, ordered]
  dsimp only
  rw [performed]

/-- The file of a grammar with a flag. -/
def Files.withFlag : Files :=
  FileTree.files (.directory [("g.json", .file ("\x7b\"format-version\": 1, \"command\": " ++
    "\x7b\"name\": \"tool\", \"options\": [\x7b\"aliases\": [\"--flag\"]\x7d]\x7d\x7d"))]) []

theorem requests_complete_last_sample : ∃ root,
    Tool.load Files.withFlag "g.json" = .ok root ∧
    Tool.order ["parse", "-g", "g.json"] = .ok ⟨"g.json", .parse false []⟩ ∧
    CompletesLast root ["--flag", "a b", "--f"] ∧
    root.suggest (Line.render ["--flag", "a b", "--f"])
      (Line.render ["--flag", "a b", "--f"]).length = ["--flag"] ∧
    Tool.run Files.withFlag
        (["parse", "-g", "g.json", "--", "[suggest]"] ++ ["--flag", "a b", "--f"]) =
      { code := 0
        output := Tool.lines (root.suggest (Line.render ["--flag", "a b", "--f"])
          (Line.render ["--flag", "a b", "--f"]).length) } := by
  obtain ⟨root, loaded, offers⟩ : ∃ root, Tool.load Files.withFlag "g.json" = .ok root ∧
      root.suggest (Line.render ["--flag", "a b", "--f"])
        (Line.render ["--flag", "a b", "--f"]).length = ["--flag"] := by
    have offered : (Tool.load Files.withFlag "g.json").toOption.map (fun root =>
        root.suggest (Line.render ["--flag", "a b", "--f"])
          (Line.render ["--flag", "a b", "--f"]).length) = some ["--flag"] := by decide +kernel
    cases loaded : Tool.load Files.withFlag "g.json" with
    | ok root =>
      rw [loaded] at offered
      exact ⟨root, rfl, Option.some.inj offered⟩
    | error failure =>
      rw [loaded] at offered
      contradiction
  obtain ⟨completes, answers⟩ := requests_complete_last
  exact ⟨root, loaded, rfl, completes root _, offers, answers _ _ root _ loaded rfl (by decide)⟩

end CommandGrammar

import PluginLoader.Proofs.Command.Answers
import PluginLoader.Proofs.Command.Flag
import PluginLoader.Proofs.FileSystem.Names
import PluginLoader.Proofs.Json.Reading
import PluginLoader.Proofs.Resolution.Isolation

/-! What the command prints. A request that fails prints nothing; one that succeeds prints every
result, and its two formats say the same: the lines of the text can be told from the items of the
JSON array. The format has no part in whether a request succeeds. -/
namespace PluginLoader

/-! ### Formats -/

namespace CommandResult

/-- A result as a line of text, without its end. -/
def row : CommandResult → String
  | .name text => text
  | .type handle =>
    handle.name ++ "\textends " ++ handle.superName.getD "-" ++ "\t[" ++
      handle.archive?.getD "host" ++ "]"

/-- A text in a JSON field, or a word for null. -/
def textOr (word : String) : JsonValue → Option String
  | .string text => some text
  | .null => some word
  | _ => none

/-- The line that an item of a JSON array tells of. -/
def rowOf? : JsonValue → Option String
  | .string text => some text
  | .object fields => do
    let .string own ← fields.lookup "name" | failure
    let superName ← textOr "-" (← fields.lookup "extends")
    let archive ← textOr "host" (← fields.lookup "archive")
    return own ++ "\textends " ++ superName ++ "\t[" ++ archive ++ "]"
  | _ => none

end CommandResult

theorem TypeSummary.json_numberFree (summary : TypeSummary) : summary.json.NumberFree := by
  have textOrNull : ∀ text, (TypeSummary.textOrNull text).NumberFree := by
    intro text
    cases text with
    | none => exact .null
    | some text => exact .string text
  have interfaces : (JsonValue.array (summary.interfaces.map .string)).NumberFree := by
    refine .array fun item member => ?_
    obtain ⟨text, _, rfl⟩ := List.mem_map.mp member
    exact .string text
  unfold TypeSummary.json
  refine .object ?_
  simp only [List.forall_mem_cons]
  exact ⟨.string _, textOrNull _, interfaces, .bool _, textOrNull _,
    List.forall_mem_nil _⟩

namespace Report
variable {results : List CommandResult} {report : Report}

theorem numberFree (report : Report) : report.json.NumberFree := by
  cases report with
  | names texts =>
    refine .array fun item member => ?_
    obtain ⟨text, _, rfl⟩ := List.mem_map.mp member
    exact .string text
  | types summaries =>
    refine .array fun item member => ?_
    obtain ⟨summary, _, rfl⟩ := List.mem_map.mp member
    exact summary.json_numberFree

theorem Holds.lines (holds : Holds results report) : report.lines = results.map (·.row) := by
  cases holds with
  | names texts =>
    rw [List.map_map]
    exact (List.map_id _).symm
  | types handles =>
    simp only [Report.lines, List.map_map]
    rfl

theorem rowOf_summary (handle : TypeHandle) :
    CommandResult.rowOf? (TypeSummary.ofHandle handle).json =
      some (CommandResult.type handle).row := by
  have told : ∀ word text, CommandResult.textOr word (TypeSummary.textOrNull text) =
      some (text.getD word) := fun word text => by cases text <;> rfl
  simp [TypeSummary.json, TypeSummary.ofHandle, CommandResult.rowOf?, CommandResult.row,
    List.lookup_cons, told]

theorem Holds.json (holds : Holds results report) :
    ∃ items, report.json = .array items ∧
      items.map CommandResult.rowOf? = results.map fun result => some result.row := by
  cases holds with
  | names texts =>
    refine ⟨_, rfl, ?_⟩
    simp only [List.map_map]
    rfl
  | types handles =>
    refine ⟨_, rfl, ?_⟩
    simp only [List.map_map]
    exact List.map_congr_left fun handle _ => rowOf_summary handle

end Report

/-! ### Runs -/

namespace Command
variable {r : Request} {files : FileSystem} {home : String} {arguments : List String}
  {result : Except CommandFault (List CommandResult)}

open CommandLine (Asks Waiting Helps)

/-- An outcome is that of a result: all of it in one of the two formats, or nothing on the output. A
process that ends in a query leaves no error of its own. -/
def Shows (json : Bool) (outcome : Outcome) : Except CommandFault (List CommandResult) → Prop
  | .ok results =>
    outcome.exit = 0 ∧ outcome.error = none ∧
      if json then
        ∃ items, JsonValue.read? outcome.output = some (.array items) ∧
          items.map CommandResult.rowOf? = results.map fun result => some result.row
      else outcome.output = String.join (results.map fun result => result.row ++ "\n")
  | .error .crash => outcome.exit = 101 ∧ outcome.error = none ∧ outcome.output = ""
  | .error _ => outcome.exit = 1 ∧ outcome.error.isSome ∧ outcome.output = ""

theorem print_whole {results : List CommandResult} {report : Report}
    (holds : Report.Holds results report) :
    report.print false = String.join (results.map fun result => result.row ++ "\n") ∧
      ∃ items, JsonValue.read? (report.print true) = some (.array items) ∧
        items.map CommandResult.rowOf? = results.map fun result => some result.row := by
  constructor
  · rw [Report.print, if_neg Bool.false_ne_true, holds.lines, List.map_map]
    rfl
  · obtain ⟨items, same, told⟩ := holds.json
    refine ⟨items, ?_, told⟩
    rw [← same]
    refine JsonValue.read_print report.numberFree fun c member => ?_
    have end_of_line : c ∈ ['\n'] := member
    rw [List.mem_singleton.mp end_of_line]
    rfl

theorem text_isSome {fault : CommandFault} (ran : fault ≠ .crash) : fault.text?.isSome := by
  have told : fault.messages ≠ [] := by
    cases fault with
    | crash => exact absurd rfl ran
    | _ => exact List.cons_ne_nil _ _
  unfold CommandFault.text?
  split
  · exact absurd ‹_› told
  all_goals rfl

theorem shows_respond (tells : Request.Tells result (r.run files home)) :
    Shows r.options.json (respond r files home) result := by
  unfold respond
  generalize r.run files home = answer at tells
  cases tells with
  | results holds =>
    obtain ⟨text, json⟩ := print_whole holds
    refine ⟨rfl, rfl, ?_⟩
    cases r.options.json with
    | false => exact text
    | true => exact json
  | fault fault =>
    cases fault with
    | crash => exact ⟨rfl, rfl, rfl⟩
    | configuration e =>
      exact ⟨rfl, text_isSome (show CommandFault.configuration e ≠ .crash from nofun), rfl⟩
    | _ => exact ⟨rfl, text_isSome nofun, rfl⟩

/-- The format has no part in whether a run fails, and of what. -/
theorem respond_format (r : Request) (files : FileSystem) (home : String) (json : Bool) :
    (respond { r with options := { r.options with json } } files home).exit =
        (respond r files home).exit ∧
      (respond { r with options := { r.options with json } } files home).error =
        (respond r files home).error := by
  have same : Request.run { r with options := { r.options with json } } files home =
      r.run files home := rfl
  unfold respond
  rw [same]
  cases r.run files home <;> exact ⟨rfl, rfl⟩

theorem run_of_asks (asks : Asks arguments r) :
    run files home arguments = respond r files home := by
  rw [run, Request.ofArguments_eq_ok.mpr asks]

theorem output_of_failure (failed : (run files home arguments).exit ≠ 0) :
    (run files home arguments).output = "" := by
  revert failed
  unfold run
  split
  · unfold respond
    split
    · exact fun failed => absurd rfl failed
    · exact fun _ => rfl
  · exact fun failed => absurd rfl failed
  · exact fun failed => absurd rfl failed
  · exact fun _ => rfl

/-- A line that asks for nothing reads nothing. -/
theorem run_of_asks_nothing (nothing : ∀ r, ¬ Asks arguments r) (others : FileSystem)
    (elsewhere : String) : run others elsewhere arguments = run files home arguments := by
  unfold run
  cases given : Request.ofArguments arguments with
  | ok r => exact absurd (Request.ofArguments_eq_ok.mp given) (nothing r)
  | error none => cases none <;> rfl

/-- The flag changes nothing for such a line. -/
theorem run_of_flag {before after : List String} (nothing : ∀ r, ¬ Asks (before ++ after) r)
    (free : "--json" ∉ before ++ after) (options : "--" ∉ before) (ready : ¬ Waiting before)
    (helpless : ¬ Helps before) :
    run files home (before ++ "--json" :: after) = run files home (before ++ after) := by
  unfold run
  rw [Request.ofArguments_flag free options ready helpless]
  cases given : Request.ofArguments (before ++ after) with
  | ok r => exact absurd (Request.ofArguments_eq_ok.mp given) (nothing r)
  | error none => cases none <;> rfl

/-- The output of a command line, whatever its options and wherever they stand, is all or nothing. A
line that fails prints nothing. A line that asks for nothing is not answered from the files at all,
and the flag for JSON at any place for options makes no difference to it. A line that asks for
something prints all results that the library gives for it, as the lines of a text or as the items
of one JSON array from which the lines can be told, or fails as the library does. With the flag at
any place for options it asks the same in JSON, and without it the same; it fails with the flag
exactly if it fails without, and of the same. -/
theorem output_whole_or_none (files : FileSystem) (home : String) (arguments : List String) :
    ((run files home arguments).exit ≠ 0 → (run files home arguments).output = "") ∧
    ((∀ r, ¬ Asks arguments r) →
      (∀ others elsewhere, run others elsewhere arguments = run files home arguments) ∧
      ∀ before after, arguments = before ++ after → "--json" ∉ arguments → "--" ∉ before →
        ¬ Waiting before → ¬ Helps before →
          run files home (before ++ "--json" :: after) = run files home arguments) ∧
    ∀ r, Asks arguments r →
      (∃ result, r.ComesTo files home result) ∧
      ∀ result, r.ComesTo files home result →
        Shows r.options.json (run files home arguments) result ∧
        (∀ before after, arguments = before ++ after → "--" ∉ before → ¬ Waiting before →
          r.options.json = false →
            Shows true (run files home (before ++ "--json" :: after)) result ∧
            (run files home (before ++ "--json" :: after)).exit = (run files home arguments).exit ∧
            (run files home (before ++ "--json" :: after)).error =
              (run files home arguments).error) ∧
        ∀ before after, arguments = before ++ "--json" :: after → "--" ∉ before →
          r.options.json = true ∧
          ∃ json, Asks (before ++ after) { r with options := { r.options with json } } ∧
            Shows json (run files home (before ++ after)) result ∧
            (run files home (before ++ after)).exit = (run files home arguments).exit ∧
            (run files home (before ++ after)).error = (run files home arguments).error := by
  refine ⟨output_of_failure, fun nothing => ⟨run_of_asks_nothing nothing, ?_⟩, fun r asks => ?_⟩
  · rintro before after rfl free options ready helpless
    exact run_of_flag nothing free options ready helpless
  refine ⟨r.exists_comesTo files home, fun result comes => ?_⟩
  have tells := Request.run_of_comesTo comes
  rw [run_of_asks asks]
  refine ⟨shows_respond tells, ?added, ?removed⟩
  case added =>
    intro before after whole options ready plain
    have asked := asks.add whole plain options ready
    rw [run_of_asks asked]
    exact ⟨shows_respond tells, respond_format r files home true⟩
  case removed =>
    intro before after whole options
    obtain ⟨flag, json, asked⟩ := asks.remove whole options
    refine ⟨flag, json, asked, ?_⟩
    rw [run_of_asks asked]
    exact ⟨shows_respond tells, respond_format r files home json⟩

end Command

/-! ### The one type of an archive, shown -/

theorem Configuration.loadDefault_filesOfA : loadDefault filesOfA "/home" = .ok {} := by
  have path : defaultPath "/home" = "/home/.plugjar/config.yaml" := by decide +kernel
  have valid : FileSystem.checked "/home/.plugjar/config.yaml" = .ok () := by decide +kernel
  have way : FileSystem.steps "/home/.plugjar/config.yaml" =
      [.stay, .into "home", .into ".plugjar", .into "config.yaml"] := by rfl
  have root : FileSystem.origin "/home/.plugjar/config.yaml" filesOfA.start = [] := by rfl
  have short : ¬ "home".utf8ByteSize > 255 := by decide +kernel
  have absent : filesOfA.node? ["home"] = none := by simp [filesOfA, FileSystem.node?]
  have missing : filesOfA.isThere "/home/.plugjar/config.yaml" = false := by
    simp [FileSystem.isThere, FileSystem.locate, FileSystem.find, FileSystem.walk, Bind.bind,
      Except.bind, valid, way, root, short, absent]
  rw [loadDefault, path, missing]
  rfl

theorem PluginManager.loadSources_filesOfA :
    loadSources filesOfA "/" {} = .ok (⟨"/"⟩, [⟨"/a.jar"⟩]) := by
  have opened : PluginDirectory.open? filesOfA "/" = .ok ⟨"/"⟩ := by
    simp only [PluginDirectory.open?, FileSystem.isFolder, FileSystem.canonical,
      FileSystem.locate_root]
    rfl
  have children : filesOfA.children [] = ["a.jar"] := by rfl
  have scanned : PluginDirectory.scan ⟨"/"⟩ filesOfA = .ok [⟨"/a.jar"⟩] := by
    simp only [PluginDirectory.scan, FileSystem.list, FileSystem.locate_root, Bind.bind,
      Except.bind, children]
    decide +kernel
  simp only [loadSources, opened, scanned, Bind.bind, Except.bind]
  rfl

namespace Command

open CommandLine (Asks Waiting)

/-- The scopes of the command over the one archive. -/
def worldOfA : World :=
  ⟨filesOfA, [.context 0 (LoadingContext.make "plugins" [⟨"/a.jar"⟩] .abort), .host .standard]⟩

theorem managerOf_filesOfA :
    Request.managerOf filesOfA {} "/" = .ok (⟨"/", {}, 1⟩, worldOfA) := by
  simp only [Request.managerOf, PluginManager.load, World.addHost, World.addScope,
    PluginManager.loadSources_filesOfA]
  rfl

def typeA : TypeHandle := ⟨1, 0, "A", some "O", [], ⟨0x21⟩, .archive "/a.jar" "A.class"⟩

theorem attempt_typeA : ∃ after, worldOfA.attempt 1 "A" = .answer (.ok typeA, after) := by
  have missing : HostTypes.standard.find? "A" = none := by decide +kernel
  have named : TypeName.searchable "A" = true := by decide +kernel
  have room : ¬ Archive.reservationLimit <
      Archive.reservation ⟨"/a.jar", ⟨archiveOfA, [entryOfA]⟩⟩ "A.class" := by
    decide +kernel
  have calm : worldOfA.crashes 1 "A" = false := by
    simp [World.crashes, worldOfA, Scope.crashes, Scope.resolve, LoadingContext.known?,
      LoadingContext.make, HostTypes.resolve, missing, LoadError.isTypeNotFound, named,
      LoadingContext.searchCrashes, LoadingContext.reach, open_archiveOfA, entryPath_A,
      Archive.read, room, readEntry_archiveOfA]
  have found : (worldOfA.resolve 1 "A").1 = .ok typeA := World.define_filesOfA "plugins" .abort 1
  rw [World.attempt, calm]
  refine ⟨(worldOfA.resolve 1 "A").2, ?_⟩
  rw [← found]
  rfl

def requestForA : Request := ⟨{ directory := some "/" }, .resolve "A"⟩

theorem asks_for_A : Asks ["resolve", "A", "--dir", "/"] requestForA := by
  have nameBare : CommandLine.Bare "A" := fun c rest => by simp
  have rootBare : CommandLine.Bare "/" := fun c rest => by simp
  have ahead : CommandLine.Words none [] [] [] := .nil
  have behind : CommandLine.Words none ["A", "--dir", "/"] [.value .directory "/"] ["A"] :=
    .operand nameBare (.option (.next .directory) (.value rootBare .nil))
  have outer : Given [] {} := ⟨rfl, rfl, nofun, rfl, rfl⟩
  have inner : Given [.value .directory "/"] { directory := some "/" } :=
    ⟨rfl, rfl, by simp, rfl, rfl⟩
  exact .intro ahead List.not_mem_nil outer (.resolve "A") behind inner

theorem comesTo_typeA : requestForA.ComesTo filesOfA "/home" (.ok [.type typeA]) := by
  obtain ⟨after, found⟩ := attempt_typeA
  have configured : requestForA.Configured filesOfA "/home" (.ok {}) :=
    Configuration.loadDefault_filesOfA ▸ .default rfl
  have loads : requestForA.Loads filesOfA {} "/" (.ok (⟨"/", {}, 1⟩, worldOfA)) :=
    managerOf_filesOfA ▸ .given rfl
  exact .configured configured (.resolved rfl loads found)

/-- Both formats show the row of the type; the flag may stand behind the command. -/
theorem typeA_shown :
    let text := run filesOfA "/home" ["resolve", "A", "--dir", "/"]
    let json := run filesOfA "/home" ["resolve", "--json", "A", "--dir", "/"]
    text.exit = 0 ∧ text.output = "A\textends O\t[/a.jar]\n" ∧
      json.exit = 0 ∧ ∃ item, JsonValue.read? json.output = some (.array [item]) ∧
        CommandResult.rowOf? item = some "A\textends O\t[/a.jar]" := by
  have row : (CommandResult.type typeA).row = "A\textends O\t[/a.jar]" := by decide +kernel
  have ready : ¬ Waiting ["resolve"] := by
    rintro ⟨word, last, _, _, spelled⟩
    cases Option.mem_some_iff.mp last
    exact CommandLine.not_bare_of_word spelled (CommandLine.Called.resolve "A").bare
  obtain ⟨_, _, asked⟩ := output_whole_or_none filesOfA "/home" ["resolve", "A", "--dir", "/"]
  obtain ⟨_, shown⟩ := asked requestForA asks_for_A
  obtain ⟨⟨exit, _, text⟩, added, _⟩ := shown _ comesTo_typeA
  obtain ⟨⟨exitJson, _, items, readBack, rows⟩, _⟩ :=
    added ["resolve"] ["A", "--dir", "/"] rfl (by simp) ready rfl
  refine ⟨exit, ?_, exitJson, ?_⟩
  · simpa [row, requestForA] using text
  · obtain ⟨item, rfl⟩ : ∃ item, items = [item] := by
      have one := congrArg List.length rows
      simpa [List.length_eq_one_iff] using one
    refine ⟨item, readBack, ?_⟩
    simpa [row] using rows

end Command
end PluginLoader

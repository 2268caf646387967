import PluginLoader.Proofs.Command.Line
import PluginLoader.Proofs.FileSystem.Names

/-! Command lines are read as what they ask: the reader gives a request exactly for the lines that
ask for it. It takes a word at a time, and takes over at once what a word sets. -/
namespace PluginLoader

open FileSystem (bind_eq_ok)
open RequestOptions CommandLine

/-! ### Settings -/

namespace Setting
variable {o after : RequestOptions} {settings : List Setting}

/-- Take over one setting. -/
def set (o : RequestOptions) : Setting → Except NoRequest RequestOptions
  | .value option text => o.setValue text option
  | .debug => o.setFlag .debug
  | .json => o.setFlag .json

def setAll : RequestOptions → List Setting → Except NoRequest RequestOptions
  | o, [] => .ok o
  | o, setting :: more => do setAll (← setting.set o) more

theorem setAll_append {more : List Setting} : setAll o (settings ++ more) = .ok after ↔
    ∃ between, setAll o settings = .ok between ∧ setAll between more = .ok after := by
  induction settings generalizing o with
  | nil => simp [setAll]
  | cons setting settings ih =>
    simp only [List.cons_append, setAll, bind_eq_ok, ih]
    constructor
    · rintro ⟨next, one, between, rest, last⟩
      exact ⟨between, ⟨next, one, rest⟩, last⟩
    · rintro ⟨between, ⟨next, one, rest⟩, last⟩
      exact ⟨next, one, between, rest, last⟩

theorem setAll_single {setting : Setting} :
    setAll o [setting] = .ok after ↔ setting.set o = .ok after := by
  simp only [setAll, bind_eq_ok, Except.ok.injEq, exists_eq_right]

theorem set_config {text : String} : (value .config text).set o = .ok after ↔
    o.config = none ∧ { o with config := some text } = after := by
  simp only [set, setValue]
  cases o.config <;> simp

theorem set_directory {text : String} : (value .directory text).set o = .ok after ↔
    o.directory = none ∧ text ≠ "" ∧ { o with directory := some text } = after := by
  simp only [set, setValue]
  by_cases empty : text = "" <;> cases o.directory <;> simp [empty]

theorem set_debug : debug.set o = .ok after ↔
    o.debug = false ∧ { o with debug := true } = after := by
  simp only [set, setFlag]
  cases o.debug <;> simp

theorem set_json : json.set o = .ok after ↔
    o.json = false ∧ { o with json := true } = after := by
  simp only [set, setFlag]
  cases o.json <;> simp

theorem toList_inj {one other : Option String} : one.toList = other.toList ↔ one = other := by
  cases one <;> cases other <;> simp

theorem toNat_inj {one other : Bool} : one.toNat = other.toNat ↔ one = other := by
  cases one <;> cases other <;> simp

/-- Taking over settings adds each to what there is, and fails where there is something already. -/
theorem setAll_ok : setAll o settings = .ok after ↔
    o.config.toList ++ settings.filterMap config? = after.config.toList ∧
    o.directory.toList ++ settings.filterMap directory? = after.directory.toList ∧
    "" ∉ settings.filterMap directory? ∧
    o.debug.toNat + settings.countP isDebug = after.debug.toNat ∧
    o.json.toNat + settings.countP isJson = after.json.toNat := by
  induction settings generalizing o with
  | nil =>
    obtain ⟨config, directory, debug, json⟩ := o
    obtain ⟨config', directory', debug', json'⟩ := after
    simp [setAll, toList_inj, toNat_inj]
  | cons setting settings ih =>
    obtain ⟨config, directory, debug, json⟩ := o
    obtain ⟨config', directory', debug', json'⟩ := after
    rw [setAll, bind_eq_ok]
    simp only [ih, List.filterMap_cons, List.countP_cons]
    clear ih
    generalize settings.filterMap config? = paths
    generalize settings.filterMap directory? = directories
    generalize settings.countP isDebug = debugs
    generalize settings.countP isJson = jsons
    cases setting with
    | value option text =>
      cases option with
      | config =>
        cases config with
        | none => simp [set_config, config?, directory?, isDebug, isJson]
        | some text => cases config' <;> simp [set_config, config?]
      | directory =>
        cases directory with
        | none =>
          simp [set_directory, config?, directory?, isDebug, isJson]
          grind
        | some text => cases directory' <;> simp [set_directory, directory?]
    | debug =>
      cases debug <;> cases debug' <;>
        simp [set_debug, config?, directory?, isDebug, isJson]
    | json =>
      cases json <;> cases json' <;>
        simp [set_json, config?, directory?, isDebug, isJson]

end Setting

/-! ### Words -/

namespace RequestOptions
variable {position : Position} {o after : RequestOptions} {waiting : Option Valued}

open Setting (setAll setAll_append setAll_single)

theorem short_cases {letter : Char} {found : Valued ⊕ Flag}
    (short : short? position letter = some found) :
    letter = 'c' ∧ found = .inl .config ∨ letter = 'd' ∧ found = .inr .debug ∨
      found = .inr .help ∨ found = .inr .version := by
  unfold short? at short
  split at short
  · cases short
    exact .inl ⟨rfl, rfl⟩
  · cases short
    exact .inr (.inl ⟨rfl, rfl⟩)
  · cases short
    exact .inr (.inr (.inl rfl))
  · split at short <;> cases short
    exact .inr (.inr (.inr rfl))
  · cases short

theorem readShort_ok {letters : List Char} :
    readShort position o letters = .ok (after, waiting) ↔
      ∃ settings, Letters letters settings waiting ∧ setAll o settings = .ok after := by
  induction letters generalizing o with
  | nil =>
    constructor
    · rintro ⟨⟩
      exact ⟨[], .nil, rfl⟩
    · rintro ⟨_, ⟨⟩, same⟩
      cases same
      rfl
  | cons letter rest ih =>
    constructor
    · intro reading
      simp only [readShort] at reading
      split at reading
      · rename_i flag short
        obtain ⟨next, set, later⟩ := bind_eq_ok.mp reading
        obtain ⟨_, ⟨⟩⟩ | ⟨rfl, ⟨⟩⟩ | ⟨⟨⟩⟩ | ⟨⟨⟩⟩ := short_cases short
        · obtain ⟨settings, letters, more⟩ := ih.mp later
          exact ⟨_, .debug letters, bind_eq_ok.mpr ⟨next, set, more⟩⟩
        · cases set
        · cases set
      · rename_i short
        obtain ⟨rfl, ⟨⟩⟩ | ⟨_, ⟨⟩⟩ | ⟨⟨⟩⟩ | ⟨⟨⟩⟩ := short_cases short
        cases reading
        exact ⟨[], .next, rfl⟩
      · rename_i value short
        obtain ⟨rfl, ⟨⟩⟩ | ⟨_, ⟨⟩⟩ | ⟨⟨⟩⟩ | ⟨⟨⟩⟩ := short_cases short
        obtain ⟨next, set, ⟨⟩⟩ := bind_eq_ok.mp reading
        exact ⟨_, .equals value, setAll_single.mpr set⟩
      · rename_i rest _ _ _ short full noEquals
        obtain ⟨rfl, ⟨⟩⟩ | ⟨_, ⟨⟩⟩ | ⟨⟨⟩⟩ | ⟨⟨⟩⟩ := short_cases short
        obtain ⟨next, set, ⟨⟩⟩ := bind_eq_ok.mp reading
        cases rest with
        | nil => exact absurd rfl full
        | cons c value =>
          refine ⟨_, .attached ?_, setAll_single.mpr set⟩
          rintro rfl
          exact noEquals value rfl
      · cases reading
    · rintro ⟨settings, spelled, set⟩
      cases spelled with
      | debug letters =>
        obtain ⟨next, set, more⟩ := bind_eq_ok.mp set
        exact bind_eq_ok.mpr ⟨next, set, ih.mpr ⟨_, letters, more⟩⟩
      | next =>
        cases set
        rfl
      | equals value => exact bind_eq_ok.mpr ⟨after, setAll_single.mp set, rfl⟩
      | @attached c value other =>
        have reads : readShort position o ('c' :: c :: value) =
            (do return (← o.setValue (String.ofList (c :: value)) .config, none)) := by
          rw [readShort.eq_def]
          simp [short?, other]
        rw [reads]
        exact bind_eq_ok.mpr ⟨after, setAll_single.mp set, rfl⟩

theorem long_cases {name : String} {found : Valued ⊕ Flag}
    (long : long? position name = some found) :
    (∃ option, "--" ++ name = longName option ∧ found = .inl option) ∨
      name = "debug" ∧ found = .inr .debug ∨ name = "json" ∧ found = .inr .json ∨
      found = .inr .help ∨ found = .inr .version := by
  unfold long? at long
  split at long
  · cases long
    exact .inl ⟨.config, rfl, rfl⟩
  · cases long
    exact .inl ⟨.directory, rfl, rfl⟩
  · cases long
    exact .inr (.inl ⟨rfl, rfl⟩)
  · cases long
    exact .inr (.inr (.inl ⟨rfl, rfl⟩))
  · cases long
    exact .inr (.inr (.inr (.inl rfl)))
  · split at long <;> cases long
    exact .inr (.inr (.inr (.inr rfl)))
  · cases long

/-- What is left behind a name begins with an equals sign. -/
theorem equals_of_dropWhile {text value : List Char} {c : Char}
    (left : text.dropWhile (· ≠ '=') = c :: value) : c = '=' := by
  have first := List.head?_dropWhile_not (· ≠ '=') text
  rw [left] at first
  simpa using first

theorem word_of_readLong {text : List Char}
    (reading : readLong position o text = .ok (after, waiting)) :
    ∃ settings, Word (String.ofList ('-' :: '-' :: text)) settings waiting ∧
      setAll o settings = .ok after := by
  have word (rest : List Char) (same : text.dropWhile (· ≠ '=') = rest) :
      String.ofList ('-' :: '-' :: text) =
        "--" ++ String.ofList (text.takeWhile (· ≠ '=')) ++ String.ofList rest := by
    rw [← String.toList_inj, ← same]
    simp
  simp only [readLong] at reading
  split at reading
  · rename_i option long rest
    cases reading
    obtain ⟨_, name, ⟨⟩⟩ | ⟨_, ⟨⟩⟩ | ⟨_, ⟨⟩⟩ | ⟨⟨⟩⟩ | ⟨⟨⟩⟩ := long_cases long
    rw [word _ rest, name, String.ofList_nil, String.append_empty]
    exact ⟨[], .next option, rfl⟩
  · rename_i option c value long rest
    obtain ⟨next, set, ⟨⟩⟩ := bind_eq_ok.mp reading
    obtain ⟨_, name, ⟨⟩⟩ | ⟨_, ⟨⟩⟩ | ⟨_, ⟨⟩⟩ | ⟨⟨⟩⟩ | ⟨⟨⟩⟩ := long_cases long
    cases equals_of_dropWhile rest
    have joined : String.ofList ('=' :: value) = "=" ++ String.ofList value := by
      rw [← String.toList_inj]
      simp
    rw [word _ rest, name, joined, ← String.append_assoc]
    exact ⟨_, .equals _ _, setAll_single.mpr set⟩
  · rename_i flag long rest
    obtain ⟨next, set, ⟨⟩⟩ := bind_eq_ok.mp reading
    obtain ⟨_, _, ⟨⟩⟩ | ⟨name, ⟨⟩⟩ | ⟨name, ⟨⟩⟩ | ⟨⟨⟩⟩ | ⟨⟨⟩⟩ := long_cases long
    · rw [word _ rest, name]
      exact ⟨_, .debug, setAll_single.mpr set⟩
    · rw [word _ rest, name]
      exact ⟨_, .json, setAll_single.mpr set⟩
    · cases set
    · cases set
  · cases reading

theorem word_of_read {argument : String} (dashed : ¬ Bare argument)
    (reading : o.read position argument = .ok (after, waiting)) :
    ∃ settings, Word argument settings waiting ∧ setAll o settings = .ok after := by
  rw [← String.ofList_toList (s := argument)]
  unfold RequestOptions.read at reading
  split at reading
  · rename_i name same
    rw [same]
    exact word_of_readLong reading
  · rename_i letters _ same
    rw [same]
    obtain ⟨settings, spelled, set⟩ := readShort_ok.mp reading
    refine ⟨settings, .letters ?_ spelled, set⟩
    rintro rfl
    refine dashed fun c rest long => ?_
    cases same.symm.trans long
  · cases reading

theorem read_of_word {argument : String} {settings : List Setting}
    (word : Word argument settings waiting) (set : setAll o settings = .ok after) :
    o.read position argument = .ok (after, waiting) := by
  cases word with
  | debug => exact bind_eq_ok.mpr ⟨after, setAll_single.mp set, rfl⟩
  | json => exact bind_eq_ok.mpr ⟨after, setAll_single.mp set, rfl⟩
  | next option =>
    cases set
    cases option <;> rfl
  | equals option value =>
    have reads : o.read position (longName option ++ "=" ++ value) =
        (do return (← o.setValue (String.ofList value.toList) option, none)) := by
      unfold RequestOptions.read
      cases option with
      | config =>
        have text : (longName .config ++ "=" ++ value).toList =
            '-' :: '-' :: 'c' :: 'o' :: 'n' :: 'f' :: 'i' :: 'g' :: '=' :: value.toList := by
          simp [longName]
        rw [text]
        rfl
      | directory =>
        have text : (longName .directory ++ "=" ++ value).toList =
            '-' :: '-' :: 'd' :: 'i' :: 'r' :: '=' :: value.toList := by
          simp [longName]
        rw [text]
        rfl
    rw [reads, String.ofList_toList]
    exact bind_eq_ok.mpr ⟨after, setAll_single.mp set, rfl⟩
  | @letters letters _ _ nonempty spelled =>
    have reads : o.read position (String.ofList ('-' :: letters)) =
        readShort position o letters := by
      unfold RequestOptions.read
      rw [String.toList_ofList]
      cases spelled with
      | nil => exact absurd rfl nonempty
      | _ => rfl
    rw [reads]
    exact readShort_ok.mpr ⟨_, spelled, set⟩

/-! ### Lines of words -/

theorem looksLikeOption_iff {word : String} : looksLikeOption word = true ↔ ¬ Bare word := by
  unfold looksLikeOption
  split
  · rename_i c rest same
    simp only [true_iff]
    exact fun bare => bare c rest same
  · rename_i short
    simp only [Bool.false_eq_true, false_iff, Classical.not_not]
    exact short

/-- Options end at a word that is none, and at a `--`. -/
theorem stops_iff {word : String} : (!looksLikeOption word || decide (word = "--")) = true ↔
    Bare word ∨ word = "--" := by
  rw [Bool.or_eq_true, Bool.not_eq_true', ← Bool.not_eq_true, looksLikeOption_iff,
    Classical.not_not, decide_eq_true_iff]

/-- Where options end: at an operand, at a `--`, or with the line. -/
def Stops (rest : List String) : Prop := ∀ word ∈ rest.head?, Bare word ∨ word = "--"

theorem words_of_readAll {arguments rest : List String}
    (reading : readAll position o waiting arguments = .ok (after, rest)) :
    Stops rest ∧ ∃ words settings, arguments = words ++ rest ∧ Words waiting words settings [] ∧
      "--" ∉ words ∧ setAll o settings = .ok after := by
  induction arguments generalizing o waiting with
  | nil =>
    cases waiting with
    | some option => cases reading
    | none =>
      cases reading
      exact ⟨by simp [Stops], [], [], rfl, .nil, List.not_mem_nil, rfl⟩
  | cons argument more ih =>
    cases waiting with
    | some option =>
      simp only [readAll] at reading
      split at reading
      · cases reading
      · rename_i bare
        rw [looksLikeOption_iff, Classical.not_not] at bare
        obtain ⟨next, set, later⟩ := bind_eq_ok.mp reading
        obtain ⟨stops, words, settings, rfl, line, free, all⟩ := ih later
        refine ⟨stops, argument :: words, .value option argument :: settings, rfl,
          .value bare line, ?_, bind_eq_ok.mpr ⟨next, set, all⟩⟩
        exact List.not_mem_cons_of_ne_of_not_mem (ne_dashes_of_bare bare).symm free
    | none =>
      simp only [readAll] at reading
      split at reading
      · rename_i stop
        cases reading
        refine ⟨?_, [], [], rfl, .nil, List.not_mem_nil, rfl⟩
        rintro word ⟨⟩
        exact stops_iff.mp stop
      · rename_i go
        rw [stops_iff, not_or] at go
        obtain ⟨⟨next, following⟩, read, later⟩ := bind_eq_ok.mp reading
        obtain ⟨stops, words, settings, rfl, line, free, all⟩ := ih later
        obtain ⟨set, word, front⟩ := word_of_read go.1 read
        exact ⟨stops, argument :: words, set ++ settings, rfl, .option word line,
          List.not_mem_cons_of_ne_of_not_mem (Ne.symm go.2) free,
          setAll_append.mpr ⟨next, front, all⟩⟩

theorem readAll_of_words {words rest : List String} {settings : List Setting}
    (line : Words waiting words settings []) (free : "--" ∉ words) (stops : Stops rest)
    (set : setAll o settings = .ok after) :
    readAll position o waiting (words ++ rest) = .ok (after, rest) := by
  generalize none_left : ([] : List String) = operands at line
  induction line generalizing o with
  | nil =>
    cases set
    cases rest with
    | nil => rfl
    | cons word rest =>
      rw [List.nil_append, readAll, if_pos (stops_iff.mpr (stops word rfl))]
  | @option word settings more waiting words operands spelled _ ih =>
    obtain ⟨next, front, all⟩ := setAll_append.mp set
    have go : ¬ (Bare word ∨ word = "--") := not_or.mpr
      ⟨not_bare_of_word spelled, fun same => free (same ▸ List.mem_cons_self)⟩
    rw [List.cons_append, readAll, if_neg (mt stops_iff.mp go)]
    exact bind_eq_ok.mpr ⟨(next, waiting), read_of_word spelled front,
      ih (List.not_mem_of_not_mem_cons free) all none_left⟩
  | value bare _ ih =>
    obtain ⟨next, front, all⟩ := bind_eq_ok.mp set
    have plain : ¬ looksLikeOption _ = true := fun dashed => looksLikeOption_iff.mp dashed bare
    rw [List.cons_append, readAll, if_neg plain]
    exact bind_eq_ok.mpr ⟨next, front, ih (List.not_mem_of_not_mem_cons free) all none_left⟩
  | operand => cases none_left
  | raw => exact absurd List.mem_cons_self free

end RequestOptions

/-! ### Requests -/

namespace CommandLine
variable {waiting : Option Valued} {words line operands : List String}
  {settings first second : List Setting}

theorem Words.append (front : Words waiting words first []) (free : "--" ∉ words)
    (behind : Words none line second operands) :
    Words waiting (words ++ line) (first ++ second) operands := by
  generalize none_left : ([] : List String) = others at front
  induction front with
  | nil => exact behind
  | option spelled _ ih =>
    rw [List.append_assoc]
    exact .option spelled (ih (List.not_mem_of_not_mem_cons free) none_left)
  | value bare _ ih => exact .value bare (ih (List.not_mem_of_not_mem_cons free) none_left)
  | operand => cases none_left
  | raw => exact absurd List.mem_cons_self free

/-- The options that begin a line, and what stops them. -/
theorem Words.split (whole : Words waiting line settings operands) :
    ∃ words rest first second, line = words ++ rest ∧ settings = first ++ second ∧
      Words waiting words first [] ∧ "--" ∉ words ∧
      (rest = [] ∧ second = [] ∧ operands = [] ∨ rest = "--" :: operands ∧ second = [] ∨
        ∃ text more others, rest = text :: more ∧ operands = text :: others ∧ Bare text ∧
          Words none more second others) := by
  induction whole with
  | nil => exact ⟨[], [], [], [], rfl, rfl, .nil, List.not_mem_nil, .inl ⟨rfl, rfl, rfl⟩⟩
  | @option word settings _ _ _ _ spelled _ ih =>
    obtain ⟨words, rest, first, second, rfl, rfl, front, free, stops⟩ := ih
    exact ⟨word :: words, rest, settings ++ first, second, rfl, (List.append_assoc ..).symm,
      .option spelled front,
      List.not_mem_cons_of_ne_of_not_mem (ne_dashes_of_word spelled).symm free, stops⟩
  | @value option text _ _ _ bare _ ih =>
    obtain ⟨words, rest, first, second, rfl, rfl, front, free, stops⟩ := ih
    exact ⟨text :: words, rest, .value option text :: first, second, rfl, rfl,
      .value bare front,
      List.not_mem_cons_of_ne_of_not_mem (ne_dashes_of_bare bare).symm free, stops⟩
  | operand bare more _ =>
    exact ⟨[], _, [], _, rfl, rfl, .nil, List.not_mem_nil,
      .inr (.inr ⟨_, _, _, rfl, rfl, bare, more⟩)⟩
  | raw operands =>
    exact ⟨[], _, [], [], rfl, rfl, .nil, List.not_mem_nil, .inr (.inl ⟨rfl, rfl⟩)⟩

end CommandLine

namespace Request
variable {command : CommandName} {left : Nat} {o after : RequestOptions}
  {arguments values operands : List String}

theorem rawOperands_ok : rawOperands command left o values = .ok ⟨after, operands⟩ ↔
    o = after ∧ values = operands ∧ values.length ≤ left ∧
      ∀ value ∈ values, command.accepts value = true := by
  unfold rawOperands
  split <;> rename_i fits <;>
    rw [Bool.and_eq_true, decide_eq_true_iff, List.all_eq_true] at fits
  · simp only [Except.ok.injEq, Operands.mk.injEq]
    exact ⟨fun ⟨same, raw⟩ => ⟨same, raw, fits⟩, fun ⟨same, raw, _⟩ => ⟨same, raw⟩⟩
  · simp only [reduceCtorEq, false_iff]
    exact fun all => fits all.2.2

/-- Take an operand and go on behind it. -/
def takeOperand (command : CommandName) (o : RequestOptions) (text : String) (more : List String) :
    Nat → Except NoRequest Operands
  | 0 => .error .misuse
  | left + 1 =>
    if command.accepts text then do
      let read ← readOperands command left o more
      return { read with values := text :: read.values }
    else .error .misuse

/-- Go on where options have stopped: with the line, at a `--`, or at an operand. -/
def resume (command : CommandName) (left : Nat) (o : RequestOptions) :
    List String → Except NoRequest Operands
  | [] => .ok ⟨o, []⟩
  | text :: more =>
    if text = "--" then rawOperands command left o more else takeOperand command o text more left

theorem resume_raw :
    resume command left o ("--" :: values) = rawOperands command left o values := by
  rw [resume, if_pos rfl]

theorem resume_operand {text : String} (operand : text ≠ "--") :
    resume command left o (text :: values) = takeOperand command o text values left := by
  rw [resume, if_neg operand]

theorem readOperands_eq (arguments : List String) : readOperands command left o arguments = (do
    let (next, rest) ← readAll .behind o none arguments
    resume command left next rest) := by
  cases left <;> rw [readOperands] <;> cases readAll .behind o none arguments with
  | error _ => rfl
  | ok found =>
    obtain ⟨next, rest⟩ := found
    simp only [bind, Except.bind]
    split
    · rename_i same
      cases same
      rfl
    · rename_i same
      cases same
      rfl
    · rename_i text more other same
      cases same
      have operand : text ≠ "--" := by
        rintro rfl
        exact other rfl
      rw [resume_operand operand]
      rfl

theorem readOperands_ok {read : Operands} :
    readOperands command left o arguments = .ok read ↔
      ∃ next rest, readAll .behind o none arguments = .ok (next, rest) ∧
        resume command left next rest = .ok read := by
  rw [readOperands_eq, bind_eq_ok, Prod.exists]

theorem takeOperand_ok {text : String} {read : Operands} :
    takeOperand command o text values left = .ok read ↔ ∃ fewer more, left = fewer + 1 ∧
      command.accepts text = true ∧ readOperands command fewer o values = .ok more ∧
      { more with values := text :: more.values } = read := by
  constructor
  · intro reading
    cases left with
    | zero => cases reading
    | succ fewer =>
      rw [takeOperand] at reading
      split at reading
      · rename_i accepted
        obtain ⟨more, later, ⟨⟩⟩ := bind_eq_ok.mp reading
        exact ⟨fewer, more, rfl, accepted, later, rfl⟩
      · cases reading
  · rintro ⟨fewer, more, rfl, accepted, later, rfl⟩
    rw [takeOperand, if_pos accepted]
    exact bind_eq_ok.mpr ⟨more, later, rfl⟩

theorem words_of_readOperands {read : Operands}
    (reading : readOperands command left o arguments = .ok read) :
    read.values.length ≤ left ∧ (∀ value ∈ read.values, command.accepts value = true) ∧
      ∃ settings, Words none arguments settings read.values ∧
        Setting.setAll o settings = .ok read.options := by
  induction left using Nat.strongRecOn generalizing o arguments read with
  | ind left ih =>
    obtain ⟨next, rest, front, resumes⟩ := readOperands_ok.mp reading
    obtain ⟨stops, words, settings, rfl, line, free, set⟩ := words_of_readAll front
    cases rest with
    | nil =>
      cases resumes
      exact ⟨Nat.zero_le _, by simp, settings, (List.append_nil words).symm ▸ line, set⟩
    | cons text more =>
      by_cases raw : text = "--"
      · rw [raw, resume_raw] at resumes
        obtain ⟨rfl, rfl, few, accepted⟩ := rawOperands_ok.mp resumes
        have whole := line.append free (.raw read.values)
        rw [List.append_nil] at whole
        exact ⟨few, accepted, settings, raw ▸ whole, set⟩
      · rw [resume_operand raw] at resumes
        obtain ⟨fewer, read, rfl, accepted, later, rfl⟩ := takeOperand_ok.mp resumes
        obtain ⟨few, all, behind, lineBehind, setBehind⟩ := ih fewer (Nat.lt_succ_self _) later
        have bare := (stops text rfl).resolve_right raw
        refine ⟨Nat.succ_le_succ few, ?_, settings ++ behind, ?_, ?_⟩
        · exact List.forall_mem_cons.mpr ⟨accepted, all⟩
        · exact line.append free (.operand bare lineBehind)
        · exact Setting.setAll_append.mpr ⟨next, set, setBehind⟩

theorem readOperands_of_words {settings : List Setting}
    (words : Words none arguments settings values) (set : Setting.setAll o settings = .ok after)
    (few : values.length ≤ left) (accepted : ∀ value ∈ values, command.accepts value = true) :
    readOperands command left o arguments = .ok ⟨after, values⟩ := by
  induction left using Nat.strongRecOn generalizing o arguments settings values with
  | ind left ih =>
    obtain ⟨words, rest, first, second, rfl, rfl, front, free, stops⟩ := words.split
    obtain ⟨next, setFront, setBehind⟩ := Setting.setAll_append.mp set
    refine readOperands_ok.mpr ⟨next, rest, readAll_of_words front free ?_ setFront, ?_⟩
    · rcases stops with ⟨rfl, _⟩ | ⟨rfl, _⟩ | ⟨text, _, _, rfl, _, bare, _⟩
      · rintro word ⟨⟩
      · rintro word ⟨⟩
        exact .inr rfl
      · rintro word ⟨⟩
        exact .inl bare
    · rcases stops with ⟨rfl, rfl, rfl⟩ | ⟨rfl, rfl⟩ | ⟨text, more, others, rfl, rfl, bare, behind⟩
      · cases setBehind
        rfl
      · cases setBehind
        rw [resume_raw]
        exact rawOperands_ok.mpr ⟨rfl, rfl, few, accepted⟩
      · obtain ⟨acceptedText, acceptedOthers⟩ := List.forall_mem_cons.mp accepted
        obtain ⟨fewer, rfl⟩ := Nat.exists_eq_add_one_of_ne_zero (Nat.ne_zero_of_lt few)
        have later := ih fewer (Nat.lt_succ_self _) behind setBehind (Nat.le_of_succ_le_succ few)
          acceptedOthers
        rw [resume_operand (ne_dashes_of_bare bare)]
        exact takeOperand_ok.mpr ⟨fewer, _, rfl, acceptedText, later, rfl⟩

theorem ne_help_of_called {word : String} {query : Query} (called : Called word values query) :
    word ≠ "help" := by
  cases called <;> decide

theorem ofText_eq_some {word : String} : CommandName.ofText? word = some command ↔
    word = match command with
      | .list => "list"
      | .entries => "entries"
      | .resolve => "resolve"
      | .subtypes => "subtypes" := by
  constructor
  · intro known
    unfold CommandName.ofText? at known
    split at known <;> cases known <;> rfl
  · rintro rfl
    cases command <;> rfl

/-- A command is known by its word and takes its operands. -/
theorem called_iff {word : String} {query : Query} : Called word values query ↔
    ∃ command, CommandName.ofText? word = some command ∧ values.length ≤ command.operands ∧
      (∀ value ∈ values, command.accepts value = true) ∧
      command.query? values = some query := by
  simp only [ofText_eq_some]
  constructor
  · intro called
    cases called with
    | list => exact ⟨.list, rfl, Nat.le_refl _, List.forall_mem_nil _, rfl⟩
    | entries named =>
      exact ⟨.entries, rfl, Nat.le_refl _, by simpa [CommandName.accepts] using named, rfl⟩
    | resolve name => exact ⟨.resolve, rfl, Nat.le_refl _, by simp [CommandName.accepts], rfl⟩
    | subtypes base => exact ⟨.subtypes, rfl, Nat.le_refl _, by simp [CommandName.accepts], rfl⟩
  · rintro ⟨command, rfl, _, accepted, asked⟩
    unfold CommandName.query? at asked
    split at asked <;> cases asked
    · exact .list
    · exact .entries (by simpa [CommandName.accepts] using accepted)
    · exact .resolve _
    · exact .subtypes _

/-- Options that were set on none are those given. -/
theorem given_iff {settings : List Setting} :
    Given settings o ↔ Setting.setAll {} settings = .ok o := by
  have unnamed (directory : settings.filterMap Setting.directory? = o.directory.toList) :
      o.directory ≠ some "" ↔ "" ∉ settings.filterMap Setting.directory? := by
    rw [directory, Option.mem_toList]
  rw [Setting.setAll_ok]
  simp only [Option.toList_none, List.nil_append, Bool.toNat_false, Nat.zero_add]
  constructor
  · rintro ⟨config, directory, named, debug, json⟩
    exact ⟨config, directory, (unnamed directory).mp named, debug, json⟩
  · rintro ⟨config, directory, named, debug, json⟩
    exact ⟨config, directory, (unnamed directory).mpr named, debug, json⟩

theorem orElse_eq (inner outer : RequestOptions) : inner.orElse outer =
    { config := inner.config.or outer.config
      directory := inner.directory.or outer.directory
      debug := inner.debug || outer.debug
      json := inner.json || outer.json } := by
  simp [RequestOptions.orElse]

/-- What a line asks with the word of a command. -/
def ask (outer : RequestOptions) (word : String) (more : List String) : Except NoRequest Request :=
  match CommandName.ofText? word with
  | none => .error .misuse
  | some command => do
    let behind ← readOperands command command.operands {} more
    match command.query? behind.values with
    | some query => return { options := behind.options.orElse outer, query }
    | none => .error .misuse

theorem ofArguments_of_word {outer : RequestOptions} {word : String} {more : List String}
    (reading : readAll .front {} none arguments = .ok (outer, word :: more))
    (other : word ≠ "help") : ofArguments arguments = ask outer word more := by
  unfold ofArguments
  rw [reading]
  dsimp only [bind, Except.bind]
  split
  · rename_i same
    exact absurd (List.cons.inj same).1 other
  · rename_i same
    cases same
    rfl
  · rename_i same
    cases same

/-- A line is read as a request exactly if it asks for it. -/
theorem ofArguments_eq_ok {r : Request} : ofArguments arguments = .ok r ↔ Asks arguments r := by
  constructor
  · intro reading
    obtain ⟨⟨outer, rest⟩, front, later⟩ := bind_eq_ok.mp reading
    obtain ⟨_, words, first, rfl, line, free, set⟩ := words_of_readAll front
    dsimp only at later
    split at later
    · cases later
    · rename_i word behind _
      split at later
      · cases later
      · rename_i command known
        obtain ⟨read, operands, last⟩ := bind_eq_ok.mp later
        split at last
        · rename_i query asked
          cases last
          obtain ⟨few, accepted, second, lineBehind, setBehind⟩ := words_of_readOperands operands
          have called := called_iff.mpr ⟨command, known, few, accepted, asked⟩
          rw [orElse_eq]
          exact .intro line free (given_iff.mpr set) called lineBehind (given_iff.mpr setBehind)
        · cases last
    · cases later
  · intro asks
    cases asks with
    | @intro front behind operands word first second outer inner query ahead free given called
        words givenBehind =>
      obtain ⟨command, known, few, accepted, asked⟩ := called_iff.mp called
      have stops : Stops (word :: behind) := by
        rintro _ ⟨⟩
        exact .inl called.bare
      have reads : readAll .front {} none (front ++ word :: behind) = .ok (outer, word :: behind) :=
        readAll_of_words ahead free stops (given_iff.mp given)
      have later := readOperands_of_words words (given_iff.mp givenBehind) few accepted
      rw [← orElse_eq, ofArguments_of_word reads (ne_help_of_called called), ask, known]
      refine bind_eq_ok.mpr ⟨_, later, ?_⟩
      simp only [asked]
      rfl

end Request
end PluginLoader

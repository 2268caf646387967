import PluginLoader.Request

/-! Command lines, said without a reader. A line is options, the word of a command, and behind it
options among operands, up to a `--` behind which all is operands. Options are set once in each
place at most; those behind the command win. A line asks the same in JSON with the flag for it at
any place where options may stand. -/
namespace PluginLoader

open RequestOptions (Valued)

/-- What one option sets. -/
inductive Setting where
  | value (option : Valued) (text : String)
  | debug
  | json

namespace Setting

def config? : Setting → Option String
  | .value .config text => some text
  | _ => none

def directory? : Setting → Option String
  | .value .directory text => some text
  | _ => none

def isDebug : Setting → Bool
  | .debug => true
  | _ => false

def isJson : Setting → Bool
  | .json => true
  | _ => false

end Setting

/-- The settings of one place, and the options they come to. Nothing is set twice, and a directory
is not empty. -/
structure Given (settings : List Setting) (o : RequestOptions) : Prop where
  config : settings.filterMap Setting.config? = o.config.toList
  directory : settings.filterMap Setting.directory? = o.directory.toList
  named : o.directory ≠ some ""
  debug : settings.countP Setting.isDebug = o.debug.toNat
  json : settings.countP Setting.isJson = o.json.toNat

namespace CommandLine

def longName : Valued → String
  | .config => "--config"
  | .directory => "--dir"

/-- Letters of options in one word, and the option whose value is the next word. What follows the
letter of an option with a value is its value, behind an equals sign or not. -/
inductive Letters : List Char → List Setting → Option Valued → Prop where
  | nil : Letters [] [] none
  | debug {letters : List Char} {settings : List Setting} {waiting : Option Valued} :
      Letters letters settings waiting → Letters ('d' :: letters) (.debug :: settings) waiting
  | next : Letters ['c'] [] (some .config)
  | equals (value : List Char) :
      Letters ('c' :: '=' :: value) [.value .config (String.ofList value)] none
  | attached {c : Char} {value : List Char} : c ≠ '=' →
      Letters ('c' :: c :: value) [.value .config (String.ofList (c :: value))] none

/-- A word of options, what it sets, and the option whose value is the next word. -/
inductive Word : String → List Setting → Option Valued → Prop where
  | debug : Word "--debug" [.debug] none
  | json : Word "--json" [.json] none
  | next (option : Valued) : Word (longName option) [] (some option)
  | equals (option : Valued) (value : String) :
      Word (longName option ++ "=" ++ value) [.value option value] none
  | letters {letters : List Char} {settings : List Setting} {waiting : Option Valued} :
      letters ≠ [] → Letters letters settings waiting →
      Word (String.ofList ('-' :: letters)) settings waiting

/-- A word that is a value or an operand: a dash begins it only if it is all of it. -/
def Bare (word : String) : Prop := ∀ c rest, word.toList ≠ '-' :: c :: rest

/-- Words behind an option that waits for its value, or behind none, with all they set and the
operands among them. -/
inductive Words : Option Valued → List String → List Setting → List String → Prop where
  | nil : Words none [] [] []
  | option {word : String} {settings more : List Setting} {waiting : Option Valued}
      {words operands : List String} : Word word settings waiting →
      Words waiting words more operands → Words none (word :: words) (settings ++ more) operands
  | value {option : Valued} {text : String} {settings : List Setting}
      {words operands : List String} : Bare text → Words none words settings operands →
      Words (some option) (text :: words) (.value option text :: settings) operands
  | operand {text : String} {settings : List Setting} {words operands : List String} :
      Bare text → Words none words settings operands →
      Words none (text :: words) settings (text :: operands)
  | raw (operands : List String) : Words none ("--" :: operands) [] operands

/-- A command by its word and operands, and what it asks. -/
inductive Called : String → List String → Query → Prop where
  | list : Called "list" [] .list
  | entries {archive : String} : archive ≠ "" → Called "entries" [archive] (.entries archive)
  | resolve (name : String) : Called "resolve" [name] (.resolve name)
  | subtypes (base : String) : Called "subtypes" [base] (.subtypes base)

/-- What a line asks for. Of each option the one behind the command counts, else the one in front;
a flag counts in either place. -/
inductive Asks : List String → Request → Prop where
  | intro {front behind operands : List String} {word : String} {first second : List Setting}
      {outer inner : RequestOptions} {query : Query} :
      Words none front first [] → "--" ∉ front → Given first outer → Called word operands query →
      Words none behind second operands → Given second inner →
      Asks (front ++ word :: behind)
        { options :=
            { config := inner.config.or outer.config
              directory := inner.directory.or outer.directory
              debug := inner.debug || outer.debug
              json := inner.json || outer.json }
          query }

/-- Some words end in an option that waits for its value. -/
def Waiting (words : List String) : Prop :=
  ∃ word ∈ words.getLast?, ∃ settings option, Word word settings (some option)

/-- Some words have the command for help. -/
def Helps (words : List String) : Prop :=
  ∃ front settings rest, words = front ++ "help" :: rest ∧ Words none front settings [] ∧
    "--" ∉ front

/-! ### The flag for JSON -/

section
variable {before after line operands : List String} {waiting : Option Valued}
  {settings first second : List Setting} {o : RequestOptions} {r : Request}

theorem json_of_word {word : String} (spelled : Word word settings waiting)
    (same : word = "--json") : settings = [.json] ∧ waiting = none := by
  have texts := congrArg String.toList same
  cases spelled with
  | json => exact ⟨rfl, rfl⟩
  | debug => simp at texts
  | next option => cases option <;> simp [longName] at texts
  | equals option value => cases option <;> simp [longName] at texts
  | letters _ spelled =>
    rw [String.toList_ofList] at texts
    cases spelled <;> simp at texts

theorem ne_dashes_of_word {word : String} (spelled : Word word settings waiting) :
    word ≠ "--" := by
  intro same
  have texts := congrArg String.toList same
  cases spelled with
  | debug | json => simp at texts
  | next option => cases option <;> simp [longName] at texts
  | equals option value => cases option <;> simp [longName] at texts
  | letters _ spelled =>
    rw [String.toList_ofList] at texts
    cases spelled <;> simp at texts

theorem ne_dashes_of_bare {word : String} (bare : Bare word) : word ≠ "--" := by
  rintro rfl
  exact bare '-' [] rfl

theorem not_bare_json : ¬ Bare "--json" := fun bare => bare '-' ['j', 's', 'o', 'n'] rfl

theorem not_bare_of_word {word : String} (spelled : Word word settings waiting) : ¬ Bare word := by
  intro bare
  cases spelled with
  | debug => exact bare '-' ['d', 'e', 'b', 'u', 'g'] rfl
  | json => exact not_bare_json bare
  | next option => cases option <;> exact bare '-' _ rfl
  | equals option value =>
    cases option <;> exact bare '-' _ (by simp [longName]; rfl)
  | @letters letters _ _ nonempty _ =>
    cases letters with
    | nil => exact nonempty rfl
    | cons c rest => exact bare c rest String.toList_ofList

/-- What is ready for the flag at its end is so behind any of its words. -/
theorem not_waiting_append (words : List String) (ready : ¬ Waiting (words ++ before)) :
    ¬ Waiting before := by
  rintro ⟨last, isLast, waits⟩
  refine ready ⟨last, ?_, waits⟩
  rw [List.getLast?_append, Option.mem_def.mp isLast]
  rfl

theorem Called.bare {word : String} {query : Query} (called : Called word operands query) :
    Bare word := by
  intro c rest dashed
  cases called <;> simp at dashed

theorem Words.flag (words : Words none line settings operands) :
    Words none ("--json" :: line) (.json :: settings) operands := by
  have flagged : Words none ("--json" :: line) ([.json] ++ settings) operands :=
    .option .json words
  exact flagged

/-- The flag may stand wherever no option waits for its value, up to a `--`. -/
theorem Words.add (words : Words waiting line settings operands) (whole : line = before ++ after)
    (options : "--" ∉ before) (ready : ¬ Waiting before) (start : before = [] → waiting = none) :
    ∃ first second, settings = first ++ second ∧
      Words waiting (before ++ "--json" :: after) (first ++ .json :: second) operands := by
  induction words generalizing before with
  | nil =>
    obtain ⟨rfl, rfl⟩ := List.append_eq_nil_iff.mp whole.symm
    exact ⟨[], [], rfl, Words.nil.flag⟩
  | @option word settings more waiting words operands spelled rest ih =>
    cases before with
    | nil =>
      have words := Words.option spelled rest
      exact ⟨[], _, rfl, (whole ▸ words).flag⟩
    | cons head before =>
      obtain ⟨rfl, tail⟩ := List.cons.inj whole
      have start : before = [] → waiting = none := by
        rintro rfl
        cases waiting with
        | none => rfl
        | some option => exact absurd ⟨word, rfl, settings, option, spelled⟩ ready
      obtain ⟨first, second, rfl, added⟩ := ih tail (List.not_mem_of_not_mem_cons options)
        (not_waiting_append [_] ready) start
      refine ⟨settings ++ first, second, (List.append_assoc ..).symm, ?_⟩
      rw [List.append_assoc]
      exact .option spelled added
  | value bare rest ih =>
    cases before with
    | nil => cases start rfl
    | cons head before =>
      obtain ⟨rfl, tail⟩ := List.cons.inj whole
      obtain ⟨first, second, rfl, added⟩ := ih tail (List.not_mem_of_not_mem_cons options)
        (not_waiting_append [_] ready) fun _ => rfl
      exact ⟨_ :: first, second, rfl, .value bare added⟩
  | operand bare rest ih =>
    cases before with
    | nil =>
      have words := Words.operand bare rest
      exact ⟨[], _, rfl, (whole ▸ words).flag⟩
    | cons head before =>
      obtain ⟨rfl, tail⟩ := List.cons.inj whole
      obtain ⟨first, second, rfl, added⟩ := ih tail (List.not_mem_of_not_mem_cons options)
        (not_waiting_append [_] ready) fun _ => rfl
      exact ⟨first, second, rfl, .operand bare added⟩
  | raw values =>
    cases before with
    | nil =>
      have words := Words.raw values
      exact ⟨[], [], rfl, (whole ▸ words).flag⟩
    | cons head before =>
      obtain ⟨rfl, _⟩ := List.cons.inj whole
      exact absurd List.mem_cons_self options

theorem Words.remove (words : Words waiting line settings operands)
    (whole : line = before ++ "--json" :: after) (options : "--" ∉ before) :
    ∃ first second, settings = first ++ .json :: second ∧
      Words waiting (before ++ after) (first ++ second) operands := by
  induction words generalizing before with
  | nil => cases before <;> cases whole
  | @option word settings more waiting words operands spelled rest ih =>
    cases before with
    | nil =>
      obtain ⟨same, rfl⟩ := List.cons.inj whole
      obtain ⟨rfl, rfl⟩ := json_of_word spelled same
      exact ⟨[], more, rfl, rest⟩
    | cons head before =>
      obtain ⟨rfl, tail⟩ := List.cons.inj whole
      obtain ⟨first, second, rfl, removed⟩ := ih tail (List.not_mem_of_not_mem_cons options)
      refine ⟨settings ++ first, second, (List.append_assoc ..).symm, ?_⟩
      rw [List.append_assoc]
      exact .option spelled removed
  | value bare rest ih =>
    cases before with
    | nil =>
      obtain ⟨rfl, _⟩ := List.cons.inj whole
      exact absurd bare not_bare_json
    | cons head before =>
      obtain ⟨rfl, tail⟩ := List.cons.inj whole
      obtain ⟨first, second, rfl, removed⟩ := ih tail (List.not_mem_of_not_mem_cons options)
      exact ⟨_ :: first, second, rfl, .value bare removed⟩
  | operand bare rest ih =>
    cases before with
    | nil =>
      obtain ⟨rfl, _⟩ := List.cons.inj whole
      exact absurd bare not_bare_json
    | cons head before =>
      obtain ⟨rfl, tail⟩ := List.cons.inj whole
      obtain ⟨first, second, rfl, removed⟩ := ih tail (List.not_mem_of_not_mem_cons options)
      exact ⟨first, second, rfl, .operand bare removed⟩
  | raw values =>
    cases before with
    | nil => exact absurd (List.cons.inj whole).1 (by decide)
    | cons head before =>
      obtain ⟨rfl, _⟩ := List.cons.inj whole
      exact absurd List.mem_cons_self options

theorem given_add (given : Given (first ++ second) o) (plain : o.json = false) :
    Given (first ++ .json :: second) { o with json := true } where
  config := by simpa [List.filterMap_cons, Setting.config?] using given.config
  directory := by simpa [List.filterMap_cons, Setting.directory?] using given.directory
  named := given.named
  debug := by simpa [Setting.isDebug] using given.debug
  json := by
    have none := given.json
    rw [plain, List.countP_append] at none
    simp only [List.countP_append, List.countP_cons, Setting.isJson, if_true, Bool.toNat_true]
    simp only [Bool.toNat_false] at none
    omega

theorem given_remove (given : Given (first ++ .json :: second) o) :
    o.json = true ∧ Given (first ++ second) { o with json := false } := by
  have one := given.json
  simp only [List.countP_append, List.countP_cons, Setting.isJson, if_true] at one
  cases flag : o.json with
  | false =>
    rw [flag, Bool.toNat_false] at one
    omega
  | true =>
    rw [flag, Bool.toNat_true] at one
    refine ⟨rfl, ?_, ?_, given.named, ?_, ?_⟩
    · simpa [List.filterMap_cons, Setting.config?] using given.config
    · simpa [List.filterMap_cons, Setting.directory?] using given.directory
    · simpa [Setting.isDebug] using given.debug
    · rw [List.countP_append, Bool.toNat_false]
      omega

/-- A place in a line is in front of the command's word or behind it. -/
theorem split_line {front behind : List String} {word : String}
    (whole : front ++ word :: behind = before ++ after) :
    (∃ rest, front = before ++ rest ∧ after = rest ++ word :: behind) ∨
      ∃ rest, before = front ++ word :: rest ∧ behind = rest ++ after := by
  rcases List.append_eq_append_iff.mp whole with ⟨rest, same, later⟩ | ⟨rest, same, later⟩
  · cases rest with
    | nil => exact .inl ⟨[], by simpa using same.symm, later.symm⟩
    | cons head rest =>
      obtain ⟨rfl, rfl⟩ := List.cons.inj later
      exact .inr ⟨rest, same, rfl⟩
  · exact .inl ⟨rest, same, later⟩

/-- A line asks the same in JSON with the flag at any place for options. -/
theorem Asks.add (asks : Asks line r) (whole : line = before ++ after)
    (plain : r.options.json = false) (options : "--" ∉ before) (ready : ¬ Waiting before) :
    Asks (before ++ "--json" :: after)
      { r with options := { r.options with json := true } } := by
  cases asks with
  | @intro front behind operands word first second outer inner query ahead free given called
      words givenBehind =>
    obtain ⟨plainInner, plainOuter⟩ := Bool.or_eq_false_iff.mp plain
    rcases split_line whole with ⟨rest, rfl, rfl⟩ | ⟨rest, rfl, rfl⟩
    · obtain ⟨one, two, rfl, added⟩ := ahead.add rfl options ready fun _ => rfl
      have freed : "--" ∉ before ++ "--json" :: rest := by simpa using free
      have asked := Asks.intro added freed (given_add given plainOuter) called words givenBehind
      simpa using asked
    · rw [List.append_cons] at options ready
      have options : "--" ∉ rest := fun inside => options (List.mem_append_right _ inside)
      have ready := not_waiting_append _ ready
      obtain ⟨one, two, rfl, added⟩ := words.add rfl options ready fun _ => rfl
      have asked := Asks.intro ahead free given called added (given_add givenBehind plainInner)
      simpa using asked

/-- A line with the flag asks for JSON, and without the flag asks the same but for the format. -/
theorem Asks.remove (asks : Asks line r) (whole : line = before ++ "--json" :: after)
    (options : "--" ∉ before) :
    r.options.json = true ∧
      ∃ json, Asks (before ++ after) { r with options := { r.options with json } } := by
  cases asks with
  | @intro front behind operands word first second outer inner query ahead free given called
      words givenBehind =>
    rcases split_line whole with ⟨rest, rfl, later⟩ | ⟨rest, rfl, rfl⟩
    · cases rest with
      | nil =>
        exact absurd ((List.cons.inj later).1 ▸ called.bare) not_bare_json
      | cons head rest =>
        obtain ⟨rfl, rfl⟩ := List.cons.inj later
        obtain ⟨one, two, rfl, removed⟩ := ahead.remove rfl options
        obtain ⟨flag, givenFront⟩ := given_remove given
        have freed : "--" ∉ before ++ rest := by
          simp only [List.mem_append, List.mem_cons, not_or] at free ⊢
          exact ⟨free.1, free.2.2⟩
        have asked := Asks.intro removed freed givenFront called words givenBehind
        exact ⟨by simp [flag], _, by simpa using asked⟩
    · rw [List.append_cons] at options
      have options : "--" ∉ rest := fun inside => options (List.mem_append_right _ inside)
      obtain ⟨one, two, rfl, removed⟩ := words.remove rfl options
      obtain ⟨flag, givenBehind⟩ := given_remove givenBehind
      have asked := Asks.intro ahead free given called removed givenBehind
      exact ⟨by simp [flag], _, by simpa using asked⟩

end

end CommandLine
end PluginLoader

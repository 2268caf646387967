import PluginLoader.Proofs.Command.Reading

/-! The flag for JSON in any line, also one that asks for nothing. Reading goes on behind the flag
as it would without, so that it ends as it would but for the format. -/
namespace PluginLoader

open RequestOptions CommandLine

namespace RequestOptions
variable {position : Position} {o after : RequestOptions} {waiting : Option Valued}

/-- The same options, in JSON. -/
def inJson (o : RequestOptions) : RequestOptions := { o with json := true }

/-- What was read, in JSON. -/
def flagged {α : Type} (read : RequestOptions × α) : RequestOptions × α := (read.1.inJson, read.2)

theorem setValue_inJson (o : RequestOptions) (text : String) (option : Valued) :
    o.inJson.setValue text option = (o.setValue text option).map inJson := by
  obtain ⟨config, directory, debug, json⟩ := o
  cases option with
  | config => cases config <;> rfl
  | directory =>
    cases directory with
    | some _ => rfl
    | none => cases empty : text.isEmpty <;> simp [setValue, inJson, empty, Except.map]

theorem setFlag_inJson (o : RequestOptions) {flag : Flag} (other : flag ≠ .json) :
    o.inJson.setFlag flag = (o.setFlag flag).map inJson := by
  obtain ⟨config, directory, debug, json⟩ := o
  cases flag with
  | json => exact absurd rfl other
  | debug => cases debug <;> rfl
  | help | version => rfl

theorem readShort_inJson (letters : List Char) :
    readShort position o.inJson letters = (readShort position o letters).map flagged := by
  induction letters generalizing o with
  | nil => rfl
  | cons letter rest ih =>
    simp only [readShort]
    split
    · rename_i flag short
      have other : flag ≠ .json := by
        rintro rfl
        obtain ⟨_, ⟨⟩⟩ | ⟨_, ⟨⟩⟩ | ⟨⟨⟩⟩ | ⟨⟨⟩⟩ := short_cases short
      rw [setFlag_inJson o other]
      cases o.setFlag flag with
      | error none => rfl
      | ok next => exact ih
    · rfl
    · rw [setValue_inJson]
      cases o.setValue _ _ <;> rfl
    · rw [setValue_inJson]
      cases o.setValue _ _ <;> rfl
    · rfl

theorem readLong_inJson {text : List Char} (other : text ≠ ['j', 's', 'o', 'n']) :
    readLong position o.inJson text = (readLong position o text).map flagged := by
  simp only [readLong]
  split
  · rfl
  · rw [setValue_inJson]
    cases o.setValue _ _ <;> rfl
  · rename_i flag long rest
    have noJson : flag ≠ .json := by
      rintro rfl
      obtain ⟨_, _, ⟨⟩⟩ | ⟨_, ⟨⟩⟩ | ⟨name, _⟩ | ⟨⟨⟩⟩ | ⟨⟨⟩⟩ := long_cases long
      refine other ?_
      have whole := List.takeWhile_append_dropWhile (p := (· ≠ '=')) (l := text)
      rw [rest, List.append_nil] at whole
      rw [← whole]
      exact String.ofList_injective name
    rw [setFlag_inJson o noJson]
    cases o.setFlag flag <;> rfl
  · rfl

theorem read_inJson {argument : String} (other : argument ≠ "--json") :
    o.inJson.read position argument = (o.read position argument).map flagged := by
  unfold RequestOptions.read
  split
  · rename_i name same
    refine readLong_inJson ?_
    rintro rfl
    exact other (String.toList_inj.mp same)
  · exact readShort_inJson _
  · rfl

theorem readAll_inJson {arguments : List String} (free : "--json" ∉ arguments) :
    readAll position o.inJson waiting arguments =
      (readAll position o waiting arguments).map flagged := by
  induction arguments generalizing o waiting with
  | nil => cases waiting <;> rfl
  | cons argument rest ih =>
    have later := List.not_mem_of_not_mem_cons free
    cases waiting with
    | some option =>
      simp only [readAll]
      split
      · rfl
      · rw [setValue_inJson]
        cases o.setValue argument option with
        | error none => rfl
        | ok next => exact ih later
    | none =>
      simp only [readAll]
      split
      · rfl
      · rw [read_inJson (List.ne_of_not_mem_cons free).symm]
        cases o.read position argument with
        | error none => rfl
        | ok read => exact ih later

/-! ### The flag among the words -/

theorem letters_plain {letters : List Char} {settings : List Setting}
    (spelled : Letters letters settings waiting) : settings.countP Setting.isJson = 0 := by
  induction spelled with
  | debug _ ih => exact ih
  | next | nil | equals | attached => rfl

theorem word_plain {word : String} {settings : List Setting} (spelled : Word word settings waiting)
    (other : word ≠ "--json") : settings.countP Setting.isJson = 0 := by
  cases spelled with
  | json => exact absurd rfl other
  | letters _ spelled => exact letters_plain spelled
  | debug | next | equals => rfl

/-- Only the flag asks for JSON. -/
theorem json_of_setAll {settings : List Setting} (set : Setting.setAll o settings = .ok after)
    (plain : settings.countP Setting.isJson = 0) : after.json = o.json := by
  obtain ⟨_, _, _, _, json⟩ := Setting.setAll_ok.mp set
  rw [plain, Nat.add_zero] at json
  exact (Setting.toNat_inj.mp json).symm

/-- The flag at a place for options in front of some words. Reading goes on behind it in JSON, or
has stopped in front of it. -/
theorem readAll_flag (position : Position) {before later : List String}
    (free : "--json" ∉ before ++ later) (plain : o.json = false) (options : "--" ∉ before)
    (ready : ¬ Waiting before) (start : before = [] → waiting = none) :
    readAll position o waiting (before ++ "--json" :: later) =
        (readAll position o waiting (before ++ later)).map flagged ∨
      ∃ next first rest, before = first ++ rest ∧ rest ≠ [] ∧
        readAll position o waiting (before ++ later) = .ok (next, rest ++ later) ∧
        readAll position o waiting (before ++ "--json" :: later) =
          .ok (next, rest ++ "--json" :: later) ∧ next.json = false := by
  induction before generalizing o waiting with
  | nil =>
    obtain rfl := start rfl
    have flag : o.read position "--json" = .ok (o.inJson, none) := by
      have set : o.setFlag .json = .ok o.inJson := by
        rw [setFlag, plain]
        rfl
      exact read_of_word .json (Setting.setAll_single.mpr set)
    have go : ¬ (!looksLikeOption "--json" || decide ("--json" = "--")) = true :=
      mt stops_iff.mp (not_or.mpr ⟨not_bare_json, by decide⟩)
    refine .inl ?_
    rw [List.nil_append, List.nil_append, readAll, if_neg go, flag]
    exact readAll_inJson free
  | cons argument before ih =>
    have other : argument ≠ "--json" := (List.ne_of_not_mem_cons free).symm
    have free := List.not_mem_of_not_mem_cons free
    have options := List.not_mem_of_not_mem_cons options
    have readyBehind := not_waiting_append [argument] ready
    cases waiting with
    | some option =>
      simp only [List.cons_append, readAll]
      by_cases dashed : looksLikeOption argument = true
      · rw [if_pos dashed, if_pos dashed]
        exact .inl rfl
      · rw [if_neg dashed, if_neg dashed]
        cases set : o.setValue argument option with
        | error none => exact .inl rfl
        | ok next =>
          have one : Setting.setAll o [.value option argument] = .ok next :=
            Setting.setAll_single.mpr set
          have plain := (json_of_setAll one rfl).trans plain
          obtain same | ⟨last, first, rest, rfl, stops⟩ :=
            ih free plain options readyBehind fun _ => rfl
          · exact .inl same
          · exact .inr ⟨last, argument :: first, rest, rfl, stops⟩
    | none =>
      simp only [List.cons_append, readAll]
      by_cases stop : (!looksLikeOption argument || decide (argument = "--")) = true
      · rw [if_pos stop, if_pos stop]
        exact .inr ⟨o, [], argument :: before, rfl, List.cons_ne_nil _ _, rfl, rfl, plain⟩
      · rw [if_neg stop, if_neg stop]
        cases read : o.read position argument with
        | error none => exact .inl rfl
        | ok found =>
          obtain ⟨next, waiting⟩ := found
          rw [stops_iff, not_or] at stop
          obtain ⟨settings, spelled, set⟩ := word_of_read stop.1 read
          have plain := (json_of_setAll set (word_plain spelled other)).trans plain
          have start : before = [] → waiting = none := by
            rintro rfl
            cases waiting with
            | none => rfl
            | some option => exact absurd ⟨argument, rfl, settings, option, spelled⟩ ready
          obtain same | ⟨last, first, rest, rfl, stops⟩ :=
            ih free plain options readyBehind start
          · exact .inl same
          · exact .inr ⟨last, argument :: first, rest, rfl, stops⟩

end RequestOptions

/-! ### The flag in a line -/

namespace Request
variable {command : CommandName} {left : Nat} {o : RequestOptions}
  {arguments before later rest : List String}

/-- The same request, in JSON. -/
def inJson (r : Request) : Request := { r with options := r.options.inJson }

/-- The same operands, with options in JSON. -/
def Operands.inJson (read : Operands) : Operands := { read with options := read.options.inJson }

theorem rawOperands_inJson (values : List String) :
    rawOperands command left o.inJson values =
      (rawOperands command left o values).map Operands.inJson := by
  unfold rawOperands
  split <;> rfl

/-- Reading operands goes on in JSON if it does so wherever options stop. -/
theorem continue_inJson (free : "--json" ∉ arguments)
    (resumes : ∀ (next : RequestOptions) rest, "--json" ∉ rest →
      resume command left next.inJson rest =
        (resume command left next rest).map Operands.inJson) :
    (do
      let (next, rest) ← (readAll .behind o none arguments).map flagged
      resume command left next rest) =
      (readOperands command left o arguments).map Operands.inJson := by
  rw [readOperands_eq]
  cases reading : readAll .behind o none arguments with
  | error none => rfl
  | ok found =>
    obtain ⟨next, rest⟩ := found
    obtain ⟨_, words, _, rfl, _⟩ := words_of_readAll reading
    exact resumes next rest fun inside => free (List.mem_append_right _ inside)

theorem resume_inJson (free : "--json" ∉ rest) :
    resume command left o.inJson rest = (resume command left o rest).map Operands.inJson := by
  induction left using Nat.strongRecOn generalizing o rest with
  | ind left ih =>
    cases rest with
    | nil => rfl
    | cons text more =>
      by_cases raw : text = "--"
      · rw [raw, resume_raw, resume_raw, rawOperands_inJson]
      · rw [resume_operand raw, resume_operand raw]
        cases left with
        | zero => rfl
        | succ left =>
          have free := List.not_mem_of_not_mem_cons free
          have below := Nat.lt_succ_self left
          rw [takeOperand, takeOperand, readOperands_eq, readAll_inJson free,
            continue_inJson free fun next rest free => ih left below free]
          split
          · cases readOperands command left o more <;> rfl
          · rfl

/-- A place for the flag behind some words is one behind the last of them. -/
theorem place_behind {first more : List String} {text : String}
    (free : "--json" ∉ first ++ text :: more ++ later) (options : "--" ∉ first ++ text :: more)
    (ready : ¬ Waiting (first ++ text :: more)) :
    "--json" ∉ more ++ later ∧ "--" ∉ more ∧ ¬ Waiting more := by
  rw [List.append_cons] at ready
  simp only [List.mem_append, List.mem_cons, not_or] at free options ⊢
  exact ⟨⟨free.1.2.2, free.2⟩, options.2.2, not_waiting_append _ ready⟩

theorem readOperands_flag (free : "--json" ∉ before ++ later) (plain : o.json = false)
    (options : "--" ∉ before) (ready : ¬ Waiting before) :
    readOperands command left o (before ++ "--json" :: later) =
      (readOperands command left o (before ++ later)).map Operands.inJson := by
  induction left using Nat.strongRecOn generalizing o before with
  | ind left ih =>
    obtain same | ⟨next, first, rest, rfl, nonempty, stopped, stoppedFlagged, plain⟩ :=
      readAll_flag .behind free plain options ready fun _ => rfl
    · rw [readOperands_eq, same]
      exact continue_inJson free fun next rest => resume_inJson
    · rw [readOperands_eq, readOperands_eq, stopped, stoppedFlagged]
      change resume command left next (rest ++ "--json" :: later) =
        (resume command left next (rest ++ later)).map Operands.inJson
      cases rest with
      | nil => exact absurd rfl nonempty
      | cons text more =>
        have operand : text ≠ "--" := by
          rintro rfl
          exact options (List.mem_append_right _ List.mem_cons_self)
        rw [List.cons_append, List.cons_append, resume_operand operand, resume_operand operand]
        cases left with
        | zero => rfl
        | succ left =>
          obtain ⟨free, options, ready⟩ := place_behind free options ready
          rw [takeOperand, takeOperand, ih left (Nat.lt_succ_self left) free plain options ready]
          split
          · cases readOperands command left next (more ++ later) <;> rfl
          · rfl

theorem orElse_inJson (inner outer : RequestOptions) :
    inner.orElse outer.inJson = (inner.orElse outer).inJson ∧
      inner.inJson.orElse outer = (inner.orElse outer).inJson := by
  simp [orElse, RequestOptions.inJson]

theorem ask_inJson (outer : RequestOptions) (word : String) (more : List String) :
    ask outer.inJson word more = (ask outer word more).map inJson := by
  unfold ask
  cases CommandName.ofText? word with
  | none => rfl
  | some command =>
    simp only [bind, Except.bind]
    cases readOperands command command.operands {} more with
    | error none => rfl
    | ok behind =>
      dsimp only
      split
      · rw [(orElse_inJson _ _).1]
        rfl
      · rfl

theorem ask_flag {outer : RequestOptions} {word : String} (free : "--json" ∉ before ++ later)
    (options : "--" ∉ before) (ready : ¬ Waiting before) :
    ask outer word (before ++ "--json" :: later) =
      (ask outer word (before ++ later)).map inJson := by
  unfold ask
  cases CommandName.ofText? word with
  | none => rfl
  | some command =>
    have plain : ({} : RequestOptions).json = false := rfl
    dsimp only
    rw [readOperands_flag free plain options ready]
    cases readOperands command command.operands {} (before ++ later) with
    | error none => rfl
    | ok behind =>
      simp only [bind, Except.bind, Except.map, Operands.inJson]
      split
      · rw [(orElse_inJson _ _).2]
        rfl
      · rfl

/-- The flag at a place for options of a line without it. A line is read as before but for the
format, and gives no request for the reason it gave none before. Behind the command for help there
are no options. -/
theorem ofArguments_flag (free : "--json" ∉ before ++ later) (options : "--" ∉ before)
    (ready : ¬ Waiting before) (helpless : ¬ Helps before) :
    ofArguments (before ++ "--json" :: later) = (ofArguments (before ++ later)).map inJson := by
  have plain : ({} : RequestOptions).json = false := rfl
  obtain same | ⟨outer, first, rest, rfl, nonempty, stopped, stoppedFlagged, _⟩ :=
    readAll_flag .front free plain options ready fun _ => rfl
  · cases reading : readAll .front {} none (before ++ later) with
    | error none =>
      unfold ofArguments
      rw [same, reading]
      rfl
    | ok found =>
      obtain ⟨outer, rest⟩ := found
      rw [reading] at same
      cases rest with
      | nil =>
        unfold ofArguments
        rw [same, reading]
        rfl
      | cons word more =>
        by_cases help : word = "help"
        · unfold ofArguments
          rw [same, reading, help]
          rfl
        · rw [ofArguments_of_word reading help, ofArguments_of_word same help, ask_inJson]
  · cases rest with
    | nil => exact absurd rfl nonempty
    | cons word more =>
      obtain ⟨_, words, settings, whole, front, first_free, _⟩ := words_of_readAll stopped
      rw [List.append_assoc] at whole
      obtain rfl := List.append_cancel_right whole
      have other : word ≠ "help" := by
        rintro rfl
        exact helpless ⟨first, settings, more, rfl, front, first_free⟩
      obtain ⟨free, options, ready⟩ := place_behind free options ready
      rw [ofArguments_of_word stopped other, ofArguments_of_word stoppedFlagged other,
        List.append_eq, List.append_eq, ask_flag free options ready]

end Request
end PluginLoader

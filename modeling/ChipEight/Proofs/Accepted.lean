import ChipEight.CommandLine.Parse
import Mathlib.Data.List.TakeWhile

/-!
# Accepted command lines

What a command line that is accepted leads to. The program files are there and come from the
arguments in their order, and a number that an option sets is positive. A setting ends without a
number exactly when the bare separator is the last that was written for it, as in `--scale=--`,
since that is taken for no value and is not checked.

* `Preferences.number`, `Preferences.isOn`: what a setting or a switch is set to.
* `Token.Separated`: the shape of the tokens of a command line.
* `Reads`: how tokens are read without an error, one constructor for each kind of token.
* `usable_unless_bare`: what can become of a command line.
-/

namespace ChipEight
namespace CommandLine

namespace Preferences

/-- The number that a setting has. -/
def number (p : Preferences) : Setting → Option Nat
  | .scale => p.scale
  | .rate => p.rate

/-- Is the switch on? -/
def isOn (p : Preferences) : Switch → Bool
  | .legacyShift => p.legacyShift
  | .strict => p.strict
  | .verbose => p.verbose
  | .mute => p.mute

@[simp] theorem number_turnOn (p : Preferences) (switch : Switch) :
    (p.turnOn switch).number = p.number := by
  funext setting
  cases switch <;> cases setting <;> rfl

theorem number_assign (p : Preferences) (value : Option Nat) (setting setting' : Setting) :
    (p.assign value setting).number setting' =
      if setting = setting' then value else p.number setting' := by
  cases setting <;> cases setting' <;> rfl

theorem isOn_turnOn (p : Preferences) (switch switch' : Switch) :
    (p.turnOn switch).isOn switch' = (decide (switch = switch') || p.isOn switch') := by
  cases switch <;> cases switch' <;> rfl

@[simp] theorem isOn_assign (p : Preferences) (value : Option Nat) (setting : Setting) :
    (p.assign value setting).isOn = p.isOn := by
  funext switch
  cases setting <;> cases switch <;> rfl

end Preferences

namespace Token

/-- How an option for the setting is written: with a value in the same argument, or without. -/
def written? (setting : Setting) : Token → Option (Option String)
  | .option _ spelling value => if spelling.choice = .setting setting then some value else none
  | _ => none

theorem written?_option {spelling : Spelling} {setting : Setting}
    (names : spelling.choice = .setting setting) (name : String) (value : Option String)
    (setting' : Setting) :
    (option name spelling value).written? setting' =
      if setting = setting' then some value else none := by
  simp only [written?, names, Choice.setting.injEq]

theorem written?_flag {spelling : Spelling} {switch : Switch}
    (names : spelling.choice = .switch switch) (name : String) (value : Option String)
    (setting : Setting) : (option name spelling value).written? setting = none := by
  simp [written?, names]

theorem written?_of_isPlain {token : Token} (plain : token.isPlain = true) (setting : Setting) :
    token.written? setting = none := by
  cases token with
  | operand text =>
      rfl
  | separator =>
      rfl
  | option text spelling value =>
      cases plain
  | stray text =>
      cases plain

/-- Is the bare separator the last that is written for the setting? `first` answers where nothing is
written for it. -/
def endsBare (setting : Setting) (tokens : List Token) (first : Bool) : Bool :=
  ((tokens.filterMap (written? setting)).map (· == some "--")).getLastD first

section EndsBare

variable {setting : Setting} {token : Token}

theorem endsBare_cons_of_none (h : token.written? setting = none) (rest : List Token)
    (first : Bool) : endsBare setting (token :: rest) first = endsBare setting rest first := by
  rw [endsBare, List.filterMap_cons_none h, endsBare]

theorem endsBare_cons_of_some {value : Option String} (h : token.written? setting = some value)
    (rest : List Token) (first : Bool) :
    endsBare setting (token :: rest) first = endsBare setting rest (value == some "--") := by
  rw [endsBare, List.filterMap_cons_some h, List.map_cons, List.getLastD_cons, endsBare]

/-- Setting a number carries on what was written for it. -/
theorem endsBare_option {spelling : Spelling} {setting' : Setting}
    (names : spelling.choice = .setting setting') {value : Option String} {number : Option Nat}
    (means : number.isNone = (value == some "--")) (p : Preferences) (name : String)
    (rest : List Token) :
    endsBare setting (option name spelling value :: rest) (p.number setting).isNone =
      endsBare setting rest ((p.assign number setting').number setting).isNone := by
  have written := written?_option names name value setting
  rw [Preferences.number_assign]
  by_cases same : setting' = setting
  · rw [if_pos same] at written ⊢
    rw [endsBare_cons_of_some written, means]
  · rw [if_neg same] at written ⊢
    rw [endsBare_cons_of_none written]

theorem endsBare_dropWhile (setting : Setting) (tokens : List Token) (first : Bool) :
    endsBare setting (tokens.dropWhile isPlain) first = endsBare setting tokens first := by
  induction tokens with
  | nil =>
      rfl
  | cons token rest ih =>
      by_cases plain : token.isPlain = true
      · rw [List.dropWhile_cons_of_pos plain, ih,
          endsBare_cons_of_none (written?_of_isPlain plain setting)]
      · rw [List.dropWhile_cons_of_neg plain]

theorem endsBare_false_iff (setting : Setting) (tokens : List Token) :
    endsBare setting tokens false = true ↔
      (tokens.filterMap (written? setting)).getLast? = some (some "--") := by
  rw [endsBare, List.getLastD_eq_getLast?, List.getLast?_map]
  cases (tokens.filterMap (written? setting)).getLast? with
  | none =>
      simp
  | some value =>
      simp

end EndsBare

/-- Only operands follow the separator, and only there is one of them written like it. -/
def Separated : List Token → Prop
  | [] => True
  | .separator :: rest => ∀ token ∈ rest, token.isOperand = true
  | token :: rest => token ≠ .operand "--" ∧ Separated rest

namespace Separated

variable {token : Token} {rest : List Token}

theorem tail (h : Separated (token :: rest)) (mark : token ≠ .separator) : Separated rest := by
  cases token with
  | separator =>
      exact absurd rfl mark
  | _ =>
      exact h.2

theorem ne_bare (h : Separated (token :: rest)) : token ≠ .operand "--" := by
  cases token with
  | separator =>
      exact nofun
  | _ =>
      exact h.1

theorem cons (mark : token ≠ .separator) (bare : token ≠ .operand "--") (h : Separated rest) :
    Separated (token :: rest) := by
  cases token with
  | separator =>
      exact absurd rfl mark
  | _ =>
      exact ⟨bare, h⟩

/-- What is left of the tokens behind a run of operands. -/
theorem dropWhile {tokens : List Token} (h : Separated tokens) :
    Separated (tokens.dropWhile isPlain) := by
  induction tokens with
  | nil =>
      trivial
  | cons token rest ih =>
      by_cases plain : token.isPlain = true
      · rw [List.dropWhile_cons_of_pos plain]
        by_cases mark : token = .separator
        · subst mark
          have none : rest.dropWhile isPlain = [] := by
            rw [List.dropWhile_eq_nil_iff]
            intro other member
            have operand := h other member
            cases other <;> first | rfl | cases operand
          rw [none]
          trivial
        · exact ih (h.tail mark)
      · rw [List.dropWhile_cons_of_neg plain]
        exact h

/-- A run of operands holds more than the separator. -/
theorem erase_ne_nil (h : Separated (token :: rest)) {more : List Token}
    (operand : (token :: more).any isOperand = true) :
    ((token :: more).map text).erase "--" ≠ [] := by
  rw [ne_eq, List.erase_eq_nil_iff, List.map_cons]
  rintro (empty | single)
  · cases empty
  · obtain ⟨bare, none⟩ := List.cons.inj single
    obtain rfl := List.map_eq_nil_iff.1 none
    cases token with
    | operand text =>
        exact h.ne_bare (congrArg Token.operand bare)
    | _ =>
        cases operand

end Separated

theorem text_of_recognise {argument : String} {token : Token}
    (h : recognise argument = .ok token) : token.text = argument := by
  unfold recognise at h
  split at h
  next operand =>
    cases h
    rfl
  next =>
    cases full : fullReading? argument with
    | some reading =>
        rw [full] at h
        cases h
        rfl
    | none =>
        rw [full] at h
        rcases short : candidates argument with _ | ⟨⟨spelling, value⟩, _ | ⟨other, more⟩⟩
        · simp only [short] at h
          split at h <;> (cases h; rfl)
        · simp only [short] at h
          cases h
          rfl
        · simp only [short] at h
          cases h

/-- Every token is written as its argument, and the separator's text is read as the separator where
it stands first. -/
theorem recogniseAll_spec {arguments : List String} {tokens : List Token}
    (h : recogniseAll arguments = .ok tokens) :
    tokens.map text = arguments ∧ Separated tokens := by
  induction arguments generalizing tokens with
  | nil =>
      cases h
      exact ⟨rfl, trivial⟩
  | cons argument rest ih =>
      rw [recogniseAll] at h
      by_cases bare : argument = "--"
      · rw [if_pos bare] at h
        cases h
        constructor
        · rw [List.map_cons, List.map_map, bare]
          exact congrArg ("--" :: ·) (List.map_id rest)
        · simp [Separated, isOperand]
      · rw [if_neg bare] at h
        cases first : recognise argument with
        | error cause =>
            rw [first] at h
            cases h
        | ok token =>
            cases others : recogniseAll rest with
            | error cause =>
                rw [first, others] at h
                cases h
            | ok more =>
                rw [first, others] at h
                cases h
                have written := text_of_recognise first
                obtain ⟨texts, separated⟩ := ih others
                constructor
                · rw [List.map_cons, written, texts]
                · refine .cons ?_ ?_ separated
                  · rintro rfl
                    exact bare written.symm
                  · rintro rfl
                    exact bare written.symm

end Token

/-- How tokens are read when nothing ends the reading. -/
inductive Reads : Draft → List Token → Draft → Prop
  | done (d : Draft) : Reads d [] d
  | stray {d d' : Draft} {text : String} {rest : List Token}
      (later : Reads (d.leave [text]) rest d') :
      Reads d (.stray text :: rest) d'
  | flag {d d' : Draft} {name : String} {spelling : Spelling} {switch : Switch}
      {rest : List Token}
      (names : spelling.choice = .switch switch)
      (later : Reads (d.turnOn switch) rest d') :
      Reads d (.option name spelling none :: rest) d'
  | joined {d d' : Draft} {name text : String} {spelling : Spelling} {setting : Setting}
      {value : Option Nat} {rest : List Token}
      (names : spelling.choice = .setting setting)
      (means : readValue setting text = .ok value)
      (later : Reads (d.assign setting value) rest d') :
      Reads d (.option name spelling (some text) :: rest) d'
  | apart {d d' : Draft} {name text : String} {spelling : Spelling} {setting : Setting}
      {value : Option Nat} {rest : List Token}
      (names : spelling.choice = .setting setting)
      (means : readValue setting text = .ok value)
      (later : Reads (d.assign setting value) rest d') :
      Reads d (.option name spelling none :: .operand text :: rest) d'
  | run {d d' : Draft} {token : Token} {rest : List Token}
      (plain : token.isPlain = true)
      (later : Reads (d.takeRun (token :: rest.takeWhile Token.isPlain))
        (rest.dropWhile Token.isPlain) d') :
      Reads d (token :: rest) d'

theorem reads_of_act {d d' : Draft} {tokens : List Token} (h : act d tokens = .ok d') :
    Reads d tokens d' := by
  fun_induction act d tokens with
  | case1 d =>
      cases h
      exact .done _
  | case2 d text rest ih =>
      exact .stray (ih h)
  | case3 d name spelling value rest names =>
      cases h
  | case4 d name spelling rest switch names ih =>
      exact .flag names (ih h)
  | case5 d name spelling rest switch names text =>
      cases h
  | case6 d name spelling setting names text rest ih =>
      cases means : readValue setting text with
      | error exit =>
          rw [means] at h
          cases h
      | ok value =>
          rw [means] at h
          exact .joined names means (ih value h)
  | case7 d name spelling setting names text rest ih =>
      cases means : readValue setting text with
      | error exit =>
          rw [means] at h
          cases h
      | ok value =>
          rw [means] at h
          exact .apart names means (ih value h)
  | case8 d name spelling rest setting names other =>
      cases h
  | case9 d token rest noStray noOption ih =>
      refine .run ?_ (ih h)
      cases token with
      | stray text =>
          exact absurd rfl (noStray text)
      | option name spelling value =>
          exact absurd rfl (noOption name spelling value)
      | _ =>
          rfl

/-- Only the bare separator is no value, and any other value is positive. -/
theorem readValue_cases {setting : Setting} {text : String} {value : Option Nat}
    (h : readValue setting text = .ok value) :
    (text = "--" ∧ value = none) ∨ text ≠ "--" ∧ ∃ n, value = some n ∧ 1 ≤ n := by
  unfold readValue at h
  by_cases bare : text = "--"
  · rw [if_pos bare] at h
    cases h
    exact Or.inl ⟨bare, rfl⟩
  · rw [if_neg bare] at h
    cases literal : readInteger? text with
    | none =>
        rw [literal] at h
        cases h
    | some n =>
        by_cases low : n ≤ 0
        · simp only [literal, if_pos low] at h
          cases h
        · simp only [literal, if_neg low] at h
          cases h
          exact Or.inr ⟨bare, _, rfl, by omega⟩

theorem isNone_readValue {setting : Setting} {text : String} {value : Option Nat}
    (h : readValue setting text = .ok value) : value.isNone = (some text == some "--") := by
  rcases readValue_cases h with ⟨rfl, rfl⟩ | ⟨other, n, rfl, -⟩
  · rfl
  · simp [other]

theorem pos_of_readValue {setting : Setting} {text : String} {value : Option Nat}
    (h : readValue setting text = .ok value) {n : Nat} (hn : value = some n) : 1 ≤ n := by
  rcases readValue_cases h with ⟨-, rfl⟩ | ⟨-, k, rfl, pos⟩
  · cases hn
  · cases hn
    exact pos

/-- A number that is set is positive. -/
def Preferences.Positive (p : Preferences) : Prop :=
  ∀ setting n, p.number setting = some n → 1 ≤ n

namespace Preferences.Positive

variable {p : Preferences}

theorem turnOn (h : p.Positive) (switch : Switch) : (p.turnOn switch).Positive := by
  intro setting
  rw [number_turnOn]
  exact h setting

theorem assign (h : p.Positive) {setting : Setting} {text : String} {value : Option Nat}
    (means : readValue setting text = .ok value) : (p.assign value setting).Positive := by
  intro setting' n hn
  rw [number_assign] at hn
  split at hn
  · exact pos_of_readValue means hn
  · exact h setting' n hn

end Preferences.Positive

namespace Draft

theorem toPreferences_takeRun (d : Draft) (run : List Token) :
    (d.takeRun run).toPreferences = d.toPreferences := by
  unfold Draft.takeRun
  split <;> rfl

theorem roms_takeRun (d : Draft) (run : List Token) :
    (d.takeRun run).roms = d.roms ∨
      run.any Token.isOperand = true ∧
        (d.takeRun run).roms = some ((run.map Token.text).erase "--") := by
  unfold Draft.takeRun
  split
  next first =>
    exact Or.inr ⟨(Bool.and_eq_true_iff.1 first).2, rfl⟩
  next =>
    exact Or.inl rfl

end Draft

namespace Reads

variable {d d' : Draft} {tokens : List Token}

/-- Program files are some that were there before, or a run of the operands. -/
theorem roms_eq (h : Reads d tokens d') (separated : Token.Separated tokens) {roms : List String}
    (found : d'.roms = some roms) :
    d.roms = some roms ∨ roms ≠ [] ∧ roms.Sublist (tokens.map Token.text) := by
  induction h with
  | done d =>
      exact Or.inl found
  | stray later ih =>
      exact (ih (separated.tail nofun) found).imp_right fun h => ⟨h.1, h.2.cons _⟩
  | flag names later ih =>
      exact (ih (separated.tail nofun) found).imp_right fun h => ⟨h.1, h.2.cons _⟩
  | joined names means later ih =>
      exact (ih (separated.tail nofun) found).imp_right fun h => ⟨h.1, h.2.cons _⟩
  | apart names means later ih =>
      have rest := (separated.tail nofun).tail nofun
      exact (ih rest found).imp_right fun h => ⟨h.1, (h.2.cons _).cons _⟩
  | @run d d' token rest plain later ih =>
      have behind := separated.dropWhile
      rw [List.dropWhile_cons_of_pos plain] at behind
      rcases ih behind found with now | ⟨some, sub⟩
      · rcases d.roms_takeRun (token :: rest.takeWhile Token.isPlain) with old | ⟨operand, taken⟩
        · exact Or.inl (old.symm.trans now)
        · obtain rfl := Option.some.inj (taken.symm.trans now)
          have part : (token :: rest.takeWhile Token.isPlain).Sublist (token :: rest) :=
            (List.takeWhile_sublist _).cons_cons token
          exact Or.inr ⟨separated.erase_ne_nil operand,
            List.erase_sublist.trans (part.map Token.text)⟩
      · exact Or.inr ⟨some, (sub.trans ((List.dropWhile_sublist _).map _)).cons _⟩

theorem positive (h : Reads d tokens d') (first : d.toPreferences.Positive) :
    d'.toPreferences.Positive := by
  induction h with
  | done d =>
      exact first
  | stray later ih =>
      exact ih first
  | flag names later ih =>
      exact ih (first.turnOn _)
  | joined names means later ih =>
      exact ih (first.assign means)
  | apart names means later ih =>
      exact ih (first.assign means)
  | run plain later ih =>
      refine ih ?_
      rw [Draft.toPreferences_takeRun]
      exact first

/-- A setting is without a number if the last that is written for it is the bare separator, and
otherwise if it was before. -/
theorem isNone_number (h : Reads d tokens d') (separated : Token.Separated tokens)
    (setting : Setting) :
    (d'.number setting).isNone = Token.endsBare setting tokens (d.number setting).isNone := by
  induction h with
  | done d =>
      rfl
  | @stray d d' text rest later ih =>
      rw [ih (separated.tail nofun), @Token.endsBare_cons_of_none setting (.stray text) rfl]
      rfl
  | @flag d d' name spelling switch rest names later ih =>
      have kept : (d.turnOn switch).number = d.number := d.number_turnOn switch
      rw [ih (separated.tail nofun), kept,
        Token.endsBare_cons_of_none (Token.written?_flag names name none setting)]
  | @joined d d' name text spelling setting' value rest names means later ih =>
      rw [ih (separated.tail nofun), Token.endsBare_option names (isNone_readValue means)]
      rfl
  | @apart d d' name text spelling setting' value rest names means later ih =>
      have operand := separated.tail nofun
      have given : value.isNone = ((none : Option String) == some "--") := by
        rw [isNone_readValue means]
        simpa using fun bare => operand.ne_bare (congrArg Token.operand bare)
      have skipped := @Token.endsBare_cons_of_none setting (.operand text) rfl
      rw [ih (operand.tail nofun), Token.endsBare_option names given, skipped]
      rfl
  | run plain later ih =>
      have behind := separated.dropWhile
      rw [List.dropWhile_cons_of_pos plain] at behind
      rw [ih behind, Token.endsBare_dropWhile, Draft.toPreferences_takeRun,
        Token.endsBare_cons_of_none (Token.written?_of_isPlain plain setting)]

end Reads

theorem finish_eq_ok {d : Draft} {a : Arguments} (h : d.finish = .ok a) :
    d.roms = some a.roms ∧ a.toPreferences = d.toPreferences := by
  unfold Draft.finish at h
  cases hroms : d.roms with
  | none =>
      rw [hroms] at h
      cases h
  | some roms =>
      rw [hroms] at h
      by_cases whole : d.leftover.isEmpty = true
      · simp only [if_pos whole] at h
        cases h
        exact ⟨rfl, rfl⟩
      · simp only [if_neg whole] at h
        cases h

theorem reads_of_parse {arguments : List String} {a : Arguments}
    (h : parse arguments = .ok a) :
    ∃ tokens d, Token.recogniseAll arguments = .ok tokens ∧ Reads {} tokens d ∧
      d.roms = some a.roms ∧ a.toPreferences = d.toPreferences := by
  unfold parse at h
  cases recognised : Token.recogniseAll arguments with
  | error cause =>
      rw [recognised] at h
      cases h
  | ok tokens =>
      simp only [recognised] at h
      cases acted : act {} tokens with
      | error exit =>
          rw [acted] at h
          cases h
      | ok d =>
          rw [acted] at h
          exact ⟨tokens, d, rfl, reads_of_act acted, finish_eq_ok h⟩

/-- The last that is written for the setting in front of the separator is the bare separator, as in
`--scale=--`. -/
def GivenBare (setting : Setting) (arguments : List String) : Prop :=
  ∃ tokens, Token.recogniseAll arguments = .ok tokens ∧
    (tokens.filterMap (Token.written? setting)).getLast? = some (some "--")

/-- **Accepted command lines are usable, but for a bare separator.** A command line is either
accepted or ends with one of two exits: help on standard output and nothing else, or the usage and
a message on standard error and nothing else. One that is accepted has program files, which are some
of its arguments in their order. A setting is without a number exactly when the bare separator is
the last that is written for it, and any number is positive. -/
theorem usable_unless_bare (arguments : List String) :
    match parse arguments with
    | .ok a =>
      a.roms ≠ [] ∧ a.roms.Sublist arguments ∧
      ∀ setting, (a.number setting = none ↔ GivenBare setting arguments) ∧
        ∀ n, a.number setting = some n → 1 ≤ n
    | .error exit =>
      (exit.code = 0 ∧ exit.output = help ∧ exit.complaint = "") ∨
      exit.code = 2 ∧ exit.output = "" ∧
        ∃ message, exit.complaint = usage ++ ("chip8vm: error: " ++ message ++ "\n") := by
  cases parsed : parse arguments with
  | error exit =>
      cases exit with
      | help =>
          exact Or.inl ⟨rfl, rfl, rfl⟩
      | misuse cause =>
          refine Or.inr ⟨rfl, rfl, cause.message, ?_⟩
          simp [Exit.complaint, lines, String.join]
  | ok a =>
      obtain ⟨tokens, d, recognised, reads, hroms, same⟩ := reads_of_parse parsed
      obtain ⟨texts, separated⟩ := Token.recogniseAll_spec recognised
      have usual : ({} : Preferences).Positive := by
        intro setting n hn
        cases setting <;> cases hn <;> decide
      rcases reads.roms_eq separated hroms with old | ⟨some, sub⟩
      · cases old
      refine ⟨some, texts ▸ sub, fun setting => ⟨?_, ?_⟩⟩
      · have first : (({} : Draft).number setting).isNone = false := by
          cases setting <;> rfl
        have last := reads.isNone_number separated setting
        rw [first, ← same] at last
        rw [← Option.isNone_iff_eq_none, last, Token.endsBare_false_iff]
        constructor
        · intro bare
          exact ⟨tokens, recognised, bare⟩
        · rintro ⟨tokens', again, bare⟩
          cases recognised.symm.trans again
          exact bare
      · rw [same]
        exact reads.positive usual setting

/-- An accepted command line may leave a setting without a number. -/
theorem usable_fails_bareScale :
    ¬ ∀ arguments a, parse arguments = .ok a → ∃ n, a.scale = some n ∧ 1 ≤ n := by
  intro usable
  let bare : Token := .option "--scale=--" ⟨"--scale", .setting .scale⟩ (some "--")
  have recognised : Token.recogniseAll ["--scale=--", "a"] = .ok [bare, .operand "a"] := rfl
  have unset : act {} [bare, .operand "a"] =
      act (Draft.assign {} .scale none) [.operand "a"] := by
    rw [act]
    rfl
  have acted : act {} [bare, .operand "a"] = .ok { scale := none, roms := some ["a"] } := by
    rw [unset, act, List.takeWhile_nil, List.dropWhile_nil, act]
    · rfl
    · rintro text ⟨⟩
    · rintro text spelling value ⟨⟩
  have accepted : parse ["--scale=--", "a"] = .ok { scale := none, roms := ["a"] } := by
    simp only [parse, recognised, acted]
    rfl
  obtain ⟨n, hn, -⟩ := usable _ _ accepted
  cases hn

end CommandLine
end ChipEight

import ChipEight.Proofs.Accepted

/-!
# Options around the program files

A command line that is made of options, program files and more options is accepted and means what
it says. An option may be named in full or shortened, and its number may stand in the same argument
or in the next.

* `Name`, `Count`, `Group`: an option as it is written, with the proof that it is written well.
* `Name.recognise_attached`: a name is recognised as its option, with or without a value behind it.
* `recogniseAll_groups`, `act_groups`: what a run of options is recognised as, and what it does.
* `parse_around_roms`: how the three parts are read, one after the other.
* `options_around_roms`: what the whole command line stands for.
-/

namespace ChipEight
namespace CommandLine

/-- A way to name an option: by one of its spellings, or by the start of one that is longer than
two characters and starts no other. -/
structure Name (choice : Choice) where
  text : String
  spelling : Spelling
  known : spelling ∈ spellings
  names : spelling.choice = choice
  stands : text = spelling.name ∨ 2 < text.length ∧ text.toList <+: spelling.name.toList ∧
    ∀ other ∈ spellings, text.toList <+: other.name.toList → other = spelling

/-- A positive number, as it is written. -/
structure Count where
  text : String
  value : Nat
  reads : readInteger? text = some (value : Int)
  pos : 0 < value

/-- An option with all that belongs to it. A number is either the next argument or joined to the
name. -/
inductive Group where
  | flag (switch : Switch) (name : Name (.switch switch))
  | number (setting : Setting) (name : Name (.setting setting)) (count : Count) (joined : Bool)

namespace Group

/-- The arguments that are written for the option. -/
def arguments : Group → List String
  | .flag _ name => [name.text]
  | .number _ name count false => [name.text, count.text]
  | .number _ name count true => [name.text ++ "=" ++ count.text]

/-- What the arguments are recognised as. -/
def tokens : Group → List Token
  | .flag _ name => [.option name.text name.spelling none]
  | .number _ name count false => [.option name.text name.spelling none, .operand count.text]
  | .number _ name count true =>
    [.option (name.text ++ "=" ++ count.text) name.spelling (some count.text)]

/-- The switch that is turned on. -/
def switch? : Group → Option Switch
  | .flag switch _ => some switch
  | .number _ _ _ _ => none

/-- The number that is given for the setting. -/
def number? (setting : Setting) : Group → Option Nat
  | .flag _ _ => none
  | .number setting' _ count _ => if setting' = setting then some count.value else none

/-- What the option does. -/
def apply (d : Draft) : Group → Draft
  | .flag switch _ => d.turnOn switch
  | .number setting _ count _ => d.assign setting (some count.value)

end Group

/-- The number that a setting has if no option gives one. -/
def Setting.usual : Setting → Nat
  | .scale => 10
  | .rate => 500

theorem number_default (setting : Setting) :
    ({} : Preferences).number setting = some setting.usual := by
  cases setting <;> rfl

theorem isOn_default (switch : Switch) : ({} : Preferences).isOn switch = false := by
  cases switch <;> rfl

section Spellings

variable {s s' : Spelling}

/-- A spelling starts with a minus, and no value can be split off. -/
theorem shape_of_mem_spellings (h : s ∈ spellings) :
    s.name.toList.head? = some '-' ∧ '=' ∉ s.name.toList := by
  revert h s
  decide

/-- A spelling is neither an operand nor the separator. -/
theorem ne_of_mem_spellings (h : s ∈ spellings) : s.name ≠ "-" ∧ s.name ≠ "--" := by
  revert h s
  decide

theorem double_of_mem_spellings (h : s ∈ spellings) (long : 2 < s.name.toList.length) :
    "--".toList <+: s.name.toList := by
  revert h s
  decide

theorem eq_of_name_eq (h : s ∈ spellings) (h' : s' ∈ spellings) (same : s.name = s'.name) :
    s = s' := by
  have inj : ∀ s ∈ spellings, ∀ s' ∈ spellings, s.name = s'.name → s = s' := by
    decide
  exact inj s h s' h' same

/-- Each spelling is listed once. -/
theorem filter_eq_of_mem_spellings (h : s ∈ spellings) : spellings.filter (· == s) = [s] := by
  revert h s
  decide

end Spellings

namespace Token

/-- How a value is written behind a name. -/
def attached : Option String → String
  | none => ""
  | some value => "=" ++ value

section Attached

variable {name : String}

theorem splitValue_attached (h : '=' ∉ name.toList) (value : Option String) :
    splitValue (name ++ attached value) = (name, value) := by
  have front : ∀ c ∈ name.toList, decide (c ≠ '=') = true := by
    intro c hc
    exact decide_eq_true fun equals => h (equals ▸ hc)
  cases value with
  | none =>
      have behind : name.toList.dropWhile (· ≠ '=') = [] := by
        rw [List.dropWhile_eq_nil_iff]
        exact front
      simp only [attached, String.append_empty, splitValue, behind]
  | some value =>
      have chars : (name ++ attached (some value)).toList = name.toList ++ '=' :: value.toList := by
        simp [attached]
      have behind :
          (name.toList ++ '=' :: value.toList).dropWhile (· ≠ '=') = '=' :: value.toList :=
        List.dropWhile_append_of_pos front
      have before : (name.toList ++ '=' :: value.toList).takeWhile (· ≠ '=') = name.toList := by
        rw [List.takeWhile_append_of_pos front]
        simp
      simp only [splitValue, chars, behind, before, String.ofList_toList]

theorem eq_of_spelled? {s : Spelling} (h : spelled? name = some s) :
    s ∈ spellings ∧ s.name = name := by
  constructor
  · exact List.mem_of_find?_eq_some h
  · simpa using List.find?_some h

/-- The full reading of an argument goes by its name. -/
theorem fullReading?_attached (h : '=' ∉ name.toList) (value : Option String) :
    fullReading? (name ++ attached value) = (spelled? name).map (·, value) := by
  have split := splitValue_attached h value
  cases value with
  | none =>
      rw [attached, String.append_empty] at split ⊢
      rw [fullReading?, split]
      cases spelled? name <;> rfl
  | some value =>
      have unspelled : spelled? (name ++ attached (some value)) = none := by
        rw [Option.eq_none_iff_forall_not_mem]
        intro s hs
        obtain ⟨known, same⟩ := eq_of_spelled? hs
        refine (shape_of_mem_spellings known).2 ?_
        simp [same, attached]
      rw [fullReading?, unspelled, split]

end Attached

theorem recogniseAll_cons {argument : String} {arguments : List String} {token : Token}
    {tokens : List Token} (mark : argument ≠ "--") (first : recognise argument = .ok token)
    (others : recogniseAll arguments = .ok tokens) :
    recogniseAll (argument :: arguments) = .ok (token :: tokens) := by
  rw [recogniseAll, if_neg mark, first, others]
  rfl

/-- What does not start with a minus is an operand. -/
theorem recogniseAll_operand {argument : String} {arguments : List String} {tokens : List Token}
    (plain : argument.toList.head? ≠ some '-') (others : recogniseAll arguments = .ok tokens) :
    recogniseAll (argument :: arguments) = .ok (.operand argument :: tokens) := by
  refine recogniseAll_cons ?_ (if_pos (Or.inl plain)) others
  rintro rfl
  exact plain rfl

end Token

namespace Name

variable {choice : Choice} (name : Name choice)

theorem isPrefix : name.text.toList <+: name.spelling.name.toList := by
  rcases name.stands with full | ⟨-, starts, -⟩
  · exact full ▸ List.prefix_rfl
  · exact starts

theorem no_equals : '=' ∉ name.text.toList := fun h =>
  (shape_of_mem_spellings name.known).2 (name.isPrefix.subset h)

/-- The name is longer than the separator, unless it is a full spelling. -/
theorem ne_of_short {text : String} (short : text.length ≤ 2)
    (other : name.spelling.name ≠ text) : name.text ≠ text := by
  rintro rfl
  rcases name.stands with full | ⟨long, -⟩
  · exact other full.symm
  · omega

theorem ne_minus : name.text ≠ "-" :=
  name.ne_of_short (by decide) (ne_of_mem_spellings name.known).1

theorem ne_separator : name.text ≠ "--" :=
  name.ne_of_short (by decide) (ne_of_mem_spellings name.known).2

theorem head?_eq : name.text.toList.head? = some '-' := by
  have head := (shape_of_mem_spellings name.known).1
  obtain ⟨rest, whole⟩ := name.isPrefix
  cases chars : name.text.toList with
  | nil =>
      have short : name.text.length = 0 := by
        rw [← String.length_toList, chars, List.length_nil]
      rcases name.stands with full | ⟨long, -⟩
      · rw [← full, chars] at head
        cases head
      · omega
  | cons c cs =>
      rw [← whole, chars] at head
      exact head

/-- No other spelling is written like the name. -/
theorem eq_of_spelled? {s : Spelling} (h : Token.spelled? name.text = some s) :
    s = name.spelling := by
  obtain ⟨known, same⟩ := Token.eq_of_spelled? h
  rcases name.stands with full | ⟨-, -, only⟩
  · exact eq_of_name_eq known name.known (same.trans full)
  · exact only s known (same ▸ List.prefix_rfl)

section Attached

variable (value : Option String)

/-- With or without a value, the name is neither an operand nor the separator. -/
theorem attached_ne :
    name.text ++ Token.attached value ≠ "-" ∧ name.text ++ Token.attached value ≠ "--" := by
  have split := Token.splitValue_attached name.no_equals value
  constructor
  · intro minus
    rw [minus] at split
    exact name.ne_minus (congrArg Prod.fst split).symm
  · intro separator
    rw [separator] at split
    exact name.ne_separator (congrArg Prod.fst split).symm

/-- A shortened name fits one spelling. -/
theorem candidates_eq (short : Token.spelled? name.text = none) :
    Token.candidates (name.text ++ Token.attached value) = [(name.spelling, value)] := by
  rcases name.stands with full | ⟨long, starts, only⟩
  · have found : Token.spelled? name.spelling.name ≠ none := by
      rw [Token.spelled?, ne_eq, List.find?_eq_none]
      intro none
      exact none name.spelling name.known (beq_self_eq_true _)
    exact absurd (full ▸ short) found
  · rw [← String.length_toList] at long
    have double : "--".toList <+: name.text.toList :=
      List.prefix_of_prefix_length_le
        (double_of_mem_spellings name.known (long.trans_le starts.length_le)) starts long.le
    have dashes : "--".toList.isPrefixOf (name.text ++ Token.attached value).toList = true := by
      rw [List.isPrefixOf_iff_prefix, String.toList_append]
      exact double.trans (List.prefix_append _ _)
    have fits : ∀ s ∈ spellings,
        name.text.toList.isPrefixOf s.name.toList = (s == name.spelling) := by
      intro s hs
      rw [Bool.eq_iff_iff, List.isPrefixOf_iff_prefix, beq_iff_eq]
      constructor
      · exact only s hs
      · rintro rfl
        exact starts
    rw [Token.candidates, if_pos dashes, Token.splitValue_attached name.no_equals]
    simp only [List.filter_congr fits, filter_eq_of_mem_spellings name.known]
    rfl

/-- With or without a value, the name is recognised as the option. -/
theorem recognise_attached : Token.recognise (name.text ++ Token.attached value) =
    .ok (.option (name.text ++ Token.attached value) name.spelling value) := by
  have option : ¬ ((name.text ++ Token.attached value).toList.head? ≠ some '-' ∨
      name.text ++ Token.attached value = "-") := by
    rintro (other | minus)
    · rw [String.toList_append, List.head?_append, name.head?_eq] at other
      exact other rfl
    · exact (name.attached_ne value).1 minus
  rw [Token.recognise, if_neg option, Token.fullReading?_attached name.no_equals]
  cases spelled : Token.spelled? name.text with
  | some s =>
      obtain rfl := name.eq_of_spelled? spelled
      rfl
  | none =>
      rw [name.candidates_eq value spelled]
      rfl

theorem recogniseAll_attached {arguments : List String} {tokens : List Token}
    (others : Token.recogniseAll arguments = .ok tokens) :
    Token.recogniseAll ((name.text ++ Token.attached value) :: arguments) =
      .ok (.option (name.text ++ Token.attached value) name.spelling value :: tokens) :=
  Token.recogniseAll_cons (name.attached_ne value).2 (name.recognise_attached value) others

end Attached

end Name

open IntegerLiteral in
theorem trim_minus (rest : List Char) :
    trim ('-' :: rest) = '-' :: (rest.reverse.dropWhile isBlank).reverse := by
  have kept : ¬ isBlank '-' = true := by
    decide
  rw [trim, List.dropWhile_cons_of_neg kept, List.reverse_cons, List.dropWhile_append]
  split
  next none =>
    rw [List.isEmpty_iff.1 none, List.dropWhile_cons_of_neg kept]
    rfl
  next =>
    rw [List.reverse_append]
    rfl

open IntegerLiteral in
/-- What starts with a minus is no positive number. -/
theorem nonpos_of_minus {text : String} {n : Int} (minus : text.toList.head? = some '-')
    (reads : readInteger? text = some n) : n ≤ 0 := by
  obtain ⟨rest, chars⟩ := List.head?_eq_some_iff.1 minus
  simp only [readInteger?, chars, trim_minus, sign] at reads
  cases run : digits? (rest.reverse.dropWhile isBlank).reverse with
  | none =>
      rw [run] at reads
      cases reads
  | some ds =>
      rw [run] at reads
      by_cases long : maxDigits < ds.length
      · simp only [if_pos long] at reads
        cases reads
      · simp only [if_neg long] at reads
        cases reads
        simp

namespace Count

variable (count : Count)

theorem head?_ne : count.text.toList.head? ≠ some '-' := by
  intro minus
  have low := nonpos_of_minus minus count.reads
  have pos := count.pos
  omega

theorem readValue_eq (setting : Setting) :
    readValue setting count.text = .ok (some count.value) := by
  have bare : count.text ≠ "--" := by
    intro bare
    refine count.head?_ne ?_
    rw [bare]
    rfl
  have high : ¬ (count.value : Int) ≤ 0 := by
    have pos := count.pos
    omega
  simp only [readValue, if_neg bare, count.reads, if_neg high, Int.toNat_natCast]

end Count

namespace Group

/-- The tokens of an option start with its name, which ends a run of operands. -/
theorem exists_tokens_eq (g : Group) :
    ∃ token rest, g.tokens = token :: rest ∧ token.isPlain = false := by
  rcases g with ⟨switch, name⟩ | ⟨setting, name, count, _ | _⟩ <;> exact ⟨_, _, rfl, rfl⟩

theorem recogniseAll_arguments (g : Group) {arguments : List String} {tokens : List Token}
    (others : Token.recogniseAll arguments = .ok tokens) :
    Token.recogniseAll (g.arguments ++ arguments) = .ok (g.tokens ++ tokens) := by
  rcases g with ⟨switch, name⟩ | ⟨setting, name, count, _ | _⟩
  · have first := name.recogniseAll_attached none others
    rwa [Token.attached, String.append_empty] at first
  · have first :=
      name.recogniseAll_attached none (Token.recogniseAll_operand count.head?_ne others)
    rwa [Token.attached, String.append_empty] at first
  · have first := name.recogniseAll_attached (some count.text) others
    rwa [Token.attached, ← String.append_assoc] at first

theorem act_tokens (g : Group) (d : Draft) (rest : List Token) :
    act d (g.tokens ++ rest) = act (g.apply d) rest := by
  rcases g with ⟨switch, name⟩ | ⟨setting, name, count, _ | _⟩
  · rw [tokens, List.singleton_append, act]
    simp only [name.names]
    rfl
  · rw [tokens, List.cons_append, List.singleton_append, act]
    simp only [name.names, count.readValue_eq]
    rfl
  · rw [tokens, List.singleton_append, act]
    simp only [name.names, count.readValue_eq]
    rfl

section Apply

variable (g : Group) (d : Draft)

/-- An option leaves alone what was read of the other arguments. -/
theorem others_apply : (g.apply d).roms = d.roms ∧ (g.apply d).leftover = d.leftover := by
  cases g <;> exact ⟨rfl, rfl⟩

theorem isOn_apply (switch : Switch) :
    (g.apply d).isOn switch = true ↔ g.switch? = some switch ∨ d.isOn switch = true := by
  cases g with
  | flag switch' name =>
      have turned : ((flag switch' name).apply d).isOn switch = _ := d.isOn_turnOn switch' switch
      rw [turned, Bool.or_eq_true, decide_eq_true_iff, switch?, Option.some.injEq]
  | number setting name count joined =>
      have kept : ((number setting name count joined).apply d).isOn = d.isOn :=
        d.isOn_assign (some count.value) setting
      rw [kept]
      exact ⟨Or.inr, fun h => h.resolve_left nofun⟩

theorem number_apply (setting : Setting) :
    (g.apply d).number setting = (g.number? setting).or (d.number setting) := by
  cases g with
  | flag switch name =>
      exact congrFun (d.number_turnOn switch) setting
  | number setting' name count joined =>
      have assigned : ((number setting' name count joined).apply d).number setting = _ :=
        d.number_assign (some count.value) setting' setting
      rw [assigned, number?]
      split <;> rfl

end Apply

end Group

section Groups

variable (groups : List Group)

theorem recogniseAll_groups {arguments : List String} {tokens : List Token}
    (others : Token.recogniseAll arguments = .ok tokens) :
    Token.recogniseAll (groups.flatMap Group.arguments ++ arguments) =
      .ok (groups.flatMap Group.tokens ++ tokens) := by
  induction groups with
  | nil =>
      exact others
  | cons g groups ih =>
      rw [List.flatMap_cons, List.flatMap_cons, List.append_assoc, List.append_assoc]
      exact g.recogniseAll_arguments ih

variable (d : Draft)

/-- What options do, one after the other. -/
def applyAll (groups : List Group) (d : Draft) : Draft := groups.foldl Group.apply d

theorem act_groups (rest : List Token) :
    act d (groups.flatMap Group.tokens ++ rest) = act (applyAll groups d) rest := by
  induction groups generalizing d with
  | nil =>
      rfl
  | cons g groups ih =>
      rw [List.flatMap_cons, List.append_assoc, g.act_tokens, ih]
      rfl

theorem others_applyAll :
    (applyAll groups d).roms = d.roms ∧ (applyAll groups d).leftover = d.leftover := by
  induction groups generalizing d with
  | nil =>
      exact ⟨rfl, rfl⟩
  | cons g groups ih =>
      obtain ⟨roms, leftover⟩ := ih (g.apply d)
      exact ⟨roms.trans (g.others_apply d).1, leftover.trans (g.others_apply d).2⟩

/-- A switch is on if one of the options turns it on, or if it was on before. -/
theorem isOn_applyAll (switch : Switch) : (applyAll groups d).isOn switch = true ↔
    (∃ g ∈ groups, g.switch? = some switch) ∨ d.isOn switch = true := by
  induction groups generalizing d with
  | nil =>
      simp [applyAll]
  | cons g groups ih =>
      refine (ih (g.apply d)).trans ?_
      rw [g.isOn_apply, or_left_comm, ← or_assoc]
      simp only [List.mem_cons, exists_eq_or_imp]

/-- The last number that is given for a setting is the one it has. -/
theorem number_applyAll (setting : Setting) {n : Nat} (before : d.number setting = some n) :
    (applyAll groups d).number setting =
      some ((groups.filterMap (Group.number? setting)).getLastD n) := by
  induction groups generalizing d n with
  | nil =>
      exact before
  | cons g groups ih =>
      have now := g.number_apply d setting
      cases given : g.number? setting with
      | none =>
          rw [given, before] at now
          rw [List.filterMap_cons_none given]
          exact ih (g.apply d) now
      | some k =>
          rw [given] at now
          rw [List.filterMap_cons_some given, List.getLastD_cons]
          exact ih (g.apply d) now

end Groups

section Operands

variable {roms : List String}

theorem recogniseAll_operands (plain : ∀ rom ∈ roms, rom.toList.head? ≠ some '-')
    {arguments : List String} {tokens : List Token}
    (others : Token.recogniseAll arguments = .ok tokens) :
    Token.recogniseAll (roms ++ arguments) = .ok (roms.map .operand ++ tokens) := by
  induction roms with
  | nil =>
      exact others
  | cons rom roms ih =>
      obtain ⟨first, later⟩ := List.forall_mem_cons.1 plain
      exact Token.recogniseAll_operand first (ih later)

/-- The first run of operands is taken as the program files, if the separator is none of them. -/
theorem takeRun_operands {d : Draft} (first : d.roms = none) (filled : roms ≠ [])
    (bare : "--" ∉ roms) :
    d.takeRun (roms.map .operand) = { d with roms := roms } := by
  have texts : (roms.map Token.operand).map Token.text = roms := by
    rw [List.map_map]
    exact List.map_id roms
  have operand : (roms.map Token.operand).any Token.isOperand = true := by
    cases roms with
    | nil =>
        exact absurd rfl filled
    | cons rom roms =>
        rfl
  simp only [Draft.takeRun, first, operand, texts, List.erase_of_not_mem bare]
  rfl

theorem act_operands {d : Draft} (first : d.roms = none) (filled : roms ≠ []) (bare : "--" ∉ roms)
    {rest : List Token} (stop : rest.takeWhile Token.isPlain = []) :
    act d (roms.map .operand ++ rest) = act { d with roms := roms } rest := by
  have behind : rest.dropWhile Token.isPlain = rest := by
    have whole := List.takeWhile_append_dropWhile (p := Token.isPlain) (l := rest)
    rwa [stop] at whole
  rw [← takeRun_operands first filled bare]
  cases roms with
  | nil =>
      exact absurd rfl filled
  | cons rom roms =>
      have plain : ∀ token ∈ roms.map Token.operand, token.isPlain = true := by
        intro token member
        obtain ⟨rom, -, rfl⟩ := List.mem_map.1 member
        rfl
      rw [List.map_cons, List.cons_append, act, List.takeWhile_append_of_pos plain,
        List.dropWhile_append_of_pos plain, stop, behind, List.append_nil]
      · rintro text ⟨⟩
      · rintro text spelling value ⟨⟩

end Operands

theorem takeWhile_groups (groups : List Group) :
    (groups.flatMap Group.tokens).takeWhile Token.isPlain = [] := by
  cases groups with
  | nil =>
      rfl
  | cons g groups =>
      obtain ⟨token, rest, tokens, named⟩ := g.exists_tokens_eq
      rw [List.flatMap_cons, tokens, List.cons_append, List.takeWhile_cons_of_neg]
      rw [named]
      exact nofun

/-- Options, program files and more options are read one after the other, and nothing is left. -/
theorem parse_around_roms (before after : List Group) {roms : List String} (filled : roms ≠ [])
    (plain : ∀ rom ∈ roms, rom.toList.head? ≠ some '-') :
    parse (before.flatMap Group.arguments ++ roms ++ after.flatMap Group.arguments) =
      .ok { (applyAll after { applyAll before {} with roms := roms }).toPreferences with roms } := by
  have bare : "--" ∉ roms := fun member => plain "--" member rfl
  have recognised := recogniseAll_groups before
    (recogniseAll_operands plain
      (recogniseAll_groups after (rfl : Token.recogniseAll [] = .ok [])))
  rw [List.append_nil, List.append_nil, ← List.append_assoc] at recognised
  let d : Draft := { applyAll before {} with roms := roms }
  obtain ⟨noRoms, noRest⟩ := others_applyAll before {}
  obtain ⟨found, whole⟩ := others_applyAll after d
  have acted : act {} (before.flatMap Group.tokens ++
      (roms.map .operand ++ after.flatMap Group.tokens)) = .ok (applyAll after d) := by
    have last := act_groups after d []
    rw [List.append_nil, act] at last
    rw [act_groups, act_operands noRoms filled bare (takeWhile_groups after), last]
  have finished : (applyAll after d).finish =
      .ok { (applyAll after d).toPreferences with roms } := by
    rw [noRest] at whole
    simp only [Draft.finish, found, whole]
    rfl
  simp only [parse, recognised, acted]
  exact finished

/-- **Options around the program files mean what they say.** Options, program files and more options
are accepted. The program files are those that are named, a switch is on if one of the options turns
it on, and a setting has the last number that is given for it, or its usual one. -/
theorem options_around_roms (before after : List Group) {roms : List String} (filled : roms ≠ [])
    (plain : ∀ rom ∈ roms, rom.toList.head? ≠ some '-') :
    ∃ a, parse (before.flatMap Group.arguments ++ roms ++ after.flatMap Group.arguments) = .ok a ∧
      a.roms = roms ∧
      (∀ switch, a.isOn switch = true ↔ ∃ g ∈ before ++ after, g.switch? = some switch) ∧
      ∀ setting, a.number setting =
        some (((before ++ after).filterMap (Group.number? setting)).getLastD setting.usual) := by
  let d := applyAll before {}
  let d' := applyAll after { d with roms := roms }
  refine ⟨_, parse_around_roms before after filled plain, rfl, fun switch => ?_, fun setting => ?_⟩
  · have off : ¬ ({} : Draft).isOn switch = true := by
      have off : ({} : Draft).isOn switch = false := isOn_default switch
      simp [off]
    calc
      d'.isOn switch = true
      _ ↔ (∃ g ∈ after, g.switch? = some switch) ∨ d.isOn switch = true :=
        isOn_applyAll after { d with roms := roms } switch
      _ ↔ (∃ g ∈ after, g.switch? = some switch) ∨ ∃ g ∈ before, g.switch? = some switch :=
        or_congr_right ((isOn_applyAll before {} switch).trans (or_iff_left off))
      _ ↔ ∃ g ∈ before ++ after, g.switch? = some switch := by
        rw [or_comm]
        simp only [List.mem_append, or_and_right, exists_or]
  · have first := number_applyAll before {} setting (number_default setting)
    have last := number_applyAll after { d with roms := roms } setting first
    rw [List.filterMap_append, List.getLastD_eq_getLast?, List.getLast?_append, Option.getD_or,
      ← List.getLastD_eq_getLast?, ← List.getLastD_eq_getLast?]
    exact last

/-- The number three, with a shortened name in front of it. -/
def threeScaled : Group :=
  .number .scale
    ⟨"--sc", ⟨"--scale", .setting .scale⟩, by decide, rfl, .inr ⟨by decide, by decide, by decide⟩⟩
    ⟨"3", 3, by decide, by decide⟩ false

/-- The number twelve, with a sign and a grouping, joined to a name in full. -/
def twelveScaled : Group :=
  .number .scale ⟨"--scale", ⟨"--scale", .setting .scale⟩, by decide, rfl, .inl rfl⟩
    ⟨"+1_2", 12, by decide, by decide⟩ true

/-- A switch with a shortened name. -/
def tracing : Group :=
  .flag .verbose
    ⟨"--verb", ⟨"--verbose", .switch .verbose⟩, by decide, rfl,
      .inr ⟨by decide, by decide, by decide⟩⟩

theorem options_around_roms_rescaled :
    ∃ a, parse ["--sc", "3", "--verb", "a b", "", "--scale=+1_2"] = .ok a ∧
      a.roms = ["a b", ""] ∧ a.scale = some 12 ∧ a.rate = some 500 ∧ a.verbose = true ∧
      a.mute ≠ true := by
  obtain ⟨a, parsed, roms, on, number⟩ :=
    @options_around_roms [threeScaled, tracing] [twelveScaled] ["a b", ""] (by decide) (by decide)
  have silent : ¬ ∃ g ∈ [threeScaled, tracing] ++ [twelveScaled], g.switch? = some .mute := by
    decide
  refine ⟨a, parsed, roms, number .scale, number .rate, ?_, ?_⟩
  · exact (on .verbose).2 ⟨tracing, by simp, rfl⟩
  · exact fun mute => silent ((on .mute).1 mute)

end CommandLine
end ChipEight

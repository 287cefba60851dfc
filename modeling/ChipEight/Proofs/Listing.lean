import ChipEight.Disassembly
import ChipEight.Proofs.ErrorLines
import ChipEight.Proofs.Faults
import ChipEight.Proofs.Run
import ChipEight.Proofs.Transfer

/-!
# The listing is what runs

A program is listed by cutting it into words, and run by fetching words from where it was loaded.
Both give the same instructions at the same addresses for as long as the program's bytes stay in
place, and the trace of a cycle is the line of the entry that it carries out.

* `getElem?_disassemble`: the entries of a listing, by their index.
* `Hex.padded_eq_fixed`: a number that fits so many digits is written with exactly as many.
* `Machine.entry`: where the machine stands, as an entry; `Machine.entry_of_inPlace` finds it in the
  listing.
* `Engine.sound_after`: a log that traces lets the trace through.
* `Engine.listing_runs`: a loaded program runs as it is listed.
-/

namespace ChipEight

theorem getElem?_disassemble (origin : Int) (program : List Byte) {k : Nat}
    (h : 2 * k + 1 < program.length) :
    (disassemble origin program)[k]? =
      some ⟨origin + 2 * k, Word.ofBytes program[2 * k] program[2 * k + 1]⟩ := by
  fun_induction disassemble origin program generalizing k with
  | case1 origin hi lo rest ih =>
      cases k with
      | zero =>
          simp
      | succ k =>
          rw [List.length_cons, List.length_cons] at h
          have address : origin + 2 * ((k + 1 : Nat) : Int) = origin + 2 + 2 * k := by omega
          rw [List.getElem?_cons_succ, ih (by omega), address]
          rfl
  | case2 program origin short =>
      match program with
      | [] | [_] =>
          simp at h
      | hi :: lo :: rest =>
          exact absurd rfl (short hi lo rest)

namespace Hex

theorem padded_eq_fixed {k n : Nat} (hk : 0 < k) (h : n < Nat.pow 2 (4 * k)) :
    padded k n = String.ofList (fixed k n) := by
  have hlog : n.log2 < 4 * k := by
    by_cases zero : n = 0
    · simpa [zero] using hk
    · exact (Nat.log2_lt zero).2 h
  have hwidth : width n ≤ k := by
    rw [width]
    omega
  rw [padded, Nat.max_eq_left hwidth]

end Hex

/-- An entry as a trace shows it: three digits of its address, four of its word, its text. -/
def Entry.line (e : Entry) : String :=
  String.ofList (Hex.fixed 3 e.address.toNat) ++ ": " ++
    String.ofList (Hex.fixed 4 e.word.toNat) ++ "  " ++ e.instruction.text

/-- What is logged of an entry that is carried out at `pc`: its line, and after it the report of a
word that the machine stalls on. -/
def Entry.trace (e : Entry) (o : Options) (pc : Nat) : List LogLine :=
  ⟨.debug, e.line⟩ ::
    if e.instruction = .unknown e.word ∧ o.strict = false then
      [⟨.error, (Fault.unknownOpcode e.word pc).message⟩]
    else []

namespace Machine

/-- The entry that the machine stands at. -/
def entry (m : Machine) : Entry := ⟨m.codeAddress, m.word⟩

theorem traceLine_eq (m : Machine) : m.traceLine = m.entry.line := by
  have hlt : m.codeAddress < 4096 := Nat.mod_lt _ (by decide)
  rw [traceLine, Hex.padded_eq_fixed (by decide) hlt, Hex.padded_eq_fixed (by decide) m.word.isLt]
  rfl

/-- A machine that is not strict stalls on a word that is no instruction. -/
theorem stall?_eq (o : Options) (m : Machine) :
    m.stall? o =
      if m.entry.instruction = .unknown m.entry.word ∧ o.strict = false then
        some (.unknownOpcode m.entry.word m.pc)
      else none := by
  have same : m.entry.instruction = m.instruction := rfl
  unfold stall?
  rw [same]
  cases hi : m.instruction with
  | unknown w =>
      obtain rfl := Instruction.eq_of_decode_eq_unknown hi
      cases o.strict <;> simp [entry]
  | _ =>
      simp

/-- What a cycle makes of the machine when it carries out `i`, whatever was fetched. -/
def carryOut (o : Options) (m : Machine) (i : Instruction) : Machine × Except Fault Bool :=
  match m.count.execute o i with
  | .ok () done => (done.age, .ok i.paints)
  | .error fault _ => (m.count, .error fault)

theorem step_eq_carryOut (o : Options) (m : Machine) :
    m.step o = m.carryOut o m.entry.instruction := by
  show m.step o = m.carryOut o m.instruction
  rcases step_outcome o m with ⟨done, hrun, hstep⟩ | ⟨fault, hrun, hstep⟩
  · rw [hstep, carryOut, hrun]
  · rw [hstep, carryOut, hrun]

/-- The `k`th word of a program stands in memory where the machine fetches from. -/
structure InPlace (m : Machine) (program : List Byte) (k : Nat) : Prop where
  lt : 2 * k + 1 < program.length
  address : m.codeAddress = Memory.programStart + 2 * k
  high : m.memory.read (Memory.programStart + 2 * k) = program[2 * k]
  low : m.memory.read (Memory.programStart + 2 * k + 1) = program[2 * k + 1]

theorem entry_of_inPlace {m : Machine} {program : List Byte} {k : Nat}
    (h : m.InPlace program k) :
    (disassemble Entry.defaultOrigin program)[k]? = some m.entry := by
  rw [getElem?_disassemble _ _ h.lt, entry, word, h.address, h.high, h.low]
  rfl

end Machine

namespace Log

/-- If the log traces, it lets the trace through. -/
def Sound (log : Log) : Prop := log.tracing = true → log.admits .debug = true

theorem sound_setVerbose (log : Log) (on : Bool) : (log.setVerbose on).Sound := by
  intro tracing
  obtain rfl : on = true := tracing
  unfold setVerbose
  cases admitted : log.admits .debug with
  | false =>
      rfl
  | true =>
      exact admitted

end Log

namespace Engine

theorem sound_perform {e : Engine} (sound : e.log.Sound) (action : Action) :
    (e.perform action).engine.log.Sound := by
  cases action with
  | load program =>
      obtain ⟨memory, same⟩ := e.loadInts_engine program
      simp only [perform, same]
      exact sound
  | setKeys report =>
      obtain ⟨keypad, same⟩ := e.setKeys_engine report
      simp only [perform, same]
      exact sound
  | setVerbose on =>
      exact e.log.sound_setVerbose on
  | toggleVerbose =>
      exact e.log.sound_setVerbose _
  | _ =>
      exact sound

theorem sound_after {e : Engine} (sound : e.log.Sound) (run : List Action) :
    (e.after run).log.Sound :=
  after_induction (motive := fun d => d.log.Sound) (fun _ action h => sound_perform h action)
    sound run

theorem step_lines {e : Engine} (sound : e.log.Sound) (tracing : e.log.tracing = true) :
    e.step.lines = e.machine.entry.trace e.options e.machine.pc := by
  have admitted : e.log.admits .debug = true := sound tracing
  have first : e.log.trace e.machine.traceLine = [⟨.debug, e.machine.entry.line⟩] := by
    rw [Log.trace, if_pos tracing, Log.write, if_pos admitted, Machine.traceLine_eq]
  unfold step
  rw [first, Machine.stall?_eq]
  by_cases stray : e.machine.entry.instruction = .unknown e.machine.entry.word ∧
      e.options.strict = false
  · simp only [if_pos stray, Entry.trace, Log.error_eq]
    rfl
  · simp only [if_neg stray, Entry.trace]
    rfl

/-- **The listing is what runs.** A program that fits is loaded after any run and a reset. From then
on, whenever a step starts at the `k`th word of the program and finds it in place, it carries out
the `k`th entry of the listing, which has the address it fetched from, and traces that entry's line
first, whether it then fails or not. -/
theorem listing_runs (options : Options) (random : RandomBytes) (threshold : Level)
    (prior : List Action) (program : List Byte) (fits : program.length ≤ Memory.capacity) :
    let ready := (boot options random ⟨threshold, false⟩).after (prior ++ [.reset])
    let loaded := ready.perform (.load (program.map fun b => (b.toNat : Int)))
    loaded.result = .ok .done ∧
    (∀ j, (h : j < program.length) →
      loaded.engine.machine.memory.read (Memory.programStart + j) = program[j]) ∧
    ∀ later k, let reached := loaded.engine.after later
      reached.machine.InPlace program k →
      ∃ entry,
        (disassemble Entry.defaultOrigin program)[k]? = some entry ∧
        entry.address = reached.machine.codeAddress ∧
        reached.step.engine =
          { reached with
            machine := (reached.machine.carryOut reached.options entry.instruction).1 } ∧
        reached.step.result = (reached.machine.carryOut reached.options entry.instruction).2 ∧
        (reached.log.tracing = true →
          reached.step.lines = entry.trace reached.options reached.machine.pc) := by
  intro ready loaded
  refine ⟨ready.perform_load_result fits, fun j h => ?_, fun later k => ?_⟩
  · have small : program.length ≤ 4096 := Nat.le_trans fits (by decide)
    show (ready.perform _).engine.machine.memory.read _ = _
    rw [perform_load_toNat _ fits]
    exact Memory.read_writeAll program small _ _ h
  · intro reached inPlace
    have first : (boot options random ⟨threshold, false⟩).log.Sound := nofun
    -- tracing may have been switched on at any time, before the load or after it
    have sound : reached.log.Sound :=
      sound_after (sound_perform (sound_after first _) _) later
    have carried := reached.machine.step_eq_carryOut reached.options
    refine ⟨reached.machine.entry, Machine.entry_of_inPlace inPlace, rfl, ?_, ?_, step_lines sound⟩
    · rw [step_engine, carried]
    · rw [step_result, carried]

/-- An engine that traces and has loaded a return and a byte that is left over. -/
def bareReturn : Engine :=
  (((boot {} (.cycle #[]) ⟨.warning, false⟩).after ([.setVerbose true] ++ [.reset])).perform
    (.load (([0x00, 0xEE, 0xFF] : List Byte).map fun b => (b.toNat : Int)))).engine

theorem listing_runs_bareReturn :
    bareReturn.machine.InPlace [0x00, 0xEE, 0xFF] 0 ∧
    bareReturn.step.lines = [⟨.debug, "200: 00EE  RET"⟩] ∧
    bareReturn.step.result = .error (.stackUnderflow 0x200) := by
  obtain ⟨-, placed, runs⟩ :=
    listing_runs {} (.cycle #[]) .warning [.setVerbose true] [0x00, 0xEE, 0xFF] (by decide)
  have inPlace : bareReturn.machine.InPlace [0x00, 0xEE, 0xFF] 0 :=
    ⟨by decide, by decide +kernel, placed 0 (by decide), placed 1 (by decide)⟩
  obtain ⟨entry, listed, -, -, result, lines⟩ := runs [] 0 inPlace
  obtain rfl : entry = ⟨0x200, 0x00EE⟩ := by
    rw [disassemble] at listed
    exact (Option.some.inj listed).symm
  refine ⟨inPlace, (lines (by decide +kernel)).trans ?_, result.trans ?_⟩
  · decide +kernel
  · rfl

end Engine
end ChipEight

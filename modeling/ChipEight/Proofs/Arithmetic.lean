import ChipEight.Proofs.Decoding
import ChipEight.Proofs.Effect
import ChipEight.Proofs.Run
import ChipEight.Proofs.Transfer

/-!
# Arithmetic and the flag

The arithmetic instructions put a result into `Vx` and then a flag into `VF`. Operands, result and
flag may share a register in every way: both operands are read before anything is written, and where
`x` is `F` the flag is what stays.

* `toNat_add_byte`, `toNat_sub_byte`, `toNat_halve`, `toNat_double` and the two lemmas on bits: bytes
  against exact integers.
* `Engine.Computes`: a step has put one number into `Vx`, another into `VF`, and kept all other
  registers; `Engine.computes_of_setFlagged` says so of every instruction that sets both.
* `Engine.flag_arithmetic`: the result and the flag of each instruction.
-/

namespace ChipEight

theorem toNat_decide {p q : Prop} [Decidable p] [Decidable q] (h : p ↔ q) :
    ((decide p).toNat : Int) = if q then 1 else 0 := by
  by_cases hq : q <;> simp [h, hq]

theorem toNat_flagByte (up : Bool) : (flagByte up).toNat = up.toNat := by
  cases up <;> simp [flagByte]

section Bytes

variable (a b : Byte)

theorem toNat_add_byte : ((a + b).toNat : Int) = (a.toNat + b.toNat) % 256 := by
  rw [BitVec.toNat_add]
  omega

theorem toNat_sub_byte : ((a - b).toNat : Int) = (a.toNat - b.toNat) % 256 := by
  have := a.isLt
  have := b.isLt
  rw [BitVec.toNat_sub]
  omega

theorem toNat_halve : ((a >>> 1).toNat : Int) = a.toNat / 2 := by
  rw [BitVec.toNat_ushiftRight, Nat.shiftRight_eq_div_pow]
  omega

theorem toNat_double : ((a <<< 1).toNat : Int) = 2 * a.toNat % 256 := by
  rw [BitVec.toNat_shiftLeft, Nat.shiftLeft_eq]
  omega

theorem toNat_lowBit : ((a.getLsbD 0).toNat : Int) = a.toNat % 2 := by
  rw [BitVec.getLsbD, Nat.toNat_testBit]
  omega

theorem toNat_highBit : ((a.getLsbD 7).toNat : Int) = a.toNat / 128 := by
  have := a.isLt
  rw [BitVec.getLsbD, Nat.toNat_testBit]
  omega

theorem toNat_carry : ((decide (255 < a.toNat + b.toNat)).toNat : Int) =
    if (a.toNat + b.toNat : Int) > 255 then 1 else 0 :=
  toNat_decide (by omega)

theorem toNat_greater : ((decide (b < a)).toNat : Int) =
    if (a.toNat : Int) > b.toNat then 1 else 0 := by
  refine toNat_decide ?_
  rw [BitVec.lt_def]
  omega

end Bytes

namespace Engine

/-- A step succeeds and puts one number into `Vx` and another one, as a flag, into `VF`. Where these
are the same register the flag stays. All other registers are kept. -/
structure Computes (e : Engine) (result flag : Int) : Prop where
  completes : e.step.result = .ok false
  result_eq : e.machine.word.x ≠ Registers.flag →
    ((e.step.engine.machine.v e.machine.word.x).toNat : Int) = result
  flag_eq : ((e.step.engine.machine.v Registers.flag).toNat : Int) = flag
  other_eq : ∀ z, z ≠ e.machine.word.x → z ≠ Registers.flag →
    e.step.engine.machine.v z = e.machine.v z

/-- What an instruction does that sets a register and the flag. -/
theorem computes_of_setFlagged {e : Engine} {i : Instruction} {b : Byte} {up : Bool}
    {result flag : Int} (fetched : e.machine.instruction = i)
    (hrun : e.machine.count.execute e.options i =
      .ok () (e.machine.count.setFlagged e.machine.word.x b up).next)
    (silent : i.paints = false) (hresult : (b.toNat : Int) = result)
    (hflag : (up.toNat : Int) = flag) :
    e.Computes result flag := by
  have hstep := Machine.step_of_execute fetched hrun
  have after (z : Nibble) : e.step.engine.machine.v z =
      if Registers.flag = z then flagByte up else if e.machine.word.x = z then b
      else e.machine.v z := by
    rw [step_engine, hstep]
    exact (Machine.v_age _ z).trans (e.machine.count.v_setFlagged _ z b up)
  refine ⟨?_, fun apart => ?_, ?_, fun z other unflagged => ?_⟩
  · rw [step_result, hstep, silent]
  · rw [after, if_neg apart.symm, if_pos rfl, hresult]
  · rw [after, if_pos rfl, toNat_flagByte, hflag]
  · rw [after, if_neg unflagged.symm, if_neg other.symm]

/-- What `Fx1E` does. -/
theorem step_addIndex {e : Engine} {x : Nibble} (fetched : e.machine.instruction = .addIndex x) :
    e.step.result = .ok false ∧
    e.step.engine.machine.index = (e.machine.index + (e.machine.v x).toNat) % 65536 ∧
    (∀ z, e.step.engine.machine.v z =
      if Registers.flag = z then
        flagByte (decide (4095 < e.machine.index + (e.machine.v x).toNat))
      else e.machine.v z) := by
  have hstep := Machine.step_of_execute (o := e.options) fetched rfl
  refine ⟨congrArg Prod.snd hstep, ?_, fun z => ?_⟩
  · rw [step_engine, hstep, Machine.index_age]
    rfl
  · rw [step_engine, hstep]
    exact (Machine.v_age _ z).trans (Machine.v_setV _ Registers.flag z _)

/-- **Arithmetic and the flag.** Of the values `a` of `Vx` and `b` of `Vy` before a step, as exact
integers, each instruction makes a result modulo 256 and a flag: whether the sum is more than a byte,
whether the first operand of a difference is the greater, or the bit that is shifted out. `Fx1E` adds
to the index and flags a sum that is past the last address. -/
theorem flag_arithmetic (e : Engine) :
    let w := e.machine.word
    let a : Int := (e.machine.v w.x).toNat
    let b : Int := (e.machine.v w.y).toNat
    (w &&& 0xF00F = 0x8004 → e.Computes ((a + b) % 256) (if a + b > 255 then 1 else 0)) ∧
    (w &&& 0xF00F = 0x8005 → e.Computes ((a - b) % 256) (if a > b then 1 else 0)) ∧
    (w &&& 0xF00F = 0x8006 → e.Computes (a / 2) (a % 2)) ∧
    (w &&& 0xF00F = 0x8007 → e.Computes ((b - a) % 256) (if b > a then 1 else 0)) ∧
    (w &&& 0xF00F = 0x800E → e.options.legacyShift = false →
      e.Computes (2 * a % 256) (a / 128)) ∧
    (w &&& 0xF0FF = 0xF01E →
      let m' := e.step.engine.machine
      let total := e.machine.index + a
      e.step.result = .ok false ∧ m'.index = total % 65536 ∧
      ((m'.v Registers.flag).toNat : Int) = (if total > 0xFFF then 1 else 0) ∧
      ∀ z, z ≠ Registers.flag → m'.v z = e.machine.v z) := by
  intro w a b
  refine ⟨fun hw => ?_, fun hw => ?_, fun hw => ?_, fun hw => ?_, fun hw canonical => ?_,
    fun hw => ?_⟩
  · have fetched : e.machine.instruction = .add w.x w.y :=
      Instruction.decode_withXY (by simp [Instruction.table]) hw
    exact computes_of_setFlagged fetched rfl rfl (toNat_add_byte _ _) (toNat_carry _ _)
  · have fetched : e.machine.instruction = .sub w.x w.y :=
      Instruction.decode_withXY (by simp [Instruction.table]) hw
    exact computes_of_setFlagged fetched rfl rfl (toNat_sub_byte _ _) (toNat_greater _ _)
  · have fetched : e.machine.instruction = .shiftRight w.x := Instruction.decode_shiftRight hw
    exact computes_of_setFlagged fetched rfl rfl (toNat_halve _) (toNat_lowBit _)
  · have fetched : e.machine.instruction = .subFrom w.x w.y :=
      Instruction.decode_withXY (by simp [Instruction.table]) hw
    exact computes_of_setFlagged fetched rfl rfl (toNat_sub_byte _ _) (toNat_greater _ _)
  · have fetched : e.machine.instruction = .shiftLeft w.x :=
      Instruction.decode_eq_shiftLeft_iff.2 ⟨hw, rfl⟩
    refine computes_of_setFlagged fetched ?_ rfl (toNat_double _) (toNat_highBit _)
    rw [Machine.execute, canonical]
    rfl
  · have fetched : e.machine.instruction = .addIndex w.x :=
      Instruction.decode_withX (by simp [Instruction.table]) hw
    obtain ⟨completes, index, registers⟩ := step_addIndex fetched
    refine ⟨completes, ?_, ?_, fun z other => ?_⟩
    · rw [index]
      omega
    · rw [registers, if_pos rfl, toNat_flagByte]
      exact toNat_decide (by omega)
    · rw [registers, if_neg other.symm]

/-- An engine at a word, with 16 in `V1`, 200 in `VF` and the index at the last address. -/
def calculator (w : Word) : Engine where
  machine :=
    { memory := .writeAll .blank 0x200 [w.toBytes.1, w.toBytes.2]
      registers := (Registers.zero.set 1 16).set Registers.flag 200
      index := 0xFFF
      random := .cycle #[] }
  log := ⟨.error, false⟩

theorem word_calculator (w : Word) : (calculator w).machine.word = w :=
  Machine.word_of_writeAll rfl (Nat.zero_le _)

/-- The flag register as both operands and the result, as the second operand, as the first one, and
as what is shifted or added to the index. -/
theorem flag_arithmetic_aliased :
    let m' (w : Word) := (calculator w).step.engine.machine
    let result (w : Word) : Int := ((m' w).v (calculator w).machine.word.x).toNat
    let flag (w : Word) : Int := ((m' w).v Registers.flag).toNat
    flag 0x8FF4 = 1 ∧ (result 0x81F5 = 72 ∧ flag 0x81F5 = 0) ∧ flag 0x8FF6 = 0 ∧
    flag 0x8F17 = 0 ∧ (result 0x811E = 32 ∧ flag 0x8FFE = 1) ∧
    (flag 0xFF1E = 1 ∧ (m' 0xFF1E).index = (4295 : Int)) := by
  intro m' result flag
  have fits (w mask pattern : Word) (h : w &&& mask = pattern) :
      (calculator w).machine.word &&& mask = pattern := by
    rw [word_calculator, h]
  have doubled := (flag_arithmetic (calculator 0x8FF4)).1 (fits _ _ _ rfl)
  have less := (flag_arithmetic (calculator 0x81F5)).2.1 (fits _ _ _ rfl)
  have halved := (flag_arithmetic (calculator 0x8FF6)).2.2.1 (fits _ _ _ rfl)
  have lessFlag := (flag_arithmetic (calculator 0x8F17)).2.2.2.1 (fits _ _ _ rfl)
  have shifted := (flag_arithmetic (calculator 0x811E)).2.2.2.2.1 (fits _ _ _ rfl) rfl
  have lostBit := (flag_arithmetic (calculator 0x8FFE)).2.2.2.2.1 (fits _ _ _ rfl) rfl
  obtain ⟨-, index, past, -⟩ := (flag_arithmetic (calculator 0xFF1E)).2.2.2.2.2 (fits _ _ _ rfl)
  refine ⟨doubled.flag_eq.trans ?_, ⟨(less.result_eq ?_).trans ?_, less.flag_eq.trans ?_⟩,
    halved.flag_eq.trans ?_, lessFlag.flag_eq.trans ?_,
    ⟨(shifted.result_eq ?_).trans ?_, lostBit.flag_eq.trans ?_⟩, past.trans ?_, index.trans ?_⟩
  all_goals
    rw [word_calculator]
    decide

end Engine
end ChipEight

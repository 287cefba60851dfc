import ChipEight.Proofs.Effect
import ChipEight.Proofs.Run
import Mathlib.Data.Set.Defs

/-!
# Twelve bits of a code address

An instruction is fetched with the low twelve bits of the program counter, and every move of the
program counter keeps numbers congruent modulo 4096 that were so before. Two machines that differ in
multiples of 4096 only, in the program counter and in the return addresses, therefore run alike, as
long as none of them fails to store a return address. The stack slots out of use are never read;
those of them that differ in such multiples go on doing so.

* `Machine.Congruent`: machines that differ in such multiples only, in the slots in use and in
  those that are watched besides, which may be all or none.
* `Machine.Congruent.execute`, `Machine.Congruent.step`: instructions and steps keep them congruent.
* `Engine.twelve_bit_code`: steps and runs of congruent machines, and the machine with twelve bits
  that each machine is congruent to.
-/

namespace ChipEight

/-- A fault without the place where it happened. -/
def Fault.unplaced : Fault → Fault
  | .unknownOpcode word _ => .unknownOpcode word 0
  | .stackOverflow _ => .stackOverflow 0
  | .stackUnderflow _ => .stackUnderflow 0
  | .unstorableReturn _ => .unstorableReturn 0

/-- A failure without the place where a fault happened. -/
def Failure.unplaced : Failure → Failure
  | .fault cause => .fault cause.unplaced
  | .refusal cause => .refusal cause

namespace Machine

/-- What a return address is modulo 4096. -/
def codeOffset (caller : Word) : Nat := caller.toNat % 4096

/-- The same machine but for multiples of 4096 in the program counter and in the stack slots that
are in use or watched; what the other slots hold is left open. -/
inductive Congruent (watched : Set Nat) (m : Machine) : Machine → Prop
  | intro {pc : Nat} {slots : Vector Word stackDepth}
      (pc_mod : pc % 4096 = m.pc % 4096)
      (slot_mod : ∀ k, k < m.sp ∨ k ∈ watched →
        codeOffset ({ m with pc, slots }.slot k) = codeOffset (m.slot k)) :
      Congruent watched m { m with pc, slots }

/-- Outcomes of one instruction on two machines: congruent machines, after the same fault up to its
place or after none. -/
inductive Alike (watched : Set Nat) : Outcome → Outcome → Prop
  | ok {done done' : Machine} (h : Congruent watched done done') :
      Alike watched (.ok () done) (.ok () done')
  | error {fault fault' : Fault} {reached reached' : Machine}
      (same : fault'.unplaced = fault.unplaced) (h : Congruent watched reached reached') :
      Alike watched (.error fault reached) (.error fault' reached')

namespace Congruent

variable {watched : Set Nat} {m m' : Machine}

theorem jump (h : Congruent watched m m') {pc pc' : Nat} (hpc : pc' % 4096 = pc % 4096) :
    Congruent watched { m with pc } { m' with pc := pc' } := by
  cases h with
  | intro pc_mod slot_mod =>
      exact .intro hpc slot_mod

theorem pc_mod (h : Congruent watched m m') : m'.pc % 4096 = m.pc % 4096 := by
  cases h with
  | intro pc_mod slot_mod =>
      exact pc_mod

/-- Going on wraps at a multiple of 4096. -/
theorem advance (h : Congruent watched m m') (n : Nat) :
    Congruent watched { m with pc := (m.pc + n) % 65536 } { m' with pc := (m'.pc + n) % 65536 } := by
  have := h.pc_mod
  exact h.jump (by omega)

theorem next (h : Congruent watched m m') : Congruent watched m.next m'.next :=
  h.advance 2

theorem skipIf (h : Congruent watched m m') (condition : Bool) :
    Congruent watched (m.skipIf condition) (m'.skipIf condition) :=
  h.advance _

theorem count (h : Congruent watched m m') : Congruent watched m.count m'.count := by
  cases h with
  | intro pc_mod slot_mod =>
      exact .intro pc_mod slot_mod

theorem age (h : Congruent watched m m') : Congruent watched m.age m'.age := by
  cases h with
  | intro pc_mod slot_mod =>
      unfold Machine.age
      exact .intro pc_mod slot_mod

theorem skipOnKey (h : Congruent watched m m') (key : Nibble) (wanted : Bool) :
    Congruent watched (m.skipOnKey key wanted) (m'.skipOnKey key wanted) := by
  cases h with
  | intro pc_mod slot_mod =>
      simp only [Machine.skipOnKey]
      split
      · refine .skipIf ?_ _
        exact .intro pc_mod slot_mod
      · exact .skipIf (.intro pc_mod slot_mod) _

theorem awaitKey (h : Congruent watched m m') (x : Nibble) :
    Congruent watched (m.awaitKey x) (m'.awaitKey x) := by
  cases h with
  | intro pc_mod slot_mod =>
      unfold Machine.awaitKey
      cases m.keypad.lowest? with
      | none =>
          exact .intro pc_mod slot_mod
      | some key =>
          exact Congruent.next (.intro pc_mod slot_mod)

theorem dirty_eq (h : Congruent watched m m') : m'.dirty = m.dirty := by
  cases h with
  | intro pc_mod slot_mod =>
      rfl

theorem instruction_eq (h : Congruent watched m m') : m'.instruction = m.instruction := by
  cases h with
  | intro pc_mod slot_mod =>
      simp only [instruction, word, codeAddress, pc_mod]

/-- A call stores the program counter as it is; the addresses stored are congruent. -/
theorem enter (h : Congruent watched m m') (target : Address)
    (storable : ∀ fault reached, (Machine.enter target).run m = .error fault reached →
      fault.ofProgram = true)
    (storable' : ∀ fault reached, (Machine.enter target).run m' = .error fault reached →
      fault.ofProgram = true) :
    Alike watched ((Machine.enter target).run m) ((Machine.enter target).run m') := by
  have same := h
  rcases h with @⟨pc, slots, pc_mod, slot_mod⟩
  by_cases full : stackDepth ≤ m.sp
  · have full' : stackDepth ≤ ({ m with pc, slots } : Machine).sp := full
    rw [enter_of_full full, enter_of_full full']
    exact .error rfl same
  · have room : m.sp < stackDepth := Nat.lt_of_not_le full
    have room' : ({ m with pc, slots } : Machine).sp < stackDepth := room
    have low : m.pc ≤ 65535 := Nat.le_of_not_lt fun high => by
      cases storable _ _ (enter_of_unstorable room high target)
    have low' : pc ≤ 65535 := Nat.le_of_not_lt fun high => by
      cases storable' _ _ (enter_of_unstorable room' high target)
    rw [enter_of_room room low, enter_of_room room' low']
    -- both program counters fit into a word, so storing them cuts nothing off
    have stored : codeOffset (BitVec.ofNat 16 pc) = codeOffset (BitVec.ofNat 16 m.pc) := by
      rw [codeOffset, codeOffset, toNat_returnAddress low, toNat_returnAddress low', pc_mod]
    refine .ok (.intro rfl fun k hk => ?_)
    show codeOffset (({ m with pc, slots }.push (BitVec.ofNat 16 pc)).slot k) =
      codeOffset ((m.push (BitVec.ofNat 16 m.pc)).slot k)
    by_cases top : m.sp = k
    · subst top
      rw [slot_push_self room, slot_push_self room', stored]
    · have top' : ({ m with pc, slots } : Machine).sp ≠ k := top
      rw [slot_push_of_ne top, slot_push_of_ne top']
      refine slot_mod k (hk.imp_left fun below => ?_)
      have below : k < m.sp + 1 := below
      omega

theorem leave (h : Congruent watched m m') :
    Alike watched (Machine.leave.run m) (Machine.leave.run m') := by
  have same := h
  rcases h with @⟨pc, slots, pc_mod, slot_mod⟩
  by_cases empty : m.sp = 0
  · have empty' : ({ m with pc, slots } : Machine).sp = 0 := empty
    rw [leave_of_empty empty, leave_of_empty empty']
    exact .error rfl same
  · obtain ⟨k, used⟩ := Nat.exists_eq_add_one_of_ne_zero empty
    have used' : ({ m with pc, slots } : Machine).sp = k + 1 := used
    rw [leave_of_stack (stack_of_sp_eq_succ used), leave_of_stack (stack_of_sp_eq_succ used')]
    have top := slot_mod k (Or.inl (by omega))
    unfold codeOffset at top
    refine .ok (.intro ?_ fun j hj => slot_mod j (hj.imp_left fun below => ?_))
    · show (_ + 2) % 4096 = ((m.slot k).toNat + 2) % 4096
      omega
    · have below : j < m.sp - 1 := below
      omega

/-- Carrying out an instruction keeps machines congruent, and fails on both or on none. -/
theorem execute (h : Congruent watched m m') (o : Options) (i : Instruction)
    (storable : ∀ fault reached, m.execute o i = .error fault reached → fault.ofProgram = true)
    (storable' : ∀ fault reached, m'.execute o i = .error fault reached →
      fault.ofProgram = true) :
    Alike watched (m.execute o i) (m'.execute o i) := by
  have same := h
  rcases h with @⟨pc, slots, pc_mod, slot_mod⟩
  cases i with
  | call target =>
      exact same.enter target storable storable'
  | ret =>
      exact same.leave
  | unknown w =>
      show Alike watched ((stray o w).run m) ((stray o w).run _)
      cases strict : o.strict with
      | true =>
          rw [stray_of_strict strict, stray_of_strict strict]
          exact .error rfl same
      | false =>
          rw [stray_of_lenient strict, stray_of_lenient strict]
          exact .ok same
  | jump target =>
      exact .ok (same.jump rfl)
  | jumpFrom target =>
      exact .ok (same.jump rfl)
  | skipIfKey x =>
      exact .ok (same.skipOnKey _ _)
  | skipUnlessKey x =>
      exact .ok (same.skipOnKey _ _)
  | waitKey x =>
      exact .ok (same.awaitKey x)
  | skipIfByte x b =>
      exact .ok (same.skipIf _)
  | skipUnlessByte x b =>
      exact .ok (same.skipIf _)
  | skipIfSame x y =>
      exact .ok (same.skipIf _)
  | skipUnlessSame x y =>
      exact .ok (same.skipIf _)
  | shiftLeft x =>
      simp only [Machine.execute]
      split
      · exact .ok (.next (.intro pc_mod slot_mod))
      · exact .ok (.next (.intro pc_mod slot_mod))
  | _ =>
      exact .ok (.next (.intro pc_mod slot_mod))

end Congruent

/-- The coming step does not fail to store a return address. -/
def Storable (o : Options) (m : Machine) : Prop :=
  ∀ fault, (m.step o).2 = .error fault → fault.ofProgram = true

theorem Storable.execute {o : Options} {m : Machine} (h : m.Storable o) (fault : Fault)
    (reached : Machine) (hrun : m.count.execute o m.instruction = .error fault reached) :
    fault.ofProgram = true := by
  refine h fault ?_
  rw [step, hrun]

theorem Congruent.step {watched : Set Nat} {m m' : Machine} (h : Congruent watched m m')
    {o : Options}
    (storable : m.Storable o) (storable' : m'.Storable o) :
    (m'.step o).2.mapError Fault.unplaced = (m.step o).2.mapError Fault.unplaced ∧
      Congruent watched (m.step o).1 (m'.step o).1 := by
  have run' := storable'.execute
  rw [h.instruction_eq] at run'
  have alike := h.count.execute o m.instruction storable.execute run'
  unfold Machine.step
  rw [h.instruction_eq]
  generalize m.count.execute o m.instruction = result at alike
  generalize m'.count.execute o m.instruction = result' at alike
  cases alike with
  | ok done =>
      exact ⟨congrArg Except.ok done.age.dirty_eq, done.age⟩
  | error same reached =>
      exact ⟨congrArg Except.error same, reached⟩

/-- The machine with its code addresses cut down to twelve bits. -/
def masked (m : Machine) : Machine :=
  { m with
    pc := m.pc % 4096
    slots := m.slots.map fun caller => BitVec.ofNat 16 (codeOffset caller) }

theorem codeOffset_lt (caller : Word) : codeOffset caller < 4096 :=
  Nat.mod_lt _ (by decide)

theorem toNat_masked (caller : Word) :
    (BitVec.ofNat 16 (codeOffset caller)).toNat = codeOffset caller := by
  have := codeOffset_lt caller
  exact toNat_returnAddress (by omega)

theorem slot_masked (m : Machine) (k : Nat) :
    m.masked.slot k = BitVec.ofNat 16 (codeOffset (m.slot k)) := by
  rw [slot, masked, Vector.getElem?_map, slot]
  cases m.slots[k]? <;> rfl

theorem congruent_masked (watched : Set Nat) (m : Machine) : m.Congruent watched m.masked := by
  refine .intro (Nat.mod_mod _ _) fun k _ => ?_
  show codeOffset (m.masked.slot k) = codeOffset (m.slot k)
  rw [slot_masked, codeOffset, toNat_masked]
  exact Nat.mod_mod _ _

theorem slot_masked_lt (m : Machine) (k : Nat) : (m.masked.slot k).toNat < 4096 := by
  rw [slot_masked, toNat_masked]
  exact codeOffset_lt _

end Machine

namespace Engine

/-- No step of a run fails to store a return address. -/
def Storable (e : Engine) (run : List Action) : Prop :=
  ∀ reply ∈ e.performAll run, ∀ fault,
    reply.result = .error (.fault fault) → fault.ofProgram = true

theorem Storable.step {e : Engine} {rest : List Action} (h : e.Storable (.step :: rest)) :
    e.machine.Storable e.options := by
  intro fault hfault
  refine h _ List.mem_cons_self fault ?_
  show perform.answered .flag .fault e.step.result = _
  rw [step_result, hfault]
  rfl

theorem answered_unplaced (result : Except Fault Bool) :
    (perform.answered .flag .fault result).mapError Failure.unplaced =
      perform.answered .flag .fault (result.mapError Fault.unplaced) := by
  cases result <;> rfl

/-- An action keeps machines congruent, and its results are the same up to the place of a fault. -/
theorem perform_congruent {watched : Set Nat} {e : Engine} {m' : Machine} (h : e.machine.Congruent watched m')
    {action : Action} {rest : List Action} (storable : e.Storable (action :: rest))
    (storable' : { e with machine := m' }.Storable (action :: rest)) :
    ({ e with machine := m' }.perform action).result.mapError Failure.unplaced =
        (e.perform action).result.mapError Failure.unplaced ∧
      ∃ done', ({ e with machine := m' }.perform action).engine =
          { (e.perform action).engine with machine := done' } ∧
        (e.perform action).engine.machine.Congruent watched done' := by
  cases action with
  | step =>
      obtain ⟨hresult, hdone⟩ := h.step storable.step storable'.step
      refine ⟨?_, _, rfl, hdone⟩
      show (perform.answered _ _ _).mapError _ = (perform.answered _ _ _).mapError _
      rw [answered_unplaced, answered_unplaced, step_result, step_result]
      exact congrArg _ hresult
  | reset =>
      rcases h with ⟨pc_mod, slot_mod⟩
      exact ⟨rfl, _, rfl, .intro rfl fun _ _ => rfl⟩
  | load program =>
      rcases h with ⟨pc_mod, slot_mod⟩
      simp only [perform, loadInts]
      cases bytesOfInts program with
      | error cause =>
          exact ⟨rfl, _, rfl, .intro pc_mod slot_mod⟩
      | ok bytes =>
          by_cases large : Memory.capacity < bytes.length
          · simp only [load, if_pos large]
            exact ⟨trivial, _, rfl, .intro pc_mod slot_mod⟩
          · simp only [load, if_neg large]
            exact ⟨trivial, _, rfl, .intro pc_mod slot_mod⟩
  | setKeys report =>
      rcases h with ⟨pc_mod, slot_mod⟩
      simp only [perform, setKeys]
      cases report.keys? with
      | error refusal =>
          exact ⟨rfl, _, rfl, .intro pc_mod slot_mod⟩
      | ok down =>
          simp only [arm, Machine.arm]
          exact ⟨trivial, _, rfl, .intro pc_mod slot_mod⟩
  | _ =>
      rcases h with ⟨pc_mod, slot_mod⟩
      exact ⟨rfl, _, rfl, .intro pc_mod slot_mod⟩

theorem Storable.later {e : Engine} {action : Action} {rest : List Action}
    (h : e.Storable (action :: rest)) : (e.perform action).engine.Storable rest :=
  fun reply hreply => h reply (List.mem_cons_of_mem _ hreply)

/-- The results of a run without the places of faults. -/
def outcomes (e : Engine) (run : List Action) : List (Except Failure Answer) :=
  (e.performAll run).map fun reply => reply.result.mapError Failure.unplaced

/-- Runs of engines with congruent machines get the same results, and end with such machines. -/
theorem performAll_congruent {watched : Set Nat} {e : Engine} {m' : Machine} (h : e.machine.Congruent watched m')
    {run : List Action} (storable : e.Storable run)
    (storable' : { e with machine := m' }.Storable run) :
    { e with machine := m' }.outcomes run = e.outcomes run ∧
      (e.after run).machine.Congruent watched ({ e with machine := m' }.after run).machine := by
  induction run generalizing e m' with
  | nil =>
      exact ⟨rfl, h⟩
  | cons action rest ih =>
      obtain ⟨hresult, done', hengine, hdone⟩ := perform_congruent h storable storable'
      have later' := storable'.later
      rw [hengine] at later'
      obtain ⟨hresults, hlast⟩ := ih hdone storable.later later'
      unfold outcomes at hresults ⊢
      rw [performAll, performAll, List.map_cons, List.map_cons, after_cons, after_cons, hengine,
        hresult, hresults]
      exact ⟨rfl, hlast⟩

/-- **Twelve bits of code address are enough.** Of two machines that differ in multiples of 4096
only, in the program counter and in return addresses, a step fails on both with the same fault, up
to its place, or on none of them, and leaves such machines again; and so do runs, as long as no
return address fails to be stored. This is so whether all sixteen stack slots are looked at, or
those in use only, or any between. Each machine is one of such two with a machine whose program
counter and return addresses have twelve bits. -/
theorem twelve_bit_code (watched : Set Nat) :
    (∀ (o : Options) (m m' : Machine), m.Congruent watched m' → m.Storable o → m'.Storable o →
      (m'.step o).2.mapError Fault.unplaced = (m.step o).2.mapError Fault.unplaced ∧
      (m.step o).1.Congruent watched (m'.step o).1) ∧
    (∀ (e : Engine) (m' : Machine) (run : List Action), e.machine.Congruent watched m' →
      e.Storable run → { e with machine := m' }.Storable run →
      { e with machine := m' }.outcomes run = e.outcomes run ∧
      (e.after run).machine.Congruent watched ({ e with machine := m' }.after run).machine) ∧
    ∀ m : Machine, m.Congruent watched m.masked ∧ m.masked.pc < 4096 ∧
      ∀ k, (m.masked.slot k).toNat < 4096 := by
  refine ⟨fun o m m' h storable storable' => h.step storable storable',
    fun e m' run h storable storable' => performAll_congruent h storable storable', fun m => ?_⟩
  exact ⟨m.congruent_masked watched, Nat.mod_lt _ (by decide), m.slot_masked_lt⟩

theorem storable_of_isOk {e : Engine} {run : List Action}
    (h : ∀ reply ∈ e.performAll run, reply.result.isOk = true) : e.Storable run := by
  intro reply hreply fault hfault
  have ok := h reply hreply
  rw [hfault] at ok
  cases ok

/-- An engine at the last word of the memory, a call of a subroutine that returns at once. -/
def edgeCaller : Engine where
  machine :=
    { memory := (Memory.blank.writeAll 0xFFE [0x22, 0x00, 0x6A, 0x01]).writeAll 0x200 [0x00, 0xEE]
      pc := 0x0FFE
      random := .cycle #[] }
  log := ⟨.warning, false⟩

/-- The same machine fifteen turns of the memory later. -/
def lateEdgeCaller : Machine := { edgeCaller.machine with pc := 0xFFFE }

theorem twelve_bit_code_edgeCaller :
    let late : Engine := { edgeCaller with machine := lateEdgeCaller }
    (edgeCaller.after [.step, .step]).machine.pc = 0x01000 ∧
    (late.after [.step, .step]).machine.pc = 0x10000 ∧
    (edgeCaller.after [.step, .step, .step]).machine.Congruent Set.univ
      (late.after [.step, .step, .step]).machine := by
  intro late
  have start : edgeCaller.machine.Congruent Set.univ lateEdgeCaller :=
    .intro (by decide) fun _ _ => rfl
  have storable : edgeCaller.Storable [.step, .step, .step] :=
    storable_of_isOk (by decide +kernel)
  have storable' : late.Storable [.step, .step, .step] := storable_of_isOk (by decide +kernel)
  have alike := (twelve_bit_code Set.univ).2.1 edgeCaller lateEdgeCaller _ start storable storable'
  exact ⟨by decide +kernel, by decide +kernel, alike.2⟩

end Engine
end ChipEight

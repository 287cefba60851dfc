import ChipEight.Word

/-!
# Keyboard

The keys of a keyboard that mean something to the window. Sixteen of them stand for the machine's
keys, four to a row.
-/

namespace ChipEight

/-- A key of the keyboard; `other` is any that has no meaning. -/
inductive Symbol where
  | one | two | three | four
  | q | w | e | r
  | a | s | d | f
  | z | x | c | v
  | escape
  | f1 | f2 | f3 | f4
  | other
  deriving DecidableEq, Repr

/-- The machine's key that a key of the keyboard stands for. -/
def Symbol.key? : Symbol → Option Nibble
  | .one => some 0x1
  | .two => some 0x2
  | .three => some 0x3
  | .four => some 0xC
  | .q => some 0x4
  | .w => some 0x5
  | .e => some 0x6
  | .r => some 0xD
  | .a => some 0x7
  | .s => some 0x8
  | .d => some 0x9
  | .f => some 0xE
  | .z => some 0xA
  | .x => some 0x0
  | .c => some 0xB
  | .v => some 0xF
  | _ => none

theorem Symbol.key?_injective {left right : Symbol} {k : Nibble}
    (hl : left.key? = some k) (hr : right.key? = some k) : left = right := by
  cases left <;> simp only [key?, Option.some.injEq, reduceCtorEq] at hl <;> subst hl <;>
    cases right <;> simp_all [key?]

theorem Symbol.ne_of_key? {left right : Symbol} {k : Nibble}
    (hl : left.key? = some k) (hr : right.key? = none) : left ≠ right := by
  rintro rfl
  rw [hl] at hr
  cases hr

end ChipEight

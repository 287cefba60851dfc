import ChipEight.Word

/-!
# Memory

4096 bytes. Every address is taken modulo the size, so a transfer that runs past the end goes on at
address zero.

* `read_write`: a write changes the cell of its own address and no other.
* `read_writeAll_of_forall_ne`: a run of writes changes no cell outside it.
* `Memory.blank` holds the glyphs of the sixteen digits, five bytes each, from address zero.
-/

namespace ChipEight

/-- The machine's memory. -/
structure Memory where
  cells : Vector Byte 4096
  deriving DecidableEq

namespace Memory

/-- How many bytes there are. -/
def size : Nat := 4096

/-- Where programs are placed, and where they start. -/
def programStart : Nat := 0x200

/-- The longest program that fits. -/
def capacity : Nat := size - programStart

/-- The byte at an address. -/
def read (m : Memory) (a : Nat) : Byte :=
  have : a % 4096 < 4096 := Nat.mod_lt _ (by decide)
  m.cells[a % 4096]

/-- The memory with one byte replaced. -/
def write (m : Memory) (a : Nat) (b : Byte) : Memory :=
  ⟨m.cells.set (a % 4096) b (Nat.mod_lt _ (by decide))⟩

/-- The memory with consecutive bytes replaced, from `a` upwards. -/
def writeAll (m : Memory) (a : Nat) : List Byte → Memory
  | [] => m
  | b :: bs => (m.write a b).writeAll (a + 1) bs

/-- The `n` bytes from `a` upwards. -/
def slice (m : Memory) (a n : Nat) : List Byte := (List.range n).map fun k => m.read (a + k)

/-- The five rows of each digit's picture, `0` to `F`. -/
def glyphs : List Byte := [
  0xF0, 0x90, 0x90, 0x90, 0xF0,
  0x20, 0x60, 0x20, 0x20, 0x70,
  0xF0, 0x10, 0xF0, 0x80, 0xF0,
  0xF0, 0x10, 0xF0, 0x10, 0xF0,
  0x90, 0x90, 0xF0, 0x10, 0x10,
  0xF0, 0x80, 0xF0, 0x10, 0xF0,
  0xF0, 0x80, 0xF0, 0x90, 0xF0,
  0xF0, 0x10, 0x20, 0x40, 0x40,
  0xF0, 0x90, 0xF0, 0x90, 0xF0,
  0xF0, 0x90, 0xF0, 0x10, 0xF0,
  0xF0, 0x90, 0xF0, 0x90, 0x90,
  0xE0, 0x90, 0xE0, 0x90, 0xE0,
  0xF0, 0x80, 0x80, 0x80, 0xF0,
  0xE0, 0x90, 0x90, 0x90, 0xE0,
  0xF0, 0x80, 0xF0, 0x80, 0xF0,
  0xF0, 0x80, 0xF0, 0x80, 0x80]

/-- How many bytes one glyph has. -/
def glyphSize : Nat := 5

/-- Memory without a program: the glyphs and zeros. -/
def blank : Memory := writeAll ⟨Vector.replicate 4096 0⟩ 0 glyphs

theorem read_mod (m : Memory) (a : Nat) : m.read (a % 4096) = m.read a := by
  simp [read]

theorem read_write (m : Memory) (a c : Nat) (b : Byte) :
    (m.write a b).read c = if a % 4096 = c % 4096 then b else m.read c := by
  simp [read, write, Vector.getElem_set]

theorem ext_read {m m' : Memory} (h : ∀ a, a < 4096 → m.read a = m'.read a) : m = m' := by
  cases m with
  | mk cells =>
    cases m' with
    | mk cells' =>
      congr 1
      apply Vector.ext
      intro i hi
      have := h i hi
      simpa [read, Nat.mod_eq_of_lt hi] using this

theorem read_writeAll_of_forall_ne (bs : List Byte) (m : Memory) (a c : Nat)
    (h : ∀ k, k < bs.length → (a + k) % 4096 ≠ c % 4096) :
    (m.writeAll a bs).read c = m.read c := by
  induction bs generalizing m a with
  | nil => rfl
  | cons b bs ih =>
    rw [writeAll, ih, read_write, if_neg]
    · simpa using h 0 (by simp)
    · intro k hk
      have := h (k + 1) (by simpa using hk)
      simpa [Nat.add_assoc, Nat.add_comm 1 k] using this

end Memory
end ChipEight

import ChipEight.Text.Ranges

/-!
# Lines

The lines of a text. A line ends at a line feed, at a carriage return or the two together, and at
the other characters that stand for the end of a line, a page or a record; the last line needs no
end.

* `flatten_linesOf`: the lines hold all other characters, in their order.
-/

namespace ChipEight

/-- The characters that end a line. -/
def lineEnds : CharRanges := [(0x0A, 0x0D), (0x1C, 0x1E), (0x85, 0x85), (0x2028, 0x2029)]

/-- Does the character end a line? -/
def isLineEnd (c : Char) : Bool := lineEnds.contains c

/-- The lines of a text, without what ends them. -/
def linesOf : List Char → List (List Char)
  | [] => []
  | '\r' :: '\n' :: rest => [] :: linesOf rest
  | c :: rest =>
    if isLineEnd c then [] :: linesOf rest
    else
      match linesOf rest with
      | [] => [[c]]
      | line :: others => (c :: line) :: others

theorem flatten_linesOf (text : List Char) :
    (linesOf text).flatten = text.filter (!isLineEnd ·) := by
  fun_induction linesOf text with
  | case1 => rfl
  | case2 rest ih =>
    have feed : isLineEnd '\n' = true := rfl
    have back : isLineEnd '\r' = true := rfl
    simpa [feed, back] using ih
  | case3 c rest _ h ih => simpa [h] using ih
  | case4 c rest _ h hrest ih =>
    rw [hrest] at ih
    simp [h, ← ih]
  | case5 c rest _ h line others hrest ih =>
    rw [hrest] at ih
    simp [h, ← ih]

theorem isLineEnd_of_mem_linesOf {text line : List Char} (h : line ∈ linesOf text) {c : Char}
    (hc : c ∈ line) : isLineEnd c = false := by
  have kept : c ∈ text.filter (!isLineEnd ·) := by
    rw [← flatten_linesOf]
    exact List.mem_flatten.2 ⟨line, h, hc⟩
  simpa using (List.mem_filter.1 kept).2

end ChipEight

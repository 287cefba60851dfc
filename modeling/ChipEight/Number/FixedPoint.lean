import ChipEight.Number.Binary64

/-!
# Fixed point text

A double written with a fixed number of places after the point, never with an exponent. The exact
value is rounded, a tie going to the even digit, and the sign is written also before a zero. What is
not a number has no sign.
-/

namespace ChipEight

/-- A natural number of units of `10 ^ -places`, written with a point. -/
def pointed (places units : Nat) : String :=
  let fraction := toString (units % Nat.pow 10 places)
  toString (units / Nat.pow 10 places) ++ "." ++
    String.ofList (List.replicate (places - fraction.length) '0') ++ fraction

/-- A double with a fixed number of places. -/
def Binary64.toFixed (places : Nat) (x : Binary64) : String :=
  let sign := if x.negative then "-" else ""
  match x.magnitude with
  | .finite m q =>
    let (num, den) := Magnitude.quotient m q
    sign ++ pointed places (roundQuotient (Nat.pow 10 places * num) den)
  | .infinite => sign ++ "inf"
  | .undefined => "nan"

end ChipEight

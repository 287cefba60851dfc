import ChipEight.Fault
import ChipEight.Keypad

/-!
# Key reports

A report of key states as it comes from outside: a state, or a group of reports, nested to any
depth. Only a flat group of sixteen states is accepted, and any other is refused with its shape, or
for its depth where it is nested too deep to have one.

* `keys?_group`: sixteen states in a group are accepted.
-/

namespace ChipEight

/-- A report of key states: one state, or a group of reports. -/
inductive KeyReport where
  | state (down : Bool)
  | group (members : List KeyReport)
  deriving Inhabited

namespace KeyReport

/-- The length of a report on each level of nesting, read off the first member; a single state has
no levels. -/
def shape : KeyReport → List Nat
  | .state _ => []
  | .group [] => [0]
  | .group (first :: rest) => (rest.length + 1) :: first.shape

/-- The state of a member that is not a group. -/
def down? : KeyReport → Option Bool
  | .state down => some down
  | .group _ => none

/-- Why a report is refused that is not a flat group of sixteen states. -/
def refusal (report : KeyReport) : Refusal :=
  if Refusal.maxDepth < report.shape.length then .keyDepth else .keyShape report.shape

/-- The keys of a flat report of sixteen states. -/
def keys? (report : KeyReport) : Except Refusal KeySet :=
  match report with
  | .state _ => .error report.refusal
  | .group members =>
    match members.mapM down? with
    | some states =>
      if states.length = 16 then .ok (KeySet.ofList states) else .error report.refusal
    | none => .error report.refusal

theorem keys?_group {states : List Bool} (h : states.length = 16) :
    (KeyReport.group (states.map .state)).keys? = .ok (KeySet.ofList states) := by
  have all : (states.map KeyReport.state).mapM down? = some states := by
    clear h
    induction states with
    | nil => rfl
    | cons down rest ih => simp [down?, ih]
  simp [keys?, all, h]

end KeyReport

end ChipEight

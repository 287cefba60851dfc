import ChipEight.Engine

/-!
# Calls as values

`Action` is a call to the engine, `Engine.perform` carries one out, and `Engine.performAll` a whole
sequence of them. A call that fails does not end the sequence.
-/

namespace ChipEight

/-- Why a call failed. -/
inductive Failure where
  | fault (cause : Fault)
  | refusal (cause : Refusal)
  deriving DecidableEq, Repr

/-- The text of a failure. -/
def Failure.message : Failure → String
  | .fault cause => cause.message
  | .refusal cause => cause.message

/-- A call to the engine. -/
inductive Action where
  | reset
  | load (program : List Int)
  | setKeys (report : KeyReport)
  | step
  | takeRedraw
  | framebuffer
  | soundLevel
  | setVerbose (on : Bool)
  | toggleVerbose

/-- What a call that succeeds answers. -/
inductive Answer where
  | done
  | flag (up : Bool)
  | pixels (lit : List Bool)
  | level (value : Nat)
  deriving DecidableEq, Repr

namespace Engine

/-- Carry out a call. -/
def perform (e : Engine) : Action → Reply (Except Failure Answer)
  | .reset => ⟨e.reset, .ok .done, []⟩
  | .load program =>
    let reply := e.loadInts program
    ⟨reply.engine, answered (fun _ => .done) .refusal reply.result, reply.lines⟩
  | .setKeys report =>
    let reply := e.setKeys report
    ⟨reply.engine, answered (fun _ => .done) .refusal reply.result, reply.lines⟩
  | .step =>
    let reply := e.step
    ⟨reply.engine, answered .flag .fault reply.result, reply.lines⟩
  | .takeRedraw =>
    let reply := e.takeRedraw
    ⟨reply.engine, .ok (.flag reply.result), reply.lines⟩
  | .framebuffer => ⟨e, .ok (.pixels e.framebuffer), []⟩
  | .soundLevel => ⟨e, .ok (.level e.soundLevel), []⟩
  | .setVerbose on => ⟨e.setVerbose on, .ok .done, []⟩
  | .toggleVerbose =>
    let reply := e.toggleVerbose
    ⟨reply.engine, .ok (.flag reply.result), reply.lines⟩
where
  /-- The result of a call as an answer or a failure. -/
  answered {α ε : Type} (answer : α → Answer) (fail : ε → Failure) :
      Except ε α → Except Failure Answer
    | .ok value => .ok (answer value)
    | .error cause => .error (fail cause)

/-- Carry out calls one after the other, also after one that failed; their replies in order. -/
def performAll (e : Engine) : List Action → List (Reply (Except Failure Answer))
  | [] => []
  | action :: rest =>
    let reply := e.perform action
    reply :: reply.engine.performAll rest

end Engine
end ChipEight

import ChipEight.CommandLine.Option
import ChipEight.Frontend.Rom
import ChipEight.Frontend.Tick

/-!
# Starting

The frontend builds its window, loads the first program file and sets the clock going.
-/

namespace ChipEight
namespace Frontend

/-- The log before the command line has its say. -/
def log : Log := { threshold := .info }

/-- How far below the upper edge the two labels stand. -/
def labelOffsets : Nat × Nat := (15, 30)

/-- Build the window and load the first program. -/
def openWindow (f : Frontend) : Turn :=
  let picture := f.picture
  let built : Turn :=
    { state := f
      requests := [
        .openWindow picture.width picture.height caption,
        .queueTone (.ofQuotient false 1 2) 440 44100,
        .newImage picture,
        .newLabel f.framesLabel 5 (picture.height - labelOffsets.1),
        .newLabel f.cyclesLabel 5 (picture.height - labelOffsets.2),
        .schedule .bench .one] }
  (built.andThen (·.selectRom 0)).andThen fun f =>
    if (Binary64.ofNat f.setup.rate).isFinite then
      { state := f, requests := [.schedule .tick (.inverse f.setup.rate)] }
    else { state := f, breakdown := some .rateTooLarge }

/-- Start as the command line says, on a host that has so many bytes for a picture. A breakdown here
leaves no frontend; a picture that cannot be made comes before all that is asked of the window. -/
def start (available : Nat) (arguments : CommandLine.Arguments) (files : FileReader)
    (random : RandomBytes) : Except Breakdown Turn :=
  match arguments.scale, arguments.rate with
  | none, _ => .error .noScale
  | some scale, rate? =>
    match oversize? available scale with
    | some cause => .error (.oversize cause)
    | none =>
      let options : Options :=
        { strict := arguments.strict, legacyShift := arguments.legacyShift }
      let turn := openWindow
        { setup := { roms := arguments.roms, files, scale, rate := rate?.getD 1 }
          engine := (Engine.boot options random log).setVerbose arguments.verbose
          soundEnabled := !arguments.mute }
      match turn.breakdown with
      | some cause => .error cause
      | none => if rate?.isNone then .error .noRate else .ok turn

end Frontend
end ChipEight

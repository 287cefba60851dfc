import ChipEight.Frontend

/-!
# Ticks

At each tick the machine is told which keys are down, and, if the frontend is running, runs one
cycle; then the image and the tone are brought up to date.

A key counts as down if it is held, or if it was tapped since the tick before.
-/

namespace ChipEight
namespace Frontend

/-- Start or stop the tone as the sound timer says. -/
def updateSound (f : Frontend) : Turn :=
  if f.soundEnabled && 0 < f.engine.soundLevel then
    if f.playing then { state := f }
    else { state := { f with playing := true }, requests := [.play] }
  else if f.playing then { state := { f with playing := false }, requests := [.pause] }
  else { state := f }

/-- The canvas at the window's scale. -/
def picture (f : Frontend) : Picture := ⟨f.setup.scale, f.canvas⟩

/-- Paint the screen and hand the picture over. -/
def uploadFrame (f : Frontend) : Turn :=
  let painted := { f with canvas := f.canvas.paint f.engine.machine.screen }
  { state := painted, requests := [.setImage painted.picture] }

/-- Show the screen if it was written to. -/
def updateImage (f : Frontend) : Turn :=
  let reply := f.engine.takeRedraw
  let noted := { f with engine := reply.engine }
  if reply.result then noted.uploadFrame else { state := noted }

/-- Hand the keys that count as down to the machine. -/
def feedKeys (f : Frontend) : Frontend :=
  { f with engine := f.engine.arm (f.held ||| f.tapped), tapped := 0 }

/-- Run one cycle. A fault of the program stops the frontend and closes the window. -/
def cycle (f : Frontend) : Turn :=
  let reply := f.engine.step
  let stepped := { f with engine := reply.engine }
  match reply.result with
  | .ok _ =>
    Turn.andThen
      (Turn.andThen { state := { stepped with ran := f.ran + 1 }, lines := reply.lines }
        updateImage)
      updateSound
  | .error fault =>
    if fault.ofProgram then
      { state := { stepped with running := false }
        requests := [.closeWindow]
        lines := reply.lines ++ f.engine.log.error ("Emulation error: " ++ fault.message) }
    else { state := stepped, lines := reply.lines, breakdown := some (.fault fault) }

/-- What the clock asks for at the machine's rate. -/
def tick (f : Frontend) : Turn :=
  if f.running then f.feedKeys.cycle else { state := f.feedKeys }

end Frontend
end ChipEight

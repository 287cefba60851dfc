import ChipEight.Frontend

/-!
# Program files

The frontend plays a list of program files, one after the other and the first again after the last.
One that cannot be loaded leaves the machine reset and the frontend stopped.
-/

namespace ChipEight
namespace Frontend

/-- The caption of the window before a program is loaded. -/
def caption : String := "CHIP-8 Emulator"

/-- Tell that a program cannot be loaded, and stop. -/
def refuseRom (f : Frontend) (path text : String) : Turn :=
  { state := { f with running := false }
    lines := f.engine.log.error ("Can't load ROM " ++ path ++ ": " ++ text) }

/-- Reset the machine and load a program file by its place in the list. -/
def selectRom (f : Frontend) (index : Nat) : Turn :=
  let path := f.setup.roms.getD index ""
  let fresh : Frontend := { f with romIndex := index, engine := f.engine.reset }
  let announced : Turn :=
    { state := fresh, lines := fresh.engine.log.trace ("Loading ROM: " ++ path) }
  announced.andThen fun f =>
    if path.toList.contains '\x00' then { state := f, breakdown := some .nullInPath }
    else
      match f.setup.files path with
      | .error cause => f.refuseRom path (cause.message path)
      | .ok program =>
        let reply := f.engine.load program
        match reply.result with
        | .error cause => f.refuseRom path cause.message
        | .ok () =>
          { state := { f with engine := reply.engine, running := true }
            requests := [.setCaption (caption ++ " - " ++ baseName path)]
            lines := reply.lines }

/-- Load the next program file, after the last one the first. -/
def nextRom (f : Frontend) : Turn := f.selectRom ((f.romIndex + 1) % f.setup.roms.length)

end Frontend
end ChipEight

import ChipEight.Frontend.Picture
import ChipEight.Number.Binary64

/-!
# Requests

What the frontend asks of the window, the sound and the clock. The frontend itself touches none of
them; a host carries the requests out, in their order.
-/

namespace ChipEight

/-- What the clock calls at intervals. -/
inductive Task where
  /-- Publish the counters. -/
  | bench
  /-- Run a cycle. -/
  | tick
  deriving DecidableEq, Repr

/-- One request. -/
inductive Request where
  | openWindow (width height : Nat) (caption : String)
  | setCaption (caption : String)
  | closeWindow
  /-- Go through with closing, as windows do on their own. -/
  | finishClosing
  | clearWindow
  /-- Queue a sine tone. -/
  | queueTone (seconds : Binary64) (frequency sampleRate : Nat)
  | play
  | pause
  | releaseTone
  | newImage (picture : Picture)
  | setImage (picture : Picture)
  /-- Show the image with its bottom left corner at a place in the window. -/
  | showImage (x y : Nat)
  | newLabel (text : String) (x y : Nat)
  | showLabel (text : String)
  | schedule (task : Task) (interval : Binary64)
  | unschedule (task : Task)
  deriving DecidableEq

end ChipEight

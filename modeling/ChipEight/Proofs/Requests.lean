import ChipEight.Proofs.Events

/-!
# What events ask for

Most events ask for nothing. A tick that completes a cycle brings the image and the tone up to date,
a fault of the program closes the window, and a few keys ask for what they are there for.

* `Asked`: the requests that an event can lead to; `handle_asked` says that it leads to these.
* `pictures_tick_of_completes`, `pictures_handle`: which events hand a picture over.
* `requests_openWindow`: what is asked while the window is built.
-/

namespace ChipEight

namespace Frontend

/-! ### Events -/

/-- What one event asks for. -/
inductive Asked (f : Frontend) : Event → List Request → Prop
  | stopped (idle : f.running = false) : Asked f .tick []
  | completed (h : f.Completes) :
      Asked f .tick (f.feedKeys.stepped.imageRequests ++ f.feedKeys.stepped.soundRequests)
  | failed (running : f.running = true) {fault : Fault}
      (hfault : f.feedKeys.engine.step.result = .error fault) :
      Asked f .tick (if fault.ofProgram then [.closeWindow] else [])
  | published (seconds : Binary64) : Asked f (.bench seconds) []
  | pressed {symbol : Symbol} {key : Nibble} (meant : symbol.key? = some key) :
      Asked f (.press symbol) []
  | released (symbol : Symbol) : Asked f (.release symbol) []
  | traced : Asked f (.press .f1) []
  | advanced (title : Option String) : Asked f (.press .f2) (title.toList.map .setCaption)
  | muted : Asked f (.press .f3) (if f.soundEnabled then [.pause] else [])
  | locked :
      Asked f (.press .f4)
        [.unschedule .tick,
          .schedule .tick (.inverse (if f.locked then f.setup.rate else timerRate))]
  | drawn :
      Asked f .draw
        [.clearWindow, .showImage 0 0, .showLabel f.framesLabel, .showLabel f.cyclesLabel]
  | closed : Asked f .close [.releaseTone, .finishClosing]
  | escaped : Asked f (.press .escape) [.closeWindow]
  | ignored : Asked f (.press .other) []

theorem requests_selectRom (f : Frontend) (index : Nat) :
    ∃ title : Option String, (f.selectRom index).requests = title.toList.map .setCaption := by
  unfold selectRom
  simp only [Turn.andThen, Option.isSome_none, Bool.false_eq_true, if_false, List.nil_append]
  -- Only a file that can be read and fits gives the window a caption.
  split
  · exact ⟨none, rfl⟩
  · split
    · exact ⟨none, rfl⟩
    · split
      · exact ⟨none, rfl⟩
      · exact ⟨some _, rfl⟩

theorem asked_tick (f : Frontend) : Asked f .tick f.tick.requests := by
  cases running : f.running with
  | false =>
      rw [tick, if_neg (by simp [running])]
      exact .stopped running
  | true =>
      cases hresult : f.feedKeys.engine.step.result with
      | ok painted =>
          have h : f.Completes := ⟨running, painted, hresult⟩
          rw [tick_of_completes h]
          exact .completed h
      | error fault =>
          have closes : f.tick.requests = if fault.ofProgram then [.closeWindow] else [] := by
            simp only [tick, if_pos running, cycle, hresult]
            cases fault.ofProgram <;> simp
          rw [closes]
          exact .failed running hresult

theorem asked_press (f : Frontend) (symbol : Symbol) :
    Asked f (.press symbol) (f.press symbol).requests := by
  cases symbol with
  | escape =>
      exact .escaped
  | f1 =>
      exact .traced
  | f2 =>
      obtain ⟨title, requests⟩ := f.requests_selectRom ((f.romIndex + 1) % f.setup.roms.length)
      rw [press, nextRom, requests]
      exact .advanced title
  | f3 =>
      have pauses : f.toggleSound.requests = if f.soundEnabled then [.pause] else [] := by
        unfold toggleSound
        split <;> simp
      rw [press, pauses]
      exact .muted
  | f4 =>
      have rate : (if !f.locked then timerRate else f.setup.rate) =
          if f.locked then f.setup.rate else timerRate := by
        cases f.locked <;> simp
      simp only [press, toggleLock, rate]
      exact .locked
  | other =>
      exact .ignored
  | _ =>
      exact .pressed rfl

theorem handle_asked (f : Frontend) (event : Event) :
    Asked f event (f.handle event).requests := by
  cases event with
  | tick =>
      exact f.asked_tick
  | press symbol =>
      exact f.asked_press symbol
  | release symbol =>
      have silent : (f.release symbol).requests = [] := by
        unfold release
        split <;> simp
      rw [handle, silent]
      exact .released symbol
  | bench seconds =>
      have silent : (f.bench seconds).requests = [] := by
        unfold bench
        split <;> simp
      rw [handle, silent]
      exact .published seconds
  | draw =>
      exact .drawn
  | close =>
      exact .closed

/-! ### Pictures -/

theorem pictures_soundRequests (f : Frontend) : Request.pictures f.soundRequests = [] := by
  unfold soundRequests
  split
  · simp [Request.pictures]
  · split <;> simp [Request.pictures, Request.picture?]

/-- Only a tick that completes a cycle hands a picture over, and at most one. -/
theorem pictures_tick_of_completes {f : Frontend} (h : f.Completes) :
    Request.pictures f.tick.requests =
      if f.feedKeys.stepped.engine.machine.redraw then [f.cycled.picture] else [] := by
  rw [tick_of_completes h, Request.pictures_append, pictures_soundRequests, List.append_nil,
    imageRequests]
  split
  · rfl
  · rfl

theorem pictures_handle {f : Frontend} {event : Event}
    (h : ¬ (event = .tick ∧ f.Completes)) :
    Request.pictures (f.handle event).requests = [] := by
  have asked := f.handle_asked event
  generalize (f.handle event).requests = requests at asked ⊢
  cases asked with
  | completed completes =>
      exact absurd ⟨rfl, completes⟩ h
  | failed =>
      split <;> simp [Request.pictures, Request.picture?]
  | muted =>
      split <;> simp [Request.pictures, Request.picture?]
  | advanced title =>
      cases title <;> simp [Request.pictures, Request.picture?]
  | _ =>
      simp [Request.pictures, Request.picture?]

/-! ### The window -/

/-- What is asked to build the window, before the first program file is selected. -/
def buildRequests (f : Frontend) : List Request := [
  .openWindow f.picture.width f.picture.height caption,
  .queueTone (.ofQuotient false 1 2) 440 44100,
  .newImage f.picture,
  .newLabel f.framesLabel 5 (f.picture.height - labelOffsets.1),
  .newLabel f.cyclesLabel 5 (f.picture.height - labelOffsets.2),
  .schedule .bench .one]

/-- The window is built in one piece or up to what breaks down, and then no ticks are asked for. -/
theorem requests_openWindow (f : Frontend) :
    ∃ title : Option String, f.openWindow.requests =
      f.buildRequests ++ title.toList.map .setCaption ++
        if f.openWindow.breakdown.isNone then [.schedule .tick (.inverse f.setup.rate)] else [] := by
  obtain ⟨title, selected⟩ := f.requests_selectRom 0
  obtain ⟨memory, running, hstate, -⟩ := f.selectRom_eq 0
  have loaded (requests : List Request) :
      Turn.andThen { state := f, requests } (·.selectRom 0) =
        ⟨(f.selectRom 0).state, requests ++ title.toList.map .setCaption, (f.selectRom 0).lines,
          (f.selectRom 0).breakdown⟩ := by
    rw [Turn.andThen_of_whole rfl, selected, List.nil_append]
  refine ⟨title, ?_⟩
  simp only [openWindow, buildRequests, loaded]
  cases broken : (f.selectRom 0).breakdown with
  | some cause =>
      simp [Turn.andThen]
  | none =>
      rw [Turn.andThen_of_whole rfl]
      simp only [hstate]
      split <;> simp

end Frontend
end ChipEight

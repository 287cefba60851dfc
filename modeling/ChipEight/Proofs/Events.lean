import ChipEight.Frontend.Handle
import ChipEight.Frontend.Start
import ChipEight.Proofs.Run
import Mathlib.Data.List.Basic
import Mathlib.Data.List.Induction
import Mathlib.Logic.Function.Iterate

/-!
# Runs of the frontend

Events happen to the frontend one after the other. An event that breaks down leaves the state that
it had reached, and events go on from there.

* `Frontend.Handled`: all that one event can make of the state; `handle_handled` says that it does.
* `Frontend.after`, `Frontend.requestsAfter`: the state that events lead to, and what is asked on
  the way.
* `Frontend.engine_tick`: the calls that a tick makes to the engine.
* `Frontend.openWindow_eq`: the state that the window is built in, and the picture handed over then;
  `Frontend.start_eq_ok_iff` says when the program starts with it.
* `Lasting`: something began at one point of a history and nothing ended it later;
  `Frontend.lasting_after_iff` says when a property of the state is that.
-/

namespace ChipEight

/-- At some point of a history something began, and no later element ended it. What begins and ends
it may depend on the history so far. -/
def Lasting {α : Type} (begins ends : List α → α → Prop) (history : List α) : Prop :=
  ∃ before first later, history = before ++ first :: later ∧ begins before first ∧
    ∀ middle last rest, later = middle ++ last :: rest → ¬ ends (before ++ first :: middle) last

section Lasting

variable {α : Type} {begins ends : List α → α → Prop}

theorem not_lasting_nil : ¬ Lasting begins ends [] := by
  rintro ⟨before, first, later, hsplit, -⟩
  simp at hsplit

/-- An element of a history with one more at its end is that one, or stands before it. -/
theorem concat_split {history before later : List α} {last first : α}
    (h : history ++ [last] = before ++ first :: later) :
    (before = history ∧ first = last ∧ later = []) ∨
      ∃ later', later = later' ++ [last] ∧ history = before ++ first :: later' := by
  rcases List.eq_nil_or_concat' later with rfl | ⟨later', newest, rfl⟩
  · obtain ⟨rfl, hlast⟩ := List.append_inj' h rfl
    obtain ⟨rfl, -⟩ := List.cons.inj hlast
    exact Or.inl ⟨rfl, rfl, rfl⟩
  · rw [← List.cons_append, ← List.append_assoc] at h
    obtain ⟨rfl, hlast⟩ := List.append_inj' h rfl
    obtain ⟨rfl, -⟩ := List.cons.inj hlast
    exact Or.inr ⟨later', rfl, rfl⟩

theorem lasting_concat (history : List α) (last : α) :
    Lasting begins ends (history ++ [last]) ↔
      begins history last ∨ Lasting begins ends history ∧ ¬ ends history last := by
  constructor
  · rintro ⟨before, first, later, hsplit, hbegins, lasts⟩
    rcases concat_split hsplit with ⟨rfl, rfl, rfl⟩ | ⟨later', rfl, rfl⟩
    · exact Or.inl hbegins
    · refine Or.inr ⟨⟨before, first, later', rfl, hbegins, ?_⟩, lasts later' last [] rfl⟩
      rintro middle other rest rfl
      exact lasts middle other (rest ++ [last]) (by simp)
  · rintro (hbegins | ⟨⟨before, first, later, rfl, hbegins, lasts⟩, unended⟩)
    · exact ⟨history, last, [], rfl, hbegins, by simp⟩
    · refine ⟨before, first, later ++ [last], by simp, hbegins, ?_⟩
      intro middle other rest hlater
      rcases concat_split hlater with ⟨rfl, rfl, rfl⟩ | ⟨rest', rfl, rfl⟩
      · exact unended
      · exact lasts middle other rest' rfl

/-- A predicate of histories that is false at first, becomes true when something begins and stays
true until it ends. -/
theorem lasting_iff (holds : List α → Prop) (first : ¬ holds [])
    (step : ∀ history last, holds (history ++ [last]) ↔
      begins history last ∨ holds history ∧ ¬ ends history last)
    (history : List α) :
    holds history ↔ Lasting begins ends history := by
  induction history using List.reverseRecOn with
  | nil =>
      exact iff_of_false first not_lasting_nil
  | append_singleton history last ih =>
      rw [step, lasting_concat, ih]

theorem lasting_of_quiet {first : α} {later : List α} (before : List α)
    (begun : begins before first) (quiet : ∀ last ∈ later, ∀ past, ¬ ends past last) :
    Lasting begins ends (before ++ first :: later) := by
  refine ⟨before, first, later, rfl, begun, ?_⟩
  rintro middle last rest rfl
  exact quiet last (by simp) _

theorem Lasting.exists_begins {history : List α} (h : Lasting begins ends history) :
    ∃ first ∈ history, ∃ before, begins before first := by
  obtain ⟨before, first, later, rfl, begun, -⟩ := h
  exact ⟨first, by simp, before, begun⟩

end Lasting

namespace Frontend

/-- The frontend after events. -/
def after (f : Frontend) : List Event → Frontend
  | [] => f
  | event :: rest => (f.handle event).state.after rest

/-- What is asked while events happen. -/
def requestsAfter (f : Frontend) : List Event → List Request
  | [] => []
  | event :: rest => (f.handle event).requests ++ (f.handle event).state.requestsAfter rest

theorem after_concat (f : Frontend) (events : List Event) (event : Event) :
    f.after (events ++ [event]) = ((f.after events).handle event).state := by
  induction events generalizing f with
  | nil =>
      rfl
  | cons first rest ih =>
      exact ih _

theorem requestsAfter_concat (f : Frontend) (events : List Event) (event : Event) :
    f.requestsAfter (events ++ [event]) =
      f.requestsAfter events ++ ((f.after events).handle event).requests := by
  induction events generalizing f with
  | nil =>
      simp [requestsAfter, after]
  | cons first rest ih =>
      rw [List.cons_append, requestsAfter, requestsAfter, ih, List.append_assoc, after]

theorem after_induction {motive : Frontend → Prop}
    (keeps : ∀ f event, motive f → motive (f.handle event).state)
    {f : Frontend} (first : motive f) (events : List Event) :
    motive (f.after events) := by
  induction events generalizing f with
  | nil =>
      exact first
  | cons event rest ih =>
      exact ih (keeps f event first)

/-- Events without a breakdown are handled in a row. -/
theorem handleAll_eq_after {f : Frontend} {events : List Event}
    (h : (f.handleAll events).breakdown = none) :
    (f.handleAll events).state = f.after events ∧
      (f.handleAll events).requests = f.requestsAfter events := by
  induction events generalizing f with
  | nil =>
      exact ⟨rfl, rfl⟩
  | cons event rest ih =>
      rw [handleAll_cons, Turn.andThen] at h ⊢
      split at h
      next broke =>
        rw [h] at broke
        cases broke
      next whole =>
        rw [if_neg whole]
        obtain ⟨hstate, hrequests⟩ := ih h
        exact ⟨hstate, congrArg _ hrequests⟩

end Frontend

/-- The picture that a request hands over. -/
def Request.picture? : Request → Option Picture
  | .newImage picture => some picture
  | .setImage picture => some picture
  | _ => none

/-- The pictures that requests hand over. -/
def Request.pictures (requests : List Request) : List Picture :=
  requests.filterMap Request.picture?

theorem Request.pictures_append (requests more : List Request) :
    pictures (requests ++ more) = pictures requests ++ pictures more :=
  List.filterMap_append

theorem Turn.andThen_of_whole {turn : Turn} (whole : turn.breakdown = none)
    (go : Frontend → Turn) :
    turn.andThen go =
      ⟨(go turn.state).state, turn.requests ++ (go turn.state).requests,
        turn.lines ++ (go turn.state).lines, (go turn.state).breakdown⟩ := by
  rw [andThen, whole]
  rfl

theorem Turn.state_andThen {turn : Turn} {go : Frontend → Turn}
    (keeps : ∀ f, (go f).state = f) : (turn.andThen go).state = turn.state := by
  unfold andThen
  split
  · rfl
  · exact keeps _

theorem Turn.filterMap_andThen {α : Type} {view : Request → Option α} {turn : Turn}
    {go : Frontend → Turn} (silent : ∀ f, (go f).requests.filterMap view = []) :
    (turn.andThen go).requests.filterMap view = turn.requests.filterMap view := by
  unfold andThen
  split
  · rfl
  · rw [List.filterMap_append, silent, List.append_nil]

namespace Frontend

/-! ### Ticks -/

/-- The coming tick completes a cycle. -/
def Completes (f : Frontend) : Prop :=
  f.running = true ∧ ∃ painted, f.feedKeys.engine.step.result = .ok painted

/-- The frontend after a step of its engine that succeeds. -/
def stepped (f : Frontend) : Frontend :=
  { f with engine := f.engine.step.engine, ran := f.ran + 1 }

/-- The canvas once the image is up to date: painted anew if a redraw is pending. -/
def freshCanvas (f : Frontend) : Canvas :=
  if f.engine.machine.redraw then f.canvas.paint f.engine.machine.screen else f.canvas

/-- The frontend once its image is up to date, without a pending redraw. -/
def noted (f : Frontend) : Frontend :=
  { f with engine := f.engine.takeRedraw.engine, canvas := f.freshCanvas }

/-- What is asked to bring the image up to date. -/
def imageRequests (f : Frontend) : List Request :=
  if f.engine.machine.redraw then [.setImage f.noted.picture] else []

/-- The sound is on and the sound timer runs. -/
def sounds (f : Frontend) : Bool := f.soundEnabled && decide (0 < f.engine.soundLevel)

/-- What is asked to make the tone play or pause. -/
def soundRequests (f : Frontend) : List Request :=
  if f.playing = f.sounds then [] else if f.sounds then [.play] else [.pause]

/-- The frontend after a tick that completes a cycle. -/
def cycled (f : Frontend) : Frontend :=
  { f.feedKeys.stepped.noted with playing := f.feedKeys.stepped.sounds }

theorem updateImage_eq (f : Frontend) :
    f.updateImage = { state := f.noted, requests := f.imageRequests } := by
  have asked : f.engine.takeRedraw.result = f.engine.machine.redraw := rfl
  cases pending : f.engine.machine.redraw with
  | true =>
      simp only [updateImage, imageRequests, noted, freshCanvas, asked, pending, if_true]
      rfl
  | false =>
      simp only [updateImage, imageRequests, noted, freshCanvas, asked, pending,
        Bool.false_eq_true, if_false]

theorem updateSound_eq (f : Frontend) :
    f.updateSound = { state := { f with playing := f.sounds }, requests := f.soundRequests } := by
  have same {playing : Bool} (h : f.playing = playing) :
      ({ state := f } : Turn) = { state := { f with playing } } := by
    rw [← h]
  unfold updateSound soundRequests sounds
  cases f.soundEnabled && decide (0 < f.engine.soundLevel) with
  | true =>
      cases playing : f.playing with
      | true =>
          exact same playing
      | false =>
          rfl
  | false =>
      cases playing : f.playing with
      | true =>
          rfl
      | false =>
          exact same playing

theorem sounds_noted (f : Frontend) : f.noted.sounds = f.sounds :=
  rfl

theorem soundRequests_noted (f : Frontend) : f.noted.soundRequests = f.soundRequests :=
  rfl

theorem tick_of_completes {f : Frontend} (h : f.Completes) :
    f.tick =
      { state := f.cycled
        requests := f.feedKeys.stepped.imageRequests ++ f.feedKeys.stepped.soundRequests
        lines := f.feedKeys.engine.step.lines } := by
  obtain ⟨running, painted, hresult⟩ := h
  have hcycle : f.feedKeys.cycle = Turn.andThen (Turn.andThen
      { state := f.feedKeys.stepped, lines := f.feedKeys.engine.step.lines } updateImage)
      updateSound := by
    simp only [cycle, hresult, stepped]
  have refreshed : Turn.andThen
      { state := f.feedKeys.stepped, lines := f.feedKeys.engine.step.lines } updateImage =
      { state := f.feedKeys.stepped.noted
        requests := f.feedKeys.stepped.imageRequests
        lines := f.feedKeys.engine.step.lines } := by
    rw [Turn.andThen_of_whole rfl, updateImage_eq, List.nil_append, List.append_nil]
  rw [tick, if_pos running, hcycle, refreshed, Turn.andThen_of_whole rfl, updateSound_eq,
    sounds_noted, soundRequests_noted, List.append_nil, cycled]

/-- What one event can make of the state. -/
inductive Handled (f : Frontend) : Event → Frontend → Prop
  | stopped (idle : f.running = false) : Handled f .tick f.feedKeys
  | completed (h : f.Completes) : Handled f .tick f.cycled
  | failed (running : f.running = true) {fault : Fault}
      (hfault : f.feedKeys.engine.step.result = .error fault) :
      Handled f .tick
        { f.feedKeys with
          engine := f.feedKeys.engine.step.engine
          running := !fault.ofProgram }
  | published (seconds : Binary64) {shown ran : Nat} {framesLabel cyclesLabel : String} :
      Handled f (.bench seconds) { f with shown, ran, framesLabel, cyclesLabel }
  | pressed {symbol : Symbol} {key : Nibble} (meant : symbol.key? = some key) :
      Handled f (.press symbol)
        { f with held := f.held ||| .single key, tapped := f.tapped ||| .single key }
  | released {symbol : Symbol} {key : Nibble} (meant : symbol.key? = some key) :
      Handled f (.release symbol) { f with held := f.held &&& ~~~(.single key) }
  | traced : Handled f (.press .f1) { f with engine := f.engine.toggleVerbose.engine }
  | advanced {romIndex : Nat} {memory : Memory} {running : Bool} :
      Handled f (.press .f2)
        { f with
          romIndex
          engine := { f.engine with machine := { f.engine.machine.reset with memory } }
          running }
  | muted :
      Handled f (.press .f3)
        { f with soundEnabled := !f.soundEnabled, playing := f.playing && !f.soundEnabled }
  | locked : Handled f (.press .f4) { f with locked := !f.locked }
  | drawn : Handled f .draw { f with shown := f.shown + 1 }
  | closed : Handled f .close f
  | escaped : Handled f (.press .escape) f
  | ignoredPress : Handled f (.press .other) f
  | ignoredRelease {symbol : Symbol} (meaningless : symbol.key? = none) :
      Handled f (.release symbol) f

theorem tick_of_fails {f : Frontend} (running : f.running = true) {fault : Fault}
    (hfault : f.feedKeys.engine.step.result = .error fault) :
    f.tick.state =
      { f.feedKeys with
        engine := f.feedKeys.engine.step.engine
        running := !fault.ofProgram } := by
  have same : f.feedKeys.running = true := by
    simp only [feedKeys, running]
  rw [tick, if_pos running]
  simp only [cycle, hfault]
  cases fault.ofProgram with
  | true =>
      rfl
  | false =>
      simp only [Bool.false_eq_true, if_false, Bool.not_false, same]

theorem selectRom_eq (f : Frontend) (index : Nat) :
    ∃ memory running, (f.selectRom index).state =
        { f with
          romIndex := index
          engine := { f.engine with machine := { f.engine.machine.reset with memory } }
          running } ∧
      Request.pictures (f.selectRom index).requests = [] := by
  unfold selectRom
  simp only [Turn.andThen, Option.isSome_none, Bool.false_eq_true, if_false]
  -- A path with a null character, a file that cannot be read, one that is too large, and the rest.
  split
  · exact ⟨_, _, rfl, rfl⟩
  · split
    · exact ⟨_, _, rfl, rfl⟩
    · split
      · exact ⟨_, _, rfl, rfl⟩
      next program _ _ _ =>
        obtain ⟨memory, hload⟩ := f.engine.reset.load_engine program
        simp only [hload]
        exact ⟨memory, true, rfl, rfl⟩

theorem state_toggleSound (f : Frontend) :
    f.toggleSound.state =
      { f with soundEnabled := !f.soundEnabled, playing := f.playing && !f.soundEnabled } := by
  unfold toggleSound
  cases f.soundEnabled with
  | true =>
      simp
  | false =>
      simp

theorem handle_handled (f : Frontend) (event : Event) :
    Handled f event (f.handle event).state := by
  cases event with
  | tick =>
      show Handled f .tick f.tick.state
      cases running : f.running with
      | false =>
          rw [tick, if_neg (by simp [running])]
          exact .stopped running
      | true =>
          cases hresult : f.feedKeys.engine.step.result with
          | ok painted =>
              have h : f.Completes := ⟨running, painted, hresult⟩
              rw [tick_of_completes h]
              exact .completed h
          | error fault =>
              rw [tick_of_fails running hresult]
              exact .failed running hresult
  | bench seconds =>
      show Handled f _ (f.bench seconds).state
      unfold bench
      split
      · exact .published seconds
      · exact .published seconds
  | draw =>
      exact .drawn
  | close =>
      exact .closed
  | release symbol =>
      show Handled f _ (f.release symbol).state
      unfold release
      split
      next key meant =>
        exact .released meant
      next meaningless =>
        exact .ignoredRelease meaningless
  | press symbol =>
      show Handled f _ (f.press symbol).state
      cases symbol with
      | escape =>
          exact .escaped
      | f1 =>
          exact .traced
      | f2 =>
          show Handled f _ f.nextRom.state
          obtain ⟨memory, running, hstate, -⟩ := f.selectRom_eq _
          rw [nextRom, hstate]
          exact .advanced
      | f3 =>
          show Handled f _ f.toggleSound.state
          rw [state_toggleSound]
          exact .muted
      | f4 =>
          exact .locked
      | other =>
          exact .ignoredPress
      | _ =>
          exact .pressed rfl

/-- After it has told the engine which keys count as down, a tick of a running frontend runs one
cycle, and notes the redraw if the cycle is completed. -/
theorem engine_tick (f : Frontend) :
    ∃ calls ∈ if f.running then [[.step], [.step, .takeRedraw]] else [[]],
      f.tick.state.engine = f.feedKeys.engine.after calls := by
  have handled : Handled f .tick f.tick.state := f.handle_handled .tick
  generalize f.tick.state = f' at handled ⊢
  cases handled with
  | stopped idle =>
      exact ⟨[], by simp [idle], rfl⟩
  | completed h =>
      exact ⟨[.step, .takeRedraw], by simp [h.1], rfl⟩
  | failed running hfault =>
      exact ⟨[.step], by simp [running], rfl⟩

theorem setup_cycled (f : Frontend) : f.cycled.setup = f.setup := by
  simp only [cycled, noted, stepped, feedKeys]

theorem Handled.setup_eq {f f' : Frontend} {event : Event} (h : Handled f event f') :
    f'.setup = f.setup := by
  cases h with
  | completed =>
      exact setup_cycled f
  | _ =>
      simp only [feedKeys]

theorem setup_after (f : Frontend) (events : List Event) : (f.after events).setup = f.setup := by
  refine after_induction (motive := fun g => g.setup = f.setup) (fun g event kept => ?_) rfl events
  rw [(g.handle_handled event).setup_eq, kept]

/-- What is false of a frontend at first, and what one event begins or ends, holds after events as
long as what began it has lasted. -/
theorem lasting_after_iff (holds : Frontend → Prop) {begins ends : List Event → Event → Prop}
    {f : Frontend} (first : ¬ holds f)
    (step : ∀ past event g, Handled (f.after past) event g →
      (holds g ↔ begins past event ∨ holds (f.after past) ∧ ¬ ends past event))
    (events : List Event) :
    holds (f.after events) ↔ Lasting begins ends events := by
  refine lasting_iff (fun past => holds (f.after past)) first (fun past event => ?_) events
  rw [after_concat]
  exact step past event _ (handle_handled _ event)

/-- What one event flips and no other touches has been flipped once for each time that it
happened. -/
theorem flips_after {flag : Frontend → Bool} {switch : Event}
    (flips : ∀ f event g, Handled f event g →
      flag g = if event = switch then !flag f else flag f)
    (f : Frontend) (events : List Event) :
    flag (f.after events) = not^[events.count switch] (flag f) := by
  induction events using List.reverseRecOn with
  | nil =>
      simp [after]
  | append_singleton events event ih =>
      rw [after_concat, flips _ _ _ (handle_handled _ event), ih, List.count_append,
        List.count_singleton]
      by_cases switches : event = switch
      · simp [switches, Function.iterate_succ_apply']
      · simp [switches]

theorem state_openWindow (f : Frontend) : f.openWindow.state = (f.selectRom 0).state := by
  rw [openWindow, Turn.state_andThen (fun f => by split <;> rfl), Turn.andThen_of_whole rfl]

/-- Building the window resets the machine for the first program file, whatever comes of it, and
hands over one picture. -/
theorem openWindow_eq (f : Frontend) :
    ∃ memory running, f.openWindow.state =
        { f with
          romIndex := 0
          engine := { f.engine with machine := { f.engine.machine.reset with memory } }
          running } ∧
      Request.pictures f.openWindow.requests = [f.picture] := by
  obtain ⟨memory, running, hrom, silent⟩ := f.selectRom_eq 0
  refine ⟨memory, running, ?_, ?_⟩
  · rw [state_openWindow, hrom]
  · rw [Request.pictures, openWindow, Turn.filterMap_andThen (fun f => by split <;> rfl),
      Turn.andThen_of_whole rfl, List.filterMap_append]
    rw [Request.pictures] at silent
    rw [silent, List.append_nil]
    rfl

theorem setup_openWindow (f : Frontend) : f.openWindow.state.setup = f.setup := by
  obtain ⟨memory, running, hstate, -⟩ := f.openWindow_eq
  rw [hstate]

/-- The frontend before its window is built. -/
def unopened (arguments : CommandLine.Arguments) (files : FileReader) (random : RandomBytes)
    (scale : Nat) : Frontend where
  setup := { roms := arguments.roms, files, scale, rate := arguments.rate.getD 1 }
  engine :=
    (Engine.boot { strict := arguments.strict, legacyShift := arguments.legacyShift } random
      log).setVerbose arguments.verbose
  soundEnabled := !arguments.mute

section Start

variable {available : Nat} {arguments : CommandLine.Arguments} {files : FileReader}
variable {random : RandomBytes}

theorem start_eq {scale : Nat} (hscale : arguments.scale = some scale)
    (fits : oversize? available scale = none) :
    start available arguments files random =
      match (unopened arguments files random scale).openWindow.breakdown with
      | some cause => .error cause
      | none =>
        if arguments.rate.isNone then .error .noRate
        else .ok (unopened arguments files random scale).openWindow := by
  unfold start
  simp only [hscale, fits]
  rfl

/-- The program starts when its picture can be made, its window can be built and it has a rate. -/
theorem start_eq_ok_iff {opened : Turn} :
    start available arguments files random = .ok opened ↔
      ∃ scale, arguments.scale = some scale ∧ oversize? available scale = none ∧
        arguments.rate.isNone = false ∧
        (unopened arguments files random scale).openWindow.breakdown = none ∧
        opened = (unopened arguments files random scale).openWindow := by
  constructor
  · intro h
    cases hscale : arguments.scale with
    | none =>
        simp [start, hscale] at h
    | some scale =>
        cases fits : oversize? available scale with
        | some cause =>
            simp [start, hscale, fits] at h
        | none =>
            rw [start_eq hscale fits] at h
            split at h
            · cases h
            next whole =>
              split at h
              · cases h
              next rated =>
                exact ⟨scale, rfl, fits, Bool.eq_false_iff.2 rated, whole, (Except.ok.inj h).symm⟩
  · rintro ⟨scale, hscale, fits, rated, whole, rfl⟩
    rw [start_eq hscale fits, whole]
    simp only [rated, Bool.false_eq_true, if_false]

end Start

end Frontend
end ChipEight

import ChipEight.Proofs.Events
import ChipEight.Proofs.KeyReports

/-!
# The keys that a tick reports

A tick reports sixteen keys to the engine, also while the frontend is stopped. One set of keys has
those that are held and a second one those that went down since the tick before; a key counts as
down if it is in either. A key of the keyboard touches only its own place in the two sets.

* `Handled.held_iff`, `Handled.tapped_iff`: what one event does to a key in the two sets.
* `reported`: the keys that count as down at the next tick; `tick_reports` says that the tick tells
  the engine about each of them, and does so before it runs a cycle.
* `latch_feedKeys`: what the report does to the latches.
* `tick_reports_history`: a key is reported as down exactly if it went down and has not come up, or
  went down since the tick before.
-/

namespace ChipEight

/-- Some key of the keyboard stands for each of the machine's keys. -/
theorem Symbol.exists_key?_eq (k : Nibble) : ∃ symbol : Symbol, symbol.key? = some k := by
  have stands : ∀ k : Nibble,
      ∃ symbol ∈ [Symbol.one, .two, .three, .four, .q, .w, .e, .r, .a, .s, .d, .f, .z, .x, .c, .v],
        symbol.key? = some k := by
    decide
  obtain ⟨symbol, -, meant⟩ := stands k
  exact ⟨symbol, meant⟩

theorem Symbol.key?_eq_some_iff {symbol stroke : Symbol} {k : Nibble}
    (meant : symbol.key? = some k) : stroke.key? = some k ↔ stroke = symbol := by
  constructor
  · intro hstroke
    exact key?_injective hstroke meant
  · rintro rfl
    exact meant

/-- The set of the machine's key that a key of the keyboard stands for, or the empty set. -/
def Symbol.keys (symbol : Symbol) : KeySet := (symbol.key?.map .single).getD 0

theorem Symbol.getLsbD_keys (symbol : Symbol) (k : Nibble) :
    symbol.keys.getLsbD k = decide (symbol.key? = some k) := by
  unfold keys
  cases symbol.key? with
  | none =>
      simp
  | some key =>
      simp only [Option.map_some, Option.getD_some, KeySet.getLsbD_single, Option.some.injEq]

namespace Frontend

section Handled

variable {f f' : Frontend} {event : Event} {symbol : Symbol} {k : Nibble}

theorem Handled.held_eq (h : Handled f event f') :
    f'.held =
      match event with
      | .press symbol => f.held ||| symbol.keys
      | .release symbol => f.held &&& ~~~symbol.keys
      | _ => f.held := by
  cases h with
  | pressed meant =>
      simp [Symbol.keys, meant]
  | released meant =>
      simp [Symbol.keys, meant]
  | ignoredRelease meaningless =>
      simp only [Symbol.keys, meaningless, Option.map_none, Option.getD_none,
        BitVec.ofNat_eq_ofNat, BitVec.not_zero, BitVec.and_allOnes]
  | _ =>
      simp [cycled, noted, stepped, feedKeys, Symbol.keys, Symbol.key?]

theorem Handled.tapped_eq (h : Handled f event f') :
    f'.tapped =
      match event with
      | .tick => 0
      | .press symbol => f.tapped ||| symbol.keys
      | _ => f.tapped := by
  cases h with
  | pressed meant =>
      simp [Symbol.keys, meant]
  | _ =>
      simp [cycled, noted, stepped, feedKeys, Symbol.keys, Symbol.key?]

theorem Handled.held_iff (h : Handled f event f') (meant : symbol.key? = some k) :
    f'.held.getLsbD k = true ↔
      event = .press symbol ∨ f.held.getLsbD k = true ∧ event ≠ .release symbol := by
  rw [h.held_eq]
  cases event with
  | press stroke =>
      simp [-BitVec.getLsbD_eq_getElem, Symbol.getLsbD_keys, Symbol.key?_eq_some_iff meant, or_comm]
  | release stroke =>
      simp [-BitVec.getLsbD_eq_getElem, Symbol.getLsbD_keys, Symbol.key?_eq_some_iff meant]
  | _ =>
      simp

theorem Handled.tapped_iff (h : Handled f event f') (meant : symbol.key? = some k) :
    f'.tapped.getLsbD k = true ↔
      event = .press symbol ∨ f.tapped.getLsbD k = true ∧ event ≠ .tick := by
  rw [h.tapped_eq]
  cases event with
  | press stroke =>
      simp [-BitVec.getLsbD_eq_getElem, Symbol.getLsbD_keys, Symbol.key?_eq_some_iff meant, or_comm]
  | _ =>
      simp

end Handled

/-- Does a key count as down at the next tick? It does if it is held or was tapped. -/
def reported (f : Frontend) (k : Nibble) : Bool := (f.held ||| f.tapped).getLsbD k

/-- Feeding keys is one call to the engine, with one flat report. -/
theorem engine_feedKeys (f : Frontend) :
    f.feedKeys.engine = (f.engine.setKeys (.ofKeys f.reported)).engine :=
  (Engine.setKeys_ofKeys f.engine (f.held ||| f.tapped)).symm

theorem latch_feedKeys (f : Frontend) (k : Nibble) :
    f.feedKeys.engine.machine.keypad.latch k =
      if f.reported k then Keypad.duration else f.engine.machine.keypad.latch k :=
  Keypad.latch_arm _ _ _

/-- A tick tells the engine first of all which keys count as down. -/
theorem tick_reports (f : Frontend) :
    ∃ calls ∈ if f.running then [[.step], [.step, .takeRedraw]] else [[]],
      f.tick.state.engine = f.engine.after (.setKeys (.ofKeys f.reported) :: calls) := by
  obtain ⟨calls, member, hengine⟩ := f.engine_tick
  refine ⟨calls, member, ?_⟩
  rw [hengine, engine_feedKeys]
  rfl

theorem keys_openWindow (f : Frontend) :
    f.openWindow.state.held = f.held ∧ f.openWindow.state.tapped = f.tapped := by
  obtain ⟨memory, running, hstate, -⟩ := f.openWindow_eq
  rw [hstate]
  exact ⟨rfl, rfl⟩

section History

variable {f : Frontend} {symbol : Symbol} {k : Nibble}

/-- A key is held if it went down and has not come up since. -/
theorem held_after_iff (untouched : f.held = 0) (meant : symbol.key? = some k)
    (events : List Event) :
    (f.after events).held.getLsbD k = true ↔
      Lasting (fun _ event => event = .press symbol) (fun _ event => event = .release symbol)
        events :=
  lasting_after_iff (fun f => f.held.getLsbD k = true) (by simp [untouched])
    (fun _ _ _ handled => handled.held_iff meant) events

/-- A key is tapped if it went down after the latest tick. -/
theorem tapped_after_iff (untouched : f.tapped = 0) (meant : symbol.key? = some k)
    (events : List Event) :
    (f.after events).tapped.getLsbD k = true ↔
      Lasting (fun _ event => event = .press symbol) (fun _ event => event = .tick) events :=
  lasting_after_iff (fun f => f.tapped.getLsbD k = true) (by simp [untouched])
    (fun _ _ _ handled => handled.tapped_iff meant) events

end History

/-- **No tap is lost and no key is made up.** At any point of a run, at whatever scale the window is
built, a key counts as down exactly if the one key of the keyboard that stands for it went down and
has not come up since, or went down after the latest tick. The tick hands the engine a flat report
of the keys that count as down, which arms their latches and no others; after that it makes no call
to the engine while the frontend is stopped, and while it runs it makes one step, after which it may
ask for the redraw. -/
theorem tick_reports_history (arguments : CommandLine.Arguments) (files : FileReader)
    (random : RandomBytes) (scale : Nat) (events : List Event) :
    let opened := (unopened arguments files random scale).openWindow
    let f := opened.state.after events
    (∀ k, ∃ symbol : Symbol, symbol.key? = some k ∧
      (∀ stroke : Symbol, stroke.key? = some k → stroke = symbol) ∧
      (f.reported k = true ↔
        Lasting (fun _ event => event = .press symbol) (fun _ event => event = .release symbol)
          events ∨
        Lasting (fun _ event => event = .press symbol) (fun _ event => event = .tick) events)) ∧
    f.feedKeys.engine = (f.engine.setKeys (.ofKeys f.reported)).engine ∧
    (∀ k, f.feedKeys.engine.machine.keypad.latch k =
      if f.reported k then Keypad.duration else f.engine.machine.keypad.latch k) ∧
    ∃ calls ∈ if f.running then [[.step], [.step, .takeRedraw]] else [[]],
      f.tick.state.engine = f.engine.after (.setKeys (.ofKeys f.reported) :: calls) := by
  intro opened f
  obtain ⟨held, tapped⟩ := keys_openWindow (unopened arguments files random scale)
  refine ⟨fun k => ?_, f.engine_feedKeys, f.latch_feedKeys, f.tick_reports⟩
  obtain ⟨symbol, meant⟩ := Symbol.exists_key?_eq k
  refine ⟨symbol, meant, fun stroke same => Symbol.key?_injective same meant, ?_⟩
  rw [reported, BitVec.getLsbD_or, Bool.or_eq_true, held_after_iff held meant,
    tapped_after_iff tapped meant]

/-- One file, which does not exist. -/
def nothingToPlay : CommandLine.Arguments := { roms := ["GONE"] }

/-- The frontend with nothing to play; it stays stopped. -/
def silentTurn : Turn :=
  (unopened nothingToPlay (fun _ => .error .missing) (.cycle #[]) 10).openWindow

/-- X is held down over a tick, Q is tapped after it, and W is not touched. -/
theorem tick_reports_history_tapped :
    let f := silentTurn.state.after
      [.press .x, .tick, .press .f2, .press .q, .release .q, .release .w]
    f.running = false ∧
    f.feedKeys.engine.machine.keypad.latch 0x0 = 100 ∧
    f.feedKeys.engine.machine.keypad.latch 0x4 = 100 ∧
    f.feedKeys.engine.machine.keypad.latch 0x5 = 0 ∧
    f.tick.state.engine = f.engine.after [.setKeys (.ofKeys f.reported)] := by
  intro f
  obtain ⟨history, -, latches, calls, member, fed⟩ :=
    tick_reports_history nothingToPlay (fun _ => .error .missing) (.cycle #[]) 10
      [.press .x, .tick, .press .f2, .press .q, .release .q, .release .w]
  rw [← silentTurn] at history latches member fed
  have stopped : f.running = false := by decide +kernel
  refine ⟨stopped, ?_, ?_, ?_, ?_⟩
  · obtain ⟨symbol, meant, -, hdown⟩ := history 0x0
    obtain rfl : symbol = .x := Symbol.key?_injective meant rfl
    rw [latches, if_pos (hdown.2 (.inl (lasting_of_quiet [] rfl (by simp))))]
    rfl
  · obtain ⟨symbol, meant, -, hdown⟩ := history 0x4
    obtain rfl : symbol = .q := Symbol.key?_injective meant rfl
    rw [latches, if_pos (hdown.2
      (.inr (lasting_of_quiet [Event.press .x, .tick, .press .f2] rfl (by simp))))]
    rfl
  · obtain ⟨symbol, meant, -, hdown⟩ := history 0x5
    obtain rfl : symbol = .w := Symbol.key?_injective meant rfl
    have up : ¬ f.reported 0x5 = true := by
      rw [hdown]
      rintro (lasting | lasting) <;> simpa using lasting.exists_begins
    rw [latches, if_neg up]
    decide +kernel
  · rw [if_neg (by simpa using stopped), List.mem_singleton] at member
    rw [fed, member]

end Frontend
end ChipEight

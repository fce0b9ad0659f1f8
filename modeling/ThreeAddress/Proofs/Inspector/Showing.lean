import Mathlib.Logic.Function.Iterate
import ThreeAddress.Inspector.Session

/-!
# What a session shows

A session goes through key presses and draws. It keeps its source, and what it shows of it is what
a compilation under its present options gives (`Session.Shows`): a switch of the options generates
the code again and leaves all else, or leaves the syntax error. The options of a session depend on
their first value and on the number of switches alone (`Session.options_afterAll`).
-/

namespace ThreeAddress

/-! ## Options -/

/-- The options that a switch leads to: the standard ones from the compatible ones, and the
compatible ones from all others. -/
def Options.switched (o : Options) : Options :=
  if o = .compatible then {} else .compatible

namespace Options

/-- After the first switch the options are the standard and the compatible ones in turn. -/
theorem iterate_switched (o : Options) (n : Nat) : switched^[n + 1] o =
    if (n + 1) % 2 = 1 ∧ o ≠ .compatible ∨ (n + 1) % 2 = 0 ∧ o = .compatible then .compatible
    else {} := by
  induction n with
  | zero => by_cases h : o = .compatible <;> simp [switched, h]
  | succ n ih =>
    have hstandard : ({} : Options) ≠ .compatible := by decide
    -- options of neither mode count with the standard ones: both lead to the compatible ones first
    rw [Function.iterate_succ_apply', ih]
    rcases Nat.mod_two_eq_zero_or_one n with hn | hn
    · have h₁ : (n + 1) % 2 = 1 := by omega
      have h₂ : (n + 1 + 1) % 2 = 0 := by omega
      by_cases h : o = .compatible <;> simp [switched, h, h₁, h₂, hstandard]
    · have h₁ : (n + 1) % 2 = 0 := by omega
      have h₂ : (n + 1 + 1) % 2 = 1 := by omega
      by_cases h : o = .compatible <;> simp [switched, h, h₁, h₂, hstandard]

end Options

/-- Only the code of a compilation depends on the options. -/
theorem Compilation.ofSource_options (source : String) (o o' : Options) :
    ofSource source o' = (ofSource source o).map (·.regenerate o') := by
  rw [ofSource, ofTokens, ofSource, ofTokens]
  cases Program.ofTokens (Token.tokenizeSource source) <;> rfl

namespace Inspector

/-! ## Events -/

/-- What happens to a session: a key press, or a draw with panes of some sizes. -/
inductive Event where
  | key (k : Key)
  | draw (size : PaneName → Size)

/-- Does the event switch the options? -/
def Event.switches : Event → Bool
  | .key (.char c) => c = 'c' || c = 'C'
  | .key _ | .draw _ => false

theorem Offsets.set_get (o : Offsets) (pane : PaneName) : o.set (o.get pane) pane = o := by
  cases pane <;> rfl

namespace Session

/-- What a key can do: switch the options, or change the offset of the focused pane, move the focus
and quit. -/
theorem press_cases (s : Session) (k : Key) :
    (Event.key k).switches = true ∧ s.press k = s.toggle ∨
    (Event.key k).switches = false ∧ ∃ offset focus quit,
      s.press k = { s with offsets := s.offsets.set offset s.focus, focus, quit } := by
  have hkeep (focus : PaneName) (quit : Bool) : ∃ offset focus' quit',
      { s with focus, quit } =
        { s with offsets := s.offsets.set offset s.focus, focus := focus', quit := quit' } :=
    ⟨s.offsets.get s.focus, focus, quit, by rw [Offsets.set_get]⟩
  cases k with
  | up | down | pageUp | pageDown | home => exact .inr ⟨rfl, _, s.focus, s.quit, rfl⟩
  | tab => exact .inr ⟨rfl, hkeep s.focus.next s.quit⟩
  | backTab => exact .inr ⟨rfl, hkeep s.focus.previous s.quit⟩
  | escape => exact .inr ⟨rfl, hkeep s.focus true⟩
  | other => exact .inr ⟨rfl, hkeep s.focus s.quit⟩
  | char c =>
    by_cases hquit : c = 'q' ∨ c = 'Q'
    · have hc : (Event.key (.char c)).switches = false := by
        rcases hquit with rfl | rfl <;> rfl
      refine .inr ⟨hc, ?_⟩
      rw [press, if_pos (by simpa using hquit)]
      exact hkeep s.focus true
    by_cases hc : c = 'c' ∨ c = 'C'
    · exact .inl ⟨by simpa [Event.switches] using hc, by simp [press, hquit, hc]⟩
    · refine .inr ⟨by simpa [Event.switches] using hc, ?_⟩
      rw [press, if_neg (by simpa using hquit), if_neg (by simpa using hc)]
      exact hkeep s.focus s.quit

/-- The session after an event. -/
def after (s : Session) : Event → Session
  | .key k => s.press k
  | .draw size => s.settle size

/-- A draw on a screen is one with the sizes that the panes have there. -/
theorem draw_fst (s : Session) (screen : Size) :
    (s.draw screen).1 = s.after (.draw (Layout.ofScreen screen).pane) := rfl

/-- The session after events, one after the other. -/
def afterAll (s : Session) (events : List Event) : Session :=
  events.foldl after s

/-! ## The options of a session -/

theorem switched_options (s : Session) :
    s.options.switched = if s.isCompatible then {} else .compatible := by
  simp [Options.switched, isCompatible]

theorem toggle_options (s : Session) : s.toggle.options = s.options.switched := by
  rw [switched_options]
  unfold toggle
  cases s.outcome <;> rfl

theorem options_after (s : Session) (e : Event) :
    (s.after e).options = if e.switches then s.options.switched else s.options := by
  cases e with
  | draw size => rfl
  | key k =>
    rcases s.press_cases k with ⟨hk, hpress⟩ | ⟨hk, _, _, _, hpress⟩
    · rw [after, hpress, hk, if_pos rfl, toggle_options]
    · rw [after, hpress, hk]
      rfl

theorem options_afterAll (s : Session) (events : List Event) :
    (s.afterAll events).options = Options.switched^[events.countP Event.switches] s.options := by
  induction events generalizing s with
  | nil => rfl
  | cons e events ih =>
    have hcons : s.afterAll (e :: events) = (s.after e).afterAll events := rfl
    rw [hcons, ih, options_after, List.countP_cons]
    cases e.switches with
    | true => rw [if_pos rfl, if_pos rfl, Function.iterate_succ_apply]
    | false => rfl

/-! ## The outcome of a session -/

theorem toggle_outcome (s : Session) :
    s.toggle.outcome = s.outcome.map (·.regenerate s.options.switched) := by
  rw [switched_options]
  unfold toggle
  cases s.outcome <;> rfl

/-- The session has this source and shows its compilation under the session's options. -/
structure Shows (source : String) (s : Session) : Prop where
  kept : s.source = source
  fresh : s.outcome = Compilation.ofSource source s.options

namespace Shows

variable {source : String} {s : Session}

theorem start (source : String) (o : Options) : Shows source (Session.start source o) := by
  unfold Session.start
  cases h : Compilation.ofSource source o with
  | ok c => exact ⟨rfl, h.symm⟩
  | error f => exact ⟨rfl, h.symm⟩

/-- A switch of the options generates the code again. -/
theorem toggle (h : Shows source s) : Shows source s.toggle := by
  constructor
  · unfold Session.toggle
    cases s.outcome <;> exact h.kept
  · rw [toggle_outcome, toggle_options, h.fresh, ← Compilation.ofSource_options]

theorem after (h : Shows source s) (e : Event) : Shows source (s.after e) := by
  cases e with
  | draw size => exact ⟨h.kept, h.fresh⟩
  | key k =>
    rcases s.press_cases k with ⟨-, hpress⟩ | ⟨-, _, _, _, hpress⟩
    · rw [Session.after, hpress]
      exact h.toggle
    · rw [Session.after, hpress]
      exact ⟨h.kept, h.fresh⟩

theorem afterAll (h : Shows source s) (events : List Event) : Shows source (s.afterAll events) := by
  induction events generalizing s with
  | nil => exact h
  | cons e events ih => exact ih (h.after e)

end Shows

theorem start_options (source : String) (o : Options) : (start source o).options = o := by
  unfold start
  cases Compilation.ofSource source o <;> rfl

/-- Whatever keys are pressed and however it is drawn, a session keeps its source and shows what a
fresh compilation under its options would give. After switches the options are the compatible and
the standard ones in turn; after an even number of them, from one of the two, it shows again what it
showed at first. -/
theorem shows_fresh_compilation (source : String) (o : Options) (events : List Event) :
    let s := (start source o).afterAll events
    let n := events.countP Event.switches
    s.source = source ∧ s.outcome = Compilation.ofSource source s.options ∧
    (0 < n → s.options =
      if n % 2 = 1 ∧ o ≠ .compatible ∨ n % 2 = 0 ∧ o = .compatible then .compatible else {}) ∧
    (n % 2 = 0 → o = {} ∨ o = .compatible → s.outcome = (start source o).outcome) := by
  intro s n
  have hshows : Shows source s := (Shows.start source o).afterAll events
  have hoptions : s.options = Options.switched^[n] o := by
    rw [options_afterAll, start_options]
  have hturn : 0 < n → s.options =
      if n % 2 = 1 ∧ o ≠ .compatible ∨ n % 2 = 0 ∧ o = .compatible then .compatible else {} := by
    intro hn
    rw [hoptions, ← Nat.sub_add_cancel hn]
    exact Options.iterate_switched o (n - 1)
  refine ⟨hshows.kept, hshows.fresh, hturn, fun heven ho => ?_⟩
  have hsame : s.options = o := by
    rcases Nat.eq_zero_or_pos n with hn | hn
    · rw [hoptions, hn]
      rfl
    · rw [hturn hn]
      rcases ho with rfl | rfl
      · rw [if_neg (by simp [heven]; decide)]
      · rw [if_pos (.inr ⟨heven, rfl⟩)]
  rw [hshows.fresh, hsame, (Shows.start source o).fresh, start_options]

/-- One switch leads to the compatible options and a second one back, with scrolling and draws in
between. -/
theorem shows_fresh_compilation_twice :
    let source := "int f() \x7b return 1 + 2; \x7d"
    let events := [.draw fun _ => ⟨30, 9⟩, .key (.char 'c'), .key .down, .draw fun _ => ⟨30, 4⟩]
    ((start source {}).afterAll events).options = .compatible ∧
      ((start source {}).afterAll (events ++ [.key (.char 'C')])).outcome =
        (start source {}).outcome := by
  intro source events
  obtain ⟨-, -, honce, -⟩ := shows_fresh_compilation source {} events
  obtain ⟨-, -, -, htwice⟩ := shows_fresh_compilation source {} (events ++ [.key (.char 'C')])
  constructor
  · rw [honce (by decide)]
    decide
  · exact htwice (by decide) (.inl rfl)

end Session

end Inspector

end ThreeAddress

import ThreeAddress.Proofs.Inspector.Showing

/-!
# Scrolling

Keys move the offset of the focused pane without regard to what the pane shows (`press_offsets`). A
draw lowers the offsets of the panes that show a list (`Session.Lists`) so far that their last page
is full, and does nothing else (`settle_offset`). A second draw with the same heights finds nothing
to do (`settle_settle`), so between draws no offset gets further than the keys that were pressed
since, and no key press is lost or kept for later (`FocusAt.presses_down`, `FocusAt.press_up`).

All of it, for every run of keys and draws, is `scrolling_keeps_to_content`.
-/

namespace ThreeAddress.Inspector

/-! ## Clamping -/

/-- The last full page begins at `total - visible`, the first row if all rows fit. -/
theorem clampScroll_eq (total visible offset : Nat) :
    clampScroll total visible offset = min offset (total - visible) := by
  unfold clampScroll
  split <;> omega

theorem settledOffset_le (size : Size) (rows : Option Nat) (offset : Nat) :
    settledOffset size rows offset ≤ offset := by
  cases rows with
  | none => exact Nat.le_refl offset
  | some n =>
    rw [settledOffset, clampScroll_eq]
    exact Nat.min_le_left ..

theorem settledOffset_settledOffset {size size' : Size} (h : size'.height = size.height)
    (rows : Option Nat) (offset : Nat) :
    settledOffset size' rows (settledOffset size rows offset) = settledOffset size rows offset := by
  have hvisible : size'.visibleRows = size.visibleRows := by rw [Size.visibleRows, h]; rfl
  cases rows with
  | none => rfl
  | some n =>
    rw [settledOffset, settledOffset, hvisible, clampScroll_eq, clampScroll_eq, Nat.min_assoc,
      Nat.min_self]

/-! ## Offsets -/

namespace Offsets

variable (o : Offsets) (n : Nat) {pane pane' : PaneName}

theorem get_mapPanes (f : PaneName → Nat → Nat) (pane : PaneName) :
    (o.mapPanes f).get pane = f pane (o.get pane) := by
  cases pane <;> rfl

theorem get_set (pane : PaneName) : (o.set n pane).get pane = n := by
  cases pane <;> rfl

theorem ext_get {o o' : Offsets} (h : ∀ pane, o.get pane = o'.get pane) : o = o' := by
  obtain ⟨source, tokens, symbols, code⟩ := o
  obtain ⟨source', tokens', symbols', code'⟩ := o'
  cases h .source
  cases h .tokens
  cases h .symbols
  cases h .code
  rfl

end Offsets

namespace Session

variable (s : Session)

/-! ## Lists -/

/-- The panes that show a list, with the number of its rows: the lines of the source, the tokens,
the rows of both tables with two headers and an empty row between them, and the instructions. -/
inductive Lists (s : Session) : PaneName → Nat → Prop
  | source : Lists s .source (Text.lines s.source.toList).length
  | tokens : s.tokens ≠ [] → Lists s .tokens s.tokens.length
  | symbols {c : Compilation} : s.outcome = .ok c →
      Lists s .symbols (c.inventory.symbols.size + c.inventory.functions.size + 3)
  | code {c : Compilation} : s.outcome = .ok c → c.code ≠ [] → Lists s .code c.code.length

theorem length_inventoryLines (inv : Inventory) :
    (inventoryLines inv).length = inv.symbols.size + inv.functions.size + 3 := by
  simp [inventoryLines, SymbolTable.toList, SymbolTable.size, FunctionTable.toList,
    FunctionTable.size]
  omega

theorem tokenRowCount_eq_some {ts : List Token} {rows : Nat} :
    tokenRowCount ts = some rows ↔ ts ≠ [] ∧ ts.length = rows := by
  simp [tokenRowCount]

theorem symbolRowCount_eq_some {inv : Option Inventory} {rows : Nat} :
    symbolRowCount inv = some rows ↔
      ∃ i, inv = some i ∧ i.symbols.size + i.functions.size + 3 = rows := by
  simp [symbolRowCount, length_inventoryLines]

theorem codeRowCount_eq_some {code : Except String (List Instruction)} {rows : Nat} :
    codeRowCount code = some rows ↔ ∃ is, code = .ok is ∧ is ≠ [] ∧ is.length = rows := by
  cases code <;> simp [codeRowCount]

/-- The panes that show a list are those that a draw clamps, at the length of their list. -/
theorem lists_iff {s : Session} {pane : PaneName} {rows : Nat} :
    s.Lists pane rows ↔ s.rowCount pane = some rows := by
  constructor
  · rintro (_ | hne | hok | ⟨hok, hne⟩)
    · rfl
    · exact tokenRowCount_eq_some.2 ⟨hne, rfl⟩
    · exact symbolRowCount_eq_some.2 ⟨_, by rw [inventory, hok], rfl⟩
    · exact codeRowCount_eq_some.2 ⟨_, by rw [code, hok], hne, rfl⟩
  · intro h
    cases pane with
    | source =>
      obtain rfl := Option.some.inj h
      exact .source
    | tokens =>
      obtain ⟨hne, rfl⟩ := tokenRowCount_eq_some.1 h
      exact .tokens hne
    | symbols =>
      obtain ⟨inv, hinv, rfl⟩ := symbolRowCount_eq_some.1 h
      unfold inventory at hinv
      split at hinv
      · next hok =>
        obtain rfl := Option.some.inj hinv
        exact .symbols hok
      · cases hinv
    | code =>
      obtain ⟨is, his, hne, rfl⟩ := codeRowCount_eq_some.1 h
      unfold code at his
      split at his
      · next hok =>
        obtain rfl := Except.ok.inj his
        exact .code hok hne
      · cases his

/-! ## Draws -/

section
variable (size : PaneName → Size) (pane : PaneName)

theorem settle_offset : (s.settle size).offsets.get pane =
    settledOffset (size pane) (s.rowCount pane) (s.offsets.get pane) :=
  s.offsets.get_mapPanes _ pane

theorem rowCount_settle : (s.settle size).rowCount pane = s.rowCount pane := by
  cases pane <;> rfl

end

/-- Panes of the same heights, as wide as they may be. -/
def SameHeights (size size' : PaneName → Size) : Prop :=
  ∀ pane, (size' pane).height = (size pane).height

theorem SameHeights.visibleRows {size size' : PaneName → Size} (h : SameHeights size size')
    (pane : PaneName) : (size' pane).visibleRows = (size pane).visibleRows := by
  rw [Size.visibleRows, h pane]
  rfl

section
variable {s} {size size' : PaneName → Size} {pane : PaneName} {rows : Nat}

theorem lists_settle : (s.settle size).Lists pane rows ↔ s.Lists pane rows := by
  rw [lists_iff, lists_iff, rowCount_settle]

/-- A list is drawn at its last full page if its offset is behind that. -/
theorem Lists.offset_settle (h : s.Lists pane rows) : (s.settle size).offsets.get pane =
    min (s.offsets.get pane) (rows - (size pane).visibleRows) := by
  rw [settle_offset, lists_iff.1 h, settledOffset, clampScroll_eq]

theorem Lists.offset_settle_le (h : s.Lists pane rows) :
    (s.settle size).offsets.get pane ≤ rows - (size pane).visibleRows := by
  rw [h.offset_settle]
  exact Nat.min_le_right ..

theorem offset_settle_of_notice (h : ∀ rows, ¬ s.Lists pane rows) :
    (s.settle size).offsets.get pane = s.offsets.get pane := by
  have hnone : s.rowCount pane = none := by
    cases hcount : s.rowCount pane with
    | none => rfl
    | some rows => exact absurd (lists_iff.2 hcount) (h rows)
  rw [settle_offset, hnone, settledOffset]

theorem settle_settle (h : SameHeights size size') :
    (s.settle size).settle size' = s.settle size := by
  have hoffsets : ((s.settle size).settle size').offsets = (s.settle size).offsets := by
    refine Offsets.ext_get fun pane => ?_
    rw [settle_offset _ size', rowCount_settle, settle_offset,
      settledOffset_settledOffset (h pane)]
  calc (s.settle size).settle size'
    _ = { s.settle size with offsets := ((s.settle size).settle size').offsets } := rfl
    _ = s.settle size := by rw [hoffsets]

end

/-! ## Keys -/

/-- Was the source read without a syntax error? -/
def compiled : Bool :=
  s.outcome.isOk

theorem toggle_offsets :
    s.toggle.offsets = if s.compiled then s.offsets.set 0 .code else s.offsets := by
  unfold toggle compiled
  cases s.outcome <;> rfl

/-- A key changes the offset of the focused pane at most. Only a switch of the options begins with
the first instruction again, if there is code. -/
theorem press_offsets (k : Key) : (s.press k).offsets =
    if (Event.key k).switches && s.compiled then s.offsets.set 0 .code
    else s.offsets.set ((s.press k).offsets.get s.focus) s.focus := by
  rcases s.press_cases k with ⟨hk, hpress⟩ | ⟨hk, offset, focus, quit, hpress⟩
  · rw [hpress, hk, toggle_offsets]
    cases s.compiled with
    | true => rfl
    | false => exact (s.offsets.set_get s.focus).symm
  · rw [hpress, hk, Offsets.get_set]
    rfl

/-! ## Runs -/

/-- The focus is on a list of so many rows, which is drawn from a row on that leaves no room at its
end. -/
structure FocusAt (s : Session) (size : PaneName → Size) (pane : PaneName) (rows offset : Nat) :
    Prop where
  focus : s.focus = pane
  list : s.Lists pane rows
  first : s.offsets.get pane = offset
  page : offset ≤ rows - (size pane).visibleRows

/-- Presses of a key with a draw after each. -/
def presses (k : Key) (draws : List (PaneName → Size)) : List Event :=
  draws.flatMap fun size => [.key k, .draw size]

section
variable {s} {size size' : PaneName → Size} {pane : PaneName} {rows offset : Nat}

theorem focusAt_settle {drawn : Session} (hdrawn : drawn = s.settle size)
    (h : drawn.Lists drawn.focus rows) :
    drawn.FocusAt size drawn.focus rows (drawn.offsets.get drawn.focus) := by
  refine ⟨rfl, h, rfl, ?_⟩
  subst hdrawn
  exact (lists_settle.1 h).offset_settle_le

theorem Lists.scroll (h : s.Lists pane rows) (f : Nat → Nat) : (s.scroll f).Lists pane rows := by
  have hcount : (s.scroll f).rowCount pane = s.rowCount pane := by cases pane <;> rfl
  exact lists_iff.2 (hcount.trans (lists_iff.1 h))

namespace FocusAt

theorem self (h : s.FocusAt size pane rows offset) :
    s.FocusAt size pane rows (s.offsets.get pane) := by
  rw [h.first]
  exact h

/-- A press that scrolls, and the next draw. -/
theorem scroll (h : s.FocusAt size pane rows offset) (hsame : SameHeights size size')
    (f : Nat → Nat) : ((s.scroll f).settle size').FocusAt size pane rows
      (min (f offset) (rows - (size pane).visibleRows)) := by
  obtain ⟨rfl, hlist, rfl, -⟩ := h
  have hscrolled := hlist.scroll f
  refine ⟨rfl, lists_settle.2 hscrolled, ?_, Nat.min_le_right ..⟩
  rw [hscrolled.offset_settle, hsame.visibleRows, Session.scroll, Offsets.get_set]

/-- Every press of the key counts until the last row is in sight, and none after that. -/
theorem presses_down (h : s.FocusAt size pane rows offset) {draws : List (PaneName → Size)}
    (hdraws : ∀ size' ∈ draws, SameHeights size size') :
    (s.afterAll (presses .down draws)).FocusAt size pane rows
      (min (offset + draws.length) (rows - (size pane).visibleRows)) := by
  induction draws generalizing s offset with
  | nil =>
    rw [List.length_nil, Nat.add_zero, Nat.min_eq_left h.page]
    exact h
  | cons size' draws ih =>
    obtain ⟨hsame, hdraws⟩ := List.forall_mem_cons.1 hdraws
    have hlater := ih (h.scroll hsame (· + 1)) hdraws
    have hsum : min (min (offset + 1) (rows - (size pane).visibleRows) + draws.length)
        (rows - (size pane).visibleRows) =
        min (offset + (size' :: draws).length) (rows - (size pane).visibleRows) := by
      rw [List.length_cons]
      omega
    rw [hsum] at hlater
    exact hlater

/-- A press of the key goes one row back. -/
theorem press_up (h : s.FocusAt size pane rows offset) (hpos : 0 < offset) :
    (s.press .up).offsets.get pane + 1 = offset := by
  obtain ⟨rfl, -, rfl, -⟩ := h
  rw [press, Session.scroll, Offsets.get_set]
  omega

/-- The next draw leaves it there. -/
theorem presses_up (h : s.FocusAt size pane rows offset) (hpos : 0 < offset)
    (hsame : SameHeights size size') :
    (s.afterAll (presses .up [size'])).offsets.get pane + 1 = offset := by
  have hup : (s.afterAll (presses .up [size'])).offsets.get pane =
      min (offset - 1) (rows - (size pane).visibleRows) := (h.scroll hsame (· - 1)).first
  have hpage := h.page
  omega

end FocusAt

end

/-- Lists that are drawn at their beginning or with a full last page. -/
def KeepsToContent (size : PaneName → Size) : Prop :=
  ∀ pane rows, s.Lists pane rows →
    s.offsets.get pane = 0 ∨ s.offsets.get pane + (size pane).visibleRows ≤ rows

theorem keepsToContent_settle (size : PaneName → Size) :
    (s.settle size).KeepsToContent size := by
  intro pane rows h
  have hpage : (s.settle size).offsets.get pane ≤ rows - (size pane).visibleRows :=
    (lists_settle.1 h).offset_settle_le
  omega

/-- However keys are pressed and panes drawn, each draw leaves every list at its beginning or with
its last page full, changes offsets of lists only, raises none and leaves nothing to a second draw
with the same heights. Keys change the focused offset at most, except that new code is shown from
its beginning. So each press of the down key with a draw after it goes one row further until the
last row is in sight, presses beyond that are not stored, and a press of the up key goes one row
back at once. -/
theorem scrolling_keeps_to_content (events : List Event) (size : PaneName → Size) :
    let before := s.afterAll events
    let drawn := before.after (.draw size)
    drawn.KeepsToContent size ∧
    drawn = { before with offsets := drawn.offsets } ∧
    (∀ pane, drawn.offsets.get pane ≤ before.offsets.get pane) ∧
    (∀ pane, (∀ rows, ¬ before.Lists pane rows) →
      drawn.offsets.get pane = before.offsets.get pane) ∧
    (∀ size', SameHeights size size' → drawn.after (.draw size') = drawn) ∧
    (∀ k : Key, (before.press k).offsets =
      if (Event.key k).switches && before.compiled then before.offsets.set 0 .code
      else before.offsets.set ((before.press k).offsets.get before.focus) before.focus) ∧
    ∀ rows, drawn.Lists drawn.focus rows → ∀ draws, (∀ size' ∈ draws, SameHeights size size') →
      let pressed := drawn.afterAll (presses .down draws)
      let offset := pressed.offsets.get drawn.focus
      pressed.focus = drawn.focus ∧
      offset = min (drawn.offsets.get drawn.focus + draws.length)
        (rows - (size drawn.focus).visibleRows) ∧
      (0 < offset → (pressed.press .up).offsets.get drawn.focus + 1 = offset ∧
        ∀ size', SameHeights size size' →
          (pressed.afterAll (presses .up [size'])).offsets.get drawn.focus + 1 = offset) := by
  intro before drawn
  have hoffset (pane : PaneName) : drawn.offsets.get pane =
      settledOffset (size pane) (before.rowCount pane) (before.offsets.get pane) :=
    before.settle_offset size pane
  refine ⟨before.keepsToContent_settle size, rfl, fun pane => ?_, fun pane => ?_,
    fun size' => settle_settle, before.press_offsets, fun rows h draws hdraws => ?_⟩
  · rw [hoffset]
    exact settledOffset_le ..
  · exact offset_settle_of_notice
  · have hat : drawn.FocusAt size drawn.focus rows (drawn.offsets.get drawn.focus) :=
      focusAt_settle rfl h
    have hdown := hat.presses_down hdraws
    intro pressed offset
    have hpressed : pressed.FocusAt size drawn.focus rows offset := hdown.self
    exact ⟨hdown.focus, hdown.first, fun hpos =>
      ⟨hpressed.press_up hpos, fun size' => hpressed.presses_up hpos⟩⟩

/-- Five tokens in a pane for three: four presses of the down key go to the last page, and one press
of the up key goes back from there. -/
theorem scrolling_keeps_to_content_past_end :
    let size : PaneName → Size := fun _ => ⟨20, 5⟩
    let s := (start "f = 1 + x" {}).afterAll [.draw size]
    let pressed := s.afterAll (presses .down [size, size, size, size])
    s.Lists .tokens 5 ∧ SameHeights size size ∧ s.KeepsToContent size ∧
      pressed.offsets.tokens = 2 ∧ (pressed.press .up).offsets.tokens = 1 := by
  intro size s pressed
  have hlists : s.Lists .tokens 5 := lists_iff.2 (by decide)
  have hsame : SameHeights size size := fun _ => rfl
  obtain ⟨hkeeps, -, -, -, -, -, hdown⟩ :=
    scrolling_keeps_to_content (start "f = 1 + x" {}) [] size
  obtain ⟨-, hoffset, hup⟩ := hdown 5 hlists [size, size, size, size] (by simp [hsame])
  have htwo : pressed.offsets.tokens = 2 := hoffset
  have hpos : 0 < pressed.offsets.tokens := by rw [htwo]; decide
  have hback : (pressed.press .up).offsets.tokens + 1 = pressed.offsets.tokens := (hup hpos).1
  exact ⟨hlists, hsame, hkeeps, htwo, by omega⟩

end Session

end ThreeAddress.Inspector

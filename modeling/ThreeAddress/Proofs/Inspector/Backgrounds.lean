import ThreeAddress.Inspector.Pane

/-!
# Backgrounds of rows

The style of an entry colours its whole row, and the spans of its line are drawn over it. Spans
that have no background of their own change that of a cell only where a wide glyph covers it, and
never that of the first cell (`AddsNoBackground`, one lemma for each step of writing a line). So a
row has the background of its entry (`exists_background_putEntry`) or, if that has none, no
background (`background_putEntry`).
-/

namespace ThreeAddress.Inspector

namespace Row

/-- The background of a cell, if there is such a cell. -/
def background? (row : Row) (i : Nat) : Option (Option Color) :=
  row[i]?.map (·.style.background)

/-- Drawing over a row that gives no cell a background and leaves the first cell its own. -/
structure AddsNoBackground (before after : Row) : Prop where
  first : after.background? 0 = before.background? 0
  kept : ∀ i, after.background? i = before.background? i ∨ after.background? i = some none

namespace AddsNoBackground

variable {row before between later : Row}

theorem refl (row : Row) : AddsNoBackground row row :=
  ⟨rfl, fun _ => .inl rfl⟩

theorem trans (h : AddsNoBackground before between) (h' : AddsNoBackground between later) :
    AddsNoBackground before later := by
  refine ⟨h'.first.trans h.first, fun i => ?_⟩
  rcases h'.kept i with hi | hi
  · rw [hi]
    exact h.kept i
  · exact .inr hi

/-- Where nothing has a background nothing gets one. -/
theorem plain (h : AddsNoBackground before later)
    (hplain : ∀ c ∈ before, c.style.background = none) : ∀ c ∈ later, c.style.background = none := by
  intro c hc
  obtain ⟨i, hi⟩ := List.mem_iff_getElem?.1 hc
  have hlater : later.background? i = some c.style.background := by rw [background?, hi]; rfl
  rcases h.kept i with hkept | hkept
  · rw [hlater, background?] at hkept
    obtain ⟨c', hc', hsame⟩ := Option.map_eq_some_iff.1 hkept.symm
    rw [← hsame]
    exact hplain c' (List.mem_of_getElem? hc')
  · exact Option.some.inj (hlater.symm.trans hkept)

end AddsNoBackground

/-! ## Writing a line -/

section
variable {style : Style} (row : Row)

theorem paint_adds (h : style.background = none) (column : Nat) (change : String → String) :
    AddsNoBackground row (row.paint column style change) := by
  have hsame (i : Nat) : (row.paint column style change).background? i = row.background? i := by
    unfold paint background?
    rw [List.getElem?_modify]
    cases row[i]? with
    | none => rfl
    | some c => by_cases hi : column = i <;> simp [hi, Style.under, h]
  exact ⟨hsame 0, fun i => .inl (hsame i)⟩

theorem clear_adds {start : Nat} (h : 0 < start) (stop : Nat) :
    AddsNoBackground row (row.clear start stop) := by
  have hcell (i : Nat) : (row.clear start stop).background? i =
      if start ≤ i ∧ i < stop then row[i]?.map fun _ => none else row.background? i := by
    unfold clear background?
    rw [List.getElem?_mapIdx]
    cases row[i]? with
    | none => simp
    | some c => by_cases hi : start ≤ i ∧ i < stop <;> simp [hi]
  refine ⟨(hcell 0).trans (if_neg (by omega)), fun i => ?_⟩
  rw [hcell]
  split
  · unfold background?
    cases row[i]? with
    | none => exact .inl rfl
    | some c => exact .inr rfl
  · exact .inl rfl

theorem putFirst_adds (h : style.background = none) (column : Nat) (g : Text.Glyph) :
    AddsNoBackground row (row.putFirst column style g) :=
  (row.paint_adds h column _).trans (clear_adds _ (Nat.succ_pos column) _)

theorem putNext_adds (h : style.background = none) (start column : Nat) (g : Text.Glyph) :
    AddsNoBackground row (row.putNext start column style g) := by
  unfold putNext
  refine .trans ?_ (clear_adds _ (Nat.succ_pos column) _)
  split
  · exact row.paint_adds h ..
  split
  · exact row.paint_adds h ..
  · exact row.paint_adds h ..

theorem putRest_adds (h : style.background = none) (start : Nat) : ∀ (column : Nat)
    (gs : List Text.Glyph) (row : Row), AddsNoBackground row (putRest style start column gs row)
  | _, [], row => .refl row
  | column, g :: rest, row => by
    rw [putRest]
    split
    · exact .refl row
    · exact (row.putNext_adds h start column g).trans (putRest_adds h start _ rest _)

theorem putSpan_adds {s : Span} (h : s.style.background = none) (column : Nat) :
    AddsNoBackground row (row.putSpan column s) := by
  unfold putSpan
  split
  · exact .refl row
  split
  · exact .refl row
  · exact (row.putFirst_adds h column _).trans (putRest_adds h column _ _ _)

theorem putLine_adds : ∀ {line : Line}, (∀ s ∈ line, s.style.background = none) →
    ∀ (column : Nat) (row : Row), AddsNoBackground row (putLine column line row)
  | [], _, _, row => .refl row
  | s :: line, h, column, row => by
    obtain ⟨hs, hline⟩ := List.forall_mem_cons.1 h
    rw [putLine]
    split
    · exact .refl row
    refine .trans ?_ (putLine_adds hline _ _)
    split
    · exact .refl row
    · exact row.putSpan_adds hs column

end

/-! ## Entries -/

section
variable {row : Row} {style : Style} {line : Line} (hline : ∀ s ∈ line, s.style.background = none)
include hline

/-- An entry without a background gives a row none. -/
theorem background_putEntry (hrow : ∀ c ∈ row, c.style.background = none)
    (hstyle : style.background = none) (column width : Nat) :
    ∀ c ∈ row.putEntry column width style line, c.style.background = none := by
  have hcells : ∀ c ∈ ((row.drop column).take width).map fun c =>
      { c with style := c.style.under style }, c.style.background = none := by
    refine List.forall_mem_map.2 fun c hc => ?_
    simp [Style.under, hstyle, hrow c (List.mem_of_mem_drop (List.mem_of_mem_take hc))]
  refine List.forall_mem_append.2 ⟨?_, List.forall_mem_append.2 ⟨?_, ?_⟩⟩
  · exact fun c hc => hrow c (List.mem_of_mem_take hc)
  · exact (putLine_adds hline 0 _).plain hcells
  · exact fun c hc => hrow c (List.mem_of_mem_drop hc)

/-- An entry with a background gives it to the first of its cells. -/
theorem exists_background_putEntry {color : Color} (hstyle : style.background = some color)
    {column width : Nat} (hcolumn : column < row.length) (hwidth : 0 < width) :
    ∃ c ∈ row.putEntry column width style line, c.style.background = some color := by
  let cells := ((row.drop column).take width).map fun c => { c with style := c.style.under style }
  have hfirst : (putLine 0 line cells).background? 0 = some (some color) := by
    rw [(putLine_adds hline 0 cells).first, background?, List.getElem?_map,
      List.getElem?_take_of_lt hwidth, List.getElem?_drop, Nat.add_zero,
      List.getElem?_eq_getElem hcolumn]
    simp [Style.under, hstyle]
  obtain ⟨c, hc, hcolor⟩ := Option.map_eq_some_iff.1 hfirst
  have hmem : c ∈ row.putEntry column width style line :=
    List.mem_append_right _ (List.mem_append_left _ (List.mem_of_getElem? hc))
  exact ⟨c, hmem, hcolor⟩

end

end Row

end ThreeAddress.Inspector

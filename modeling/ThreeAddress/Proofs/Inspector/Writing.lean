import ThreeAddress.Inspector.Row
import ThreeAddress.Text.Column

/-!
# Writing on rows

What a row shows after a line has been written on it. `Row.Shows` says which glyphs stand side by
side from a column on. Writing a span shows its glyphs, if each of them takes a cell
(`putSpan_shows`), and changes nothing in front of them, whatever its glyphs are (`putSpan_keeps`).

A printable character of ASCII is a glyph of its own and takes one cell, next to any other such
character (`glyphs_simple`, `width_simple`). So a line that begins with simple text shows it as it
is (`putLine_shows`).
-/

namespace ThreeAddress

/-! ## Simple text -/

namespace Text

/-- A printable character of ASCII. -/
def IsSimple (c : Char) : Prop :=
  0x20 ≤ c.toNat ∧ c.toNat < 0x7F

instance (c : Char) : Decidable (IsSimple c) :=
  inferInstanceAs (Decidable (_ ∧ _))

/-- A text of simple characters. -/
def IsSimpleText (text : String) : Prop :=
  ∀ c ∈ text.toList, IsSimple c

instance (text : String) : Decidable (IsSimpleText text) :=
  List.decidableBAll IsSimple text.toList

/-- A character on its own, in one cell. -/
def Glyph.single (c : Char) : Glyph := ⟨[c], 1⟩

section
variable {c : Char} {text : List Char}

theorem IsSimple.not_le (h : IsSimple c) {n : Nat} (hn : 0x7F ≤ n) : ¬ n ≤ c.toNat :=
  Nat.not_le.2 (Nat.lt_of_lt_of_le h.2 hn)

theorem IsSimple.inRanges_eq (h : IsSimple c) {r : Nat × Nat} (later : List (Nat × Nat))
    (hr : 0x7F ≤ r.1) : inRanges (r :: later) c = false := by
  simp [inRanges, h.not_le hr]

theorem IsSimple.ne (h : IsSimple c) {c' : Char} (hc : ¬ IsSimple c') : c ≠ c' := by
  rintro rfl
  exact hc h

theorem IsSimple.role (h : IsSimple c) : Role.ofChar c = .other := by
  have hlow {n : Nat} (hn : n < 0x20) : ¬ c.toNat ≤ n :=
    Nat.not_le.2 (Nat.lt_of_lt_of_le hn h.1)
  have hcontrol : inRanges controlRanges c = false := by
    simp [controlRanges, inRanges, hlow, h.not_le]
  have hspacing : inRanges spacingMarkRanges c = false := h.inRanges_eq _ (by decide)
  have hlinker : inRanges linkerRanges c = false := h.inRanges_eq _ (by decide)
  have hmark : inRanges markRanges c = false := h.inRanges_eq _ (by decide)
  have hcontinuing : inRanges continuingRanges c = false := h.inRanges_eq _ (by decide)
  have hvowel : inRanges vowelRanges c = false := h.inRanges_eq _ (by decide)
  have hpictograph : inRanges pictographRanges c = false := h.inRanges_eq _ (by decide)
  have hconsonant : inRanges consonantRanges c = false := h.inRanges_eq _ (by decide)
  have hprepended : inRanges prependedRanges c = false := h.inRanges_eq _ (by decide)
  have hnonJoiner : c.toNat ≠ 0x200C :=
    Nat.ne_of_lt (Nat.lt_of_lt_of_le h.2 (by decide))
  have hm : Role.ofMark? c = none := by
    simp [Role.ofMark?, isMark, hspacing, hlinker, hmark, hcontinuing, hnonJoiner]
  have hh : Role.ofHangul? c = none := by simp [Role.ofHangul?, hvowel, h.not_le]
  have hi : isIndicator c = false := by simp [isIndicator, h.not_le]
  simp [Role.ofChar, h.ne (show ¬IsSimple '\r' by decide), h.ne (show ¬IsSimple '\n' by decide),
    h.ne (show ¬IsSimple Text.joiner by decide), hcontrol, hm, hh, hi, isPictograph, hpictograph,
    hconsonant, hprepended]

theorem split_simple (h : ∀ c ∈ text, IsSimple c) :
    ∀ s : Seam, s.last = .control ∨ s.last = .other → s.split text = ([], text.map ([·])) := by
  induction text with
  | nil => intro s _; rfl
  | cons c text ih =>
    obtain ⟨hc, htext⟩ := List.forall_mem_cons.1 h
    intro s hs
    have hno : s.joins .other = false := by
      rcases hs with hs | hs <;> simp [Seam.joins, hs]
    rw [Seam.split, hc.role, ih htext _ (.inr rfl), hno]
    rfl

theorem reading_simple (h : ∀ c ∈ text, IsSimple c) :
    reading text = { width := text.length } := by
  induction text with
  | nil => rfl
  | cons c text ih =>
    obtain ⟨hc, htext⟩ := List.forall_mem_cons.1 h
    have hle : c.toNat ≤ 0xA0 := by have := hc.2; omega
    have hadd : (reading text).before c = (reading text).add 1 .plain := by
      rw [ih htext]
      simp [Reading.before, Reading.beforeOther, Reading.beforeAscii, hle,
        hc.ne (show ¬IsSimple '\n' by decide)]
    show (reading text).before c = _
    rw [hadd, ih htext]
    rfl

theorem width_simple (h : ∀ c ∈ text, IsSimple c) : width text = text.length := by
  rw [width, reading_simple h]
  rfl

theorem glyphs_simple (h : ∀ c ∈ text, IsSimple c) : glyphs text = text.map Glyph.single := by
  have hclusters : clusters text = text.map ([·]) := by
    rw [clusters, split_simple h _ (.inl rfl)]
  have hfilter : (text.map ([·])).filter (· ≠ ['\n']) = text.map ([·]) := by
    refine List.filter_eq_self.2 (List.forall_mem_map.2 fun c hc => ?_)
    simpa using (h c hc).ne (show ¬IsSimple '\n' by decide)
  rw [glyphs, hclusters, hfilter, List.map_map]
  refine List.map_congr_left fun c hc => ?_
  have hwidth : width [c] = 1 := width_simple (List.forall_mem_singleton.2 (h c hc))
  simp [Glyph.single, hwidth]

theorem glyphs_simple_pos (h : ∀ c ∈ text, IsSimple c) : ∀ g ∈ glyphs text, 0 < g.width := by
  rw [glyphs_simple h]
  exact List.forall_mem_map.2 fun c _ => Nat.one_pos

end

theorem isSimpleText_append {text text' : String} :
    IsSimpleText (text ++ text') ↔ IsSimpleText text ∧ IsSimpleText text' := by
  rw [IsSimpleText, String.toList_append]
  exact List.forall_mem_append

theorem isSimpleText_toString (n : Nat) : IsSimpleText (toString n) := by
  intro c hc
  have hdigit : c ∈ Nat.toDigits 10 n := by simpa using hc
  obtain ⟨hlo, hhi⟩ : 48 ≤ c.toNat ∧ c.toNat ≤ 57 :=
    Char.isDigit_iff_toNat.1 (Nat.isDigit_of_mem_toDigits (by decide) (by decide) hdigit)
  exact ⟨by omega, by omega⟩

theorem isSimpleText_filler (width : Nat) (text : String) : IsSimpleText (filler width text) := by
  intro c hc
  rw [filler, String.toList_ofList] at hc
  rw [List.eq_of_mem_replicate hc]
  decide

theorem IsSimpleText.alignLeft {text : String} (h : IsSimpleText text) (width : Nat) :
    IsSimpleText (alignLeft width text) :=
  isSimpleText_append.2 ⟨h, isSimpleText_filler width text⟩

theorem IsSimpleText.alignRight {text : String} (h : IsSimpleText text) (width : Nat) :
    IsSimpleText (alignRight width text) :=
  isSimpleText_append.2 ⟨isSimpleText_filler width text, h⟩

end Text

namespace Inspector

namespace Row

/-! ## Cells that are left alone -/

/-- The text of the cell at a column, if there is such a cell. -/
def glyph? (row : Row) (i : Nat) : Option String :=
  row[i]?.map Cell.glyph

/-- The row is as long afterwards, and its cells before a column have the text they had. -/
structure KeepsTo (column : Nat) (before after : Row) : Prop where
  length : after.length = before.length
  glyph : ∀ i < column, after.glyph? i = before.glyph? i

namespace KeepsTo

variable {column column' : Nat} {before between later : Row}

theorem refl (row : Row) : KeepsTo column row row :=
  ⟨rfl, fun _ _ => rfl⟩

theorem trans (h : KeepsTo column before between) (h' : KeepsTo column between later) :
    KeepsTo column before later :=
  ⟨h'.length.trans h.length, fun i hi => (h'.glyph i hi).trans (h.glyph i hi)⟩

theorem mono (h : KeepsTo column before later) (hle : column' ≤ column) :
    KeepsTo column' before later :=
  ⟨h.length, fun i hi => h.glyph i (Nat.lt_of_lt_of_le hi hle)⟩

end KeepsTo

section
variable {style : Style} {start column low : Nat}

theorem glyph?_paint (row : Row) (column : Nat) (style : Style) (change : String → String)
    (i : Nat) : (row.paint column style change).glyph? i =
      if i = column then (row.glyph? i).map change else row.glyph? i := by
  unfold paint glyph?
  rw [List.getElem?_modify]
  cases row[i]? with
  | none => simp
  | some c => by_cases hi : column = i <;> simp [hi, eq_comm]

theorem glyph?_clear (row : Row) (start stop i : Nat) : (row.clear start stop).glyph? i =
    if start ≤ i ∧ i < stop then (row.glyph? i).map fun _ => " " else row.glyph? i := by
  unfold clear glyph?
  rw [List.getElem?_mapIdx]
  cases row[i]? with
  | none => simp
  | some c => by_cases hi : start ≤ i ∧ i < stop <;> simp [hi]

theorem paint_keeps (row : Row) (style : Style) (change : String → String) (h : low ≤ column) :
    KeepsTo low row (row.paint column style change) :=
  ⟨List.length_modify .., fun i hi => by rw [glyph?_paint, if_neg (by omega)]⟩

theorem clear_keeps (row : Row) (stop : Nat) (h : low ≤ column) :
    KeepsTo low row (row.clear column stop) :=
  ⟨List.length_mapIdx, fun i hi => by rw [glyph?_clear, if_neg (by omega)]⟩

theorem putFirst_keeps (row : Row) (column : Nat) (style : Style) (g : Text.Glyph) :
    KeepsTo column row (row.putFirst column style g) :=
  (paint_keeps row style _ (Nat.le_refl column)).trans (clear_keeps _ _ (Nat.le_succ column))

/-- A later glyph goes back at most one cell, and only if it takes none itself. -/
theorem putNext_keeps (row : Row) (style : Style) {g : Text.Glyph} (hstart : start ≤ column)
    (hlow : low ≤ column) (h : low ≤ start ∨ 0 < g.width) :
    KeepsTo low row (row.putNext start column style g) := by
  unfold putNext
  refine .trans ?_ (clear_keeps _ _ (Nat.le_succ_of_le hlow))
  split
  · exact paint_keeps row style _ hlow
  split
  · exact paint_keeps row style _ (by omega)
  · exact paint_keeps row style _ hlow

theorem putRest_keeps : ∀ {column : Nat} (gs : List Text.Glyph) (row : Row), start ≤ column →
    low ≤ column → (low ≤ start ∨ ∀ g ∈ gs, 0 < g.width) →
    KeepsTo low row (putRest style start column gs row)
  | _, [], row, _, _, _ => .refl row
  | column, g :: gs, row, hstart, hlow, h => by
    rw [putRest]
    split
    · exact .refl row
    · refine (putNext_keeps row style hstart hlow (h.imp_right fun h => h g (by simp))).trans ?_
      exact putRest_keeps gs _ (by omega) (by omega)
        (h.imp_right fun h g hg => h g (List.mem_cons_of_mem _ hg))

theorem putSpan_keeps (row : Row) (column : Nat) (s : Span) :
    KeepsTo column row (row.putSpan column s) := by
  unfold putSpan
  split
  · exact .refl row
  next g gs _ =>
    split
    · exact .refl row
    refine (putFirst_keeps row column s.style g).trans ?_
    exact putRest_keeps _ _ (Nat.le_add_right ..) (Nat.le_add_right ..) (.inl (Nat.le_refl _))

theorem putLine_keeps : ∀ {column : Nat} (line : Line) (row : Row),
    KeepsTo column row (putLine column line row)
  | _, [], row => .refl row
  | column, s :: line, row => by
    rw [putLine]
    split
    · exact .refl row
    refine .trans ?_ ((putLine_keeps line _).mono (Nat.le_add_right ..))
    split
    · exact .refl row
    · exact putSpan_keeps row column s

end

/-! ## Glyphs side by side -/

/-- From a column on the row shows glyphs side by side, up to the first that goes beyond `stop`. A
glyph stands in the first of its cells, and the others are blank. -/
inductive Shows (row : Row) (stop : Nat) : Nat → List Text.Glyph → Prop
  | nil {column : Nat} : Shows row stop column []
  | cons {column : Nat} {g : Text.Glyph} {gs : List Text.Glyph}
      (hg : ∀ i < g.width,
        row.glyph? (column + i) = some (if i = 0 then String.ofList g.chars else " "))
      (hgs : Shows row stop (column + g.width) gs) : Shows row stop column (g :: gs)
  | cut {column : Nat} {g : Text.Glyph} {gs : List Text.Glyph} (h : stop < column + g.width) :
      Shows row stop column (g :: gs)

namespace Shows

variable {row before after : Row} {stop column low : Nat} {gs gs' : List Text.Glyph}

theorem of_le (gs : List Text.Glyph) (h : stop ≤ column) : row.Shows stop column gs := by
  induction gs with
  | nil => exact .nil
  | cons g gs ih =>
    by_cases hg : g.width = 0
    · refine .cons (fun i hi => absurd hi (by omega)) ?_
      rwa [hg, Nat.add_zero]
    · exact .cut (by omega)

theorem append (h : row.Shows stop column gs)
    (h' : row.Shows stop (column + Text.totalWidth gs) gs') :
    row.Shows stop column (gs ++ gs') := by
  induction h with
  | nil => exact h'
  | cons hg _ ih => exact .cons hg (ih (by rwa [Nat.add_assoc]))
  | cut hcut => exact .cut hcut

/-- What is shown is still shown where the cells of a row are those of another one, shifted. -/
theorem shift (h : before.Shows stop column gs) (offset : Nat)
    (hsame : ∀ i < column + Text.totalWidth gs, i < stop →
      after.glyph? (offset + i) = before.glyph? i) :
    after.Shows (offset + stop) (offset + column) gs := by
  induction h with
  | nil => exact .nil
  | @cons column g gs hg _ ih =>
    have hwidth : Text.totalWidth (g :: gs) = g.width + Text.totalWidth gs := rfl
    rw [hwidth, ← Nat.add_assoc] at hsame
    rcases Nat.lt_or_ge stop (column + g.width) with hcut | hfits
    · exact .cut (by omega)
    · refine .cons (fun i hi => ?_) ?_
      · rw [Nat.add_assoc, hsame _ (by omega) (by omega), hg i hi]
      · rw [Nat.add_assoc]
        exact ih hsame
  | cut hcut => exact .cut (by omega)

theorem keep (h : before.Shows stop column gs) (hkeep : KeepsTo low before after)
    (hlow : column + Text.totalWidth gs ≤ low) : after.Shows stop column gs := by
  have hsame (i : Nat) (hi : i < column + Text.totalWidth gs) (_ : i < stop) :
      after.glyph? (0 + i) = before.glyph? i := by
    rw [Nat.zero_add]
    exact hkeep.glyph i (by omega)
  have hshift := h.shift 0 hsame
  rwa [Nat.zero_add, Nat.zero_add] at hshift

end Shows

theorem totalWidth_single (text : List Char) :
    Text.totalWidth (text.map Text.Glyph.single) = text.length := by
  induction text with
  | nil => rfl
  | cons c text ih =>
    show 1 + Text.totalWidth (text.map Text.Glyph.single) = _
    rw [ih, List.length_cons, Nat.add_comm]

section
variable {style : Style} {start column : Nat} {row : Row}

theorem putFirst_shows {g : Text.Glyph} (hfits : column + g.width ≤ row.length) : ∀ i < g.width,
    (row.putFirst column style g).glyph? (column + i) =
      some (if i = 0 then String.ofList g.chars else " ") := by
  intro i hi
  obtain ⟨c, hc⟩ : ∃ c, row.glyph? (column + i) = some c :=
    ⟨_, by rw [glyph?, List.getElem?_eq_getElem (by omega)]; rfl⟩
  rw [putFirst, glyph?_clear, glyph?_paint, hc]
  by_cases hzero : i = 0
  · rw [if_neg (by omega), if_pos (by omega), if_pos hzero]
    rfl
  · rw [if_pos (by omega), if_neg (by omega), if_neg hzero]
    rfl

/-- Behind the first cell of a span a glyph that takes a cell is written like a first one. -/
theorem putNext_eq {g : Text.Glyph} (hstart : start < column) (hg : 0 < g.width) :
    row.putNext start column style g = row.putFirst column style g := by
  rw [putNext, if_neg (by omega), if_neg (by omega), putFirst]

theorem putRest_shows {g : Text.Glyph} {gs : List Text.Glyph} (hstart : start ≤ column)
    (h : ∀ g' ∈ g :: gs, 0 < g'.width) :
    (putRest style start (column + g.width) gs (row.putFirst column style g)).Shows row.length
      column (g :: gs) := by
  induction gs generalizing column g row with
  | nil =>
    rcases Nat.lt_or_ge row.length (column + g.width) with hcut | hfits
    · exact .cut hcut
    · exact .cons (putFirst_shows hfits) .nil
  | cons g' gs ih =>
    obtain ⟨hg, hgs⟩ := List.forall_mem_cons.1 h
    have hlength := (putFirst_keeps row column style g).length
    have hkeep : KeepsTo (column + g.width) (row.putFirst column style g)
        (putRest style start (column + g.width) (g' :: gs) (row.putFirst column style g)) :=
      putRest_keeps _ _ (Nat.le_add_right_of_le hstart) (Nat.le_refl _) (.inr hgs)
    rcases Nat.lt_or_ge row.length (column + g.width) with hcut | hfits
    · exact .cut hcut
    refine .cons (fun i hi => ?_) ?_
    · rw [hkeep.glyph _ (Nat.add_lt_add_left hi column)]
      exact putFirst_shows hfits i hi
    · rw [← hlength, putRest]
      split
      · exact .cut ‹_›
      · rw [putNext_eq (by omega) (hgs g' List.mem_cons_self)]
        exact ih (by omega) hgs

theorem putSpan_shows (row : Row) (column : Nat) {s : Span}
    (h : ∀ g ∈ Text.glyphs s.text.toList, 0 < g.width) :
    (row.putSpan column s).Shows row.length column (Text.glyphs s.text.toList) := by
  unfold putSpan
  cases hgs : Text.glyphs s.text.toList with
  | nil => exact .nil
  | cons g gs =>
    simp only
    split
    · exact .cut ‹_›
    · exact putRest_shows (Nat.le_refl column) (hgs ▸ h)

section
variable {s : Span} (hs : Text.IsSimpleText s.text)
include hs

theorem putSpan_shows_simple (row : Row) (column : Nat) :
    (row.putSpan column s).Shows row.length column (s.text.toList.map Text.Glyph.single) := by
  have hshows := putSpan_shows row column (Text.glyphs_simple_pos hs)
  rwa [Text.glyphs_simple hs] at hshows

/-- To leave out a span that takes no room and to write it are the same. -/
theorem putLine_cons_simple (line : Line) {row : Row} {column : Nat} (h : column < row.length) :
    putLine column (s :: line) row =
      putLine (column + s.text.toList.length) line (row.putSpan column s) := by
  rw [putLine, if_neg (Nat.not_le.2 h), Text.width_simple hs]
  by_cases hzero : s.text.toList.length = 0
  · have hglyphs : Text.glyphs s.text.toList = [] := by
      rw [List.eq_nil_of_length_eq_zero hzero]
      rfl
    simp only [hzero, if_true, putSpan, hglyphs]
  · simp only [hzero, if_false]

end

/-- A line that begins with simple text shows it, one character in each cell, and then what the rest
of the line shows. -/
theorem putLine_shows {later : Line} {gs : List Text.Glyph}
    (hlater : ∀ (column : Nat) (row : Row), (putLine column later row).Shows row.length column gs)
    {spans : List Span} (h : ∀ s ∈ spans, Text.IsSimpleText s.text) :
    ∀ (column : Nat) (row : Row), (putLine column (spans ++ later) row).Shows row.length column
      ((spans.flatMap (·.text.toList)).map Text.Glyph.single ++ gs) := by
  induction spans with
  | nil => exact hlater
  | cons s spans ih =>
    intro column row
    obtain ⟨hs, hspans⟩ := List.forall_mem_cons.1 h
    rcases Nat.lt_or_ge column row.length with hcolumn | hcolumn
    · rw [List.cons_append, putLine_cons_simple hs _ hcolumn, List.flatMap_cons, List.map_append,
        List.append_assoc]
      have hwidth := totalWidth_single s.text.toList
      refine .append ((putSpan_shows_simple hs row column).keep (putLine_keeps _ _) ?_) ?_
      · exact Nat.le_of_eq (congrArg (column + ·) hwidth)
      · rw [hwidth, ← (putSpan_keeps row column s).length]
        exact ih hspans _ _
    · exact .of_le _ hcolumn

end

/-! ## Entries -/

/-- An entry shows what its line shows on a row of its own. -/
theorem putEntry_shows {row : Row} {column width : Nat} {style : Style} {line : Line}
    {gs : List Text.Glyph} (hrow : column + width ≤ row.length)
    (hline : ∀ cells : Row, (putLine 0 line cells).Shows cells.length 0 gs) :
    (row.putEntry column width style line).Shows (column + width) column gs := by
  generalize hcells : ((row.drop column).take width).map (fun c : Cell =>
    { c with style := c.style.under style }) = cells
  have hlength : cells.length = width := by
    rw [← hcells, List.length_map, List.length_take, List.length_drop]
    omega
  have hdrawn : (putLine 0 line cells).length = width :=
    (putLine_keeps line cells).length.trans hlength
  have hleft : (row.take column).length = column := by
    rw [List.length_take]
    omega
  have hcell (i : Nat) (hi : i < cells.length) :
      (row.putEntry column width style line).glyph? (column + i) =
        (putLine 0 line cells).glyph? i := by
    rw [putEntry, hcells, glyph?, glyph?, List.getElem?_append_right (by omega), hleft,
      Nat.add_sub_cancel_left, List.getElem?_append_left (by omega)]
  have hshift := (hline cells).shift column fun i _ hi => hcell i hi
  rwa [hlength, Nat.add_zero] at hshift

end Row

end Inspector

end ThreeAddress

import ThreeAddress.Proofs.Grammar.Refusal
import ThreeAddress.Proofs.Inspector.Backgrounds
import ThreeAddress.Proofs.Inspector.Scrolling
import ThreeAddress.Proofs.Inspector.Writing

/-!
# The mark of a syntax error

Between its borders a pane shows the entries of its list, one on each row
(`getElem?_inside_drawPane`). A row of the token pane has a cell in the colour of errors only if it
is the row of a token at the position of the mark (`exists_of_marked`). The row of a token shows the
position, the kind and the text of the token (`showsToken_entryRow`).

A session begins half a page before a syntax error. At the first draw that is early enough for the
token that the error is reported at, or for the last token if it is reported behind that
(`row_in_sight`). So the error is on the screen from the beginning (`error_in_sight`).
-/

namespace ThreeAddress.Inspector

/-! ## Rows of a pane -/

theorem length_drawEach {α : Type} (draw : α → Row → Row) : ∀ (items : List α) (rows : List Row),
    (Content.drawEach draw items rows).length = rows.length
  | _ :: items, _ :: rows => congrArg (· + 1) (length_drawEach draw items rows)
  | [], _ => by rw [Content.drawEach.eq_def]
  | _ :: _, [] => rfl

theorem getElem?_drawEach {α : Type} (draw : α → Row → Row) : ∀ (items : List α) (rows : List Row)
    (i : Nat), (Content.drawEach draw items rows)[i]? =
      rows[i]?.map fun row => (items[i]?.map (draw · row)).getD row
  | a :: items, r :: rows, 0 => rfl
  | a :: items, r :: rows, i + 1 => by
    rw [Content.drawEach, List.getElem?_cons_succ, getElem?_drawEach draw items rows i]
    rfl
  | [], rows, i => by simp [Content.drawEach]
  | _ :: _, [], _ => rfl

/-- The rows of a picture between the borders of a pane. -/
def Picture.inside (p : Picture) (size : Size) : Picture :=
  (p.drop 1).take (size.height - 2)

/-- A row without contents. -/
def emptyRow (width : Nat) (focused : Bool) : Row :=
  let side : Cell := ⟨"│", ({} : Style).under (borderStyle focused)⟩
  edged width side side (Row.blank (width - 2) {})

/-- A row with an entry of a list. -/
def entryRow (width : Nat) (focused : Bool) (e : Style × Line) : Row :=
  (emptyRow width focused).putEntry 2 (width - 3) e.1 e.2

section
variable (size : Size) (title : String) (focused : Bool) (es : List (Style × Line))

/-- Entries are drawn on empty rows, one on each. -/
theorem inside_drawPane : (drawPane size title focused (.entries es)).inside size =
    Content.drawEach (fun e row => row.putEntry 2 (size.width - 3) e.1 e.2) es
      (List.replicate (size.height - 2) (emptyRow size.width focused)) := by
  generalize hrows : Content.drawEach (fun e row => row.putEntry 2 (size.width - 3) e.1 e.2) es
    (List.replicate (size.height - 2) (emptyRow size.width focused)) = rows
  have hlength : rows.length = size.height - 2 := by
    rw [← hrows, length_drawEach, List.length_replicate]
  obtain ⟨top, bottom, hpane⟩ : ∃ top bottom, drawPane size title focused (.entries es) =
      (top :: rows ++ [bottom]).take size.height := by
    rw [← hrows]
    exact ⟨_, _, rfl⟩
  have hmin : min (size.height - 2) (size.height - 1) = size.height - 2 := by omega
  rw [hpane, Picture.inside, List.drop_take, List.take_take, hmin, List.cons_append,
    List.drop_succ_cons, List.drop_zero, List.take_left' hlength]

/-- A list takes the rows from the first one on. -/
theorem getElem?_inside_drawPane {i : Nat} (h : i < size.height - 2) :
    ((drawPane size title focused (.entries es)).inside size)[i]? =
      some ((es[i]?.map (entryRow size.width focused)).getD (emptyRow size.width focused)) := by
  rw [inside_drawPane, getElem?_drawEach, List.getElem?_replicate_of_lt h]
  rfl

end

/-! ## Marked rows -/

/-- A row with a cell in the colour of errors. -/
def Row.Marked (row : Row) : Prop :=
  ∃ c ∈ row, c.style.background = some Theme.error

section
variable (width : Nat) (focused : Bool)

theorem background_emptyRow : ∀ c ∈ emptyRow width focused, c.style.background = none := by
  have hside : (({} : Style).under (borderStyle focused)).background = none := by
    cases focused <;> rfl
  intro c hc
  have hmem := List.mem_of_mem_take hc
  rcases List.mem_append.1 hmem with hleft | hright
  · rcases List.mem_cons.1 hleft with rfl | hmiddle
    · exact hside
    · rw [List.eq_of_mem_replicate (List.mem_of_mem_take hmiddle)]
  · rw [List.mem_singleton.1 hright]
    exact hside

theorem length_emptyRow (h : 2 ≤ width) : (emptyRow width focused).length = width := by
  simp [emptyRow, edged, Row.blank]
  omega

theorem not_marked_emptyRow : ¬ (emptyRow width focused).Marked := by
  rintro ⟨c, hc, hcolor⟩
  rw [background_emptyRow width focused c hc] at hcolor
  cases hcolor

/-- The columns in front of the text of a token: its position and its kind. -/
def tokenColumns (index : Nat) (t : Token) : Line :=
  [⟨Text.alignRight 4 (toString index) ++ " ", .fg Theme.comment⟩,
    ⟨Text.alignLeft 11 t.kind.name, kindStyle t.kind⟩]

/-- The line of a token on its row. -/
def tokenLine (r : Nat × Token) : Line :=
  tokenColumns r.1 r.2 ++ [⟨r.2.text, .fg Theme.text⟩]

theorem tokenRow_marked (r : Nat × Token) :
    tokenRow (some r.1) r = (markStyle, tokenLine r) := by
  rw [tokenRow, if_pos rfl]
  rfl

theorem tokenRow_of_ne {marked : Option Nat} {r : Nat × Token} (h : marked ≠ some r.1) :
    tokenRow marked r = ({}, tokenLine r) := by
  rw [tokenRow, if_neg h]
  rfl

theorem background_tokenLine (r : Nat × Token) :
    ∀ s ∈ tokenLine r, s.style.background = none := by
  have hkind (k : Kind) : (kindStyle k).background = none := by cases k <;> rfl
  simp [tokenLine, tokenColumns, Style.fg, hkind]

theorem not_marked_tokenLine (r : Nat × Token) :
    ¬ (entryRow width focused ({}, tokenLine r)).Marked := by
  rintro ⟨c, hc, hcolor⟩
  rw [Row.background_putEntry (background_tokenLine r) (background_emptyRow width focused) rfl 2
    (width - 3) c hc] at hcolor
  cases hcolor

/-- The mark is to be seen where there is room for a cell. -/
theorem marked_tokenLine (h : 4 ≤ width) (r : Nat × Token) :
    (entryRow width focused (markStyle, tokenLine r)).Marked := by
  refine Row.exists_background_putEntry (background_tokenLine r) rfl ?_ (by omega)
  rw [length_emptyRow width focused (by omega)]
  omega

end

/-! ## What a row shows of a token -/

/-- The position and the kind of a token, in columns. -/
def tokenHeading (index : Nat) (t : Token) : String :=
  Text.alignRight 4 (toString index) ++ " " ++ Text.alignLeft 11 t.kind.name

/-- One cell off its left border, and up to `stop`, a row shows the position and the kind of a token.
Behind them it shows the text, glyph by glyph, unless a part of the text takes no cell. -/
structure Row.ShowsToken (row : Row) (stop index : Nat) (t : Token) : Prop where
  heading : row.Shows stop 2 ((tokenHeading index t).toList.map .single)
  text : 0 < Text.width t.text.toList → (∀ g ∈ Text.glyphs t.text.toList, 0 < g.width) →
    row.Shows stop 2 ((tokenHeading index t).toList.map .single ++ Text.glyphs t.text.toList)

/-- A text of simple characters is shown as it is. -/
theorem Row.ShowsToken.simple {row : Row} {stop index : Nat} {t : Token}
    (h : row.ShowsToken stop index t) (ht : Text.IsSimpleText t.text) :
    row.Shows stop 2 ((tokenHeading index t ++ t.text).toList.map .single) := by
  rw [String.toList_append, List.map_append]
  by_cases hempty : t.text.toList = []
  · rw [hempty, List.map_nil, List.append_nil]
    exact h.heading
  · have hwidth : 0 < Text.width t.text.toList := by
      rw [Text.width_simple ht]
      exact List.length_pos_iff.2 hempty
    rw [← Text.glyphs_simple ht]
    exact h.text hwidth (Text.glyphs_simple_pos ht)

/-- An entry stands between the second column and the right border. -/
theorem entryRow_shows (width : Nat) (focused : Bool) (style : Style) {line : Line}
    {gs : List Text.Glyph}
    (hline : ∀ cells : Row, (Row.putLine 0 line cells).Shows cells.length 0 gs) :
    (entryRow width focused (style, line)).Shows (width - 1) 2 gs := by
  rcases Nat.lt_or_ge width 3 with hnarrow | hwide
  · exact .of_le gs (by omega)
  · have hrow : 2 + (width - 3) ≤ (emptyRow width focused).length := by
      rw [length_emptyRow width focused (by omega)]
      omega
    have hstop : width - 1 = 2 + (width - 3) := by omega
    rw [hstop]
    exact Row.putEntry_shows hrow hline

theorem isSimpleText_tokenColumns (index : Nat) (t : Token) :
    ∀ s ∈ tokenColumns index t, Text.IsSimpleText s.text := by
  have hkind : Text.IsSimpleText t.kind.name := by cases t.kind <;> decide
  refine List.forall_mem_cons.2 ⟨?_, List.forall_mem_singleton.2 (hkind.alignLeft 11)⟩
  exact Text.isSimpleText_append.2 ⟨(Text.isSimpleText_toString index).alignRight 4, by decide⟩

theorem chars_tokenColumns (index : Nat) (t : Token) :
    (tokenColumns index t).flatMap (·.text.toList) = (tokenHeading index t).toList := by
  simp [tokenColumns, tokenHeading]

/-- The row of a token shows it, whatever the style of the row. -/
theorem showsToken_entryRow (width : Nat) (focused : Bool) (style : Style) (index : Nat)
    (t : Token) :
    (entryRow width focused (style, tokenLine (index, t))).ShowsToken (width - 1) index t := by
  have hheading {gs : List Text.Glyph} (htext : ∀ (column : Nat) (row : Row),
      (Row.putLine column [⟨t.text, .fg Theme.text⟩] row).Shows row.length column gs) :
      (entryRow width focused (style, tokenLine (index, t))).Shows (width - 1) 2
        ((tokenHeading index t).toList.map .single ++ gs) := by
    refine entryRow_shows width focused style fun cells => ?_
    rw [← chars_tokenColumns, tokenLine]
    exact Row.putLine_shows htext (isSimpleText_tokenColumns index t) 0 cells
  refine ⟨?_, fun hwidth hglyphs => hheading fun column row => ?_⟩
  · have hcolumns := hheading fun _ _ => .nil
    rwa [List.append_nil] at hcolumns
  · rw [Row.putLine]
    split
    · exact .of_le _ ‹_›
    · simp only [Nat.ne_of_gt hwidth, if_false]
      exact Row.putSpan_shows row column hglyphs

/-! ## Rows in sight -/

theorem getElem?_tokenRows (visible offset : Nat) (marked : Option Nat) (ts : List Token)
    (i : Nat) : (tokenRows visible offset marked ts)[i]? =
      if i < visible then ts[offset + i]?.map fun t => tokenRow marked (offset + i, t)
      else none := by
  rw [tokenRows, visiblePart, List.getElem?_map]
  split
  · next h =>
    rw [List.getElem?_take_of_lt h, List.getElem?_drop, List.getElem?_mapIdx, Option.map_map]
    rfl
  · next h =>
    rw [List.getElem?_take_eq_none (Nat.le_of_not_lt h)]
    rfl

section
variable {size : Size} {focused : Bool} {offset : Nat} {marked : Option Nat} {ts : List Token}
  {i : Nat}

/-- The rows of the token pane are those of the tokens from the offset on. -/
theorem getElem?_inside_drawTokens (hne : ts ≠ []) (h : i < size.height - 2) :
    ((drawTokens size focused offset marked ts).inside size)[i]? =
      some ((ts[offset + i]?.map fun t =>
        entryRow size.width focused (tokenRow marked (offset + i, t))).getD
          (emptyRow size.width focused)) := by
  have hvisible : i < size.visibleRows := by
    rw [Size.visibleRows]
    omega
  rw [drawTokens, if_neg (by simpa using hne), getElem?_inside_drawPane _ _ _ _ h,
    getElem?_tokenRows, if_pos hvisible, Option.map_map]
  rfl

/-- Only the row of a token at the position of the mark is marked. -/
theorem exists_of_marked (hne : ts ≠ []) {row : Row} (h : row.Marked)
    (hrow : ((drawTokens size focused offset marked ts).inside size)[i]? = some row) :
    marked = some (offset + i) ∧ offset + i < ts.length := by
  have hi : i < size.height - 2 := by
    by_contra hi
    rw [Picture.inside, List.getElem?_take_eq_none (Nat.le_of_not_lt hi)] at hrow
    cases hrow
  rw [getElem?_inside_drawTokens hne hi] at hrow
  obtain rfl := Option.some.inj hrow
  cases ht : ts[offset + i]? with
  | none =>
    rw [ht] at h
    exact absurd h (not_marked_emptyRow size.width focused)
  | some t =>
    refine ⟨?_, (List.getElem?_eq_some_iff.1 ht).1⟩
    by_contra hmarked
    rw [ht, Option.map_some, Option.getD_some, tokenRow_of_ne hmarked] at h
    exact not_marked_tokenLine size.width focused _ h

end

/-! ## The first draw -/

namespace Session

/-- The token pane as it is drawn. -/
def tokenPane (s : Session) (size : Size) : Picture :=
  drawTokens size (s.focus = .tokens) s.offsets.tokens s.errorPosition s.tokens

/-- On a screen it stands below the source, in the left one of the two columns. -/
theorem picture_tokenPane (s : Session) (layout : Layout) :
    ∃ source right status : Picture, s.picture layout =
      Picture.beside (source ++ s.tokenPane (layout.pane .tokens)) right ++ status :=
  ⟨_, _, _, rfl⟩

/-- The first token in sight at the first draw after a syntax error. -/
def firstInSight (f : Compilation.Failure) (size : Size) : Nat :=
  clampScroll f.tokens.length size.visibleRows (f.error.position - page / 2)

/-- Half a page before the error, or as far down as the last page allows. -/
theorem firstInSight_eq (f : Compilation.Failure) (size : Size) : firstInSight f size =
    min (f.error.position - 5) (f.tokens.length - size.visibleRows) :=
  clampScroll_eq ..

section
variable {source : String} {o : Options} {f : Compilation.Failure} {size : PaneName → Size}
  (hf : Compilation.ofSource source o = .error f)
include hf

theorem start_of_error : start source o =
    { source, options := o, outcome := .error f, focus := .tokens
      offsets := { tokens := f.error.position - page / 2 }
      status := f.error.report } := by
  unfold start
  rw [hf]

theorem tokenPane_first_draw (hne : f.tokens ≠ []) :
    ((start source o).settle size).tokenPane (size .tokens) =
      drawTokens (size .tokens) true (firstInSight f (size .tokens)) (some f.error.position)
        f.tokens := by
  have hcount : tokenRowCount f.tokens = some f.tokens.length :=
    tokenRowCount_eq_some.2 ⟨hne, rfl⟩
  have hclamp (offset : Nat) : settledOffset (size .tokens) (tokenRowCount f.tokens) offset =
      clampScroll f.tokens.length (size .tokens).visibleRows offset := by
    rw [hcount, settledOffset]
  rw [start_of_error hf, firstInSight, ← hclamp]
  rfl

/-- Half a page before the error the pane begins early enough to show it, and clamping leaves no
token out that is behind. -/
theorem row_in_sight (hsize : 6 ≤ (size .tokens).visibleRows) {index : Nat} {t : Token}
    (ht : f.tokens[index]? = some t) (hle : index ≤ f.error.position)
    (hnear : f.error.position ≤ index + 1) :
    firstInSight f (size .tokens) ≤ index ∧
      ((((start source o).settle size).tokenPane (size .tokens)).inside
        (size .tokens))[index - firstInSight f (size .tokens)]? =
          some (entryRow (size .tokens).width true
            (tokenRow (some f.error.position) (index, t))) := by
  have hindex : index < f.tokens.length := (List.getElem?_eq_some_iff.1 ht).1
  have hne : f.tokens ≠ [] := List.ne_nil_of_length_pos (Nat.zero_lt_of_lt hindex)
  have hheight : (size .tokens).visibleRows = (size .tokens).height - 2 := by
    rw [Size.visibleRows] at hsize ⊢
    omega
  obtain ⟨hlo, hhi⟩ : firstInSight f (size .tokens) ≤ index ∧
      index < firstInSight f (size .tokens) + (size .tokens).visibleRows := by
    rw [firstInSight, clampScroll_eq, page]
    omega
  have hsum : firstInSight f (size .tokens) + (index - firstInSight f (size .tokens)) = index :=
    Nat.add_sub_of_le hlo
  refine ⟨hlo, ?_⟩
  rw [tokenPane_first_draw hf hne, getElem?_inside_drawTokens hne (by omega), hsum, ht]
  rfl

theorem marked_first_draw (hne : f.tokens ≠ []) {j : Nat} {row : Row} (h : row.Marked)
    (hrow : ((((start source o).settle size).tokenPane (size .tokens)).inside
      (size .tokens))[j]? = some row) :
    f.error.position = firstInSight f (size .tokens) + j ∧
      f.error.position < f.tokens.length := by
  rw [tokenPane_first_draw hf hne] at hrow
  obtain ⟨hmarked, hlt⟩ := exists_of_marked hne h hrow
  have hposition := Option.some.inj hmarked
  exact ⟨hposition, hposition ▸ hlt⟩

/-- A session that begins with a syntax error shows it at once, if its token pane has six rows. The
pane begins with the token `first`. If the error is at a token, the row of that token is marked and
no other row is; at the end of the tokens the last one is to be seen and no row is marked. -/
theorem error_in_sight (hsize : 6 ≤ (size .tokens).visibleRows) :
    let s := (start source o).after (.draw size)
    let rows := (s.tokenPane (size .tokens)).inside (size .tokens)
    let width := (size .tokens).width
    let position := f.error.position
    let first := min (position - 5) (f.tokens.length - (size .tokens).visibleRows)
    position ≤ f.tokens.length ∧
    (∀ t, f.tokens[position]? = some t →
      let shown := entryRow width true (markStyle, tokenLine (position, t))
      first ≤ position ∧ rows[position - first]? = some shown ∧
        shown.ShowsToken (width - 1) position t ∧ (4 ≤ width → shown.Marked) ∧
        ∀ (j : Nat) (row : Row), rows[j]? = some row → row.Marked → j = position - first) ∧
    (position = f.tokens.length → ∀ t, f.tokens.getLast? = some t →
      let shown := entryRow width true ({}, tokenLine (position - 1, t))
      first ≤ position - 1 ∧ rows[position - 1 - first]? = some shown ∧
        shown.ShowsToken (width - 1) (position - 1) t ∧ ∀ row ∈ rows, ¬ Row.Marked row) := by
  intro s rows width position first
  refine ⟨?_, fun t ht => ?_, fun hend t ht => ?_⟩
  · obtain ⟨hparse, htokens⟩ := Compilation.ofSource_eq_error_iff.1 hf
    obtain ⟨used, rest, hsplit, hposition, -⟩ := Program.split_of_refusal hparse []
    rw [htokens, hsplit, List.length_append]
    omega
  · have hne : f.tokens ≠ [] := List.ne_nil_of_mem (List.mem_of_getElem? ht)
    obtain ⟨hlo, hrow⟩ := row_in_sight hf hsize ht (Nat.le_refl _) (Nat.le_succ _)
    rw [tokenRow_marked (position, t), firstInSight_eq] at hrow
    rw [firstInSight_eq] at hlo
    refine ⟨hlo, hrow, showsToken_entryRow .., fun hwidth => marked_tokenLine _ true hwidth _,
      fun j row hj hmarked => ?_⟩
    obtain ⟨hposition, -⟩ := marked_first_draw hf hne hmarked hj
    rw [firstInSight_eq] at hposition
    exact (Nat.sub_eq_of_eq_add' hposition).symm
  · have hne : f.tokens ≠ [] := List.ne_nil_of_mem (List.mem_of_getLast? ht)
    have hlast : f.tokens[position - 1]? = some t := by
      rw [hend, ← List.getLast?_eq_getElem?]
      exact ht
    have hpos : 0 < position := hend ▸ List.length_pos_iff.2 hne
    obtain ⟨hlo, hrow⟩ := row_in_sight hf hsize hlast (Nat.sub_le ..) (by omega)
    have hbefore : some position ≠ some (position - 1) := by
      rw [ne_eq, Option.some.injEq]
      omega
    rw [tokenRow_of_ne hbefore, firstInSight_eq] at hrow
    rw [firstInSight_eq] at hlo
    refine ⟨hlo, hrow, showsToken_entryRow .., fun row hmem hmarked => ?_⟩
    obtain ⟨j, hj⟩ := List.mem_iff_getElem?.1 hmem
    obtain ⟨-, hlt⟩ := marked_first_draw hf hne hmarked hj
    omega

end

/-- An assignment without a value: the pane begins with the third of nine tokens, and the semicolon
is marked in the last of its six rows. -/
theorem error_in_sight_assignment :
    let source := "int main() \x7b x = ; \x7d"
    let size : PaneName → Size := fun _ => ⟨30, 8⟩
    let f : Compilation.Failure :=
      ⟨Token.tokenizeSource source, ⟨.noExpression, 7, some ";"⟩⟩
    let s := (start source {}).after (.draw size)
    let rows := (s.tokenPane (size .tokens)).inside (size .tokens)
    let semicolon := entryRow 30 true (markStyle, tokenLine (7, Token.ofSymbol ';'))
    Compilation.ofSource source {} = .error f ∧ 6 ≤ (size .tokens).visibleRows ∧
      f.tokens[7]? = some (Token.ofSymbol ';') ∧ rows[5]? = some semicolon ∧
      semicolon.Shows 29 2 ("   7 symbol     ;".toList.map .single) ∧ semicolon.Marked ∧
      ∀ (j : Nat) (row : Row), rows[j]? = some row → row.Marked → j = 5 := by
  intro source size f s rows semicolon
  have herror : Program.ofTokens (Token.tokenizeSource "int main() \x7b x = ; \x7d") =
      .error ⟨.noExpression, 7, some ";"⟩ := rfl
  have hf : Compilation.ofSource source {} = .error f :=
    Compilation.ofSource_eq_error_iff.2 ⟨herror, rfl⟩
  have hsize : 6 ≤ (size .tokens).visibleRows := by decide
  have ht : f.tokens[7]? = some (Token.ofSymbol ';') := by decide
  have hindex : 7 - min (7 - 5) (f.tokens.length - (size .tokens).visibleRows) = 5 := by decide
  have hline : tokenHeading 7 (Token.ofSymbol ';') ++ (Token.ofSymbol ';').text =
      "   7 symbol     ;" := rfl
  obtain ⟨-, htoken, -⟩ := error_in_sight hf hsize
  obtain ⟨-, hrow, hshows, hmarked, honly⟩ := htoken _ ht
  rw [hindex] at hrow honly
  have htext := hshows.simple (by decide)
  rw [hline] at htext
  exact ⟨hf, hsize, ht, hrow, htext, hmarked (by decide), honly⟩

end Session

end ThreeAddress.Inspector

import ThreeAddress.Proofs.Token.Words

/-!
# Tokens line by line

A blank character ends every word, so the tokens of a text are those before it and those after it
(`tokenizeChars_append_blank`). Line ends are blank: the tokens of a source, taken line by line, are
the tokens of its text (`tokenizeSource_eq`), and two sources with a line end between them have the
tokens of the one and then those of the other (`tokenizeSource_append`).

So it does not matter whether a text is cut into lines first or lines are put together to a text
(`lines_do_not_matter`).
-/

namespace ThreeAddress.Token

open Text

/-! ## Blanks -/

theorem consWord_append (word : List Char) (ts us : List Token) :
    consWord word (ts ++ us) = consWord word ts ++ us := by
  unfold consWord
  split <;> rfl

/-- Tokens far behind do not matter to a character. -/
theorem scanChar_append (c : Char) (word : List Char) (ts us : List Token) :
    scanChar c (word, ts ++ us) = ((scanChar c (word, ts)).1, (scanChar c (word, ts)).2 ++ us) := by
  unfold scanChar
  simp only [consWord_append]
  split
  · rfl
  split <;> rfl

/-- Where no word goes on, what is behind stays apart from what is before. -/
theorem scan_append {later : List Char} (h : (scan later).1 = []) (text : List Char) :
    scan (text ++ later) = ((scan text).1, (scan text).2 ++ tokenizeChars later) := by
  induction text with
  | nil =>
    have hlater : scan later = ([], (scan later).2) := Prod.ext h rfl
    rw [tokenizeChars, List.nil_append, hlater]
    rfl
  | cons c text ih => rw [List.cons_append, scan_cons, ih, scanChar_append, ← scan_cons]

theorem tokenizeChars_append {later : List Char} (h : (scan later).1 = []) (text : List Char) :
    tokenizeChars (text ++ later) = tokenizeChars text ++ tokenizeChars later := by
  rw [tokenizeChars, scan_append h, consWord_append, ← tokenizeChars]

/-- The tokens before a blank character and those after it. -/
theorem tokenizeChars_append_blank {c : Char} (hc : isBlank c = true) (text later : List Char) :
    tokenizeChars (text ++ c :: later) = tokenizeChars text ++ tokenizeChars later := by
  rw [tokenizeChars_append (by rw [scan_blank hc]), tokenizeChars_blank hc]

/-! ## Lines -/

/-- A carriage return at the end of a line is blank. -/
theorem tokenizeChars_dropReturn (line : List Char) :
    tokenizeChars (dropReturn line) = tokenizeChars line := by
  unfold dropReturn
  split
  · next h =>
    obtain ⟨front, rfl⟩ := List.getLast?_eq_some_iff.1 h
    rw [List.dropLast_concat, tokenizeChars_append_blank isBlank_return]
    exact (List.append_nil _).symm
  · rfl

theorem flatMap_lines_go : ∀ pieces : List (List Char),
    (lines.go pieces).flatMap tokenizeChars = pieces.flatMap tokenizeChars
  | [] => rfl
  | [last] => by
    unfold lines.go
    split
    · next h => rw [h]; rfl
    · rfl
  | piece :: next :: rest => by
    rw [lines.go, List.flatMap_cons, tokenizeChars_dropReturn, flatMap_lines_go (next :: rest),
      ← List.flatMap_cons]

/-- The word at the start of a text is the one at the start of its first piece. -/
theorem scan_pieces : ∀ text : List Char, ∃ piece later, pieces text = piece :: later ∧
    scan text = ((scan piece).1, (scan piece).2 ++ later.flatMap tokenizeChars)
  | [] => ⟨[], [], rfl, rfl⟩
  | c :: text => by
    obtain ⟨piece, later, hp, hs⟩ := scan_pieces text
    by_cases hc : c = '\n'
    · subst hc
      refine ⟨[], piece :: later, ?_, ?_⟩
      · rw [← hp]
        rfl
      · rw [scan_blank isBlank_lineFeed, tokenizeChars, hs, consWord_append]
        rfl
    · refine ⟨c :: piece, later, ?_, ?_⟩
      · unfold pieces at hp ⊢
        rw [List.foldr_cons, hp]
        simp [hc]
      · rw [scan_cons, hs, scanChar_append, ← scan_cons]

/-- Tokens do not depend on lines. -/
theorem tokenizeSource_eq (source : String) : tokenizeSource source = tokenize source := by
  obtain ⟨piece, later, hp, hs⟩ := scan_pieces source.toList
  have htext : tokenizeChars source.toList = tokenizeChars piece ++ later.flatMap tokenizeChars := by
    rw [tokenizeChars, hs, consWord_append, ← tokenizeChars]
  rw [tokenizeSource, lines, flatMap_lines_go, hp, List.flatMap_cons, tokenize, htext]

theorem tokenizeSource_append (source later : String) :
    tokenizeSource (source ++ "\n" ++ later) = tokenizeSource source ++ tokenizeSource later := by
  have htext : (source ++ "\n" ++ later).toList = source.toList ++ '\n' :: later.toList := by simp
  rw [tokenizeSource_eq, tokenizeSource_eq, tokenizeSource_eq, tokenize, htext,
    tokenizeChars_append_blank isBlank_lineFeed]
  rfl

theorem tokenizeLines_eq : ∀ lines : List String,
    tokenizeLines lines = tokenize ("\n".intercalate lines)
  | [] => rfl
  | [line] => by
    rw [String.intercalate_singleton]
    exact List.append_nil _
  | line :: next :: rest => by
    have htext : ("\n".intercalate (line :: next :: rest)).toList =
        line.toList ++ '\n' :: ("\n".intercalate (next :: rest)).toList := by simp
    rw [tokenize, htext, tokenizeChars_append_blank isBlank_lineFeed, ← tokenize, ← tokenize,
      ← tokenizeLines_eq (next :: rest)]
    rfl

/-- A source has the same tokens line by line and as one text, however its lines end, and so have
any lines and the text in which a line feed stands between two of them. -/
theorem lines_do_not_matter (source : String) (lines : List String) :
    tokenizeSource source = tokenize source ∧
      tokenizeLines lines = tokenize ("\n".intercalate lines) :=
  ⟨tokenizeSource_eq source, tokenizeLines_eq lines⟩

end ThreeAddress.Token

import ThreeAddress.Inspector.Panes.Source
import ThreeAddress.Proofs.Token.Cuts

/-!
# What highlighting shows of the tokens

The source pane and the lexer cut a line in the same places. Apart from the spans of one blank
character, the spans of a line are its tokens, in order and each in the style of its token
(`words_highlight`); no character is lost (`join_highlight`). So what is drawn bold is exactly what
is read as a reserved word that names no type (`highlight_shows_tokens`).
-/

namespace ThreeAddress.Inspector

open Text Token

/-! ## The spans that tokens call for -/

/-- The reserved words that name types. -/
def typeWords : List String := ["int", "string", "void"]

/-- The symbols that stand in pairs. -/
def brackets : List String := ["\x7b", "\x7d", "(", ")"]

/-- The style that a token calls for. -/
def tokenStyle (t : Token) : Style :=
  match t.kind with
  | .keyword =>
    if t.text ∈ typeWords then .fg Theme.typeName else (Style.fg Theme.keyword).emphasized
  | .number => .fg Theme.number
  | .identifier => if t.text.toList.head? = some '"' then .fg Theme.string else .fg Theme.text
  | .symbol => if t.text ∈ brackets then .fg Theme.primary else .fg Theme.text
  | .unknown => .fg Theme.text

/-- A token as it is to be seen. -/
def tokenSpan (t : Token) : Span :=
  ⟨t.text, tokenStyle t⟩

theorem tokenStyle_bold (t : Token) :
    (tokenStyle t).bold = true ↔ t.kind = .keyword ∧ t.text ∉ typeWords := by
  obtain ⟨kind, text⟩ := t
  cases kind with
  | keyword => by_cases h : text ∈ typeWords <;> simp [tokenStyle, h, Style.fg, Style.emphasized]
  | identifier => by_cases h : text.toList.head? = some '"' <;> simp [tokenStyle, h, Style.fg]
  | symbol => by_cases h : text ∈ brackets <;> simp [tokenStyle, h, Style.fg]
  | number => simp [tokenStyle, Style.fg]
  | unknown => simp [tokenStyle, Style.fg]

/-- The words that are styled before their kind is asked for are reserved. -/
theorem kindOf_typeWord {word : String} (h : word ∈ typeWords) : kindOf word = .keyword := by
  have hall : (typeWords.all fun word => kindOf word == .keyword) = true := by decide
  exact beq_iff_eq.1 (List.all_eq_true.1 hall word h)

theorem wordStyle_eq {word : String} (h : kindOf word ≠ .symbol) :
    wordStyle word = tokenStyle (ofWord word) := by
  have htype : (word = "int" || word = "string" || word = "void") = decide (word ∈ typeWords) := by
    simp [typeWords, Bool.or_assoc]
  unfold wordStyle tokenStyle ofWord
  rw [htype]
  by_cases hw : word ∈ typeWords
  · simp [hw, kindOf_typeWord hw]
  · cases hk : kindOf word with
    | symbol => exact absurd hk h
    | _ => simp [hw]

theorem separatorStyle_symbol {c : Char} (h : isSymbolChar c = true) :
    separatorStyle c = tokenStyle (ofSymbol c) := by
  have hall : (symbols.all fun c => separatorStyle c = tokenStyle (ofSymbol c)) = true := by decide
  simpa using List.all_eq_true.1 hall c (isSymbolChar_iff.1 h)

theorem separatorStyle_blank {c : Char} (h : isBlank c = true) :
    separatorStyle c = .fg Theme.text := by
  refine if_neg fun hc => ?_
  simp only [Bool.or_eq_true, decide_eq_true_eq] at hc
  rcases hc with ((rfl | rfl) | rfl) | rfl <;> exact absurd h (by decide)

/-! ## Words and what separates them -/

/-- Is this a single blank character, which belongs to no token? -/
def Span.isGap (s : Span) : Bool :=
  match s.text.toList with
  | [c] => isBlank c
  | _ => false

/-- The spans of a line that are not gaps. -/
def Line.words (line : Line) : Line :=
  line.filter fun s => !s.isGap

theorem words_append (l l' : Line) : Line.words (l ++ l') = Line.words l ++ Line.words l' :=
  List.filter_append ..

theorem isGap_singleton (c : Char) (style : Style) :
    (Span.mk (String.singleton c) style).isGap = isBlank c := by
  rw [Span.isGap, String.toList_singleton]

theorem isGap_tokenSpan {t : Token} (h : Lexeme t) : (tokenSpan t).isGap = false := by
  unfold Span.isGap tokenSpan
  split
  · next c hc => exact h.isBlank_eq_false (by rw [hc]; exact List.mem_singleton_self c)
  · rfl

theorem words_tokenSpans {ts : List Token} (h : ∀ t ∈ ts, Lexeme t) :
    Line.words (ts.map tokenSpan) = ts.map tokenSpan :=
  List.filter_eq_self.2 (List.forall_mem_map.2 fun t ht => by rw [isGap_tokenSpan (h t ht)]; rfl)

section
variable {word : List Char}

theorem kindOf_joined (h : Joined word) : kindOf (String.ofList word) ≠ .symbol := by
  intro hk
  obtain ⟨c, hc, hword⟩ := exists_symbol_of_kindOf hk
  have hmem : c ∈ word := by
    rw [← String.toList_ofList (l := word), hword, String.toList_singleton]
    exact List.mem_singleton_self c
  rw [(h c hmem).2] at hc
  cases hc

/-- A word that has ended is seen as it is read. -/
theorem wordSpan_eq (h : Joined word) : wordSpan word = (tokenizeChars word).map tokenSpan := by
  cases word with
  | nil => rfl
  | cons c cs =>
    have htokens : tokenizeChars (c :: cs ++ []) = ofWord (String.ofList (c :: cs)) :: [] :=
      tokenizeChars_word (List.cons_ne_nil c cs) h rfl
    rw [List.append_nil] at htokens
    rw [htokens, wordSpan, wordStyle_eq (kindOf_joined h)]
    rfl

/-- A word that has ended has no gaps in it. -/
theorem words_wordSpan (h : Joined word) :
    Line.words (wordSpan word) = (tokenizeChars word).map tokenSpan := by
  rw [wordSpan_eq h, words_tokenSpans lexeme_of_mem_tokenizeChars]

end

section
variable {c : Char}

/-- A character that belongs to no word ends the word before it. -/
theorem tokenizeChars_separator (h : (isBlank c || isSymbolChar c) = true)
    (text later : List Char) : tokenizeChars (text ++ c :: later) =
      tokenizeChars text ++ (tokenizeChars [c] ++ tokenizeChars later) := by
  rcases Bool.or_eq_true _ _ ▸ h with hb | hs
  · rw [tokenizeChars_append_blank hb, tokenizeChars_blank hb]
    rfl
  · have hstart : (scan (c :: later)).1 = [] := by rw [scan_symbol hs]
    rw [tokenizeChars_append hstart, tokenizeChars_symbol hs, tokenizeChars_symbol hs]
    rfl

theorem words_separator (h : (isBlank c || isSymbolChar c) = true) :
    Line.words [⟨String.singleton c, separatorStyle c⟩] = (tokenizeChars [c]).map tokenSpan := by
  rcases Bool.or_eq_true _ _ ▸ h with hb | hs
  · rw [tokenizeChars_blank hb]
    simp [Line.words, isGap_singleton, hb, tokenizeChars_nil]
  · rw [tokenizeChars_symbol hs]
    simp [Line.words, isGap_singleton, isBlank_of_isSymbolChar hs, separatorStyle_symbol hs,
      tokenSpan, ofSymbol, tokenizeChars_nil]

end

/-! ## Lines -/

section
variable {word : List Char}

theorem joined_cons {c : Char} (hc : ¬(isBlank c || isSymbolChar c) = true) (h : Joined word) :
    Joined (c :: word) := by
  have hletter : isBlank c = false ∧ isSymbolChar c = false := by simpa using hc
  exact List.forall_mem_cons.2 ⟨hletter, h⟩

/-- Both scanners stay in step: what is pending in the one is the beginning of a word in the
other. -/
theorem words_highlightFrom (h : Joined word) (text : List Char) :
    Line.words (highlightFrom word text) =
      (tokenizeChars (word.reverse ++ text)).map tokenSpan := by
  induction text generalizing word with
  | nil =>
    rw [highlightFrom, words_wordSpan h.reverse, List.append_nil]
  | cons c text ih =>
    by_cases hc : (isBlank c || isSymbolChar c) = true
    · rw [highlightFrom, if_pos hc, words_append, words_wordSpan h.reverse,
        ← List.singleton_append, words_append, words_separator hc, ih .nil,
        tokenizeChars_separator hc, List.map_append, List.map_append]
      rfl
    · rw [highlightFrom, if_neg hc, ih (joined_cons hc h), List.reverse_cons, List.append_assoc,
        List.singleton_append]

theorem words_highlight (line : List Char) :
    Line.words (highlight line) = (tokenizeChars line).map tokenSpan :=
  words_highlightFrom .nil line

theorem texts_wordSpan (word : List Char) :
    (wordSpan word).flatMap (fun s => s.text.toList) = word := by
  cases word with
  | nil => rfl
  | cons c cs => simp [wordSpan]

/-- No character is lost. -/
theorem texts_highlightFrom (word text : List Char) :
    (highlightFrom word text).flatMap (fun s => s.text.toList) = word.reverse ++ text := by
  induction text generalizing word with
  | nil => rw [highlightFrom, texts_wordSpan, List.append_nil]
  | cons c text ih =>
    rw [highlightFrom]
    split
    · rw [List.flatMap_append, List.flatMap_cons, texts_wordSpan, ih, String.toList_singleton]
      rfl
    · rw [ih, List.reverse_cons, List.append_assoc, List.singleton_append]

theorem join_highlight (line : String) :
    String.join ((highlight line.toList).map Span.text) = line := by
  apply String.toList_injective
  rw [String.toList_join, List.flatMap_map]
  exact texts_highlightFrom [] line.toList

/-- Gaps are plain. -/
theorem style_of_gap (h : Joined word) (text : List Char) :
    ∀ s ∈ highlightFrom word text, s.isGap = true → s.style = .fg Theme.text := by
  have hended {word : List Char} (h : Joined word) :
      ∀ s ∈ wordSpan word, s.isGap = true → s.style = .fg Theme.text := by
    rw [wordSpan_eq h]
    refine List.forall_mem_map.2 fun t ht hgap => ?_
    rw [isGap_tokenSpan (lexeme_of_mem_tokenizeChars t ht)] at hgap
    cases hgap
  induction text generalizing word with
  | nil => exact hended h.reverse
  | cons c text ih =>
    by_cases hc : (isBlank c || isSymbolChar c) = true
    · rw [highlightFrom, if_pos hc]
      refine List.forall_mem_append.2 ⟨hended h.reverse, List.forall_mem_cons.2 ⟨?_, ih .nil⟩⟩
      intro hgap
      rw [isGap_singleton] at hgap
      exact separatorStyle_blank hgap
    · rw [highlightFrom, if_neg hc]
      exact ih (joined_cons hc h)

end

/-- The spans of a line have its whole text. Apart from gaps they are the tokens of the line, each
in the style that its kind and its text call for. So a span is bold exactly if it is a token that is
a reserved word and names no type. -/
theorem highlight_shows_tokens (line : String) :
    let spans := highlight line.toList
    String.join (spans.map Span.text) = line ∧
    spans.filter (fun s => !s.isGap) = (tokenize line).map tokenSpan ∧
    ∀ s ∈ spans, s.style.bold = true ↔
      ∃ t ∈ tokenize line, s = tokenSpan t ∧ t.kind = .keyword ∧ t.text ∉ typeWords := by
  intro spans
  have hwords : Line.words spans = (tokenize line).map tokenSpan := words_highlight line.toList
  refine ⟨join_highlight line, hwords, fun s hs => ⟨fun hbold => ?_, ?_⟩⟩
  · have hgap : s.isGap = false := by
      by_contra hgap
      rw [style_of_gap .nil line.toList s hs (by simpa using hgap)] at hbold
      cases hbold
    have hword : s ∈ Line.words spans := List.mem_filter.2 ⟨hs, by rw [hgap]; rfl⟩
    rw [hwords] at hword
    obtain ⟨t, ht, rfl⟩ := List.mem_map.1 hword
    exact ⟨t, ht, rfl, (tokenStyle_bold t).1 hbold⟩
  · rintro ⟨t, -, rfl, ht⟩
    exact (tokenStyle_bold t).2 ht

/-- A type, a quoted text, a bracket and a reserved word, the last of them bold. -/
theorem highlight_shows_tokens_return :
    let line := "int f(\"a\") \x7b\treturn 1; \x7d"
    let s : Span := ⟨"return", (Style.fg Theme.keyword).emphasized⟩
    s ∈ highlight line.toList ∧
      (∃ t ∈ tokenize line, s = tokenSpan t ∧ t.kind = .keyword ∧ t.text ∉ typeWords) ∧
      (highlight line.toList).filter (fun s => !s.isGap) =
        [⟨"int", .fg Theme.typeName⟩, ⟨"f", .fg Theme.text⟩, ⟨"(", .fg Theme.primary⟩,
          ⟨"\"a\"", .fg Theme.string⟩, ⟨")", .fg Theme.primary⟩, ⟨"\x7b", .fg Theme.primary⟩, s,
          ⟨"1", .fg Theme.number⟩, ⟨";", .fg Theme.text⟩, ⟨"\x7d", .fg Theme.primary⟩] := by
  intro line s
  obtain ⟨-, hwords, hbold⟩ := highlight_shows_tokens line
  have hs : s ∈ highlight line.toList := by decide
  exact ⟨hs, (hbold s hs).1 rfl, hwords.trans (by decide)⟩

end ThreeAddress.Inspector

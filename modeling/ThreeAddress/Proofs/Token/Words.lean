import Mathlib.Data.List.Basic
import ThreeAddress.Token.Lexer

/-!
# Tokens and their texts

A token that is cut out of a text is a `Lexeme`: a symbol character or a word, with the kind of its
text. Lexemes that are written with a space between them are cut out of that text again
(`tokenize_spaced`), so a list of tokens comes from a text exactly if all of them are lexemes.
-/

namespace ThreeAddress.Token

open Text

/-! ## Kinds -/

theorem kindOf_ne_unknown (word : String) : kindOf word ≠ .unknown := by
  unfold kindOf
  split
  · nofun
  split
  · nofun
  split
  · split <;> nofun
  · nofun

theorem isSymbolChar_iff {c : Char} : isSymbolChar c = true ↔ c ∈ symbols := by
  simp [isSymbolChar]

theorem kindOf_symbol {c : Char} (h : isSymbolChar c = true) :
    kindOf (String.singleton c) = .symbol := by
  have hall : (symbols.all fun c => kindOf (String.singleton c) == .symbol) = true := by decide
  exact beq_iff_eq.1 (List.all_eq_true.1 hall c (isSymbolChar_iff.1 h))

theorem isBlank_of_isSymbolChar {c : Char} (h : isSymbolChar c = true) : isBlank c = false := by
  have hall : (symbols.all fun c => !isBlank c) = true := by decide
  simpa using List.all_eq_true.1 hall c (isSymbolChar_iff.1 h)

theorem ofSymbol_eq_ofWord {c : Char} (h : isSymbolChar c = true) :
    ofSymbol c = ofWord (String.singleton c) := by
  rw [ofWord, kindOf_symbol h]
  rfl

/-! ## Lexemes -/

/-- Characters that make up one word: none of them is blank or a symbol. -/
def Joined (cs : List Char) : Prop :=
  ∀ c ∈ cs, isBlank c = false ∧ isSymbolChar c = false

instance (cs : List Char) : Decidable (Joined cs) :=
  decidable_of_iff (cs.all fun c => !isBlank c && !isSymbolChar c) (by simp [Joined])

theorem Joined.nil : Joined [] := by
  simp [Joined]

theorem Joined.reverse {cs : List Char} (h : Joined cs) : Joined cs.reverse :=
  fun c hc => h c (List.mem_reverse.1 hc)

/-- A token as it is cut out of a text: one symbol character or a word that is not empty, and the
kind that this text has. -/
structure Lexeme (t : Token) : Prop where
  kind : t = ofWord t.text
  text : (∃ c, isSymbolChar c = true ∧ t.text = String.singleton c) ∨
    t.text ≠ "" ∧ Joined t.text.toList

theorem lexeme_ofSymbol {c : Char} (h : isSymbolChar c = true) : Lexeme (ofSymbol c) :=
  ⟨ofSymbol_eq_ofWord h, .inl ⟨c, h, rfl⟩⟩

theorem lexeme_ofWord {word : List Char} (hne : word ≠ []) (h : Joined word) :
    Lexeme (ofWord (String.ofList word)) :=
  ⟨rfl, .inr ⟨by simpa [ofWord] using hne, by simpa [ofWord] using h⟩⟩

theorem Lexeme.isBlank_eq_false {t : Token} (h : Lexeme t) {c : Char} (hc : c ∈ t.text.toList) :
    isBlank c = false := by
  rcases h.text with ⟨d, hd, ht⟩ | ⟨-, hw⟩
  · rw [ht, String.toList_singleton, List.mem_singleton] at hc
    rw [hc, isBlank_of_isSymbolChar hd]
  · exact (hw c hc).1

theorem Lexeme.text_ne_empty {t : Token} (h : Lexeme t) : t.text ≠ "" := by
  rcases h.text with ⟨c, -, ht⟩ | ⟨hne, -⟩
  · intro hempty
    have hlist := congrArg String.toList (ht.symm.trans hempty)
    simp at hlist
  · exact hne

theorem Lexeme.kind_ne_unknown {t : Token} (h : Lexeme t) : t.kind ≠ .unknown := by
  rw [h.kind]
  exact kindOf_ne_unknown t.text

/-! ## Cutting a text -/

section
variable {c : Char} {word text : List Char}

theorem scan_cons (c : Char) (text : List Char) : scan (c :: text) = scanChar c (scan text) := rfl

theorem scan_blank (h : isBlank c = true) : scan (c :: text) = ([], tokenizeChars text) := by
  simp [scan_cons, scanChar, h, tokenizeChars]

theorem scan_symbol (h : isSymbolChar c = true) :
    scan (c :: text) = ([], ofSymbol c :: tokenizeChars text) := by
  simp [scan_cons, scanChar, h, isBlank_of_isSymbolChar h, tokenizeChars]

theorem scan_joined (h : Joined word) :
    scan (word ++ text) = (word ++ (scan text).1, (scan text).2) := by
  induction word with
  | nil => rfl
  | cons c word ih =>
    obtain ⟨⟨hb, hs⟩, hw⟩ := List.forall_mem_cons.1 h
    rw [List.cons_append, scan_cons, ih hw]
    simp [scanChar, hb, hs]

theorem tokenizeChars_nil : tokenizeChars [] = [] := rfl

theorem tokenizeChars_blank (h : isBlank c = true) :
    tokenizeChars (c :: text) = tokenizeChars text := by
  rw [tokenizeChars, scan_blank h]
  rfl

theorem tokenizeChars_symbol (h : isSymbolChar c = true) :
    tokenizeChars (c :: text) = ofSymbol c :: tokenizeChars text := by
  rw [tokenizeChars, scan_symbol h]
  rfl

/-- A word is cut off where no word goes on. -/
theorem tokenizeChars_word (hne : word ≠ []) (h : Joined word) (htext : (scan text).1 = []) :
    tokenizeChars (word ++ text) = ofWord (String.ofList word) :: tokenizeChars text := by
  simp [tokenizeChars, scan_joined h, htext, consWord, hne]

end

/-- What is pending is part of a word, and what is behind it are lexemes. -/
theorem scan_spec : ∀ text : List Char, Joined (scan text).1 ∧ ∀ t ∈ (scan text).2, Lexeme t
  | [] => ⟨nofun, nofun⟩
  | c :: text => by
    obtain ⟨hword, hlater⟩ := scan_spec text
    have hall : ∀ t ∈ tokenizeChars text, Lexeme t := by
      unfold tokenizeChars consWord
      split
      · exact hlater
      · next hne => exact List.forall_mem_cons.2 ⟨lexeme_ofWord (by simpa using hne) hword, hlater⟩
    by_cases hb : isBlank c = true
    · rw [scan_blank hb]
      exact ⟨nofun, hall⟩
    by_cases hs : isSymbolChar c = true
    · rw [scan_symbol hs]
      exact ⟨nofun, List.forall_mem_cons.2 ⟨lexeme_ofSymbol hs, hall⟩⟩
    · have hc : Joined [c] := by simp [Joined, hb, hs]
      rw [← List.singleton_append, scan_joined hc]
      exact ⟨List.forall_mem_append.2 ⟨hc, hword⟩, hlater⟩

theorem lexeme_of_mem_tokenizeChars {text : List Char} : ∀ t ∈ tokenizeChars text, Lexeme t := by
  -- a space in front makes the whole text the part that is behind
  have h := (scan_spec (' ' :: text)).2
  rwa [scan_blank isBlank_space] at h

theorem lexeme_of_mem_tokenizeSource (source : String) : ∀ t ∈ tokenizeSource source, Lexeme t := by
  intro t ht
  obtain ⟨line, -, ht⟩ := List.mem_flatMap.1 ht
  exact lexeme_of_mem_tokenizeChars t ht

/-! ## Texts with spaces between them -/

/-- The texts of tokens with one space between two. -/
def spaced (ts : List Token) : String :=
  " ".intercalate (ts.map Token.text)

theorem Lexeme.tokenizeChars_append {t : Token} (h : Lexeme t) {text : List Char}
    (htext : (scan text).1 = []) :
    tokenizeChars (t.text.toList ++ text) = t :: tokenizeChars text := by
  rcases h.text with ⟨c, hc, ht⟩ | ⟨hne, hw⟩
  · have hs : t = ofSymbol c := by rw [h.kind, ht, ofSymbol_eq_ofWord hc]
    rw [ht, String.toList_singleton, List.singleton_append, tokenizeChars_symbol hc, hs]
  · rw [tokenizeChars_word (by simpa using hne) hw htext, String.ofList_toList, ← h.kind]

theorem toList_spaced_cons (t u : Token) (ts : List Token) :
    (spaced (t :: u :: ts)).toList = t.text.toList ++ ' ' :: (spaced (u :: ts)).toList := by
  simp [spaced]

theorem tokenize_spaced : ∀ {ts : List Token}, (∀ t ∈ ts, Lexeme t) → tokenize (spaced ts) = ts
  | [], _ => rfl
  | [t], h => by
    have ht : tokenizeChars (t.text.toList ++ []) = t :: tokenizeChars [] :=
      (List.forall_mem_singleton.1 h).tokenizeChars_append rfl
    rw [List.append_nil] at ht
    rw [tokenize, spaced, List.map_singleton, String.intercalate_singleton, ht]
    rfl
  | t :: u :: ts, h => by
    obtain ⟨ht, hts⟩ := List.forall_mem_cons.1 h
    rw [tokenize, toList_spaced_cons, ht.tokenizeChars_append (by rw [scan_blank isBlank_space]),
      tokenizeChars_blank isBlank_space, ← tokenize, tokenize_spaced hts]

/-- The only blanks are the spaces between the tokens. -/
theorem eq_space_of_mem_spaced {c : Char} : ∀ {ts : List Token}, (∀ t ∈ ts, Lexeme t) →
    c ∈ (spaced ts).toList → isBlank c = true → c = ' '
  | [], _, hc, _ => by cases hc
  | [t], h, hc, hb => by
    rw [spaced, List.map_singleton, String.intercalate_singleton] at hc
    rw [(List.forall_mem_singleton.1 h).isBlank_eq_false hc] at hb
    cases hb
  | t :: u :: ts, h, hc, hb => by
    obtain ⟨ht, hts⟩ := List.forall_mem_cons.1 h
    rw [toList_spaced_cons, List.mem_append, List.mem_cons] at hc
    rcases hc with hc | rfl | hc
    · rw [ht.isBlank_eq_false hc] at hb
      cases hb
    · rfl
    · exact eq_space_of_mem_spaced hts hc hb

/-- A list of tokens comes from a text exactly if all of them are lexemes, and then it comes from
its own texts with spaces between them. So the texts of a source's tokens give the same tokens
again, none of which is of an unknown kind. -/
theorem tokens_and_texts_inverse (ts : List Token) :
    ((∃ text, tokenize text = ts) ↔ ∀ t ∈ ts, Lexeme t) ∧
    ((∀ t ∈ ts, Lexeme t) → tokenize (spaced ts) = ts) ∧
    ∀ source, tokenize (spaced (tokenizeSource source)) = tokenizeSource source ∧
      ∀ t ∈ tokenizeSource source, t.kind ≠ .unknown := by
  refine ⟨⟨?_, fun h => ⟨spaced ts, tokenize_spaced h⟩⟩, tokenize_spaced, fun source => ⟨?_, ?_⟩⟩
  · rintro ⟨text, rfl⟩
    exact lexeme_of_mem_tokenizeChars
  · exact tokenize_spaced (lexeme_of_mem_tokenizeSource source)
  · exact fun t ht => (lexeme_of_mem_tokenizeSource source t ht).kind_ne_unknown

/-- A reserved word, symbols that touch their neighbours, a name and a quoted text. -/
theorem spaced_while :
    let ts := tokenize "while(x1>\"a\")"
    (∀ t ∈ ts, Lexeme t) ∧ spaced ts = "while ( x1 > \"a\" )" ∧
      tokenize "while ( x1 > \"a\" )" = ts := by
  intro ts
  obtain ⟨hiff, hback, -⟩ := tokens_and_texts_inverse ts
  have h : ∀ t ∈ ts, Lexeme t := hiff.1 ⟨"while(x1>\"a\")", rfl⟩
  have hs : spaced ts = "while ( x1 > \"a\" )" := by decide
  exact ⟨h, hs, hs ▸ hback h⟩

end ThreeAddress.Token

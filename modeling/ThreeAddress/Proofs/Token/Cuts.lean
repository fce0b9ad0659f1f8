import Mathlib.Data.List.Chain
import ThreeAddress.Proofs.Token.Lines

/-!
# Cuts of a text

A cut divides a text into tokens with a gap before each of them and one more gap at the end. It is
`Clean` if the gaps are blank, the tokens are lexemes, and two words never touch.

Every text has a clean cut (`Cut.exists_clean`): one more character in front makes the first gap
longer, is a symbol, or belongs to a word. The tokens of a clean cut are those of its text
(`Cut.Clean.tokenizeChars_chars`). So a text is cut in one way only, and blanks matter only between
two words, where any blanks are as good as others (`text_cut_one_way`).
-/

namespace ThreeAddress.Token

open Text

/-! ## Gaps -/

/-- Characters that belong to no token. -/
def Blank (gap : List Char) : Prop :=
  ∀ c ∈ gap, isBlank c = true

instance (gap : List Char) : Decidable (Blank gap) :=
  decidable_of_iff (gap.all isBlank) (by simp [Blank])

theorem Blank.nil : Blank [] := by
  simp [Blank]

section
variable {gap : List Char}

theorem tokenizeChars_gap (h : Blank gap) (text : List Char) :
    tokenizeChars (gap ++ text) = tokenizeChars text := by
  induction gap with
  | nil => rfl
  | cons c gap ih =>
    obtain ⟨hc, hgap⟩ := List.forall_mem_cons.1 h
    rw [List.cons_append, tokenizeChars_blank hc, ih hgap]

/-- No word goes on in a gap. -/
theorem scan_gap (h : Blank gap) (hne : gap ≠ []) (text : List Char) :
    (scan (gap ++ text)).1 = [] := by
  cases gap with
  | nil => exact absurd rfl hne
  | cons c gap => rw [List.cons_append, scan_blank (h c List.mem_cons_self)]

/-- A gap separates what is before it from what is behind it. -/
theorem tokenizeChars_append_gap (h : Blank gap) (hne : gap ≠ []) (text later : List Char) :
    tokenizeChars (text ++ (gap ++ later)) = tokenizeChars text ++ tokenizeChars later := by
  rw [tokenizeChars_append (scan_gap h hne later), tokenizeChars_gap h]

/-- Nothing is left of a gap at the end. -/
theorem tokenizeChars_gap_end (h : Blank gap) (text : List Char) :
    tokenizeChars (text ++ gap) = tokenizeChars text := by
  cases gap with
  | nil => rw [List.append_nil]
  | cons c gap =>
    have hend := tokenizeChars_append_gap h (List.cons_ne_nil c gap) text []
    rwa [List.append_nil, tokenizeChars_nil, List.append_nil] at hend

end

/-! ## Symbols and words -/

theorem toList_text_ofSymbol (c : Char) : (ofSymbol c).text.toList = [c] :=
  String.toList_singleton c

theorem exists_symbol_of_kindOf {word : String} (h : kindOf word = .symbol) :
    ∃ c, isSymbolChar c = true ∧ word = String.singleton c := by
  unfold kindOf at h
  split at h
  · cases h
  split at h
  · cases h
  split at h
  · next c hword =>
    split at h
    · next hc => exact ⟨c, hc, String.toList_injective (by rw [hword, String.toList_singleton])⟩
    · cases h
  · cases h

theorem Lexeme.eq_ofSymbol {t : Token} (h : Lexeme t) (hk : t.kind = .symbol) :
    ∃ c, isSymbolChar c = true ∧ t = ofSymbol c := by
  have hword : kindOf t.text = .symbol := by rw [← hk, h.kind]; rfl
  obtain ⟨c, hc, ht⟩ := exists_symbol_of_kindOf hword
  exact ⟨c, hc, by rw [ofSymbol_eq_ofWord hc, ← ht, ← h.kind]⟩

theorem Lexeme.joined {t : Token} (h : Lexeme t) (hk : t.kind ≠ .symbol) :
    Joined t.text.toList := by
  rcases h.text with ⟨c, hc, ht⟩ | ⟨-, hw⟩
  · rw [h.kind, ht] at hk
    exact absurd (kindOf_symbol hc) hk
  · exact hw

/-! ## Cuts -/

/-- A token of a text and the gap before it. -/
structure Piece where
  gap : List Char
  token : Token

/-- Two words have a gap between them. -/
def Piece.Apart (p q : Piece) : Prop :=
  p.token.kind ≠ .symbol → q.token.kind ≠ .symbol → q.gap ≠ []

instance (p q : Piece) : Decidable (p.Apart q) :=
  inferInstanceAs (Decidable (p.token.kind ≠ .symbol → q.token.kind ≠ .symbol → q.gap ≠ []))

/-- A text as tokens with gaps, and the gap at its end. -/
structure Cut where
  pieces : List Piece
  last : List Char

namespace Cut

def tokens (k : Cut) : List Token :=
  k.pieces.map Piece.token

/-- The gaps and the texts of the tokens one after the other. -/
def chars (k : Cut) : List Char :=
  k.pieces.flatMap (fun p => p.gap ++ p.token.text.toList) ++ k.last

/-- Gaps are blank, tokens are as they are cut out of a text, and two words do not touch. -/
structure Clean (k : Cut) : Prop where
  gaps : ∀ p ∈ k.pieces, Blank p.gap
  last : Blank k.last
  lexemes : ∀ p ∈ k.pieces, Lexeme p.token
  apart : k.pieces.IsChain Piece.Apart

section
variable {p : Piece} {ps : List Piece} {last : List Char}

theorem chars_cons : chars ⟨p :: ps, last⟩ = p.gap ++ (p.token.text.toList ++ chars ⟨ps, last⟩) := by
  simp [chars]

theorem clean_nil : Clean ⟨[], last⟩ ↔ Blank last :=
  ⟨Clean.last, fun h => ⟨by simp, h, by simp, .nil⟩⟩

theorem clean_cons : Clean ⟨p :: ps, last⟩ ↔
    Blank p.gap ∧ Lexeme p.token ∧ (∀ q ∈ ps.head?, p.Apart q) ∧ Clean ⟨ps, last⟩ := by
  constructor
  · rintro ⟨hgaps, hlast, hlexemes, hapart⟩
    obtain ⟨hgap, hgaps⟩ := List.forall_mem_cons.1 hgaps
    obtain ⟨ht, hlexemes⟩ := List.forall_mem_cons.1 hlexemes
    obtain ⟨hp, hapart⟩ := List.isChain_cons.1 hapart
    exact ⟨hgap, ht, hp, hgaps, hlast, hlexemes, hapart⟩
  · rintro ⟨hgap, ht, hp, hgaps, hlast, hlexemes, hapart⟩
    exact ⟨List.forall_mem_cons.2 ⟨hgap, hgaps⟩, hlast, List.forall_mem_cons.2 ⟨ht, hlexemes⟩,
      List.isChain_cons.2 ⟨hp, hapart⟩⟩

/-- No word goes on where a clean cut begins with a gap or with a symbol. -/
theorem Clean.scan_chars (h : Clean ⟨ps, last⟩)
    (hfirst : ∀ q ∈ ps.head?, q.token.kind ≠ .symbol → q.gap ≠ []) :
    (scan (chars ⟨ps, last⟩)).1 = [] := by
  cases ps with
  | nil =>
    cases last with
    | nil => rfl
    | cons c last =>
      have hgap := scan_gap (clean_nil.1 h) (List.cons_ne_nil c last) []
      rwa [List.append_nil] at hgap
  | cons q qs =>
    obtain ⟨hgap, ht, -, -⟩ := clean_cons.1 h
    rw [chars_cons]
    by_cases hne : q.gap = []
    · have hk : q.token.kind = .symbol := by
        by_contra hk
        exact hfirst q rfl hk hne
      obtain ⟨c, hc, hsymbol⟩ := ht.eq_ofSymbol hk
      have hshape : q.gap ++ (q.token.text.toList ++ chars ⟨qs, last⟩) = c :: chars ⟨qs, last⟩ := by
        rw [hne, hsymbol, toList_text_ofSymbol]
        rfl
      rw [hshape, scan_symbol hc]
    · exact scan_gap hgap hne _

/-- The tokens of a clean cut are those of its text. -/
theorem Clean.tokenizeChars_chars (h : Clean ⟨ps, last⟩) :
    tokenizeChars (chars ⟨ps, last⟩) = tokens ⟨ps, last⟩ := by
  induction ps with
  | nil => exact tokenizeChars_gap_end (clean_nil.1 h) []
  | cons p ps ih =>
    obtain ⟨hgap, ht, happart, hps⟩ := clean_cons.1 h
    have hlater : tokenizeChars (p.token.text.toList ++ chars ⟨ps, last⟩) =
        p.token :: tokenizeChars (chars ⟨ps, last⟩) := by
      by_cases hk : p.token.kind = .symbol
      · obtain ⟨c, hc, hsymbol⟩ := ht.eq_ofSymbol hk
        rw [hsymbol, toList_text_ofSymbol, List.singleton_append, tokenizeChars_symbol hc]
      · exact ht.tokenizeChars_append (hps.scan_chars fun q hq => happart q hq hk)
    rw [chars_cons, tokenizeChars_gap hgap, hlater, ih hps]
    rfl

end

/-! ## One more character in front -/

section
variable {k : Cut} {c : Char}

theorem Clean.blank (h : k.Clean) (hc : isBlank c = true) :
    ∃ k' : Cut, k'.Clean ∧ k'.chars = c :: k.chars := by
  obtain ⟨ps, last⟩ := k
  cases ps with
  | nil =>
    have hlast : Blank (c :: last) := List.forall_mem_cons.2 ⟨hc, clean_nil.1 h⟩
    exact ⟨⟨[], c :: last⟩, clean_nil.2 hlast, rfl⟩
  | cons p ps =>
    obtain ⟨hgap, ht, happart, hps⟩ := clean_cons.1 h
    have hlonger : Blank (c :: p.gap) := List.forall_mem_cons.2 ⟨hc, hgap⟩
    exact ⟨⟨⟨c :: p.gap, p.token⟩ :: ps, last⟩, clean_cons.2 ⟨hlonger, ht, happart, hps⟩, rfl⟩

theorem Clean.symbol (h : k.Clean) (hc : isSymbolChar c = true) :
    ∃ k' : Cut, k'.Clean ∧ k'.chars = c :: k.chars := by
  have happart : ∀ q ∈ k.pieces.head?, Piece.Apart ⟨[], ofSymbol c⟩ q :=
    fun q _ hk => absurd rfl hk
  exact ⟨⟨⟨[], ofSymbol c⟩ :: k.pieces, k.last⟩,
    clean_cons.2 ⟨.nil, lexeme_ofSymbol hc, happart, h⟩,
    by rw [chars_cons, toList_text_ofSymbol]; rfl⟩

/-- A character of a word makes the word that it touches longer, or is a word if it touches none. -/
theorem Clean.letter (h : k.Clean) (hb : isBlank c = false) (hs : isSymbolChar c = false) :
    ∃ k' : Cut, k'.Clean ∧ k'.chars = c :: k.chars := by
  obtain ⟨ps, last⟩ := k
  by_cases hfirst : ∀ q ∈ ps.head?, q.token.kind ≠ .symbol → q.gap ≠ []
  · have hjoined : Joined [c] := by simp [Joined, hb, hs]
    have ht := lexeme_ofWord (List.cons_ne_nil c []) hjoined
    refine ⟨⟨⟨[], ofWord (String.ofList [c])⟩ :: ps, last⟩,
      clean_cons.2 ⟨.nil, ht, fun q hq _ => hfirst q hq, h⟩, ?_⟩
    simp [chars_cons, ofWord]
  · -- the cut begins with a word, which the character belongs to
    obtain ⟨q, hq, hk, hgap⟩ : ∃ q ∈ ps.head?, q.token.kind ≠ .symbol ∧ q.gap = [] := by
      simpa using hfirst
    obtain ⟨qs, rfl⟩ := List.head?_eq_some_iff.1 hq
    obtain ⟨-, ht, happart, hqs⟩ := clean_cons.1 h
    have hjoined : Joined (c :: q.token.text.toList) :=
      List.forall_mem_cons.2 ⟨⟨hb, hs⟩, ht.joined hk⟩
    have hlonger := lexeme_ofWord (List.cons_ne_nil c _) hjoined
    refine ⟨⟨⟨[], ofWord (String.ofList (c :: q.token.text.toList))⟩ :: qs, last⟩,
      clean_cons.2 ⟨.nil, hlonger, fun q' hq' _ => happart q' hq' hk, hqs⟩, ?_⟩
    simp [chars_cons, ofWord, hgap]

end

/-- Every text has a clean cut. -/
theorem exists_clean : ∀ text : List Char, ∃ k : Cut, k.Clean ∧ k.chars = text
  | [] => ⟨⟨[], []⟩, clean_nil.2 .nil, rfl⟩
  | c :: text => by
    obtain ⟨k, hk, rfl⟩ := exists_clean text
    by_cases hb : isBlank c = true
    · exact hk.blank hb
    by_cases hs : isSymbolChar c = true
    · exact hk.symbol hs
    · exact hk.letter (Bool.eq_false_iff.2 hb) (Bool.eq_false_iff.2 hs)

/-- The text that is cut. -/
def text (k : Cut) : String :=
  String.ofList k.chars

theorem Clean.tokenize_text {k : Cut} (h : k.Clean) : tokenize k.text = k.tokens := by
  rw [tokenize, text, String.toList_ofList]
  exact h.tokenizeChars_chars

end Cut

/-! ## Blanks that do not matter -/

section
variable {gap : String}

theorem tokenize_gap (h : Blank gap.toList) (hne : gap ≠ "") (before later : String) :
    tokenize (before ++ gap ++ later) = tokenize before ++ tokenize later := by
  have hne' : gap.toList ≠ [] := by simpa using hne
  rw [tokenize, String.toList_append, String.toList_append, List.append_assoc,
    tokenizeChars_append_gap h hne']
  rfl

variable {c : Char}

theorem tokenize_symbol (hc : isSymbolChar c = true) (before later : String) :
    tokenize (before ++ String.singleton c ++ later) =
      tokenize before ++ ofSymbol c :: tokenize later := by
  have hstart : (scan (c :: later.toList)).1 = [] := by rw [scan_symbol hc]
  rw [tokenize, String.toList_append, String.toList_append, String.toList_singleton,
    List.append_assoc, List.singleton_append, tokenizeChars_append hstart, tokenizeChars_symbol hc]
  rfl

end

/-- A text is cut into gaps and tokens in one way only: it has a clean cut, and every clean cut has
the tokens that the text is read as. Another gap in the place of a gap does not change the tokens,
and neither does a gap before or after a symbol. -/
theorem text_cut_one_way (text : String) :
    (∃ k : Cut, k.Clean ∧ k.text = text ∧ k.tokens = tokenize text) ∧
    (∀ k : Cut, k.Clean → k.text = text → k.tokens = tokenize text) ∧
    (∀ before gap gap' later : String, Blank gap.toList → gap ≠ "" → Blank gap'.toList →
      gap' ≠ "" → text = before ++ gap ++ later →
      tokenize (before ++ gap' ++ later) = tokenize text) ∧
    ∀ (before gap later : String) (c : Char), Blank gap.toList → isSymbolChar c = true →
      text = before ++ String.singleton c ++ later →
      tokenize (before ++ gap ++ String.singleton c ++ later) = tokenize text ∧
      tokenize (before ++ String.singleton c ++ gap ++ later) = tokenize text := by
  refine ⟨?_, ?_, ?_, ?_⟩
  · obtain ⟨k, hk, hchars⟩ := Cut.exists_clean text.toList
    have htext : k.text = text := by rw [Cut.text, hchars, String.ofList_toList]
    exact ⟨k, hk, htext, by rw [← htext, hk.tokenize_text]⟩
  · rintro k hk rfl
    exact hk.tokenize_text.symm
  · rintro before gap gap' later hgap hne hgap' hne' rfl
    rw [tokenize_gap hgap hne, tokenize_gap hgap' hne']
  · rintro before gap later c hgap hc rfl
    have hbefore : tokenize (before ++ gap) = tokenize before := by
      rw [tokenize, String.toList_append, tokenizeChars_gap_end hgap, ← tokenize]
    have hlater : tokenize (gap ++ later) = tokenize later := by
      rw [tokenize, String.toList_append, tokenizeChars_gap hgap, ← tokenize]
    constructor
    · rw [tokenize_symbol hc, tokenize_symbol hc, hbefore]
    · rw [String.append_assoc, tokenize_symbol hc, tokenize_symbol hc, hlater]

/-- Two signs are two tokens whether or not they touch, and one blank separates two words as well as
another. -/
theorem text_cut_one_way_comparison :
    let k : Cut := ⟨[⟨[], ofWord "x1"⟩, ⟨[' '], ofSymbol '<'⟩, ⟨[], ofSymbol '='⟩, ⟨[], ofWord "2"⟩,
      ⟨['\t', '\n'], ofWord "y"⟩], []⟩
    k.Clean ∧ k.text = "x1 <=2\t\ny" ∧ k.tokens = tokenize "x1 <=2\t\ny" ∧
      tokenize "x1 <=2\u00a0y" = k.tokens ∧ tokenize "x1 < =2\t\ny" = k.tokens := by
  intro k
  have hx : Lexeme (ofWord "x1") := lexeme_ofWord (List.cons_ne_nil 'x' ['1']) (by decide)
  have htwo : Lexeme (ofWord "2") := lexeme_ofWord (List.cons_ne_nil '2' []) (by decide)
  have hy : Lexeme (ofWord "y") := lexeme_ofWord (List.cons_ne_nil 'y' []) (by decide)
  have hless : Lexeme (ofSymbol '<') := lexeme_ofSymbol rfl
  have hequals : Lexeme (ofSymbol '=') := lexeme_ofSymbol rfl
  have hk : k.Clean :=
    ⟨by simp +decide [k], by decide, by simp [k, hx, hless, hequals, htwo, hy], by decide⟩
  obtain ⟨-, hcut, hgap, hsymbol⟩ := text_cut_one_way "x1 <=2\t\ny"
  have htokens := hcut k hk (by decide)
  refine ⟨hk, by decide, htokens, ?_, ?_⟩
  · exact (hgap "x1 <=2" "\t\n" "\u00a0" "y" (by decide) (by decide) (by decide) (by decide)
      (by decide)).trans htokens.symm
  · exact (hsymbol "x1 <" " " "2\t\ny" '=' (by decide) (by decide) (by decide)).1.trans htokens.symm

end ThreeAddress.Token

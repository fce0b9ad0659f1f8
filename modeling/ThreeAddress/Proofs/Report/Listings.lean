import ThreeAddress.Compilation
import ThreeAddress.Proofs.Code.Labels
import ThreeAddress.Proofs.Report.Trees
import ThreeAddress.Proofs.Token.Cuts

/-!
# The listing of code

The listing of a source's code has one line for each instruction and determines the code
(`Compilation.listing_determines_code`).

A line shows the fields in use with spaces between them. They are words or signs without a blank in
them, so they are read back from the line, and the first of them, the operation, says which of the
others are in use (`Instruction.Legible`). All code of a source is like this: its names and literals
are words of the source, and the rest are operations, temporaries and labels
(`WrittenTree.legible`).
-/

namespace ThreeAddress

open Token Text

/-! ## Words -/

/-- A text that is read as one token. -/
def Word (x : String) : Prop := Lexeme (ofWord x)

theorem Word.of_joined {x : String} (hne : x ≠ "") (h : Joined x.toList) : Word x :=
  ⟨rfl, .inr ⟨hne, h⟩⟩

/-- The text of a lexeme of any kind. -/
theorem Token.Lexeme.word {t : Token} (h : Lexeme t) : Word t.text := by
  unfold Word
  rwa [← h.kind]

theorem Word.ne_empty {x : String} (h : Word x) : x ≠ "" :=
  h.text_ne_empty

theorem joined_of_isDigit {c : Char} (h : c.isDigit = true) :
    isBlank c = false ∧ isSymbolChar c = false := by
  obtain ⟨hlo, hhi⟩ : 48 ≤ c.toNat ∧ c.toNat ≤ 57 := Char.isDigit_iff_toNat.1 h
  constructor
  · rw [Bool.eq_false_iff]
    intro hb
    obtain ⟨r, hr, hin⟩ := List.any_eq_true.1 hb
    have hall : (blankRanges.all fun r => r.2 < 48 || 57 < r.1) = true := by decide
    have hout := List.all_eq_true.1 hall r hr
    simp only [Bool.and_eq_true, Bool.or_eq_true, decide_eq_true_eq] at hin hout
    omega
  · rw [Bool.eq_false_iff]
    intro hs
    have hall : (symbols.all fun d => !d.isDigit) = true := by decide
    have hc := List.all_eq_true.1 hall c (isSymbolChar_iff.1 hs)
    rw [h] at hc
    cases hc

/-- The decimal digits of a number with a letter before them. -/
theorem joined_numbered {c : Char} (hb : isBlank c = false) (hs : isSymbolChar c = false) (n : Nat) :
    Joined (c :: Nat.toDigits 10 n) :=
  List.forall_mem_cons.2 ⟨⟨hb, hs⟩, fun _ hd =>
    joined_of_isDigit (Nat.isDigit_of_mem_toDigits (by decide) (by decide) hd)⟩

theorem word_temporaryName (n : Nat) : Word (temporaryName n) := by
  refine .of_joined (by simp [temporaryName]) ?_
  simpa [temporaryName] using joined_numbered (c := 't') (by decide) (by decide) n

theorem word_labelName (n : Nat) : Word (labelName n) := by
  refine .of_joined (by simp [labelName]) ?_
  simpa [labelName] using joined_numbered (c := 'L') (by decide) (by decide) n

/-- A colon is no symbol, so the operation of a label is one word. -/
theorem word_label (n : Nat) : Word (labelName n ++ ":") := by
  refine .of_joined (by simp) ?_
  have h := joined_numbered (c := 'L') (by decide) (by decide) n
  have hcolon : Joined [':'] := by decide
  have hshape : (labelName n ++ ":").toList = 'L' :: Nat.toDigits 10 n ++ [':'] := by
    simp [labelName]
  rw [hshape]
  exact List.forall_mem_append.2 ⟨h, hcolon⟩

theorem word_unknownOperand : Word unknownOperand :=
  .of_joined (by decide) (by decide)

theorem word_symbol (op : Operator) : Word op.symbol := by
  obtain ⟨c, hc, hop, -⟩ := op.symbol_spec
  have hsingle : op.symbol = String.singleton c := String.toList_injective (by simpa using hop)
  rw [hsingle, Word, ← ofSymbol_eq_ofWord hc]
  exact lexeme_ofSymbol hc

/-! ## Instructions -/

/-- A field that is used is a word, and one that is not is empty. -/
def Fills (used : Bool) (x : String) : Prop :=
  if used then Word x else x = ""

@[simp] theorem fills_true {x : String} : Fills true x ↔ Word x := Iff.rfl

@[simp] theorem fills_false {x : String} : Fills false x ↔ x = "" := Iff.rfl

namespace Instruction

/-- The fields after the operation. -/
def places (i : Instruction) : List String :=
  [i.arg1, i.arg2, i.result]

/-- Which of the fields after it an operation uses. -/
def layout (op : String) : List Bool :=
  if op.toList.getLast? = some ':' then [false, false, false]
  else if op = "goto" then [false, false, true]
  else if op = "return" then [true, false, false]
  else if op = "=" ∨ op = "minus" then [true, false, true]
  else [true, true, true]

/-- The operation is a word and says which of the other fields are words and which are empty. -/
structure Legible (i : Instruction) : Prop where
  op : Word i.op
  places : List.Forall₂ Fills (layout i.op) i.places

namespace Legible

theorem label (n : Nat) : Legible (.label (labelName n)) :=
  ⟨word_label n, by simp [Instruction.label, Instruction.layout, Instruction.places]⟩

theorem goto {x : String} (hx : Word x) : Legible (.goto x) := by
  have hop : Word "goto" := .of_joined (by decide) (by decide)
  exact ⟨hop, by simp [Instruction.goto, Instruction.layout, Instruction.places, hx]⟩

theorem assign {v x : String} (hv : Word v) (hx : Word x) : Legible (.assign v x) := by
  have hop : Word "=" := (lexeme_ofSymbol (c := '=') rfl).word
  exact ⟨hop, by simp [Instruction.assign, Instruction.layout, Instruction.places, hv, hx]⟩

theorem exit {v : String} (hv : Word v) : Legible (.exit v) := by
  have hop : Word "return" := .of_joined (by decide) (by decide)
  exact ⟨hop, by simp [Instruction.exit, Instruction.layout, Instruction.places, hv]⟩

theorem jump (p : Polarity) {v x : String} (hv : Word v) (hx : Word x) : Legible (p.jump v x) := by
  have hif : Word "if" := .of_joined (by decide) (by decide)
  have hifFalse : Word "ifFalse" := .of_joined (by decide) (by decide)
  have hgoto : Word "goto" := .of_joined (by decide) (by decide)
  cases p with
  | jumpIfFalse =>
    exact ⟨hifFalse, by simp [Polarity.jump, Instruction.layout, Instruction.places, hv, hgoto, hx]⟩
  | jumpIfTrue =>
    exact ⟨hif, by simp [Polarity.jump, Instruction.layout, Instruction.places, hv, hgoto, hx]⟩

theorem minus {x z : String} (hx : Word x) (hz : Word z) : Legible ⟨"minus", x, "", z⟩ := by
  have hop : Word "minus" := .of_joined (by decide) (by decide)
  exact ⟨hop, by simp [Instruction.layout, Instruction.places, hx, hz]⟩

theorem operator (op : Operator) {x y z : String} (hx : Word x) (hy : Word y) (hz : Word z) :
    Legible ⟨op.symbol, x, y, z⟩ := by
  have hlayout : Instruction.layout op.symbol = [true, true, true] := by cases op <;> decide
  exact ⟨word_symbol op, by simp [hlayout, Instruction.places, hx, hy, hz]⟩

end Legible

end Instruction

/-! ## What a line says -/

/-- The fields in use. -/
def inUse (fields : List String) : List String :=
  fields.filter (· ≠ "")

theorem inUse_word {x : String} (hx : Word x) (xs : List String) :
    inUse (x :: xs) = x :: inUse xs :=
  List.filter_cons_of_pos (by simpa using hx.ne_empty)

theorem inUse_empty (xs : List String) : inUse ("" :: xs) = inUse xs := rfl

section
variable {us : List Bool} {xs : List String}

theorem word_of_mem_inUse (h : List.Forall₂ Fills us xs) : ∀ x ∈ inUse xs, Word x := by
  induction h with
  | nil => simp [inUse]
  | @cons used x _ xs hx _ ih =>
    cases used with
    | true =>
      rw [inUse_word hx]
      exact List.forall_mem_cons.2 ⟨hx, ih⟩
    | false =>
      rw [fills_false.1 hx, inUse_empty]
      exact ih

/-- The fields in use say what all fields are, where it is known which of them are in use. -/
theorem eq_of_inUse_eq (h : List.Forall₂ Fills us xs) : ∀ {ys : List String},
    List.Forall₂ Fills us ys → inUse xs = inUse ys → xs = ys := by
  induction h with
  | nil =>
    intro ys h' _
    cases h'
    rfl
  | @cons used x _ xs hx _ ih =>
    intro ys h' heq
    cases h' with
    | @cons _ y _ ys hy hys =>
      cases used with
      | true =>
        rw [inUse_word hx, inUse_word hy] at heq
        obtain ⟨hxy, hrest⟩ := List.cons.inj heq
        rw [hxy, ih hys hrest]
      | false =>
        obtain rfl := fills_false.1 hx
        obtain rfl := fills_false.1 hy
        rw [ih hys heq]

end

namespace Instruction.Legible

variable {i j : Instruction}

theorem inUse_fields (h : i.Legible) : inUse i.fields = i.op :: inUse i.places :=
  inUse_word h.op i.places

theorem lexemes (h : i.Legible) : ∀ t ∈ (inUse i.fields).map ofWord, Lexeme t := by
  rw [h.inUse_fields]
  exact List.forall_mem_map.2 (List.forall_mem_cons.2 ⟨h.op, word_of_mem_inUse h.places⟩)

/-- The text of an instruction, as the texts of tokens with spaces between them. -/
theorem text_eq_spaced (i : Instruction) : i.text = spaced ((inUse i.fields).map ofWord) := by
  have htexts : ((inUse i.fields).map ofWord).map Token.text = inUse i.fields := by
    rw [List.map_map]
    exact List.map_id _
  rw [spaced, htexts]
  rfl

/-- The fields in use are read back from the line. -/
theorem tokenize_line (h : i.Legible) :
    tokenize (Report.instructionLine i) = (inUse i.fields).map ofWord := by
  have htext : tokenize i.text = (inUse i.fields).map ofWord := by
    rw [text_eq_spaced, tokenize_spaced h.lexemes]
  unfold Report.instructionLine
  split
  · exact htext
  · have hmargin : Blank "    ".toList := by decide
    rw [tokenize, String.toList_append, tokenizeChars_gap hmargin, ← tokenize, htext]

/-- A line shows one instruction. -/
theorem line_inj (hi : i.Legible) (hj : j.Legible)
    (h : Report.instructionLine i = Report.instructionLine j) : i = j := by
  have hwords := congrArg tokenize h
  rw [hi.tokenize_line, hj.tokenize_line] at hwords
  have hfields : inUse i.fields = inUse j.fields :=
    (List.map_inj_right fun _ _ hw => congrArg Token.text hw).1 hwords
  rw [hi.inUse_fields, hj.inUse_fields] at hfields
  obtain ⟨hop, hplaces⟩ := List.cons.inj hfields
  -- one operation has one layout, so the fields that are shown stand in the same places
  have hj' := hj.places
  rw [← hop] at hj'
  have heq : i.places = j.places := eq_of_inUse_eq hi.places hj' hplaces
  obtain ⟨op, arg1, arg2, result⟩ := i
  obtain ⟨op', arg1', arg2', result'⟩ := j
  simp only [Instruction.places, List.cons.injEq, and_true] at heq
  obtain ⟨rfl, rfl, rfl⟩ := heq
  exact congrArg (Instruction.mk · arg1 arg2 result) hop

/-- No blank of a line is anything but a space. -/
theorem eq_space_of_mem_line (h : i.Legible) {c : Char}
    (hc : c ∈ (Report.instructionLine i).toList) (hb : isBlank c = true) : c = ' ' := by
  have htext : c ∈ i.text.toList → c = ' ' := by
    intro hc
    rw [text_eq_spaced] at hc
    exact eq_space_of_mem_spaced h.lexemes hc hb
  unfold Report.instructionLine at hc
  split at hc
  · exact htext hc
  · rw [String.toList_append, List.mem_append] at hc
    rcases hc with hc | hc
    · simpa using hc
    · exact htext hc

end Instruction.Legible

/-! ## The code of a source -/

/-- Code whose instructions are all legible. -/
def Code.Legible (code : List Instruction) : Prop :=
  ∀ i ∈ code, i.Legible

namespace Code.Legible

variable {a b : List Instruction} {i : Instruction}

theorem nil : Legible [] := by
  simp [Legible]

theorem append (ha : Legible a) (hb : Legible b) : Legible (a ++ b) :=
  List.forall_mem_append.2 ⟨ha, hb⟩

theorem one (hi : i.Legible) : Legible [i] :=
  List.forall_mem_singleton.2 hi

theorem branch {p : Polarity} {v : Operand} {x y : Nat} {f g : Emitted} (hname : Word v.name)
    (hv : Legible v.code) (hf : Legible f.code) (hg : Legible g.code) :
    Legible (Emitted.branch p v x y f g).code := by
  have hjump := Instruction.Legible.jump p hname (word_labelName x)
  have hgoto := Instruction.Legible.goto (word_labelName y)
  have hmiddle : Legible [.goto (labelName y), .label (labelName x)] :=
    (one hgoto).append (one (.label x))
  exact ((((hv.append (one hjump)).append hf).append hmiddle).append hg).append (one (.label y))

theorem loop {p : Polarity} {v : Operand} {x y : Nat} {f : Emitted} (hname : Word v.name)
    (hv : Legible v.code) (hf : Legible f.code) : Legible (Emitted.loop p v x y f).code := by
  have hjump := Instruction.Legible.jump p hname (word_labelName y)
  have hgoto := Instruction.Legible.goto (word_labelName x)
  have hend : Legible [.goto (labelName x), .label (labelName y)] :=
    (one hgoto).append (one (.label y))
  exact (((one (.label x)).append hv).append (one hjump)).append hf |>.append hend

end Code.Legible

open Code (Legible)

/-- An expression has a word for its operand, and legible code. -/
theorem Written.legible_operand {e : Node} (he : Written e) :
    ∀ k, Word (e.operand k).name ∧ Legible (e.operand k).code := by
  induction he with
  | number h | quoted h | name h => exact fun k => ⟨h.word, .nil⟩
  | @binary op left right _ _ ihl ihr =>
    intro k
    obtain ⟨hlname, hl⟩ := ihl k
    obtain ⟨hrname, hr⟩ := ihr (left.operand k).temporaries
    have ht := word_temporaryName ((right.operand (left.operand k).temporaries).temporaries + 1)
    exact ⟨ht, (hl.append hr).append (.one (.operator op hlname hrname ht))⟩
  | @negate e _ ih =>
    intro k
    obtain ⟨hname, h⟩ := ih k
    have ht := word_temporaryName ((e.operand k).temporaries + 1)
    exact ⟨ht, h.append (.one (.minus hname ht))⟩

theorem Written.legible_resolve {e : Node} (he : Written e) (r : Resolution) (k : Nat) :
    Word (e.resolve r k).name ∧ Legible (e.resolve r k).code := by
  cases r with
  | recursive => exact he.legible_operand k
  | literalOnly =>
    cases he with
    | number h | quoted h => exact ⟨h.word, .nil⟩
    | name | binary | negate => exact ⟨word_unknownOperand, .nil⟩

theorem Node.legible_emitAll {o : Options} {nodes : List Node}
    (h : ∀ node ∈ nodes, ∀ k, Legible (node.emit o k).code) :
    ∀ k, Legible (emitAll o k nodes).code := by
  induction nodes with
  | nil => exact fun k => .nil
  | cons node rest ih =>
    intro k
    obtain ⟨hnode, hrest⟩ := List.forall_mem_cons.1 h
    exact (hnode k).append (ih hrest _)

theorem WrittenTree.legible {o : Options} {node : Node} (h : WrittenTree node) :
    ∀ k, Legible (node.emit o k).code := by
  induction h with
  | function _ _ _ ih => exact Node.legible_emitAll ih
  | assign hx he =>
    intro k
    obtain ⟨hname, hcode⟩ := he.legible_resolve o.resolution k.temporaries
    exact hcode.append (.one (.assign hname hx.word))
  | exit he =>
    intro k
    obtain ⟨hname, hcode⟩ := he.legible_resolve o.resolution k.temporaries
    exact hcode.append (.one (.exit hname))
  | @branch c t e hc _ _ iht ihe =>
    intro k
    obtain ⟨hname, hcode⟩ := hc.legible_resolve o.resolution k.temporaries
    have ht := Node.legible_emitAll iht
    have he := Node.legible_emitAll ihe
    rw [Node.emit_branch]
    cases o.polarity with
    | jumpIfFalse => exact .branch hname hcode (ht _) (he _)
    | jumpIfTrue => exact .branch hname hcode (he _) (ht _)
  | loop hc _ ih =>
    intro k
    obtain ⟨hname, hcode⟩ := hc.legible_resolve o.resolution k.temporaries
    exact .loop hname hcode (Node.legible_emitAll ih _)

/-! ## Listings -/

namespace Report

theorem oneLine_of_legible {i : Instruction} (h : i.Legible) : OneLine (instructionLine i) := by
  intro hfeed
  exact absurd (h.eq_space_of_mem_line hfeed isBlank_lineFeed) (by decide)

/-- The lines of a listing are those of the instructions. -/
theorem lines_code {code : List Instruction} (h : Legible code) :
    lines (Report.code code).toList = code.map fun i => (instructionLine i).toList := by
  have hreturn : ∀ l ∈ code.map instructionLine, l.toList.getLast? ≠ some '\r' := by
    refine List.forall_mem_map.2 fun i hi hlast => ?_
    have hspace := (h i hi).eq_space_of_mem_line (List.mem_of_getLast? hlast) isBlank_return
    exact absurd hspace (by decide)
  have hone : ∀ l ∈ code.map instructionLine, OneLine l :=
    List.forall_mem_map.2 fun i hi => oneLine_of_legible (h i hi)
  rw [Report.code, lines_ofLines hone hreturn, List.map_map]
  rfl

end Report

theorem Compilation.legible_code {source : String} {o : Options} {c : Compilation}
    (h : ofSource source o = .ok c) : Legible c.code := by
  obtain ⟨P, hP, rfl⟩ := ofSource_eq_ok_iff.1 h
  exact Node.legible_emitAll (fun f hf => (Program.written hP f hf).legible) {}

/-- The listing of a source's code has one line for each instruction, in order, and it is the same
text for two codes only if they are the same code, whatever the sources and the options are. -/
theorem Compilation.listing_determines_code {source source' : String} {o o' : Options}
    {c c' : Compilation} (h : ofSource source o = .ok c) (h' : ofSource source' o' = .ok c') :
    (lines (Report.code c.code).toList =
      c.code.map fun i => (Report.instructionLine i).toList) ∧
    (Report.code c.code = Report.code c'.code → c.code = c'.code) := by
  have hcode := legible_code h
  have hcode' := legible_code h'
  refine ⟨Report.lines_code hcode, fun heq => ?_⟩
  exact Report.ofLines_map_inj (fun _ => Report.oneLine_of_legible)
    (fun _ _ => Instruction.Legible.line_inj) hcode hcode' heq

/-- Fields that are not in use leave no gap, and labels stand at the margin. -/
theorem Compilation.listing_determines_code_loop :
    let source := "int f(int n) \x7b while (1) \x7b n = \"a\"; \x7d return 0; \x7d"
    let source' := "void g()\x7b while((1))\x7b string n=\"a\"; \x7d\nreturn 0;\x7d"
    ∃ c c', ofSource source ⟨.jumpIfTrue, .recursive⟩ = .ok c ∧
      ofSource source' .compatible = .ok c' ∧
      (lines (Report.code c.code).toList).map String.ofList =
        ["L1:", "    if 1 goto L2", "    = \"a\" n", "    goto L1", "L2:", "    return 0"] ∧
      Report.code c.code = Report.code c'.code ∧ c.code = c'.code := by
  intro source source'
  have hP : Program.ofTokens (tokenizeSource
      "int f(int n) \x7b while (1) \x7b n = \"a\"; \x7d return 0; \x7d") =
      .ok ⟨[.function .int "f" [⟨.int, "n"⟩] [.loop (.literal .int "1")
        [.assign "n" (.literal .string "\"a\"")], .exit (.literal .int "0")]]⟩ := rfl
  have hP' : Program.ofTokens (tokenizeSource
      "void g()\x7b while((1))\x7b string n=\"a\"; \x7d\nreturn 0;\x7d") =
      .ok ⟨[.function .void "g" [] [.loop (.literal .int "1")
        [.assign "n" (.literal .string "\"a\"")], .exit (.literal .int "0")]]⟩ := rfl
  have h : ofSource source ⟨.jumpIfTrue, .recursive⟩ = .ok _ := ofSource_eq_ok_iff.2 ⟨_, hP, rfl⟩
  have h' : ofSource source' .compatible = .ok _ := ofSource_eq_ok_iff.2 ⟨_, hP', rfl⟩
  obtain ⟨hlines, hinj⟩ := listing_determines_code h h'
  refine ⟨_, _, h, h', ?_, rfl, hinj rfl⟩
  rw [hlines]
  rfl

end ThreeAddress

import ThreeAddress.Proofs.Code.Temporaries
import ThreeAddress.Proofs.Report.Trees

/-!
# Code with literals only

Where only literals are written, the code of a source is its full code without the operations and
with `unknown` for every value that is no literal (`Code.erasure`). Whether a value was a literal is
seen from its text: a source spells numbers as numerals and quotes its texts, and neither names nor
temporaries look like that. Labels and jumps do not depend on values, so they are the same in both.
-/

namespace ThreeAddress

open Code

/-! ## Erasure -/

/-- A text that stands for its own value, or the unknown value in place of any other. -/
def erasedOperand (x : String) : String :=
  if Token.isNumeral x || Token.isQuotedText x then x else unknownOperand

theorem erasedOperand_temporaryName (n : Nat) :
    erasedOperand (temporaryName n) = unknownOperand := by
  simp [erasedOperand, isNumeral_temporaryName, isQuotedText_temporaryName]

namespace Instruction

/-- Is the first argument a value that is stored, returned or tested? -/
def takesValue (i : Instruction) : Bool :=
  i.op = "=" || i.op = "return" || i.op = "if" || i.op = "ifFalse"

/-- The instruction with the value that it takes left unknown unless it is a literal. -/
def erased (i : Instruction) : Instruction :=
  if i.takesValue then { i with arg1 := erasedOperand i.arg1 } else i

@[simp] theorem erased_op (i : Instruction) : i.erased.op = i.op := by
  unfold erased
  split <;> rfl

@[simp] theorem erased_result (i : Instruction) : i.erased.result = i.result := by
  unfold erased
  split <;> rfl

@[simp] theorem erased_assign (value target : String) :
    (assign value target).erased = assign (erasedOperand value) target := rfl

@[simp] theorem erased_exit (value : String) :
    (exit value).erased = exit (erasedOperand value) := rfl

@[simp] theorem erased_goto (name : String) : (goto name).erased = goto name := rfl

@[simp] theorem erased_jump (p : Polarity) (value name : String) :
    (p.jump value name).erased = p.jump (erasedOperand value) name := by
  cases p <;> rfl

/-- A label has no value, as its operation ends in a colon. -/
@[simp] theorem erased_label (name : String) : (label name).erased = label name := by
  unfold erased
  split
  · next h =>
    have hl := isLabel_label name
    simp only [takesValue, Bool.or_eq_true, decide_eq_true_eq] at h
    rcases h with ((h | h) | h) | h <;> simp [isLabel, h] at hl
  · rfl

/-- No operation goes on elsewhere. -/
theorem isJump_of_isOperation {i : Instruction} (h : i.isOperation = true) : i.isJump = false := by
  simp only [isOperation, Bool.or_eq_true, decide_eq_true_eq, Option.isSome_iff_exists] at h
  rcases h with h | ⟨op, h⟩
  · simp [isJump, h]
  · rw [isJump, ← Operator.symbol_of_ofSymbol? h]
    cases op <;> simp [Operator.symbol]

end Instruction

namespace Code

/-- The code without its operations, and with unknown values where there is no literal. -/
def erasure (code : List Instruction) : List Instruction :=
  (code.filter fun i => !i.isOperation).map Instruction.erased

/-- The labels and the jumps of the code, in code order, each with the place that it goes to. -/
def transfers (code : List Instruction) : List (String × String) :=
  (code.filter fun i => i.isLabel || i.isJump).map fun i => (i.op, i.result)

@[simp] theorem erasure_nil : erasure [] = [] := rfl

@[simp] theorem erasure_append (a b : List Instruction) :
    erasure (a ++ b) = erasure a ++ erasure b := by
  simp [erasure]

@[simp] theorem erasure_cons (i : Instruction) (code : List Instruction) :
    erasure (i :: code) = if i.isOperation then erasure code else i.erased :: erasure code := by
  by_cases h : i.isOperation = true
  · simp [erasure, h]
  · simp [erasure, h]

theorem erasure_operations {code : List Instruction}
    (h : ∀ i ∈ code, i.isOperation = true) : erasure code = [] := by
  have hnone : code.filter (fun i => !i.isOperation) = [] :=
    List.filter_eq_nil_iff.2 fun i hi => by simp [h i hi]
  rw [erasure, hnone, List.map_nil]

/-- Erasure keeps where the code goes. -/
theorem transfers_erasure (code : List Instruction) : transfers (erasure code) = transfers code := by
  induction code with
  | nil => rfl
  | cons i code ih =>
    have herased : i.erased.isLabel = i.isLabel ∧ i.erased.isJump = i.isJump := by
      simp [Instruction.isLabel, Instruction.isJump]
    rw [erasure_cons]
    split
    · next h =>
      rw [ih]
      simp [transfers, Instruction.isLabel_of_isOperation h, Instruction.isJump_of_isOperation h]
    · unfold transfers at ih ⊢
      rw [List.filter_cons, List.filter_cons, herased.1, herased.2]
      split
      · simp [ih]
      · exact ih

end Code

/-! ## Operands -/

theorem Node.erasure_operand (e : Node) (k : Nat) : erasure (e.operand k).code = [] :=
  erasure_operations (e.isOperation_of_mem_operand k)

theorem Node.literalOperand_code (e : Node) (k : Nat) : (e.literalOperand k).code = [] := by
  cases e <;> rfl

/-- A source spells no name like a literal, and no literal like a name. -/
theorem Written.erased_operand {e : Node} (he : Written e) (k k' : Nat) :
    (e.literalOperand k').name = erasedOperand (e.operand k).name := by
  cases he with
  | @number text h =>
    have hn : Token.isNumeral text = true := h.spelt.1 rfl
    simp [Node.literalOperand, Node.operand, erasedOperand, hn]
  | quoted h hq => simp [Node.literalOperand, Node.operand, erasedOperand, hq]
  | @name x h hq =>
    have hn : Token.isNumeral x = false := h.spelt.2 rfl
    simp [Node.literalOperand, Node.operand, erasedOperand, hn, hq]
  | binary | negate => exact (erasedOperand_temporaryName _).symm

/-! ## Statements -/

/-- The second code is the erasure of the first one, with as many labels in use after it. -/
structure Erases (full literal : Emitted) : Prop where
  code : literal.code = erasure full.code
  labels : literal.counters.labels = full.counters.labels

namespace Erases

variable {p : Polarity} {c c' : Operand} {x y : Nat} {f f' g g' : Emitted}

theorem branch (hc : erasure c.code = []) (hc' : c'.code = [])
    (hname : c'.name = erasedOperand c.name) (hf : Erases f f') (hg : Erases g g') :
    Erases (.branch p c x y f g) (.branch p c' x y f' g') :=
  ⟨by simp [Emitted.branch, hc, hc', hname, hf.code, hg.code], hg.labels⟩

theorem loop (hc : erasure c.code = []) (hc' : c'.code = [])
    (hname : c'.name = erasedOperand c.name) (hf : Erases f f') :
    Erases (.loop p c x y f) (.loop p c' x y f') :=
  ⟨by simp [Emitted.loop, hc, hc', hname, hf.code], hf.labels⟩

end Erases

/-- The nodes have the erasure of their full code when only literals are written, from any numbers of
temporaries. -/
def Erasable (p : Polarity) (nodes : List Node) : Prop :=
  ∀ k k' : Counters, k'.labels = k.labels →
    Erases (Node.emitAll ⟨p, .recursive⟩ k nodes) (Node.emitAll ⟨p, .literalOnly⟩ k' nodes)

theorem erasable_of_forall {p : Polarity} {nodes : List Node}
    (h : ∀ node ∈ nodes, ∀ k k' : Counters, k'.labels = k.labels →
      Erases (node.emit ⟨p, .recursive⟩ k) (node.emit ⟨p, .literalOnly⟩ k')) :
    Erasable p nodes := by
  induction nodes with
  | nil => exact fun k k' hk => ⟨rfl, hk⟩
  | cons node rest ih =>
    intro k k' hk
    obtain ⟨hnode, hrest⟩ := List.forall_mem_cons.1 h
    have hfirst := hnode k k' hk
    have hlater := ih hrest _ _ hfirst.labels
    exact ⟨by simp [Node.emitAll, hfirst.code, hlater.code], hlater.labels⟩

theorem WrittenTree.erases {p : Polarity} {node : Node} (h : WrittenTree node) :
    ∀ k k' : Counters, k'.labels = k.labels →
      Erases (node.emit ⟨p, .recursive⟩ k) (node.emit ⟨p, .literalOnly⟩ k') := by
  induction h with
  | function _ _ _ ih => exact erasable_of_forall ih
  | @assign x e _ he =>
    intro k k' hk
    have hname := he.erased_operand k.temporaries k'.temporaries
    refine ⟨?_, hk⟩
    simp [Node.emit, Node.resolve, e.erasure_operand, e.literalOperand_code, hname]
  | @exit e he =>
    intro k k' hk
    have hname := he.erased_operand k.temporaries k'.temporaries
    refine ⟨?_, hk⟩
    simp [Node.emit, Node.resolve, e.erasure_operand, e.literalOperand_code, hname]
  | @branch c t e hc _ _ iht ihe =>
    intro k k' hk
    have ht := erasable_of_forall iht
    have he := erasable_of_forall ihe
    have hf : Erasable p (p.fallen t e) := by cases p; exacts [ht, he]
    have hj : Erasable p (p.jumped t e) := by cases p; exacts [he, ht]
    rw [Node.emit_branch, Node.emit_branch, hk]
    -- the labels of the region that is jumped to go on from those of the other one
    have hfallen := hf ⟨(c.operand k.temporaries).temporaries, k.labels + 2⟩
      ⟨(c.literalOperand k'.temporaries).temporaries, k.labels + 2⟩ rfl
    exact .branch (c.erasure_operand _) (c.literalOperand_code _) (hc.erased_operand _ _) hfallen
      (hj _ _ hfallen.labels)
  | @loop c body hc _ ih =>
    intro k k' hk
    have hbody := erasable_of_forall ih
    rw [Node.emit_loop, Node.emit_loop, hk]
    exact .loop (c.erasure_operand _) (c.literalOperand_code _) (hc.erased_operand _ _)
      (hbody _ _ rfl)

/-! ## Sources -/

/-- Where only literals are written, a source has the erasure of its full code, and its labels and
jumps are the same in the same order. -/
theorem Compilation.literal_code_is_erasure {source : String} {p : Polarity} {c : Compilation}
    (h : ofSource source ⟨p, .recursive⟩ = .ok c) :
    ∃ c', ofSource source ⟨p, .literalOnly⟩ = .ok c' ∧ c'.code = erasure c.code ∧
      transfers c'.code = transfers c.code := by
  obtain ⟨P, hP, rfl⟩ := ofSource_eq_ok_iff.1 h
  have hall : Erasable p P.functions :=
    erasable_of_forall fun f hf => (Program.written hP f hf).erases
  have hcode : P.code ⟨p, .literalOnly⟩ = erasure (P.code ⟨p, .recursive⟩) := (hall {} {} rfl).code
  refine ⟨_, ofSource_eq_ok_iff.2 ⟨P, hP, rfl⟩, hcode, ?_⟩
  show transfers (P.code ⟨p, .literalOnly⟩) = transfers (P.code ⟨p, .recursive⟩)
  rw [hcode, transfers_erasure]

/-- The comparison goes, its result and the name `x` become unknown, and the literals stay. -/
theorem Compilation.literal_code_is_erasure_branch :
    let source := "int f(int x) \x7b if (x > 3) \x7b y = \"a\"; \x7d z = x; return 5; \x7d"
    ∃ c c', ofSource source ⟨.jumpIfTrue, .recursive⟩ = .ok c ∧
      ofSource source ⟨.jumpIfTrue, .literalOnly⟩ = .ok c' ∧
      c.code = [⟨">", "x", "3", "t1"⟩, ⟨"if", "t1", "goto", "L1"⟩, .goto "L2", .label "L1",
        .assign "\"a\"" "y", .label "L2", .assign "x" "z", .exit "5"] ∧
      c'.code = [⟨"if", "unknown", "goto", "L1"⟩, .goto "L2", .label "L1",
        .assign "\"a\"" "y", .label "L2", .assign "unknown" "z", .exit "5"] ∧
      transfers c'.code = [("if", "L1"), ("goto", "L2"), ("L1:", ""), ("L2:", "")] := by
  intro source
  let P : Program := ⟨[.function .int "f" [⟨.int, "x"⟩]
    [.branch (.binary .gt (.var "x") (.literal .int "3")) [.assign "y" (.literal .string "\"a\"")] [],
      .assign "z" (.var "x"), .exit (.literal .int "5")]]⟩
  have hP : Program.ofTokens (Token.tokenizeSource
      "int f(int x) \x7b if (x > 3) \x7b y = \"a\"; \x7d z = x; return 5; \x7d") = .ok P := rfl
  have h : ofSource source ⟨.jumpIfTrue, .recursive⟩ = .ok _ :=
    ofSource_eq_ok_iff.2 ⟨P, hP, rfl⟩
  obtain ⟨c', hc', hcode, htransfers⟩ := literal_code_is_erasure h
  exact ⟨_, c', h, hc', rfl, hcode.trans (by decide), htransfers.trans (by decide)⟩

end ThreeAddress

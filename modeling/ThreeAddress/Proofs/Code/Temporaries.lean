import ThreeAddress.Compilation
import ThreeAddress.Proofs.Code.Meaning

/-!
# Temporaries and names of a source

Every operator gets a temporary of its own, and the code computes the temporaries in the order of
their numbers (`Node.numbered`). Nothing keeps them apart from the names of the source: an operator
overwrites a name exactly where the source itself names one of the temporaries
(`operations_fresh_iff`), and then the code no longer means what the source means
(`overwritten_parameter`).
-/

namespace ThreeAddress

/-! ## Operations -/

namespace Instruction

/-- Does the instruction compute an operator? -/
def isOperation (i : Instruction) : Bool :=
  i.op = "minus" || (Operator.ofSymbol? i.op).isSome

@[simp] theorem isOperation_operator (op : Operator) (x y z : String) :
    isOperation ⟨op.symbol, x, y, z⟩ = true := by
  simp [isOperation, Operator.ofSymbol?_symbol]

@[simp] theorem isOperation_minus (x y z : String) : isOperation ⟨"minus", x, y, z⟩ = true := by
  simp [isOperation]

@[simp] theorem isOperation_goto (name : String) : (goto name).isOperation = false := rfl

@[simp] theorem isOperation_assign (value target : String) :
    (assign value target).isOperation = false := rfl

@[simp] theorem isOperation_exit (value : String) : (exit value).isOperation = false := rfl

@[simp] theorem isOperation_jump (p : Polarity) (c name : String) :
    (p.jump c name).isOperation = false := by
  cases p <;> rfl

/-- No operation ends in a colon. -/
theorem isLabel_of_isOperation {i : Instruction} (h : i.isOperation = true) :
    i.isLabel = false := by
  simp only [isOperation, Bool.or_eq_true, decide_eq_true_eq, Option.isSome_iff_exists] at h
  rcases h with h | ⟨op, h⟩
  · simp [isLabel, h]
  · rw [isLabel, ← Operator.symbol_of_ofSymbol? h]
    cases op <;> simp [Operator.symbol]

@[simp] theorem isOperation_label (name : String) : (label name).isOperation = false := by
  by_contra h
  have hl := isLabel_of_isOperation (by simpa using h)
  rw [isLabel_label] at hl
  cases hl

end Instruction

namespace Code

/-- The names that the operators of the code give values to, in code order. -/
def computed (code : List Instruction) : List String :=
  (code.filter Instruction.isOperation).map Instruction.result

@[simp] theorem computed_nil : computed [] = [] := rfl

@[simp] theorem computed_append (a b : List Instruction) :
    computed (a ++ b) = computed a ++ computed b := by
  simp [computed]

@[simp] theorem computed_cons (i : Instruction) (code : List Instruction) :
    computed (i :: code) = if i.isOperation then i.result :: computed code else computed code := by
  by_cases h : i.isOperation = true
  · simp [computed, h]
  · simp [computed, h]

theorem mem_computed {code : List Instruction} {x : String} :
    x ∈ computed code ↔ ∃ i ∈ code, i.isOperation = true ∧ i.result = x := by
  simp [computed, and_assoc]

end Code

open Code

/-! ## Temporaries in the order of their numbers -/

/-- The temporaries with a number above `lo` and not above `hi`. -/
def temporaryNames (lo hi : Nat) : List String :=
  (List.range' (lo + 1) (hi - lo)).map temporaryName

theorem temporaryNames_append {lo mid hi : Nat} (h : lo ≤ mid) (h' : mid ≤ hi) :
    temporaryNames lo mid ++ temporaryNames mid hi = temporaryNames lo hi := by
  have hmid : mid + 1 = lo + 1 + (mid - lo) := by omega
  have hlen : mid - lo + (hi - mid) = hi - lo := by omega
  rw [temporaryNames, temporaryNames, ← List.map_append, hmid, List.range'_append_1, hlen,
    ← temporaryNames]

theorem temporaryNames_succ (n : Nat) : temporaryNames n (n + 1) = [temporaryName (n + 1)] := by
  simp [temporaryNames]

theorem mem_temporaryNames {lo hi : Nat} {x : String} :
    x ∈ temporaryNames lo hi ↔ Temporary lo hi x := by
  simp only [temporaryNames, List.mem_map, List.mem_range'_1, Temporary]
  constructor
  · rintro ⟨n, hn, rfl⟩
    exact ⟨n, by omega, by omega, rfl⟩
  · rintro ⟨n, hl, hh, rfl⟩
    exact ⟨n, by omega, rfl⟩

theorem length_temporaryNames (lo hi : Nat) : (temporaryNames lo hi).length = hi - lo := by
  simp [temporaryNames]

/-- The code computes the temporaries between `lo` and `hi`, each of them once and in order. -/
structure Numbered (lo hi : Nat) (code : List Instruction) : Prop where
  le : lo ≤ hi
  computed : computed code = temporaryNames lo hi

namespace Numbered

variable {lo mid hi : Nat} {a b : List Instruction}

theorem silent (h : Code.computed a = []) : Numbered lo lo a :=
  ⟨Nat.le_refl lo, by simpa [temporaryNames] using h⟩

theorem append (ha : Numbered lo mid a) (hb : Numbered mid hi b) : Numbered lo hi (a ++ b) :=
  ⟨Nat.le_trans ha.le hb.le, by
    rw [computed_append, ha.computed, hb.computed, temporaryNames_append ha.le hb.le]⟩

theorem before (ha : Numbered lo hi a) (hb : Code.computed b = []) : Numbered lo hi (a ++ b) :=
  ha.append (silent hb)

theorem after (hb : Code.computed b = []) (ha : Numbered lo hi a) : Numbered lo hi (b ++ a) :=
  (silent hb).append ha

/-- One more operator computes the next temporary. -/
theorem compute {i : Instruction} (ha : Numbered lo hi a) (hi' : i.isOperation = true)
    (hr : i.result = temporaryName (hi + 1)) : Numbered lo (hi + 1) (a ++ [i]) :=
  ha.append ⟨Nat.le_succ hi, by
    simp [hi', hr, temporaryNames_succ]⟩

theorem branch {p : Polarity} {v : Operand} {x y mid' : Nat} {f g : Emitted}
    (hv : Numbered lo mid v.code) (hf : Numbered mid mid' f.code) (hg : Numbered mid' hi g.code) :
    Numbered lo hi (Emitted.branch p v x y f g).code := by
  have hguard := hv.before (b := [p.jump v.name (labelName x)]) (by simp)
  have hpast := (hguard.append hf).before (b := [.goto (labelName y), .label (labelName x)])
    (by simp)
  exact (hpast.append hg).before (by simp)

theorem loop {p : Polarity} {v : Operand} {x y : Nat} {f : Emitted}
    (hv : Numbered lo mid v.code) (hf : Numbered mid hi f.code) :
    Numbered lo hi (Emitted.loop p v x y f).code := by
  have hstart := hv.after (b := [.label (labelName x)]) (by simp)
  have hguard := hstart.before (b := [p.jump v.name (labelName y)]) (by simp)
  exact (hguard.append hf).before (by simp)

end Numbered

namespace Node

theorem numbered_operand (e : Node) (k : Nat) :
    Numbered k (e.operand k).temporaries (e.operand k).code := by
  fun_induction Node.operand k e with
  | case3 used op left right l r t hl hr =>
    exact (hl.append hr).compute (Instruction.isOperation_operator ..) rfl
  | case4 used value v t hv => exact hv.compute (Instruction.isOperation_minus ..) rfl
  | _ => exact .silent rfl

/-- The code of an operand is nothing but operations. -/
theorem isOperation_of_mem_operand (e : Node) (k : Nat) :
    ∀ i ∈ (e.operand k).code, i.isOperation = true := by
  fun_induction Node.operand k e with
  | case3 used op left right l r t hl hr =>
    simp only [List.forall_mem_append, List.forall_mem_singleton]
    exact ⟨⟨hl, hr⟩, Instruction.isOperation_operator ..⟩
  | case4 used value v t hv =>
    simp only [List.forall_mem_append, List.forall_mem_singleton]
    exact ⟨hv, Instruction.isOperation_minus ..⟩
  | _ => simp

theorem numbered_resolve (r : Resolution) (e : Node) (k : Nat) :
    Numbered k (e.resolve r k).temporaries (e.resolve r k).code := by
  cases r with
  | recursive => exact numbered_operand e k
  | literalOnly => cases e <;> exact .silent rfl

mutual

theorem numbered_code (o : Options) : ∀ (node : Node) (k : Counters),
    Numbered k.temporaries (node.emit o k).counters.temporaries (node.emit o k).code
  | .function _ _ _ body, k => numbered_codeAll o body k
  | .assign _ value, k => (value.numbered_resolve _ _).before (by simp)
  | .exit value, k => (value.numbered_resolve _ _).before (by simp)
  | .branch c t e, k => by
    have hc := c.numbered_resolve o.resolution k.temporaries
    have ht := numbered_codeAll o t
    have he := numbered_codeAll o e
    let k' : Counters := ⟨(c.resolve o.resolution k.temporaries).temporaries, k.labels + 2⟩
    obtain ⟨p, r⟩ := o
    cases p with
    | jumpIfFalse => exact .branch hc (ht k') (he _)
    | jumpIfTrue => exact .branch hc (he k') (ht _)
  | .loop c body, k =>
    .loop (c.numbered_resolve _ _)
      (numbered_codeAll o body ⟨(c.resolve o.resolution k.temporaries).temporaries, k.labels + 2⟩)
  | .binary op left right, k => (Node.binary op left right).numbered_resolve _ _
  | .negate value, k => (Node.negate value).numbered_resolve _ _
  | .literal .., _ => .silent rfl
  | .var _, _ => .silent rfl

theorem numbered_codeAll (o : Options) : ∀ (nodes : List Node) (k : Counters),
    Numbered k.temporaries (emitAll o k nodes).counters.temporaries (emitAll o k nodes).code
  | [], _ => .silent rfl
  | node :: rest, k => (numbered_code o node k).append (numbered_codeAll o rest _)

end

theorem numbered_emitAll (p : Polarity) (nodes : List Node) (k : Counters) : Numbered k.temporaries
    (emitAll (computing p) k nodes).counters.temporaries (emitAll (computing p) k nodes).code :=
  numbered_codeAll (computing p) nodes k

end Node

/-! ## Names that operators overwrite -/

/-- The parameters, the assigned names and the variables of a program. -/
def Program.names (P : Program) : List String :=
  Node.namesAll P.functions

/-- Each operator computes a temporary of its own, in the order of their numbers. So the operators
overwrite no name of the source exactly where the source names none of the temporaries that they
need. -/
theorem operations_fresh_iff {source : String} {p : Polarity} {c : Compilation}
    (h : Compilation.ofSource source ⟨p, .recursive⟩ = .ok c) :
    computed c.code = temporaryNames 0 (computed c.code).length ∧
    ((∀ i ∈ c.code, i.isOperation = true → i.result ∉ c.program.names) ↔
      ∀ n, 0 < n → n ≤ (computed c.code).length → temporaryName n ∉ c.program.names) := by
  obtain ⟨P, -, rfl⟩ := Compilation.ofSource_eq_ok_iff.1 h
  have hn := Node.numbered_emitAll p P.functions {}
  have hlen := congrArg List.length hn.computed
  rw [length_temporaryNames, Nat.sub_zero] at hlen
  refine ⟨hlen ▸ hn.computed, fun hfresh n hpos hle => ?_, fun hnames i hi hop hmem => ?_⟩
  · have hx : temporaryName n ∈ computed (P.code (computing p)) := by
      rw [Program.code, Program.emit, hn.computed, mem_temporaryNames, ← hlen]
      exact ⟨n, hpos, hle, rfl⟩
    obtain ⟨i, hi, hop, hr⟩ := mem_computed.1 hx
    exact hr ▸ hfresh i hi hop
  · have hx : i.result ∈ computed (P.code (computing p)) := mem_computed.2 ⟨i, hi, hop, rfl⟩
    rw [Program.code, Program.emit, hn.computed, mem_temporaryNames, ← hlen] at hx
    obtain ⟨n, hpos, hle, hr⟩ := hx
    exact hnames n hpos hle (hr ▸ hmem)

/-- A name that looks like a temporary does no harm as long as its number is not reached. -/
theorem operations_fresh_nine :
    let source := "int f(int t9) \x7b return 2 * 3 + t9; \x7d"
    let P : Program := ⟨[.function .int "f" [⟨.int, "t9"⟩] [.exit (.binary .add
      (.binary .mul (.literal .int "2") (.literal .int "3")) (.var "t9"))]]⟩
    let code := P.code ⟨.jumpIfFalse, .recursive⟩
    let c : Compilation := ⟨Token.tokenizeSource source, P, P.inventory, code⟩
    Compilation.ofSource source ⟨.jumpIfFalse, .recursive⟩ = .ok c ∧
      computed c.code = ["t1", "t2"] ∧
      ∀ i ∈ c.code, i.isOperation = true → i.result ∉ c.program.names := by
  intro source P code c
  have hP : Program.ofTokens (Token.tokenizeSource "int f(int t9) \x7b return 2 * 3 + t9; \x7d") =
      .ok P := rfl
  have h : Compilation.ofSource source ⟨.jumpIfFalse, .recursive⟩ = .ok c :=
    Compilation.ofSource_eq_ok_iff.2 ⟨P, hP, rfl⟩
  refine ⟨h, rfl, (operations_fresh_iff h).2.2 fun n hpos hle => ?_⟩
  have hn : n ≤ 2 := hle
  obtain rfl | rfl : n = 1 ∨ n = 2 := by omega
  · decide
  · decide

/-- A parameter with the name of a temporary: its value is lost before it is used. -/
theorem overwritten_parameter :
    let source := "int f(int t1) \x7b return 2 * 3 + t1; \x7d"
    let body := [Node.exit (.binary .add
      (.binary .mul (.literal .int "2") (.literal .int "3")) (.var "t1"))]
    let P : Program := ⟨[.function .int "f" [⟨.int, "t1"⟩] body]⟩
    let code := P.code ⟨.jumpIfFalse, .recursive⟩
    let c : Compilation := ⟨Token.tokenizeSource source, P, P.inventory, code⟩
    Compilation.ofSource source ⟨.jumpIfFalse, .recursive⟩ = .ok c ∧
      (∃ i ∈ c.code, i.isOperation = true ∧ i.result ∈ c.program.names) ∧
      Halts .integers c.code ⟨0, fun _ => 1⟩ (.finished (.returned 12)) ∧
      ExecutesAll .integers true body (fun _ => 1) (.returned 7) := by
  intro source body P code c
  have hP : Program.ofTokens (Token.tokenizeSource "int f(int t1) \x7b return 2 * 3 + t1; \x7d") =
      .ok P := rfl
  have hi : ∃ i ∈ c.code, i.isOperation = true ∧ i.result ∈ c.program.names :=
    ⟨⟨"*", "2", "3", "t1"⟩, by decide⟩
  exact ⟨Compilation.ofSource_eq_ok_iff.2 ⟨P, hP, rfl⟩, hi, ⟨3, rfl⟩, .stop (.exit rfl)⟩

end ThreeAddress

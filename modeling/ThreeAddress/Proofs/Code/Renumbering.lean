import ThreeAddress.Proofs.Code.Temporaries

/-!
# Code from later counters

What a statement is lowered to depends on the counters only through the numbers of its temporaries
and labels: from counters that are higher by `n`, all these numbers are higher by `n`
(`PlainStatement.emit_raised`). That needs a source that names no temporary itself, as its names
keep their numbers.
-/

namespace ThreeAddress

/-! ## Numbers in names -/

/-- The name with its number `n` higher, where it is `base` with decimal digits after it and nothing
else; any other name is left as it is. -/
def raiseNumber (base : Char) (n : Nat) (x : String) : String :=
  match x.toList with
  | c :: ds =>
    if c = base ∧ ds ≠ [] ∧ ds.all Char.isDigit then
      String.singleton base ++ toString (Nat.ofDigitChars 10 ds 0 + n)
    else x
  | [] => x

theorem raiseNumber_singleton_append (base : Char) (n k : Nat) :
    raiseNumber base n (String.singleton base ++ toString k) =
      String.singleton base ++ toString (k + n) := by
  have hdigits : (Nat.toDigits 10 k).all Char.isDigit = true :=
    List.all_eq_true.2 fun c hc => Nat.isDigit_of_mem_toDigits (by decide) (by decide) hc
  have hlist : (String.singleton base ++ toString k).toList = base :: Nat.toDigits 10 k := by
    simp
  rw [raiseNumber, hlist]
  simp [hdigits]

@[simp] theorem raiseNumber_temporaryName (n k : Nat) :
    raiseNumber 't' n (temporaryName k) = temporaryName (k + n) :=
  raiseNumber_singleton_append 't' n k

@[simp] theorem raiseNumber_labelName (n k : Nat) :
    raiseNumber 'L' n (labelName k) = labelName (k + n) :=
  raiseNumber_singleton_append 'L' n k

theorem raiseNumber_empty (base : Char) (n : Nat) : raiseNumber base n "" = "" := rfl

/-- A name that does not look like a temporary has no number to raise. -/
theorem raiseNumber_of_not {x : String} (h : ¬LooksTemporary x) (n : Nat) :
    raiseNumber 't' n x = x := by
  unfold raiseNumber
  split
  · next c ds hx =>
    refine if_neg ?_
    rintro ⟨rfl, hne, hds⟩
    exact h ⟨ds, hne, List.all_eq_true.1 hds, hx⟩
  · rfl

theorem not_looksTemporary_unknownOperand : ¬LooksTemporary unknownOperand := by
  rintro ⟨ds, -, -, hx⟩
  simp [unknownOperand] at hx

/-! ## Raised code -/

/-- The counters with `n` more temporaries and labels in use. -/
def Counters.raised (k n : Counters) : Counters :=
  ⟨k.temporaries + n.temporaries, k.labels + n.labels⟩

namespace Instruction

/-- The instruction with the number of its label or of the label that it goes to, and those of its
temporaries, higher by `n`. -/
def raised (n : Counters) (i : Instruction) : Instruction :=
  match i.labelName?, i.target? with
  | some name, _ => label (raiseNumber 'L' n.labels name)
  | none, some name =>
    ⟨i.op, raiseNumber 't' n.temporaries i.arg1, i.arg2, raiseNumber 'L' n.labels name⟩
  | none, none =>
    ⟨i.op, raiseNumber 't' n.temporaries i.arg1, raiseNumber 't' n.temporaries i.arg2,
      raiseNumber 't' n.temporaries i.result⟩

variable (n : Counters)

theorem raised_of_quiet {i : Instruction} (hl : i.labelName? = none) (ht : i.target? = none) :
    i.raised n = ⟨i.op, raiseNumber 't' n.temporaries i.arg1,
      raiseNumber 't' n.temporaries i.arg2, raiseNumber 't' n.temporaries i.result⟩ := by
  rw [raised, hl, ht]

@[simp] theorem raised_label (k : Nat) :
    (label (labelName k)).raised n = label (labelName (k + n.labels)) := by
  simp [raised]

@[simp] theorem raised_goto (k : Nat) :
    (goto (labelName k)).raised n = goto (labelName (k + n.labels)) := by
  rw [raised, labelName?_goto, target?_goto]
  simp [goto, raiseNumber_empty]

@[simp] theorem raised_jump (p : Polarity) (c : String) (k : Nat) :
    (p.jump c (labelName k)).raised n =
      p.jump (raiseNumber 't' n.temporaries c) (labelName (k + n.labels)) := by
  rw [raised, labelName?_jump, target?_jump]
  cases p <;> simp [Polarity.jump]

@[simp] theorem raised_assign (value target : String) :
    (assign value target).raised n =
      assign (raiseNumber 't' n.temporaries value) (raiseNumber 't' n.temporaries target) :=
  raised_of_quiet n (labelName?_assign value target) (target?_assign value target)

@[simp] theorem raised_exit (value : String) :
    (exit value).raised n = exit (raiseNumber 't' n.temporaries value) :=
  raised_of_quiet n (labelName?_exit value) (target?_exit value)

@[simp] theorem raised_operator (op : Operator) (x y z : String) :
    raised n ⟨op.symbol, x, y, z⟩ = ⟨op.symbol, raiseNumber 't' n.temporaries x,
      raiseNumber 't' n.temporaries y, raiseNumber 't' n.temporaries z⟩ :=
  raised_of_quiet n (labelName?_operator op x y z) (target?_operator op x y z)

@[simp] theorem raised_minus (x y z : String) :
    raised n ⟨"minus", x, y, z⟩ = ⟨"minus", raiseNumber 't' n.temporaries x,
      raiseNumber 't' n.temporaries y, raiseNumber 't' n.temporaries z⟩ :=
  raised_of_quiet n (labelName?_minus x y z) (target?_minus x y z)

end Instruction

def Operand.raised (n : Counters) (v : Operand) : Operand :=
  ⟨raiseNumber 't' n.temporaries v.name, v.temporaries + n.temporaries,
    v.code.map (Instruction.raised n)⟩

/-- The counters after the condition of a branch or of a loop. -/
theorem Counters.raised_inside (k n : Counters) (v : Operand) :
    (⟨(v.raised n).temporaries, (k.raised n).labels + 2⟩ : Counters) =
      raised ⟨v.temporaries, k.labels + 2⟩ n := by
  simp [raised, Operand.raised, Nat.add_right_comm]

namespace Emitted

def raised (n : Counters) (e : Emitted) : Emitted :=
  ⟨e.counters.raised n, e.code.map (Instruction.raised n)⟩

variable (n : Counters) (p : Polarity) (v : Operand) (x y : Nat) (f g : Emitted)

@[simp] theorem raised_counters : (f.raised n).counters = f.counters.raised n := rfl

theorem branch_raised : (branch p v x y f g).raised n =
    branch p (v.raised n) (x + n.labels) (y + n.labels) (f.raised n) (g.raised n) := by
  simp [branch, raised, Operand.raised]

theorem loop_raised : (loop p v x y f).raised n =
    loop p (v.raised n) (x + n.labels) (y + n.labels) (f.raised n) := by
  simp [loop, raised, Operand.raised]

end Emitted

/-! ## Operands -/

namespace Plain

theorem text_kept {ty : Ty} {text : String} (h : Plain (.literal ty text)) (n : Nat) :
    raiseNumber 't' n text = text :=
  raiseNumber_of_not h.not_looksTemporary n

variable {e : Node} (n : Counters)

theorem operand_raised (he : Plain e) :
    ∀ k, e.operand (k + n.temporaries) = (e.operand k).raised n := by
  induction he with
  | number h =>
    intro k
    simp [Node.operand, Operand.raised, (Plain.number h).text_kept]
  | quoted h hq =>
    intro k
    simp [Node.operand, Operand.raised, (Plain.quoted h hq).text_kept]
  | name _ _ hx =>
    intro k
    simp [Node.operand, Operand.raised, raiseNumber_of_not hx]
  | binary _ _ ihl ihr =>
    intro k
    rw [Node.operand, ihl, Operand.raised, ihr]
    simp [Node.operand, Operand.raised, Nat.add_right_comm]
  | negate _ ih =>
    intro k
    rw [Node.operand, ih]
    simp [Node.operand, Operand.raised, raiseNumber_empty, Nat.add_right_comm]

theorem resolve_raised (he : Plain e) (r : Resolution) (k : Nat) :
    e.resolve r (k + n.temporaries) = (e.resolve r k).raised n := by
  cases r with
  | recursive => exact he.operand_raised n k
  | literalOnly =>
    unfold Node.resolve
    cases he with
    | number h => simp [Node.literalOperand, Operand.raised, (Plain.number h).text_kept]
    | quoted h hq => simp [Node.literalOperand, Operand.raised, (Plain.quoted h hq).text_kept]
    | name | binary | negate =>
      have hunknown := raiseNumber_of_not not_looksTemporary_unknownOperand n.temporaries
      simp [Node.literalOperand, Operand.raised, hunknown]

end Plain

/-! ## Statements -/

namespace Node

variable {o : Options} {n : Counters}

theorem emitAll_raised {nodes : List Node}
    (h : ∀ node ∈ nodes, (∀ x ∈ node.names, ¬LooksTemporary x) →
      ∀ k, node.emit o (k.raised n) = (node.emit o k).raised n)
    (hn : ∀ x ∈ namesAll nodes, ¬LooksTemporary x) :
    ∀ k : Counters, emitAll o (k.raised n) nodes = (emitAll o k nodes).raised n := by
  induction nodes with
  | nil =>
    intro k
    rfl
  | cons node rest ih =>
    intro k
    obtain ⟨hnode, hrest⟩ := List.forall_mem_cons.1 h
    obtain ⟨hn₁, hn₂⟩ := List.forall_mem_append.1 hn
    rw [emitAll, hnode hn₁, Emitted.raised, ih hrest hn₂, emitAll]
    simp [Emitted.raised]

end Node

/-- A statement without temporaries of its own is lowered alike from all counters. -/
theorem PlainStatement.emit_raised {o : Options} {n : Counters} {node : Node}
    (h : PlainStatement node) : (∀ x ∈ node.names, ¬LooksTemporary x) →
    ∀ k : Counters, node.emit o (k.raised n) = (node.emit o k).raised n := by
  have hvalue : ∀ {e : Node} (k : Counters), Plain e →
      e.resolve o.resolution (k.raised n).temporaries =
        (e.resolve o.resolution k.temporaries).raised n :=
    fun k he => he.resolve_raised n o.resolution k.temporaries
  induction h with
  | assign he =>
    intro hn k
    have htarget := raiseNumber_of_not (hn _ List.mem_cons_self) n.temporaries
    rw [Node.emit, hvalue k he]
    simp [Node.emit, Emitted.raised, Operand.raised, Counters.raised, htarget]
  | exit he =>
    intro hn k
    rw [Node.emit, hvalue k he]
    simp [Node.emit, Emitted.raised, Operand.raised, Counters.raised]
  | @branch c t e hc _ _ iht ihe =>
    intro hn k
    obtain ⟨-, hbodies⟩ := List.forall_mem_append.1 hn
    obtain ⟨hnt, hne⟩ := List.forall_mem_append.1 hbodies
    have ht := Node.emitAll_raised iht hnt
    have he := Node.emitAll_raised ihe hne
    have hf := o.polarity.fallen_of (R := fun body body' : List Node => ∀ k : Counters,
      Node.emitAll o (k.raised n) body = (Node.emitAll o k body').raised n) ht he
    have hj := o.polarity.jumped_of (R := fun body body' : List Node => ∀ k : Counters,
      Node.emitAll o (k.raised n) body = (Node.emitAll o k body').raised n) ht he
    -- the region that is jumped to is numbered from where the other one ends
    rw [Node.emit_branch, Node.emit_branch, Emitted.branch_raised, hvalue k hc,
      Counters.raised_inside, hf, Emitted.raised_counters, hj, Nat.add_right_comm _ 1,
      Nat.add_right_comm _ 2]
    rfl
  | @loop c body hc _ ih =>
    intro hn k
    obtain ⟨-, hbody⟩ := List.forall_mem_append.1 hn
    have hb := Node.emitAll_raised ih hbody
    rw [Node.emit_loop, Node.emit_loop, Emitted.loop_raised, hvalue k hc, Counters.raised_inside,
      hb, Nat.add_right_comm _ 1, Nat.add_right_comm _ 2]
    rfl

/-! ## Programs -/

open Code

theorem Grammar.Definition.emit_raised {ts : List Token} {f : Node} {d : Nat} {o : Options}
    {n : Counters} (h : Definition ts f d) (ht : ∀ t ∈ ts, t.Spelt)
    (hn : ∀ x ∈ f.names, ¬LooksTemporary x) (k : Counters) :
    f.emit o (k.raised n) = (f.emit o k).raised n := by
  cases h with
  | function _ _ _ hb =>
    obtain ⟨-, hbody⟩ := List.forall_mem_append.1 hn
    have hplain := hb.plain (fun t hm => ht t (by simp [hm])) hbody
    exact Node.emitAll_raised (fun node hm => (hplain node hm).emit_raised) hbody k

theorem Node.emitAll_append (o : Options) (fs gs : List Node) : ∀ k : Counters,
    (emitAll o k (fs ++ gs)).code =
      (emitAll o k fs).code ++ (emitAll o (emitAll o k fs).counters gs).code := by
  induction fs with
  | nil =>
    intro k
    rfl
  | cons f fs ih =>
    intro k
    rw [List.cons_append, emitAll, ih, emitAll, List.append_assoc]

namespace Program

/-- The counters after a program say how many temporaries and labels its code has. -/
theorem emit_counters (P : Program) (o : Options) :
    (P.emit o).counters = ⟨(computed (P.code o)).length, (labels (P.code o)).length⟩ := by
  have htemporaries := (Node.numbered_codeAll o P.functions {}).computed
  have hlabelled := (labelled_rule o).emitAll P.functions {}
  have hlabels := hlabelled.labels.length_eq
  rw [labelNames, List.length_map, List.length_range', ← Nat.zero_add (2 * _)] at hlabels
  unfold Program.code Program.emit
  rw [htemporaries, length_temporaryNames, hlabels, ← hlabelled.counters]
  rfl

theorem code_append {source : String} {P Q : Program} (o : Options)
    (hQ : ofTokens (Token.tokenizeSource source) = .ok Q)
    (hn : ∀ x ∈ Q.names, ¬LooksTemporary x) :
    (⟨P.functions ++ Q.functions⟩ : Program).code o = P.code o ++
      (Q.code o).map (Instruction.raised
        ⟨(computed (P.code o)).length, (labels (P.code o)).length⟩) := by
  obtain ⟨d, hd, -, -⟩ := definitions_of_ofTokens hQ
  have hfunction : ∀ f ∈ Q.functions, (∀ x ∈ f.names, ¬LooksTemporary x) → ∀ k : Counters,
      f.emit o (k.raised (P.emit o).counters) = (f.emit o k).raised (P.emit o).counters := by
    intro f hf hnames
    obtain ⟨us, d', hdef, hus⟩ := hd.of_mem hf
    exact hdef.emit_raised (fun t ht => Token.spelt_tokenizeSource source t (hus ht)) hnames
  have hlater := Node.emitAll_raised hfunction hn
  have hstart : ({} : Counters).raised (P.emit o).counters = (P.emit o).counters := by
    simp [Counters.raised]
  rw [← emit_counters, Program.code, Program.emit, Node.emitAll_append]
  show _ ++ (Node.emitAll o (P.emit o).counters Q.functions).code = _
  rw [← hstart, hlater {}, hstart]
  rfl

end Program

end ThreeAddress

import Mathlib.Data.List.Basic
import ThreeAddress.Code.Lowering

/-!
# Labels and jumps of a code list

`labels` and `targets` are the names that the labels of a code list mark and that its jumps go to;
`LabelAt` and `JumpAt` say where. Code that computes an operand is `Quiet`: it has neither.

`EmissionRule.emit` is the induction over emitted code: a fact that holds of quiet code and is kept
by one code after another, by the layout of a branch and by the layout of a loop holds of the code
of every node.
-/

namespace ThreeAddress

namespace Instruction

/-- The name of the place that a jump goes to. -/
def target? (i : Instruction) : Option String :=
  if i.isJump then some i.result else none

@[simp] theorem isLabel_label (name : String) : (label name).isLabel = true := by
  simp [isLabel, label]

@[simp] theorem labelName?_label (name : String) : (label name).labelName? = some name := by
  rw [labelName?, isLabel_label, if_pos rfl]
  simp [label]

@[simp] theorem labelName?_goto (name : String) : (goto name).labelName? = none := by
  simp [labelName?, isLabel, goto]

@[simp] theorem labelName?_assign (value target : String) :
    (assign value target).labelName? = none := by
  simp [labelName?, isLabel, assign]

@[simp] theorem labelName?_exit (value : String) : (exit value).labelName? = none := by
  simp [labelName?, isLabel, exit]

@[simp] theorem labelName?_jump (p : Polarity) (c name : String) :
    (p.jump c name).labelName? = none := by
  cases p <;> simp [labelName?, isLabel, Polarity.jump]

@[simp] theorem labelName?_operator (op : Operator) (x y z : String) :
    labelName? ⟨op.symbol, x, y, z⟩ = none := by
  cases op <;> simp [labelName?, isLabel, Operator.symbol]

@[simp] theorem labelName?_minus (x y z : String) : labelName? ⟨"minus", x, y, z⟩ = none := by
  simp [labelName?, isLabel]

/-- The operation of a jump does not end in a colon. -/
theorem isLabel_of_isJump {i : Instruction} (h : i.isJump = true) : i.isLabel = false := by
  simp only [isJump, Bool.or_eq_true, decide_eq_true_eq] at h
  rcases h with (h | h) | h <;> simp [isLabel, h]

@[simp] theorem target?_label (name : String) : (label name).target? = none := by
  have h : (label name).isJump = false := by
    by_contra hj
    have := isLabel_of_isJump (by simpa using hj)
    rw [isLabel_label] at this
    cases this
  simp [target?, h]

@[simp] theorem target?_goto (name : String) : (goto name).target? = some name := by
  simp [target?, isJump, goto]

@[simp] theorem target?_assign (value target : String) : (assign value target).target? = none := by
  simp [target?, isJump, assign]

@[simp] theorem target?_exit (value : String) : (exit value).target? = none := by
  simp [target?, isJump, exit]

@[simp] theorem target?_jump (p : Polarity) (c name : String) :
    (p.jump c name).target? = some name := by
  cases p <;> simp [target?, isJump, Polarity.jump]

@[simp] theorem target?_operator (op : Operator) (x y z : String) :
    target? ⟨op.symbol, x, y, z⟩ = none := by
  cases op <;> simp [target?, isJump, Operator.symbol]

@[simp] theorem target?_minus (x y z : String) : target? ⟨"minus", x, y, z⟩ = none := by
  simp [target?, isJump]

end Instruction

theorem numbered_injective (base : String) :
    Function.Injective fun n : Nat => base ++ toString n := by
  intro m n h
  have hl := congrArg String.toList h
  simp only [String.toList_append, List.append_cancel_left_eq] at hl
  have hd := congrArg (fun ds => Nat.ofDigitChars 10 ds 0) hl
  simpa using hd

theorem labelName_injective : Function.Injective labelName := numbered_injective "L"

theorem temporaryName_injective : Function.Injective temporaryName := numbered_injective "t"

namespace Code

/-! ## Names and places -/

/-- The names of the labels, in code order. -/
def labels (code : List Instruction) : List String := code.filterMap Instruction.labelName?

/-- The names that the jumps go to, in code order. -/
def targets (code : List Instruction) : List String := code.filterMap Instruction.target?

section
variable (a b : List Instruction) (p : Polarity) (x name : String)

@[simp] theorem labels_nil : labels [] = [] := rfl

@[simp] theorem labels_append : labels (a ++ b) = labels a ++ labels b := List.filterMap_append

@[simp] theorem labels_label_cons : labels (.label name :: b) = name :: labels b :=
  List.filterMap_cons_some (Instruction.labelName?_label name)

@[simp] theorem labels_goto_cons : labels (.goto name :: b) = labels b :=
  List.filterMap_cons_none (Instruction.labelName?_goto name)

@[simp] theorem labels_jump_cons : labels (p.jump x name :: b) = labels b :=
  List.filterMap_cons_none (Instruction.labelName?_jump p x name)

@[simp] theorem targets_nil : targets [] = [] := rfl

@[simp] theorem targets_append : targets (a ++ b) = targets a ++ targets b :=
  List.filterMap_append

@[simp] theorem targets_label_cons : targets (.label name :: b) = targets b :=
  List.filterMap_cons_none (Instruction.target?_label name)

@[simp] theorem targets_goto_cons : targets (.goto name :: b) = name :: targets b :=
  List.filterMap_cons_some (Instruction.target?_goto name)

@[simp] theorem targets_jump_cons : targets (p.jump x name :: b) = name :: targets b :=
  List.filterMap_cons_some (Instruction.target?_jump p x name)

end

/-- The instruction at `i` has the name `x` by the reading `f`. -/
def At (f : Instruction → Option String) (code : List Instruction) (i : Nat) (x : String) : Prop :=
  ∃ ins, code[i]? = some ins ∧ f ins = some x

/-- The label `x` is at `i`. -/
abbrev LabelAt := At Instruction.labelName?

/-- A jump to `x` is at `i`. -/
abbrev JumpAt := At Instruction.target?

section
variable {f : Instruction → Option String} {a b : List Instruction} {i : Nat} {x : String}

@[simp] theorem at_nil : ¬ At f [] i x := by simp [At]

theorem at_cons {ins : Instruction} :
    At f (ins :: b) i x ↔ (i = 0 ∧ f ins = some x) ∨ ∃ j, i = j + 1 ∧ At f b j x := by
  cases i with
  | zero => simp [At]
  | succ i => simp [At]

theorem at_append :
    At f (a ++ b) i x ↔ At f a i x ∨ ∃ j, i = a.length + j ∧ At f b j x := by
  rcases Nat.lt_or_ge i a.length with h | h
  · have hr : ¬ ∃ j, i = a.length + j ∧ At f b j x := by
      rintro ⟨j, rfl, -⟩
      omega
    rw [or_iff_left hr]
    simp only [At, List.getElem?_append_left h]
  · have hl : ¬ At f a i x := by
      rintro ⟨ins, hi, -⟩
      rw [List.getElem?_eq_none h] at hi
      cases hi
    rw [or_iff_right hl]
    obtain ⟨j, rfl⟩ := Nat.exists_eq_add_of_le h
    simp [At, List.getElem?_append_right h]

theorem at_unique {y : String} (h : At f a i x) (h' : At f a i y) : x = y := by
  obtain ⟨ins, hi, hx⟩ := h
  obtain ⟨ins', hi', hy⟩ := h'
  rw [hi, Option.some.injEq] at hi'
  subst hi'
  rw [hx, Option.some.injEq] at hy
  exact hy

theorem at_iff_mem : (∃ i, At f a i x) ↔ x ∈ a.filterMap f := by
  rw [List.mem_filterMap]
  constructor
  · rintro ⟨i, ins, hi, hx⟩
    exact ⟨ins, List.mem_of_getElem? hi, hx⟩
  · rintro ⟨ins, hm, hx⟩
    obtain ⟨i, hi⟩ := List.mem_iff_getElem?.1 hm
    exact ⟨i, ins, hi, hx⟩

/-- A name that is read once is read at one place. -/
theorem existsUnique_at_of_count (h : (a.filterMap f).count x = 1) : ∃! i, At f a i x := by
  induction a with
  | nil => simp at h
  | cons ins a ih =>
    by_cases hx : f ins = some x
    · rw [List.filterMap_cons_some hx, List.count_cons_self] at h
      have hn : x ∉ a.filterMap f := List.count_eq_zero.1 (by omega)
      refine ⟨0, at_cons.2 (.inl ⟨rfl, hx⟩), fun i hi => ?_⟩
      rcases at_cons.1 hi with ⟨rfl, -⟩ | ⟨j, -, hj⟩
      · rfl
      · exact absurd (at_iff_mem.1 ⟨j, hj⟩) hn
    · have hc : (a.filterMap f).count x = 1 := by
        cases hf : f ins with
        | none => rwa [List.filterMap_cons_none hf] at h
        | some y =>
          rw [List.filterMap_cons_some hf, List.count_cons_of_ne] at h
          · exact h
          · rintro rfl
            exact hx hf
      obtain ⟨i, hi, hu⟩ := ih hc
      refine ⟨i + 1, at_cons.2 (.inr ⟨i, rfl, hi⟩), fun j hj => ?_⟩
      rcases at_cons.1 hj with ⟨-, hx'⟩ | ⟨j, rfl, hj⟩
      · exact absurd hx' hx
      · rw [hu j hj]

end

/-! ## Code without labels and jumps -/

/-- Code with neither labels nor jumps. -/
def Quiet (code : List Instruction) : Prop :=
  ∀ i ∈ code, i.labelName? = none ∧ i.target? = none

theorem Quiet.nil : Quiet [] := by simp [Quiet]

theorem Quiet.append {a b : List Instruction} (ha : Quiet a) (hb : Quiet b) : Quiet (a ++ b) := by
  intro i hi
  rcases List.mem_append.1 hi with hi | hi
  · exact ha i hi
  · exact hb i hi

theorem Quiet.concat {code : List Instruction} {i : Instruction} (h : Quiet code)
    (hl : i.labelName? = none) (ht : i.target? = none) : Quiet (code ++ [i]) :=
  h.append fun j hj => by rw [List.mem_singleton.1 hj]; exact ⟨hl, ht⟩

theorem Quiet.labels_eq {code : List Instruction} (h : Quiet code) : labels code = [] :=
  List.filterMap_eq_nil_iff.2 fun i hi => (h i hi).1

theorem Quiet.targets_eq {code : List Instruction} (h : Quiet code) : targets code = [] :=
  List.filterMap_eq_nil_iff.2 fun i hi => (h i hi).2

theorem not_jumpAt {code : List Instruction} (h : targets code = []) {i : Nat} {x : String} :
    ¬ JumpAt code i x := by
  intro hi
  have hm := at_iff_mem.1 ⟨i, hi⟩
  rw [← targets, h] at hm
  cases hm

theorem quiet_operand (used : Nat) (node : Node) : Quiet (node.operand used).code := by
  fun_induction Node.operand used node with
  | case3 used op left right l r t hl hr => exact (hl.append hr).concat (by simp) (by simp)
  | case4 used value v t hv => exact hv.concat (by simp) (by simp)
  | _ => exact Quiet.nil

theorem quiet_resolve (r : Resolution) (used : Nat) (node : Node) :
    Quiet (node.resolve r used).code := by
  cases r with
  | recursive => exact quiet_operand used node
  | literalOnly => cases node <;> exact Quiet.nil

end Code

/-! ## Emitted code -/

/-- The body of a branch that runs when its condition does not jump. -/
def Polarity.fallen {α : Type} (p : Polarity) (thenBody elseBody : α) : α :=
  match p with
  | .jumpIfFalse => thenBody
  | .jumpIfTrue => elseBody

/-- The body of a branch that its condition jumps to. -/
def Polarity.jumped {α : Type} (p : Polarity) (thenBody elseBody : α) : α :=
  match p with
  | .jumpIfFalse => elseBody
  | .jumpIfTrue => thenBody

theorem Polarity.fallen_of {α β : Type} {R : α → β → Prop} (p : Polarity) {a a' : α} {b b' : β}
    (h : R a b) (h' : R a' b') : R (p.fallen a a') (p.fallen b b') := by
  cases p with
  | jumpIfFalse => exact h
  | jumpIfTrue => exact h'

theorem Polarity.jumped_of {α β : Type} {R : α → β → Prop} (p : Polarity) {a a' : α} {b b' : β}
    (h : R a b) (h' : R a' b') : R (p.jumped a a') (p.jumped b b') := by
  cases p with
  | jumpIfFalse => exact h'
  | jumpIfTrue => exact h

namespace Node

mutual

/-- The branches and loops of a node in the order in which their code is emitted: each before those
inside it. -/
def constructs (p : Polarity) : Node → List Node
  | .function _ _ _ body => constructsAll p body
  | .branch condition thenBody elseBody =>
    .branch condition thenBody elseBody ::
      (p.fallen (constructsAll p thenBody) (constructsAll p elseBody) ++
        p.jumped (constructsAll p thenBody) (constructsAll p elseBody))
  | .loop condition body => .loop condition body :: constructsAll p body
  | .assign .. | .exit _ | .binary .. | .negate _ | .literal .. | .var _ => []

/-- The branches and loops of nodes emitted one after the other. -/
def constructsAll (p : Polarity) : List Node → List Node
  | [] => []
  | node :: rest => constructs p node ++ constructsAll p rest

end

/-- The layout of a branch under either polarity. -/
theorem emit_branch (o : Options) (k : Counters) (condition : Node)
    (thenBody elseBody : List Node) :
    (Node.branch condition thenBody elseBody).emit o k =
      Emitted.branch o.polarity (condition.resolve o.resolution k.temporaries) (k.labels + 1)
        (k.labels + 2)
        (emitAll o ⟨(condition.resolve o.resolution k.temporaries).temporaries, k.labels + 2⟩
          (o.polarity.fallen thenBody elseBody))
        (emitAll o
          (emitAll o ⟨(condition.resolve o.resolution k.temporaries).temporaries, k.labels + 2⟩
            (o.polarity.fallen thenBody elseBody)).counters
          (o.polarity.jumped thenBody elseBody)) := by
  obtain ⟨p, r⟩ := o
  cases p <;> rfl

theorem emit_loop (o : Options) (k : Counters) (condition : Node) (body : List Node) :
    (Node.loop condition body).emit o k =
      Emitted.loop o.polarity (condition.resolve o.resolution k.temporaries) (k.labels + 1)
        (k.labels + 2)
        (emitAll o ⟨(condition.resolve o.resolution k.temporaries).temporaries, k.labels + 2⟩
          body) := rfl

end Node

/-- A fact about counters, the constructs emitted from them on and the outcome, that each shape of
emitted code has if its parts have it. -/
structure EmissionRule (o : Options) (P : Counters → List Node → Emitted → Prop) : Prop where
  quiet : ∀ {k k' : Counters} {code : List Instruction}, k'.labels = k.labels →
    Code.Quiet code → P k [] ⟨k', code⟩
  append : ∀ {k : Counters} {cs ds : List Node} {a b : Emitted}, P k cs a → P a.counters ds b →
    P k (cs ++ ds) ⟨b.counters, a.code ++ b.code⟩
  branch : ∀ {k : Counters} {c : Node} {t e fs gs : List Node} {v : Operand} {f g : Emitted},
    Code.Quiet v.code → P ⟨v.temporaries, k.labels + 2⟩ fs f → P f.counters gs g →
    (Node.branch c t e).emit o k =
      Emitted.branch o.polarity v (k.labels + 1) (k.labels + 2) f g →
    P k (.branch c t e :: (fs ++ gs))
      (Emitted.branch o.polarity v (k.labels + 1) (k.labels + 2) f g)
  loop : ∀ {k : Counters} {c : Node} {body fs : List Node} {v : Operand} {f : Emitted},
    Code.Quiet v.code → P ⟨v.temporaries, k.labels + 2⟩ fs f →
    (Node.loop c body).emit o k = Emitted.loop o.polarity v (k.labels + 1) (k.labels + 2) f →
    P k (.loop c body :: fs) (Emitted.loop o.polarity v (k.labels + 1) (k.labels + 2) f)

namespace EmissionRule

variable {o : Options} {P : Counters → List Node → Emitted → Prop}

mutual

theorem emit (h : EmissionRule o P) :
    ∀ (node : Node) (k : Counters), P k (node.constructs o.polarity) (node.emit o k)
  | .function _ _ _ body, k => h.emitAll body k
  | .assign _ value, k => h.quiet rfl ((Code.quiet_resolve _ _ value).concat (by simp) (by simp))
  | .exit value, k => h.quiet rfl ((Code.quiet_resolve _ _ value).concat (by simp) (by simp))
  | .branch c t e, k => by
    have ht := h.emitAll t
    have he := h.emitAll e
    have hf := o.polarity.fallen_of (R := fun cs body => ∀ k, P k cs (Node.emitAll o k body)) ht he
    have hj := o.polarity.jumped_of (R := fun cs body => ∀ k, P k cs (Node.emitAll o k body)) ht he
    rw [Node.emit_branch]
    exact h.branch (Code.quiet_resolve _ _ c) (hf _) (hj _) (Node.emit_branch o k c t e)
  | .loop c body, k =>
    h.loop (Code.quiet_resolve _ _ c) (h.emitAll body _) (Node.emit_loop o k c body)
  | .binary op left right, k => h.quiet rfl (Code.quiet_resolve _ _ (.binary op left right))
  | .negate value, k => h.quiet rfl (Code.quiet_resolve _ _ (.negate value))
  | .literal .., _ => h.quiet rfl Code.Quiet.nil
  | .var _, _ => h.quiet rfl Code.Quiet.nil

theorem emitAll (h : EmissionRule o P) :
    ∀ (nodes : List Node) (k : Counters),
      P k (Node.constructsAll o.polarity nodes) (Node.emitAll o k nodes)
  | [], _ => h.quiet rfl Code.Quiet.nil
  | node :: rest, k => h.append (h.emit node k) (h.emitAll rest _)

end

end EmissionRule

end ThreeAddress

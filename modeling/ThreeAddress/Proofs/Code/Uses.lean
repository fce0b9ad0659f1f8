import ThreeAddress.Proofs.Code.Layouts
import ThreeAddress.Proofs.Code.Temporaries

/-!
# Uses of temporaries

Every temporary is computed once and taken once, and nothing but operators is between the two
(`temporaries_taken_once`).

The proof follows the operands that wait to be taken (`Leaves`), as on a stack. The code of an
expression leaves its own operand; while the right operand of an operator is computed the left one
waits, and that code is nothing but operators; the instruction that takes all waiting operands
leaves none, and the next one starts anew. So a statement leaves nothing.
-/

namespace ThreeAddress

open Code

/-! ## Operands of instructions -/

namespace Instruction

/-- What an instruction takes. -/
def operands (i : Instruction) : List String :=
  [i.arg1, i.arg2]

@[simp] theorem operands_label (name : String) : (label name).operands = ["", ""] := rfl

@[simp] theorem operands_goto (name : String) : (goto name).operands = ["", ""] := rfl

@[simp] theorem operands_assign (value target : String) :
    (assign value target).operands = [value, ""] := rfl

@[simp] theorem operands_exit (value : String) : (exit value).operands = [value, ""] := rfl

@[simp] theorem operands_jump (p : Polarity) (c name : String) :
    (p.jump c name).operands = [c, "goto"] := by
  cases p <;> rfl

end Instruction

theorem temporaryName_ne {x : String} (hx : ¬LooksTemporary x) (n : Nat) : temporaryName n ≠ x :=
  fun h => hx (h ▸ looksTemporary_temporaryName n)

theorem not_looksTemporary_empty : ¬LooksTemporary "" := by
  rintro ⟨ds, -, -, hx⟩
  cases hx

theorem not_looksTemporary_goto : ¬LooksTemporary "goto" := by
  rintro ⟨ds, -, -, hx⟩
  cases hx

/-- A second argument that is no temporary takes none. -/
theorem count_temporaryName {y : String} (hy : ¬LooksTemporary y) (x : String) (n : Nat) :
    [x, y].count (temporaryName n) = [x].count (temporaryName n) := by
  have hne := (temporaryName_ne hy n).symm
  simp [List.count_cons, hne]

namespace Code

/-- No instruction of the code takes `x`. -/
def Untaken (code : List Instruction) (x : String) : Prop :=
  ∀ i ∈ code, x ∉ i.operands

/-- An operator computes `x`. Only operators come after it, and `x` is not taken. -/
def Waiting (code : List Instruction) (x : String) : Prop :=
  ∃ before d after, code = before ++ d :: after ∧ d.isOperation = true ∧ d.result = x ∧
    (∀ i ∈ after, i.isOperation = true) ∧ Untaken code x

/-- An operator computes `x` and a later instruction takes it, with only operators between the two.
No other instruction takes it. -/
def TakenOnce (code : List Instruction) (x : String) : Prop :=
  ∃ before d between use after, code = before ++ d :: (between ++ use :: after) ∧
    d.isOperation = true ∧ d.result = x ∧ (∀ i ∈ between, i.isOperation = true) ∧
    use.operands.count x = 1 ∧ Untaken (before ++ d :: (between ++ after)) x

section
variable {a b code : List Instruction} {i : Instruction} {x : String}

@[simp] theorem untaken_nil : Untaken [] x := by simp [Untaken]

@[simp] theorem untaken_append : Untaken (a ++ b) x ↔ Untaken a x ∧ Untaken b x :=
  List.forall_mem_append

@[simp] theorem untaken_cons : Untaken (i :: b) x ↔ x ∉ i.operands ∧ Untaken b x :=
  List.forall_mem_cons

theorem Waiting.before (ha : Untaken a x) (h : Waiting b x) : Waiting (a ++ b) x := by
  obtain ⟨before, d, after, rfl, hd, hx, hops, hu⟩ := h
  exact ⟨a ++ before, d, after, by simp, hd, hx, hops, untaken_append.2 ⟨ha, hu⟩⟩

theorem Waiting.after (h : Waiting a x) (hb : ∀ i ∈ b, i.isOperation = true)
    (hu : Untaken b x) : Waiting (a ++ b) x := by
  obtain ⟨before, d, after, rfl, hd, hx, hops, hu'⟩ := h
  exact ⟨before, d, after ++ b, by simp, hd, hx, List.forall_mem_append.2 ⟨hops, hb⟩,
    untaken_append.2 ⟨hu', hu⟩⟩

theorem Waiting.take (h : Waiting a x) (hi : i.operands.count x = 1) : TakenOnce (a ++ [i]) x := by
  obtain ⟨before, d, after, rfl, hd, hx, hops, hu⟩ := h
  exact ⟨before, d, after, i, [], by simp, hd, hx, hops, hi, by simpa using hu⟩

theorem TakenOnce.append (ha : Untaken a x) (h : TakenOnce code x) (hb : Untaken b x) :
    TakenOnce (a ++ code ++ b) x := by
  obtain ⟨before, d, between, use, after, rfl, hd, hx, hops, hone, hu⟩ := h
  refine ⟨a ++ before, d, between, use, after ++ b, by simp, hd, hx, hops, hone, ?_⟩
  simp only [untaken_append, untaken_cons] at hu ⊢
  obtain ⟨hbefore, hnd, hbetween, hafter⟩ := hu
  exact ⟨⟨ha, hbefore⟩, hnd, hbetween, hafter, hb⟩

end

/-! ## Operands that wait -/

/-- The code computes the temporaries between `lo` and `hi`. Those in `left` wait to be taken, and
the others have been taken. -/
structure Leaves (lo hi : Nat) (left : List String) (code : List Instruction) : Prop where
  le : lo ≤ hi
  others : ∀ n, ¬(lo < n ∧ n ≤ hi) → Untaken code (temporaryName n)
  taken : ∀ n, lo < n → n ≤ hi → temporaryName n ∉ left → TakenOnce code (temporaryName n)
  waiting : ∀ n, temporaryName n ∈ left →
    (lo < n ∧ n ≤ hi) ∧ left.count (temporaryName n) = 1 ∧ Waiting code (temporaryName n)

namespace Leaves

variable {lo mid hi k : Nat} {xs ys left : List String} {a b code : List Instruction}
  {i : Instruction} {x : String}

theorem leaf (hx : ¬LooksTemporary x) : Leaves k k [x] [] where
  le := Nat.le_refl k
  others := by simp
  taken := by omega
  waiting n hn := absurd (List.mem_singleton.1 hn) (temporaryName_ne hx n)

/-- Code that takes no temporary. -/
theorem silent (h : ∀ n, Untaken code (temporaryName n)) : Leaves k k [] code where
  le := Nat.le_refl k
  others n _ := h n
  taken := by omega
  waiting := by simp

/-- What the first part leaves waits while the second part computes nothing but operators. -/
theorem append (ha : Leaves lo mid xs a) (hb : Leaves mid hi ys b)
    (hops : xs = [] ∨ ∀ i ∈ b, i.isOperation = true) : Leaves lo hi (xs ++ ys) (a ++ b) where
  le := Nat.le_trans ha.le hb.le
  others n hn := by
    have hle := ha.le
    have hle' := hb.le
    exact untaken_append.2 ⟨ha.others n (by omega), hb.others n (by omega)⟩
  taken n hlo hhi hn := by
    obtain ⟨hxs, hys⟩ := not_or.1 (fun h => hn (List.mem_append.2 h))
    rcases Nat.lt_or_ge mid n with hmid | hmid
    · have h := (hb.taken n hmid hhi hys).append (ha.others n (by omega)) untaken_nil
      rwa [List.append_nil] at h
    · exact (ha.taken n hlo hmid hxs).append untaken_nil (hb.others n (by omega))
  waiting n hn := by
    have hle := ha.le
    have hle' := hb.le
    rcases List.mem_append.1 hn with hn | hn
    · obtain ⟨hrange, hone, hw⟩ := ha.waiting n hn
      have hys : temporaryName n ∉ ys := fun h => by
        have := (hb.waiting n h).1
        omega
      have hb' : ∀ i ∈ b, i.isOperation = true := by
        rcases hops with rfl | hops
        · cases hn
        · exact hops
      refine ⟨by omega, ?_, hw.after hb' (hb.others n (by omega))⟩
      rw [List.count_append, hone, List.count_eq_zero.2 hys]
    · obtain ⟨hrange, hone, hw⟩ := hb.waiting n hn
      have hxs : temporaryName n ∉ xs := fun h => by
        have := (ha.waiting n h).1
        omega
      refine ⟨by omega, ?_, hw.before (ha.others n (by omega))⟩
      rw [List.count_append, hone, List.count_eq_zero.2 hxs]

theorem silent_append (ha : ∀ n, Untaken a (temporaryName n)) (h : Leaves lo hi left code) :
    Leaves lo hi left (a ++ code) :=
  (silent ha).append h (.inl rfl)

theorem append_silent (h : Leaves lo hi [] code) (hb : ∀ n, Untaken b (temporaryName n)) :
    Leaves lo hi [] (code ++ b) :=
  h.append (silent hb) (.inl rfl)

/-- An instruction takes all operands that wait. -/
theorem take (h : Leaves lo hi left code)
    (htake : ∀ n, i.operands.count (temporaryName n) = left.count (temporaryName n)) :
    Leaves lo hi [] (code ++ [i]) := by
  have hmem : ∀ n, temporaryName n ∈ i.operands ↔ temporaryName n ∈ left := fun n => by
    rw [← List.count_pos_iff, ← List.count_pos_iff, htake]
  have huntaken : ∀ n, temporaryName n ∉ left → Untaken [i] (temporaryName n) := fun n hn => by
    simpa [hmem] using hn
  refine ⟨h.le, fun n hn => ?_, fun n hlo hhi _ => ?_, by simp⟩
  · have hleft : temporaryName n ∉ left := fun hl => hn (h.waiting n hl).1
    exact untaken_append.2 ⟨h.others n hn, huntaken n hleft⟩
  · by_cases hl : temporaryName n ∈ left
    · obtain ⟨-, hone, hw⟩ := h.waiting n hl
      exact hw.take (by rw [htake, hone])
    · exact (h.taken n hlo hhi hl).append untaken_nil (huntaken n hl)

/-- An operator takes all operands that wait and leaves the next temporary. -/
theorem compute (h : Leaves lo hi left code)
    (htake : ∀ n, i.operands.count (temporaryName n) = left.count (temporaryName n))
    (hop : i.isOperation = true) (hr : i.result = temporaryName (hi + 1)) :
    Leaves lo (hi + 1) [temporaryName (hi + 1)] (code ++ [i]) := by
  have ht := h.take htake
  have hle := h.le
  refine ⟨by omega, fun n hn => ht.others n (by omega), fun n hlo hhi hn => ?_, fun n hn => ?_⟩
  · have hne : n ≠ hi + 1 := fun he => hn (he ▸ List.mem_singleton_self _)
    exact ht.taken n hlo (by omega) (by simp)
  · obtain rfl := temporaryName_injective (List.mem_singleton.1 hn)
    refine ⟨by omega, by simp, code, i, [], rfl, hop, hr, by simp, ht.others _ (by omega)⟩

end Leaves

end Code

/-! ## Expressions -/

/-- The code of an expression leaves its operand. -/
theorem Plain.leaves {e : Node} (he : Plain e) :
    ∀ k, Leaves k (e.operand k).temporaries [(e.operand k).name] (e.operand k).code := by
  induction he with
  | number h => exact fun k => .leaf (Plain.number h).not_looksTemporary
  | quoted h hq => exact fun k => .leaf (Plain.quoted h hq).not_looksTemporary
  | name _ _ hx => exact fun k => .leaf hx
  | @binary op left right _ _ ihl ihr =>
    intro k
    -- the left operand waits for the right one
    have hboth := (ihl k).append (ihr _) (.inr (right.isOperation_of_mem_operand _))
    exact hboth.compute (fun n => rfl) (Instruction.isOperation_operator ..) rfl
  | negate _ ih =>
    intro k
    exact (ih k).compute (fun n => count_temporaryName not_looksTemporary_empty _ n)
      (Instruction.isOperation_minus ..) rfl

/-! ## Statements -/

namespace Code.Leaves

variable {lo mid hi mid' : Nat} {p : Polarity} {v : Operand} {x y : Nat} {f g : Emitted}

theorem untaken_label (name : String) (n : Nat) :
    Untaken [.label name] (temporaryName n) := by
  simp [temporaryName_ne not_looksTemporary_empty]

theorem untaken_goto_label (name name' : String) (n : Nat) :
    Untaken [.goto name, .label name'] (temporaryName n) := by
  simp [temporaryName_ne not_looksTemporary_empty]

theorem guard (name : String) (hv : Leaves lo mid [v.name] v.code) :
    Leaves lo mid [] (v.code ++ [p.jump v.name name]) :=
  hv.take fun n => by
    rw [Instruction.operands_jump]
    exact count_temporaryName not_looksTemporary_goto _ n

theorem branch (hv : Leaves lo mid [v.name] v.code) (hf : Leaves mid mid' [] f.code)
    (hg : Leaves mid' hi [] g.code) : Leaves lo hi [] (Emitted.branch p v x y f g).code := by
  have hfallen := ((hv.guard (p := p) (labelName x)).append hf (.inl rfl)).append_silent
    (untaken_goto_label (labelName y) (labelName x))
  exact (hfallen.append hg (.inl rfl)).append_silent (untaken_label (labelName y))

theorem loop (hv : Leaves lo mid [v.name] v.code) (hf : Leaves mid hi [] f.code) :
    Leaves lo hi [] (Emitted.loop p v x y f).code := by
  have hguard := (hv.guard (p := p) (labelName y)).silent_append (untaken_label (labelName x))
  have hbody := (hguard.append hf (.inl rfl)).append_silent
    (untaken_goto_label (labelName x) (labelName y))
  simpa [Emitted.loop] using hbody

end Code.Leaves

section
variable {p : Polarity}

theorem Node.emitAll_leaves {nodes : List Node}
    (h : ∀ node ∈ nodes, ∀ k : Counters, Leaves k.temporaries
      (node.emit (computing p) k).counters.temporaries [] (node.emit (computing p) k).code) :
    ∀ k : Counters, Leaves k.temporaries (emitAll (computing p) k nodes).counters.temporaries []
      (emitAll (computing p) k nodes).code := by
  induction nodes with
  | nil => exact fun k => .silent fun n => untaken_nil
  | cons node rest ih =>
    intro k
    obtain ⟨hnode, hrest⟩ := List.forall_mem_cons.1 h
    exact (hnode k).append (ih hrest _) (.inl rfl)

/-- Nothing waits after a statement. -/
theorem PlainStatement.leaves {node : Node} (h : PlainStatement node) :
    ∀ k : Counters, Leaves k.temporaries (node.emit (computing p) k).counters.temporaries []
      (node.emit (computing p) k).code := by
  induction h with
  | assign he =>
    exact fun k => (he.leaves k.temporaries).take
      fun n => count_temporaryName not_looksTemporary_empty _ n
  | exit he =>
    exact fun k => (he.leaves k.temporaries).take
      fun n => count_temporaryName not_looksTemporary_empty _ n
  | branch hc _ _ iht ihe =>
    intro k
    have hcondition := hc.leaves k.temporaries
    have ht := Node.emitAll_leaves iht
    have he := Node.emitAll_leaves ihe
    cases p with
    | jumpIfFalse => exact .branch hcondition (ht (k.inside _)) (he _)
    | jumpIfTrue => exact .branch hcondition (he (k.inside _)) (ht _)
  | loop hc _ ih =>
    intro k
    exact .loop (hc.leaves k.temporaries) (Node.emitAll_leaves ih (k.inside _))

end

/-! ## Programs -/

theorem Node.mem_namesAll {nodes : List Node} {node : Node} (h : node ∈ nodes) {x : String}
    (hx : x ∈ node.names) : x ∈ namesAll nodes := by
  induction nodes with
  | nil => cases h
  | cons first rest ih =>
    rcases List.mem_cons.1 h with rfl | h
    · exact List.mem_append_left _ hx
    · exact List.mem_append_right _ (ih h)

/-- The operators of a program compute the temporaries in the order of their numbers, one for each
operator of the source. Each of them is taken by one instruction, after the operator that computes
it and with nothing but operators between the two. -/
theorem temporaries_taken_once {source : String} {p : Polarity} {c : Compilation}
    (h : Compilation.ofSource source ⟨p, .recursive⟩ = .ok c)
    (hnames : ∀ x ∈ c.program.names, ¬LooksTemporary x) :
    let n := Node.allOperatorsIn c.program.functions
    computed c.code = temporaryNames 0 n ∧ ∀ x ∈ computed c.code, TakenOnce c.code x := by
  obtain ⟨P, hP, rfl⟩ := Compilation.ofSource_eq_ok_iff.1 h
  have hlast : (P.emit (computing p)).counters.temporaries = Node.allOperatorsIn P.functions := by
    rw [Program.emit, Node.emitAll_temporaries, Nat.zero_add]
  have hcomputed : computed (P.code (computing p)) =
      temporaryNames 0 (Node.allOperatorsIn P.functions) := by
    rw [← hlast]
    exact (Node.numbered_emitAll p P.functions {}).computed
  refine ⟨hcomputed, fun x hx => ?_⟩
  have hfunction : ∀ f ∈ P.functions, ∀ k : Counters, Leaves k.temporaries
      (f.emit (computing p) k).counters.temporaries [] (f.emit (computing p) k).code := by
    intro f hf
    have hnames' : ∀ x ∈ f.names, ¬LooksTemporary x := fun x hx =>
      hnames x (Node.mem_namesAll hf hx)
    obtain ⟨returns, name, params, body, rfl, hbody⟩ := Program.plain_of_mem hP hf hnames'
    exact Node.emitAll_leaves fun node hnode => (hbody node hnode).leaves
  have hall := Node.emitAll_leaves hfunction {}
  have hx' : x ∈ temporaryNames 0 (Node.allOperatorsIn P.functions) := hcomputed ▸ hx
  obtain ⟨m, hpos, hle, rfl⟩ := mem_temporaryNames.1 hx'
  exact hall.taken m hpos (hlast ▸ hle) (by simp)

/-- The left operand of the subtraction waits while the right one is computed in two steps. -/
theorem temporaries_taken_once_loop :
    let source := "int f(int a) \x7b while (a > 0) \x7b a = a * 2 - -(a + 1); \x7d return a; \x7d"
    ∃ c, Compilation.ofSource source {} = .ok c ∧ (∀ x ∈ c.program.names, ¬LooksTemporary x) ∧
      computed c.code = ["t1", "t2", "t3", "t4", "t5"] ∧
      c.code = [.label "L1", ⟨">", "a", "0", "t1"⟩, ⟨"ifFalse", "t1", "goto", "L2"⟩,
        ⟨"*", "a", "2", "t2"⟩, ⟨"+", "a", "1", "t3"⟩, ⟨"minus", "t3", "", "t4"⟩,
        ⟨"-", "t2", "t4", "t5"⟩, .assign "t5" "a", .goto "L1", .label "L2", .exit "a"] ∧
      TakenOnce c.code "t2" := by
  intro source
  let P : Program := ⟨[.function .int "f" [⟨.int, "a"⟩] [.loop (.binary .gt (.var "a")
    (.literal .int "0")) [.assign "a" (.binary .sub (.binary .mul (.var "a") (.literal .int "2"))
      (.negate (.binary .add (.var "a") (.literal .int "1"))))], .exit (.var "a")]]⟩
  have hP : Program.ofTokens (Token.tokenizeSource
      "int f(int a) \x7b while (a > 0) \x7b a = a * 2 - -(a + 1); \x7d return a; \x7d") =
      .ok P := rfl
  have h : Compilation.ofSource source ⟨.jumpIfFalse, .recursive⟩ = .ok _ :=
    Compilation.ofSource_eq_ok_iff.2 ⟨P, hP, rfl⟩
  have hnames : ∀ x ∈ P.names, ¬LooksTemporary x := fun x hx => by
    have hxa : x = "a" := by simpa [P, Program.names, Node.names, Node.namesAll] using hx
    rintro ⟨ds, -, -, hd⟩
    rw [hxa] at hd
    cases hd
  obtain ⟨hcomputed, htaken⟩ := temporaries_taken_once h hnames
  exact ⟨_, h, hnames, hcomputed, rfl, htaken "t2" (by rw [hcomputed]; decide)⟩

end ThreeAddress

import ThreeAddress.Proofs.Code.Operands

/-!
# Emitted code does what its tree says

`Executes.runs`: the code of a statement comes to the outcome of its evaluation. `executes_of_run`:
where a run of the code halts, the evaluation has an outcome. The first is an induction on the
evaluation, the second on the length of the run.

Both need the same facts about the layouts: where the parts of a branch and of a loop stand
(`BranchAt`, `LoopAt`), and that their conditions lead to the part that is to run.
-/

namespace ThreeAddress

open Code

variable {V : Type*} {m : Domain V} {code : List Instruction} {p : Polarity}

/-- A lowering that computes operators. -/
abbrev computing (p : Polarity) : Options := ⟨p, .recursive⟩

/-- The counters after the condition of a branch or of a loop. -/
abbrev Counters.inside (k : Counters) (c : Node) : Counters :=
  ⟨(c.operand k.temporaries).temporaries, k.labels + 2⟩

/-! ## Temporaries only become more -/

mutual

theorem Node.le_emit (p : Polarity) :
    ∀ (node : Node) (k : Counters), k.temporaries ≤ (node.emit (computing p) k).counters.temporaries
  | .function _ _ _ body, k => Node.le_emitAll p body k
  | .assign _ value, k => value.le_temporaries k.temporaries
  | .exit value, k => value.le_temporaries k.temporaries
  | .branch c t e, k => by
    have hc := c.le_temporaries k.temporaries
    have ht := Node.le_emitAll p t
    have he := Node.le_emitAll p e
    cases p with
    | jumpIfFalse => exact Nat.le_trans hc (Nat.le_trans (ht (k.inside c)) (he _))
    | jumpIfTrue => exact Nat.le_trans hc (Nat.le_trans (he (k.inside c)) (ht _))
  | .loop c body, k =>
    Nat.le_trans (c.le_temporaries k.temporaries) (Node.le_emitAll p body (k.inside c))
  | .binary op left right, k => (Node.binary op left right).le_temporaries k.temporaries
  | .negate value, k => (Node.negate value).le_temporaries k.temporaries
  | .literal .., _ => Nat.le_refl _
  | .var _, _ => Nat.le_refl _

theorem Node.le_emitAll (p : Polarity) :
    ∀ (nodes : List Node) (k : Counters),
      k.temporaries ≤ (Node.emitAll (computing p) k nodes).counters.temporaries
  | [], _ => Nat.le_refl _
  | node :: rest, k => Nat.le_trans (Node.le_emit p node k) (Node.le_emitAll p rest _)

end

/-! ## Conditions -/

/-- The body that runs after a condition of truth `b`. -/
theorem Polarity.body_eq {α : Type} (p : Polarity) (b : Bool) (t e : α) :
    (if b then t else e) = if b = p.stays then p.fallen t e else p.jumped t e := by
  cases p <;> cases b <;> rfl

theorem Plain.value_of_agree {c : Node} (hc : Plain c) {T : Nat} {s u : Store V}
    (h : Agree 0 T s u) : c.value m s = c.value m u :=
  hc.value_congr fun _ hx => h.names hx

/-- A condition and its jump to the label at `b`. -/
theorem Plain.guard_steps {c : Node} (hc : Plain c) (hn : (labels code).Nodup) {k a b T : Nat}
    {x : String} {s u : Store V} (hT : (c.operand k).temporaries ≤ T) (ha : Agree 0 T s u)
    (hcode : CodeAt code (c.operand k).code a)
    (hj : code[a + (c.operand k).code.length]? = some (p.jump (c.operand k).name x))
    (hb : code[b]? = some (.label x)) :
    ∃ v u', c.value m s = some v ∧ Agree 0 T s u' ∧
      Steps m code ((c.operand k).code.length + 1) ⟨a, u⟩
        ⟨if m.truth v = p.stays then a + (c.operand k).code.length + 1 else b, u'⟩ := by
  obtain ⟨u', hs, ha', hv⟩ := hc.operand_steps (m := m) (u := u) hcode
  have hx := find?_of_labelAt hn ⟨_, hb, Instruction.labelName?_label x⟩
  refine ⟨_, u', ?_, ha.trans (ha'.mono (Nat.zero_le k) hT), hs.trans (.one (step_jump m hj hx))⟩
  rw [hc.value_of_agree ha, hv]

/-! ## Where the parts of a construct stand -/

/-- The parts of a branch that begins at `a`: its condition, the region that runs when that does not
jump, and the region that it jumps to. -/
structure BranchAt (code : List Instruction) (p : Polarity) (c : Operand) (j l : Nat)
    (f g : List Instruction) (a : Nat) : Prop where
  condition : CodeAt code c.code a
  guard : code[a + c.code.length]? = some (p.jump c.name (labelName j))
  fallen : CodeAt code f (a + c.code.length + 1)
  leave : code[a + c.code.length + 1 + f.length]? = some (.goto (labelName l))
  jumped : code[a + c.code.length + 1 + f.length + 1]? = some (.label (labelName j))
  target : CodeAt code g (a + c.code.length + 1 + f.length + 2)
  joined : code[a + c.code.length + 1 + f.length + 2 + g.length]? = some (.label (labelName l))

namespace BranchAt

variable {j l a k : Nat} {f g : List Instruction}

theorem of_codeAt {c : Operand} {f g : Emitted}
    (h : CodeAt code (Emitted.branch p c j l f g).code a) :
    BranchAt code p c j l f.code g.code a := by
  refine ⟨h.left.left.left.left.left, h.left.left.left.left.right.head,
    h.left.left.left.right.of_eq ?_, (h.left.left.right.of_eq ?_).head,
    (h.left.left.right.tail.of_eq ?_).head, h.left.right.of_eq ?_, (h.right.of_eq ?_).head⟩ <;>
  · simp only [List.length_append, List.length_cons, List.length_nil]
    omega

/-- From the start of a branch to the region that is to run. -/
theorem enter {c : Node} (h : BranchAt code p (c.operand k) j l f g a) (hc : Plain c)
    (hn : (labels code).Nodup) {T : Nat} (hT : (c.operand k).temporaries ≤ T) {s u : Store V}
    (ha : Agree 0 T s u) :
    ∃ v u' n, c.value m s = some v ∧ Agree 0 T s u' ∧
      Steps m code (n + 1) ⟨a, u⟩ ⟨if m.truth v = p.stays then a + (c.operand k).code.length + 1
        else a + (c.operand k).code.length + 1 + f.length + 2, u'⟩ := by
  obtain ⟨v, u', hv, ha', hs⟩ := hc.guard_steps (m := m) hn hT ha h.condition h.guard h.jumped
  by_cases ht : m.truth v = p.stays
  · rw [if_pos ht] at hs
    exact ⟨v, u', _, hv, ha', by rwa [if_pos ht]⟩
  · rw [if_neg ht] at hs
    exact ⟨v, u', _, hv, ha', by rw [if_neg ht]; exact hs.trans (.one (step_label m h.jumped))⟩

theorem leave_fallen {c : Operand} (h : BranchAt code p c j l f g a) (hn : (labels code).Nodup)
    (u : Store V) : Steps m code 2 ⟨a + c.code.length + 1 + f.length, u⟩
      ⟨a + c.code.length + 1 + f.length + 2 + g.length + 1, u⟩ := by
  have hl := find?_of_labelAt hn ⟨_, h.joined, Instruction.labelName?_label _⟩
  exact .head (step_goto m h.leave hl) (.one (step_label m h.joined))

theorem leave_target {c : Operand} (h : BranchAt code p c j l f g a) (u : Store V) :
    Steps m code 1 ⟨a + c.code.length + 1 + f.length + 2 + g.length, u⟩
      ⟨a + c.code.length + 1 + f.length + 2 + g.length + 1, u⟩ :=
  .one (step_label m h.joined)

end BranchAt

/-- The parts of a loop that begins at `a`. -/
structure LoopAt (code : List Instruction) (p : Polarity) (c : Operand) (j l : Nat)
    (f : List Instruction) (a : Nat) : Prop where
  start : code[a]? = some (.label (labelName j))
  condition : CodeAt code c.code (a + 1)
  guard : code[a + 1 + c.code.length]? = some (p.jump c.name (labelName l))
  body : CodeAt code f (a + 1 + c.code.length + 1)
  back : code[a + 1 + c.code.length + 1 + f.length]? = some (.goto (labelName j))
  left : code[a + 1 + c.code.length + 1 + f.length + 1]? = some (.label (labelName l))

namespace LoopAt

variable {j l a k : Nat} {f : List Instruction}

theorem of_codeAt {c : Operand} {f : Emitted} (h : CodeAt code (Emitted.loop p c j l f).code a) :
    LoopAt code p c j l f.code a := by
  refine ⟨h.left.left.left.left.head, h.left.left.left.right, (h.left.left.right.of_eq ?_).head,
    h.left.right.of_eq ?_, (h.right.of_eq ?_).head, (h.right.tail.of_eq ?_).head⟩ <;>
  · simp only [List.length_append, List.length_cons, List.length_nil]
    omega

/-- From the start of a loop to its body or past its end. -/
theorem enter {c : Node} (h : LoopAt code p (c.operand k) j l f a) (hc : Plain c)
    (hn : (labels code).Nodup) {T : Nat} (hT : (c.operand k).temporaries ≤ T) {s u : Store V}
    (ha : Agree 0 T s u) :
    ∃ v u' n, c.value m s = some v ∧ Agree 0 T s u' ∧
      Steps m code (n + 1) ⟨a, u⟩ ⟨if m.truth v = p.stays then
        a + 1 + (c.operand k).code.length + 1
        else a + 1 + (c.operand k).code.length + 1 + f.length + 2, u'⟩ := by
  obtain ⟨v, u', hv, ha', hs⟩ := hc.guard_steps (m := m) hn hT ha h.condition h.guard h.left
  have hs := Steps.head (step_label m h.start) hs
  by_cases ht : m.truth v = p.stays
  · rw [if_pos ht] at hs
    exact ⟨v, u', _, hv, ha', by rwa [if_pos ht]⟩
  · rw [if_neg ht] at hs
    exact ⟨v, u', _, hv, ha', by rw [if_neg ht]; exact hs.trans (.one (step_label m h.left))⟩

theorem go_back {c : Operand} (h : LoopAt code p c j l f a) (hn : (labels code).Nodup)
    (u : Store V) : Steps m code 1 ⟨a + 1 + c.code.length + 1 + f.length, u⟩ ⟨a, u⟩ :=
  .one (step_goto m h.back (find?_of_labelAt hn ⟨_, h.start, Instruction.labelName?_label _⟩))

end LoopAt

/-! ## Evaluations are run -/

/-- The run from `c` comes to the outcome of an evaluation: past the code at `b` with a store that
differs at most in the first `T` temporaries, or to a stop with the value. -/
def Comes (m : Domain V) (code : List Instruction) (T : Nat) (c : Config V) (b : Nat) :
    Outcome V → Prop
  | .ended s => ∃ n u, Steps m code n c ⟨b, u⟩ ∧ Agree 0 T s u
  | .returned v => Halts m code c (.finished (.returned v))

theorem Code.Steps.comes {n T b : Nat} {c d : Config V} {o : Outcome V} (hs : Steps m code n c d)
    (h : Comes m code T d b o) : Comes m code T c b o := by
  cases o with
  | returned v => exact hs.halts h
  | ended s =>
    obtain ⟨k, u, hk, ha⟩ := h
    exact ⟨n + k, u, hs.trans hk, ha⟩

theorem Comes.of_eq {T b b' : Nat} {c : Config V} {o : Outcome V} (h : Comes m code T c b o)
    (hb : b = b') : Comes m code T c b' o := hb ▸ h

/-- After the end of one code the rest still has to be passed. -/
theorem Comes.bind {T b b' : Nat} {c : Config V} {o : Outcome V} (h : Comes m code T c b o)
    (hs : ∀ u, ∃ n, Steps m code n ⟨b, u⟩ ⟨b', u⟩) : Comes m code T c b' o := by
  cases o with
  | returned v => exact h
  | ended s =>
    obtain ⟨k, u, hk, ha⟩ := h
    obtain ⟨n, hn⟩ := hs u
    exact ⟨k + n, u, hk.trans hn, ha⟩

/-- Wherever the code is emitted to, it comes to the outcome `o` from each store that agrees with
`s`. -/
def Runs (m : Domain V) (code : List Instruction) (T : Nat) (emitted : Counters → Emitted)
    (s : Store V) (o : Outcome V) : Prop :=
  ∀ ⦃k : Counters⦄ ⦃a : Nat⦄ ⦃u : Store V⦄, CodeAt code (emitted k).code a →
    (emitted k).counters.temporaries ≤ T → Agree 0 T s u →
    Comes m code T ⟨a, u⟩ (a + (emitted k).code.length) o

variable {T : Nat}

mutual

theorem Executes.runs (hn : (labels code).Nodup) : ∀ {node : Node} {s : Store V} {o : Outcome V},
    Executes m p.stays node s o → PlainStatement node →
    Runs m code T (fun k => node.emit (computing p) k) s o
  | .assign x e, s, _, .assign hv, .assign he, k, a, u, hc, hT, ha => by
    obtain ⟨u', hs, ha', hv'⟩ := he.operand_steps (m := m) (u := u) hc.left
    rw [he.value_of_agree ha, hv'] at hv
    cases hv
    have hassign := hs.trans (.one (step_assign m hc.right.head))
    have hset := (ha.trans (ha'.mono (Nat.zero_le _) hT)).set x
      (m.read u' (e.operand k.temporaries).name)
    exact Comes.of_eq ⟨_, _, hassign, hset⟩ (by simp [Node.emit, Node.resolve, Nat.add_assoc])
  | .exit e, s, _, .exit hv, .exit he, k, a, u, hc, hT, ha => by
    obtain ⟨u', hs, -, hv'⟩ := he.operand_steps (m := m) (u := u) hc.left
    rw [he.value_of_agree ha, hv'] at hv
    cases hv
    exact hs.halts (.of_step (step_exit m hc.right.head))
  | .branch c t e, s, o, .branch (v := v) hv h, .branch hcp htp hep, k, a, u, hc, hT, ha => by
    have hplain : ∀ node ∈ (if m.truth v then t else e), PlainStatement node := by
      split
      · exact htp
      · exact hep
    have hrun := ExecutesAll.runs hn h hplain
    rw [p.body_eq] at hrun
    simp only [Node.emit_branch] at hc hT ⊢
    have hat := BranchAt.of_codeAt hc
    have hg := Node.le_emitAll p (p.jumped t e)
      (Node.emitAll (computing p) (k.inside c) (p.fallen t e)).counters
    have hf := Node.le_emitAll p (p.fallen t e) (k.inside c)
    obtain ⟨w, u', n, hw, ha', hs⟩ :=
      hat.enter hcp hn (Nat.le_trans hf (Nat.le_trans hg hT)) ha
    rw [hw] at hv
    cases hv
    by_cases htr : m.truth v = p.stays
    · rw [if_pos htr] at hrun hs
      have hbody := hrun hat.fallen (Nat.le_trans hg hT) ha'
      refine (hs.comes (hbody.bind fun u => ⟨2, hat.leave_fallen hn u⟩)).of_eq ?_
      simp only [Emitted.branch, List.length_append, List.length_cons, List.length_nil]
      omega
    · rw [if_neg htr] at hrun hs
      have hbody := hrun hat.target hT ha'
      refine (hs.comes (hbody.bind fun u => ⟨1, hat.leave_target u⟩)).of_eq ?_
      simp only [Emitted.branch, List.length_append, List.length_cons, List.length_nil]
      omega
  | .loop c body, s, _, .leave hv ht, .loop hcp hbp, k, a, u, hc, hT, ha => by
    have hat := LoopAt.of_codeAt hc
    have hf := Node.le_emitAll p body (k.inside c)
    obtain ⟨w, u', n, hw, ha', hs⟩ := hat.enter hcp hn (Nat.le_trans hf hT) ha
    rw [hw] at hv
    cases hv
    rw [if_neg ht] at hs
    refine Comes.of_eq ⟨_, u', hs, ha'⟩ ?_
    simp only [Node.emit_loop, Node.resolve, Emitted.loop, List.length_append, List.length_cons,
      List.length_nil]
    omega
  | .loop c body, s, _, .stop hv ht h, .loop hcp hbp, k, a, u, hc, hT, ha => by
    have hat := LoopAt.of_codeAt hc
    have hf := Node.le_emitAll p body (k.inside c)
    obtain ⟨w, u', n, hw, ha', hs⟩ := hat.enter hcp hn (Nat.le_trans hf hT) ha
    rw [hw] at hv
    cases hv
    rw [if_pos ht] at hs
    exact hs.halts (ExecutesAll.runs hn h hbp hat.body hT ha')
  | .loop c body, s, o, .again hv ht h h', .loop hcp hbp, k, a, u, hc, hT, ha => by
    have hat := LoopAt.of_codeAt hc
    have hf := Node.le_emitAll p body (k.inside c)
    obtain ⟨w, u', n, hw, ha', hs⟩ := hat.enter hcp hn (Nat.le_trans hf hT) ha
    rw [hw] at hv
    cases hv
    rw [if_pos ht] at hs
    obtain ⟨n', u₁, hs₁, ha₁⟩ := ExecutesAll.runs hn h hbp hat.body hT ha'
    have hround := (hs.trans hs₁).trans (hat.go_back hn u₁)
    exact hround.comes (Executes.runs hn h' (.loop hcp hbp) hc hT ha₁)

theorem ExecutesAll.runs (hn : (labels code).Nodup) :
    ∀ {nodes : List Node} {s : Store V} {o : Outcome V},
    ExecutesAll m p.stays nodes s o → (∀ node ∈ nodes, PlainStatement node) →
    Runs m code T (fun k => Node.emitAll (computing p) k nodes) s o
  | _, _, _, .nil, _, k, a, u, hc, hT, ha => ⟨0, u, .refl _, ha⟩
  | node :: rest, s, _, .stop h, hp, k, a, u, hc, hT, ha => by
    obtain ⟨hnode, hrest⟩ := List.forall_mem_cons.1 hp
    have hle := Node.le_emitAll p rest (node.emit (computing p) k).counters
    exact Executes.runs hn h hnode hc.left (Nat.le_trans hle hT) ha
  | node :: rest, s, _, .cons h h', hp, k, a, u, hc, hT, ha => by
    obtain ⟨hnode, hrest⟩ := List.forall_mem_cons.1 hp
    have hle := Node.le_emitAll p rest (node.emit (computing p) k).counters
    obtain ⟨n, u₁, hs, ha₁⟩ := Executes.runs hn h hnode hc.left (Nat.le_trans hle hT) ha
    refine (hs.comes (ExecutesAll.runs hn h' hrest hc.right hT ha₁)).of_eq ?_
    simp only [Node.emitAll, List.length_append, Nat.add_assoc]

end

/-! ## Runs are evaluated -/

mutual

/-- Where a run from the code of a statement stops, the statement has an outcome. The induction is
on the steps of the run, and below them on the tree. -/
theorem executes_of_run (hn : (labels code).Nodup) {h : Halt V} :
    ∀ (n : Nat) (node : Node) {s : Store V}, PlainStatement node →
    ∀ {k : Counters} {a : Nat} {u : Store V}, CodeAt code (node.emit (computing p) k).code a →
    (node.emit (computing p) k).counters.temporaries ≤ T → Agree 0 T s u →
    run m code n ⟨a, u⟩ = some h → ∃ o, Executes m p.stays node s o
  | n, .assign x e, s, .assign he, k, a, u, hc, hT, ha, hr => by
    obtain ⟨u', -, -, hv⟩ := he.operand_steps (m := m) (u := u) hc.left
    exact ⟨_, .assign ((he.value_of_agree ha).trans hv)⟩
  | n, .exit e, s, .exit he, k, a, u, hc, hT, ha, hr => by
    obtain ⟨u', -, -, hv⟩ := he.operand_steps (m := m) (u := u) hc.left
    exact ⟨_, .exit ((he.value_of_agree ha).trans hv)⟩
  | n, .branch c t e, s, .branch hcp htp hep, k, a, u, hc, hT, ha, hr => by
    rw [Node.emit_branch] at hc hT
    have hat := BranchAt.of_codeAt hc
    have hg := Node.le_emitAll p (p.jumped t e)
      (Node.emitAll (computing p) (k.inside c) (p.fallen t e)).counters
    have hf := Node.le_emitAll p (p.fallen t e) (k.inside c)
    obtain ⟨v, u', i, hv, ha', hs⟩ :=
      hat.enter hcp hn (Nat.le_trans hf (Nat.le_trans hg hT)) ha
    obtain ⟨j, rfl, hj⟩ := hs.run_eq_some hr
    have hpf : ∀ node ∈ p.fallen t e, PlainStatement node := by cases p <;> assumption
    have hpj : ∀ node ∈ p.jumped t e, PlainStatement node := by cases p <;> assumption
    by_cases htr : m.truth v = p.stays
    · rw [if_pos htr] at hj
      obtain ⟨o, ho⟩ := executesAll_of_run hn j (p.fallen t e) hpf hat.fallen
        (Nat.le_trans hg hT) ha' hj
      exact ⟨o, .branch hv (by rwa [p.body_eq, if_pos htr])⟩
    · rw [if_neg htr] at hj
      obtain ⟨o, ho⟩ := executesAll_of_run hn j (p.jumped t e) hpj hat.target hT ha' hj
      exact ⟨o, .branch hv (by rwa [p.body_eq, if_neg htr])⟩
  | n, .loop c body, s, .loop hcp hbp, k, a, u, hc, hT, ha, hr => by
    have hat := LoopAt.of_codeAt hc
    have hf := Node.le_emitAll p body (k.inside c)
    obtain ⟨v, u', i, hv, ha', hs⟩ := hat.enter hcp hn (Nat.le_trans hf hT) ha
    obtain ⟨j, rfl, hj⟩ := hs.run_eq_some hr
    by_cases htr : m.truth v = p.stays
    · rw [if_pos htr] at hj
      obtain ⟨o, ho⟩ := executesAll_of_run hn j body hbp hat.body hT ha' hj
      cases o with
      | returned w => exact ⟨_, .stop hv htr ho⟩
      | ended s' =>
        -- the run goes round once more, in fewer steps
        obtain ⟨i', u₁, hs₁, ha₁⟩ := ho.runs hn hbp hat.body hT ha'
        obtain ⟨j, rfl, hr'⟩ := (hs₁.trans (hat.go_back hn u₁)).run_eq_some hj
        obtain ⟨o, ho'⟩ := executes_of_run hn j (.loop c body) (.loop hcp hbp) hc hT ha₁ hr'
        exact ⟨o, .again hv htr ho ho'⟩
    · exact ⟨_, .leave hv htr⟩
termination_by n node => (n, sizeOf node)

theorem executesAll_of_run (hn : (labels code).Nodup) {h : Halt V} :
    ∀ (n : Nat) (nodes : List Node) {s : Store V}, (∀ node ∈ nodes, PlainStatement node) →
    ∀ {k : Counters} {a : Nat} {u : Store V},
    CodeAt code (Node.emitAll (computing p) k nodes).code a →
    (Node.emitAll (computing p) k nodes).counters.temporaries ≤ T → Agree 0 T s u →
    run m code n ⟨a, u⟩ = some h → ∃ o, ExecutesAll m p.stays nodes s o
  | n, [], s, _, k, a, u, hc, hT, ha, hr => ⟨_, .nil⟩
  | n, node :: rest, s, hp, k, a, u, hc, hT, ha, hr => by
    obtain ⟨hnode, hrest⟩ := List.forall_mem_cons.1 hp
    have hle := Node.le_emitAll p rest (node.emit (computing p) k).counters
    obtain ⟨o, ho⟩ := executes_of_run hn n node hnode hc.left (Nat.le_trans hle hT) ha hr
    cases o with
    | returned v => exact ⟨_, .stop ho⟩
    | ended s' =>
      obtain ⟨i, u₁, hs, ha₁⟩ := ho.runs hn hnode hc.left (Nat.le_trans hle hT) ha
      obtain ⟨j, hj, hr'⟩ := hs.run_eq_some hr
      obtain ⟨o, ho'⟩ := executesAll_of_run hn n rest hrest hc.right hT ha₁
        (run_le hr' (hj ▸ Nat.le_add_left j i))
      exact ⟨o, .cons ho ho'⟩
termination_by n nodes => (n, sizeOf nodes)

end

end ThreeAddress

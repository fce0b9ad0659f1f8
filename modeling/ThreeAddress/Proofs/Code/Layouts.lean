import ThreeAddress.Proofs.Code.Meaning

/-!
# The meaning of the older layout

Under the older polarity a condition jumps when it is true. A branch then has its bodies the other
way round as well, so it keeps its meaning; a loop has not, so it goes on as long as its condition
is false (`older_layout_meaning`). Where there is no loop the two layouts come to the same outcome:
the evaluation of a tree without loops does not ask how loops go on (`Node.exists_executes`), and
both layouts need as many temporaries as the tree has operators (`Node.emit_temporaries`).
-/

namespace ThreeAddress

open Code

variable {V : Type*}

/-! ## Operators -/

namespace Node

/-- The number of operators in an expression; a statement is none. -/
def operators : Node → Nat
  | .binary _ left right => left.operators + right.operators + 1
  | .negate operand => operand.operators + 1
  | .literal .. | .var _ => 0
  | .function .. | .assign .. | .exit _ | .branch .. | .loop .. => 0

mutual

/-- The number of operators in all expressions of a tree. -/
def allOperators : Node → Nat
  | .function _ _ _ body => allOperatorsIn body
  | .assign _ value => value.operators
  | .exit value => value.operators
  | .branch condition thenBody elseBody =>
    condition.operators + (allOperatorsIn thenBody + allOperatorsIn elseBody)
  | .loop condition body => condition.operators + allOperatorsIn body
  | .binary op left right => (Node.binary op left right).operators
  | .negate operand => (Node.negate operand).operators
  | .literal .. | .var _ => 0

def allOperatorsIn : List Node → Nat
  | [] => 0
  | node :: rest => allOperators node + allOperatorsIn rest

end

theorem operand_temporaries (k : Nat) (e : Node) :
    (e.operand k).temporaries = k + e.operators := by
  fun_induction Node.operand k e with
  | case3 used op left right l r t hl hr =>
    have hleft : l.temporaries = used + left.operators := hl
    have hright : r.temporaries = l.temporaries + right.operators := hr
    simp only [operators]
    omega
  | case4 used value v t hv => simp only [operators, v, hv, Nat.add_assoc]
  | _ => rfl

theorem inside_temporaries (k : Counters) (c : Node) :
    (k.inside c).temporaries = k.temporaries + c.operators :=
  c.operand_temporaries k.temporaries

mutual

/-- Each operator takes one temporary, whatever the layout. -/
theorem emit_temporaries (p : Polarity) : ∀ (node : Node) (k : Counters),
    (node.emit (computing p) k).counters.temporaries = k.temporaries + node.allOperators
  | .function _ _ _ body, k => emitAll_temporaries p body k
  | .assign _ value, k => value.operand_temporaries k.temporaries
  | .exit value, k => value.operand_temporaries k.temporaries
  | .branch c t e, k => by
    have ht := emitAll_temporaries p t
    have he := emitAll_temporaries p e
    cases p with
    | jumpIfFalse =>
      show (emitAll _ (emitAll _ (k.inside c) t).counters e).counters.temporaries = _
      rw [he, ht, inside_temporaries, allOperators]
      omega
    | jumpIfTrue =>
      show (emitAll _ (emitAll _ (k.inside c) e).counters t).counters.temporaries = _
      rw [ht, he, inside_temporaries, allOperators]
      omega
  | .loop c body, k => by
    show (emitAll _ (k.inside c) body).counters.temporaries = _
    rw [emitAll_temporaries, inside_temporaries, allOperators, Nat.add_assoc]
  | .binary op left right, k => (Node.binary op left right).operand_temporaries k.temporaries
  | .negate value, k => (Node.negate value).operand_temporaries k.temporaries
  | .literal .., _ => rfl
  | .var _, _ => rfl

theorem emitAll_temporaries (p : Polarity) : ∀ (nodes : List Node) (k : Counters),
    (emitAll (computing p) k nodes).counters.temporaries = k.temporaries + allOperatorsIn nodes
  | [], _ => rfl
  | node :: rest, k => by
    show (emitAll _ (node.emit _ k).counters rest).counters.temporaries = _
    rw [emitAll_temporaries, emit_temporaries, allOperatorsIn, Nat.add_assoc]

end

end Node

/-! ## Trees without loops -/

namespace Node

mutual

/-- Is there no loop in the tree? -/
def loopFree : Node → Bool
  | .function _ _ _ body => loopFreeAll body
  | .branch _ thenBody elseBody => loopFreeAll thenBody && loopFreeAll elseBody
  | .loop .. => false
  | .assign .. | .exit _ | .binary .. | .negate _ | .literal .. | .var _ => true

def loopFreeAll : List Node → Bool
  | [] => true
  | node :: rest => loopFree node && loopFreeAll rest

end

end Node

theorem Plain.exists_value {e : Node} (he : Plain e) (m : Domain V) (s : Store V) :
    ∃ v, e.value m s = some v := by
  induction he with
  | number | quoted | name => exact ⟨_, rfl⟩
  | binary _ _ ihl ihr =>
    obtain ⟨a, ha⟩ := ihl
    obtain ⟨b, hb⟩ := ihr
    exact ⟨_, by rw [Node.value, ha, hb]; rfl⟩
  | negate _ ih =>
    obtain ⟨a, ha⟩ := ih
    exact ⟨_, by rw [Node.value, ha]; rfl⟩

mutual

/-- A statement without loops has an outcome, the same one however loops go on. -/
theorem Node.exists_executes (m : Domain V) : ∀ (node : Node), PlainStatement node →
    node.loopFree = true → ∀ s : Store V, ∃ o, ∀ on, Executes m on node s o
  | .assign x e, .assign he, _, s => by
    obtain ⟨v, hv⟩ := he.exists_value m s
    exact ⟨_, fun on => .assign hv⟩
  | .exit e, .exit he, _, s => by
    obtain ⟨v, hv⟩ := he.exists_value m s
    exact ⟨_, fun on => .exit hv⟩
  | .branch c t e, .branch hc ht he, hl, s => by
    rw [loopFree, Bool.and_eq_true] at hl
    obtain ⟨v, hv⟩ := hc.exists_value m s
    cases hb : m.truth v with
    | true =>
      obtain ⟨o, ho⟩ := Node.exists_executesAll m t ht hl.1 s
      exact ⟨o, fun on => .branch hv (by rw [hb]; exact ho on)⟩
    | false =>
      obtain ⟨o, ho⟩ := Node.exists_executesAll m e he hl.2 s
      exact ⟨o, fun on => .branch hv (by rw [hb]; exact ho on)⟩

theorem Node.exists_executesAll (m : Domain V) : ∀ (nodes : List Node),
    (∀ node ∈ nodes, PlainStatement node) → Node.loopFreeAll nodes = true →
    ∀ s : Store V, ∃ o, ∀ on, ExecutesAll m on nodes s o
  | [], _, _, s => ⟨_, fun on => .nil⟩
  | node :: rest, hp, hl, s => by
    obtain ⟨hnode, hrest⟩ := List.forall_mem_cons.1 hp
    rw [loopFreeAll, Bool.and_eq_true] at hl
    obtain ⟨o, ho⟩ := Node.exists_executes m node hnode hl.1 s
    cases o with
    | returned v => exact ⟨_, fun on => .stop (ho on)⟩
    | ended s' =>
      obtain ⟨o, ho'⟩ := Node.exists_executesAll m rest hrest hl.2 s'
      exact ⟨o, fun on => .cons (ho on) (ho' on)⟩

end

/-! ## Both layouts -/

/-- Two codes come to the same outcome from a store: they return one value, or they fall off their
ends with the same values of all names but the first temporaries. -/
inductive SameOutcome (m : Domain V) (code code' : List Instruction) (temporaries : Nat)
    (s : Store V) : Prop
  | returned (v : V) (h : Halts m code ⟨0, s⟩ (.finished (.returned v)))
      (h' : Halts m code' ⟨0, s⟩ (.finished (.returned v)))
  | ended (u u' : Store V) (h : Halts m code ⟨0, s⟩ (.finished (.ended u)))
      (h' : Halts m code' ⟨0, s⟩ (.finished (.ended u'))) (ha : Agree 0 temporaries u u')

/-- Statements without loops come to the same outcome in both layouts. -/
theorem sameOutcome_of_loopFree (m : Domain V) {body : List Node}
    (hp : ∀ node ∈ body, PlainStatement node) (hl : Node.loopFreeAll body = true) (s : Store V) :
    SameOutcome m (Node.emitAll (computing .jumpIfFalse) {} body).code
      (Node.emitAll (computing .jumpIfTrue) {} body).code (Node.allOperatorsIn body) s := by
  obtain ⟨o, ho⟩ := Node.exists_executesAll m body hp hl s
  have hstandard := ExecutesAll.halts (p := .jumpIfFalse) (ho true) hp
  have holder := ExecutesAll.halts (p := .jumpIfTrue) (ho false) hp
  cases o with
  | returned v => exact .returned v hstandard holder
  | ended s' =>
    obtain ⟨u, hu, ha⟩ := hstandard
    obtain ⟨u', hu', ha'⟩ := holder
    rw [Node.emitAll_temporaries, Nat.zero_add] at ha ha'
    exact .ended u u' hu hu' fun x hx => (ha x hx).symm.trans (ha' x hx)

theorem Program.plain_of_mem {source : String} {P : Program} {f : Node}
    (hP : ofTokens (Token.tokenizeSource source) = .ok P) (hf : f ∈ P.functions)
    (hnames : ∀ x ∈ f.names, ¬LooksTemporary x) :
    ∃ returns name params body, f = .function returns name params body ∧
      ∀ node ∈ body, PlainStatement node := by
  obtain ⟨d, hd, -, -⟩ := definitions_of_ofTokens hP
  obtain ⟨us, d', hdef, hus⟩ := hd.of_mem hf
  cases hdef with
  | function _ _ _ hb =>
    refine ⟨_, _, _, _, rfl, hb.plain (fun t ht => ?_) fun x hx => ?_⟩
    · exact Token.spelt_tokenizeSource source t (hus (by simp [ht]))
    · exact hnames x (List.mem_append_right _ hx)

/-- The older layout does what the function does if its loops go on as long as their conditions are
false. A function without loops comes to the same outcome in both layouts, from every store. -/
theorem older_layout_meaning {source : String} {P : Program} {f : Node}
    (hP : Program.ofTokens (Token.tokenizeSource source) = .ok P) (hf : f ∈ P.functions)
    (hnames : ∀ x ∈ f.names, ¬LooksTemporary x) (m : Domain V) (s : Store V) :
    let standard := f.code ⟨.jumpIfFalse, .recursive⟩
    let older := f.code ⟨.jumpIfTrue, .recursive⟩
    let temporaries := (f.emit ⟨.jumpIfTrue, .recursive⟩ {}).counters.temporaries
    Preserves m false f.bodyStatements older temporaries s ∧
      (f.loopFree = true → SameOutcome m standard older temporaries s) := by
  obtain ⟨returns, name, params, body, rfl, hp⟩ := Program.plain_of_mem hP hf hnames
  refine ⟨preserves_of_plain .jumpIfTrue hp m s, fun hl => ?_⟩
  have hsame := sameOutcome_of_loopFree m hp hl s
  rwa [← Nat.zero_add (Node.allOperatorsIn body), ← Node.emitAll_temporaries .jumpIfTrue body {}]
    at hsame

/-- A loop that the older layout enters with a false condition, and a branch that means the same in
both layouts. -/
theorem older_layout_meaning_once :
    let f := Node.function .int "f" [⟨.int, "n"⟩] [.loop (.var "n")
      [.assign "n" (.binary .add (.var "n") (.literal .int "3"))], .exit (.var "n")]
    let g := Node.function .int "g" [⟨.int, "n"⟩] [.branch (.var "n")
      [.exit (.negate (.var "n"))] [], .exit (.literal .int "5")]
    Program.ofTokens (Token.tokenizeSource
        "int f(int n) \x7b while (n) \x7b n = n + 3; \x7d return n; \x7d") = .ok ⟨[f]⟩ ∧
      Program.ofTokens (Token.tokenizeSource
        "int g(int n) \x7b if (n) \x7b return -n; \x7d return 5; \x7d") = .ok ⟨[g]⟩ ∧
      ExecutesAll .integers false f.bodyStatements (fun _ => 0) (.returned 3) ∧
      SameOutcome .integers (g.code ⟨.jumpIfFalse, .recursive⟩)
        (g.code ⟨.jumpIfTrue, .recursive⟩) 1 (fun _ => 2) := by
  intro f g
  have hP : Program.ofTokens (Token.tokenizeSource
      "int f(int n) \x7b while (n) \x7b n = n + 3; \x7d return n; \x7d") = .ok ⟨[f]⟩ := rfl
  have hQ : Program.ofTokens (Token.tokenizeSource
      "int g(int n) \x7b if (n) \x7b return -n; \x7d return 5; \x7d") = .ok ⟨[g]⟩ := rfl
  have hn : ¬LooksTemporary "n" := by
    rintro ⟨ds, -, -, hd⟩
    cases hd
  have hnf : ∀ x ∈ f.names, ¬LooksTemporary x := fun x hx => by
    have hxn : x = "n" := by simpa [f, Node.names, Node.namesAll] using hx
    exact hxn ▸ hn
  have hng : ∀ x ∈ g.names, ¬LooksTemporary x := fun x hx => by
    have hxn : x = "n" := by simpa [g, Node.names, Node.namesAll] using hx
    exact hxn ▸ hn
  have hrun : Halts .integers (f.code ⟨.jumpIfTrue, .recursive⟩) ⟨0, fun _ => 0⟩
      (.finished (.returned 3)) := ⟨30, rfl⟩
  exact ⟨hP, hQ,
    ((older_layout_meaning hP (List.mem_singleton_self f) hnf .integers _).1.returned 3).1 hrun,
    (older_layout_meaning hQ (List.mem_singleton_self g) hng .integers _).2 rfl⟩

end ThreeAddress

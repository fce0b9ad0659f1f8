import ThreeAddress.Proofs.Grammar.ReadingBack
import ThreeAddress.Proofs.Grammar.Traces

/-!
# How deep trees are

A reader counts the nesting levels that are open, and an expression comes with a height. Both
measures are exact: a method closes the levels it opens, whatever comes of it, and the height is that
of the tree (`Measured.Exact`). So the trees of a program are of bounded depth, however many tokens
there are: on the way down to a leaf there are at most `maxNesting` bodies inside each other, and
below the innermost of them one more statement and its expression (`Node.Within`).

The main statement is `nesting_exact_and_bounded`.
-/

namespace ThreeAddress

open Token Grammar

/-! ## Measures of trees -/

namespace Node

mutual

/-- The number of nodes on the longest way from a node down to a leaf. -/
def levels : Node → Nat
  | .function _ _ _ body => levelsAll body + 1
  | .assign _ value => value.levels + 1
  | .exit value => value.levels + 1
  | .branch condition thenBody elseBody =>
    max condition.levels (max (levelsAll thenBody) (levelsAll elseBody)) + 1
  | .loop condition body => max condition.levels (levelsAll body) + 1
  | .binary _ left right => max left.levels right.levels + 1
  | .negate operand => operand.levels + 1
  | .literal .. | .var _ => 1

def levelsAll : List Node → Nat
  | [] => 0
  | node :: rest => max node.levels (levelsAll rest)

end

mutual

/-- How many bodies of branches and loops are inside each other where most are. -/
def nesting : Node → Nat
  | .function _ _ _ body => nestingAll body
  | .assign _ value => value.nesting
  | .exit value => value.nesting
  | .branch condition thenBody elseBody =>
    max condition.nesting (max (nestingAll thenBody) (nestingAll elseBody) + 1)
  | .loop condition body => max condition.nesting (nestingAll body + 1)
  | .binary _ left right => max left.nesting right.nesting
  | .negate operand => operand.nesting
  | .literal .. | .var _ => 0

def nestingAll : List Node → Nat
  | [] => 0
  | node :: rest => max node.nesting (nestingAll rest)

end

theorem one_le_levels (node : Node) : 1 ≤ node.levels := by
  cases node <;> simp [levels]

end Node

/-! ## Heights that come with expressions -/

namespace Grammar

/-- The height is that of the tree, and within the limit. -/
structure Measured.Exact (e : Measured) : Prop where
  height_eq : e.height = e.node.levels
  le : e.height ≤ maxNesting

namespace Measured.Exact

theorem leaf {node : Node} (h : node.levels = 1) : Exact ⟨node, 1⟩ :=
  ⟨h.symm, by simp [maxNesting]⟩

theorem negate {e : Measured} (h : e.Exact) (hle : e.height + 1 ≤ maxNesting) :
    Exact ⟨.negate e.node, e.height + 1⟩ :=
  ⟨congrArg (· + 1) h.height_eq, hle⟩

theorem binary {op : Operator} {left right : Measured} (hl : left.Exact) (hr : right.Exact)
    (hle : max left.height right.height + 1 ≤ maxNesting) :
    Exact ⟨.binary op left.node right.node, max left.height right.height + 1⟩ :=
  ⟨by simp only [hl.height_eq, hr.height_eq, Node.levels], hle⟩

end Measured.Exact

/-- What the reader yields has the property, wherever it reads. -/
def Gives {α : Type} (r : Reader α) (p : α → Prop) : Prop :=
  ∀ c a c', r c = .ok a c' → p a

namespace Gives

variable {α β : Type} {r : Reader α} {p : α → Prop} {q : β → Prop}

theorem pure {a : α} (h : p a) : Gives (pure a) p := by
  intro c _ c' heq
  cases heq
  exact h

theorem refuse {cause : Cause} : Gives (refuse cause) p := by
  intro c _ c' heq
  cases heq

theorem bind {f : α → Reader β} (hr : Gives r p) (hf : ∀ a, p a → Gives (f a) q) :
    Gives (r >>= f) q := by
  intro c b c' heq
  cases hrc : r c with
  | error e c₁ =>
    rw [bind_error hrc] at heq
    cases heq
  | ok a c₁ =>
    rw [bind_ok hrc] at heq
    exact hf a (hr c a c₁ hrc) c₁ b c' heq

/-- The first of two readers may yield anything. -/
theorem after {f : α → Reader β} (hf : ∀ a, Gives (f a) q) : Gives (r >>= f) q :=
  bind (p := fun _ => True) (fun _ _ _ _ => trivial) fun a _ => hf a

theorem nested {cause : Cause} (h : Gives r p) : Gives (nested cause r) p := by
  intro c a c' heq
  rw [Grammar.nested] at heq
  split at heq
  · cases heq
  · split at heq
    next b c₁ hr =>
      cases heq
      exact h _ _ _ hr
    next => cases heq

theorem grow {below : Nat} : Gives (grow below) fun h => h = below + 1 ∧ h ≤ maxNesting := by
  rw [Grammar.grow]
  split
  next => exact refuse
  next h => exact pure ⟨rfl, Nat.lt_of_not_le h⟩

end Gives

theorem primary_exact {inner : Reader Measured} (h : Gives inner Measured.Exact) :
    Gives (primary inner) Measured.Exact := by
  refine .after fun next => ?_
  cases next with
  | none => exact .refuse
  | some t =>
    obtain ⟨kind, text⟩ := t
    cases kind with
    | number => exact .after fun _ => .pure (.leaf rfl)
    | identifier =>
      refine .after fun _ => .pure (.leaf ?_)
      split <;> rfl
    | symbol | keyword | unknown =>
      dsimp only
      split
      · refine .bind (.nested (.after fun _ => h)) fun e he => ?_
        exact .after fun _ => .pure he
      · exact .refuse

theorem unary_exact {inner : Reader Measured} (h : Gives inner Measured.Exact) :
    Gives (unary inner) Measured.Exact := by
  refine .after fun sign => ?_
  cases sign with
  | false => exact primary_exact h
  | true =>
    refine .bind (primary_exact h) fun operand ho => .bind .grow fun height hg => .pure ?_
    obtain ⟨rfl, hle⟩ := hg
    exact ho.negate hle

mutual

theorem binary_exact : ∀ n least : Nat, Gives (binary n least) Measured.Exact
  | 0, _ => .refuse
  | n + 1, least => by
    rw [binary]
    exact .bind (unary_exact (binary_exact n 0)) fun left hl => climb_exact n least hl

theorem climb_exact : ∀ (n least : Nat) {left : Measured}, left.Exact →
    Gives (climb n least left) Measured.Exact
  | 0, _, _, hl => .pure hl
  | n + 1, least, left, hl => by
    rw [climb]
    refine .after fun next => ?_
    cases next with
    | none => exact .pure hl
    | some op =>
      dsimp only
      split
      · exact .pure hl
      -- the loop goes on from a taller operand, so its height is checked in every round
      refine .after fun _ => .bind (binary_exact n _) fun right hr => .bind .grow fun height hg => ?_
      obtain ⟨rfl, hle⟩ := hg
      exact climb_exact n least (hl.binary hr hle)

end

/-! ## Depth of derived trees -/

namespace Expression

variable {level d : Nat} {ts : List Token} {e : Node}

theorem levels_eq (h : Expression level ts e d) : e.levels = e.height := by
  induction h with
  | number | quoted | name => rfl
  | paren _ ih | up _ ih => exact ih
  | minus _ ih => simp only [Node.levels, Node.height, ih]
  | join _ _ _ ihl ihr => simp only [Node.levels, Node.height, ihl, ihr]

theorem nesting_eq (h : Expression level ts e d) : e.nesting = 0 := by
  induction h with
  | number | quoted | name => rfl
  | paren _ ih | up _ ih => exact ih
  | minus _ ih => simp only [Node.nesting, ih]
  | join _ _ _ ihl ihr => simp only [Node.nesting, ihl, ihr, Nat.max_self]

theorem levels_le_of_mem (h : Expression level ts e d) :
    ∀ x ∈ e.expressions, x.levels ≤ e.levels := by
  induction h with
  | number | quoted | name => simp [Node.expressions]
  | paren _ ih | up _ ih => exact ih
  | minus _ ih =>
    intro x hx
    rcases List.mem_cons.1 hx with rfl | hx
    · exact Nat.le_refl _
    · exact Nat.le_succ_of_le (ih x hx)
  | join _ _ _ ihl ihr =>
    intro x hx
    simp only [Node.expressions, List.mem_cons, List.mem_append] at hx
    rcases hx with rfl | hx | hx
    · exact Nat.le_refl _
    · have hle := ihl x hx
      simp only [Node.levels]
      omega
    · have hle := ihr x hx
      simp only [Node.levels]
      omega

theorem levels_le {k : Nat} (h : Expression level ts e d) (hk : e.height ≤ k) : e.levels ≤ k := by
  rw [h.levels_eq]
  exact hk

theorem expressions_le {k : Nat} (h : Expression level ts e d) (hk : e.height ≤ k) :
    ∀ x ∈ e.expressions, x.levels ≤ k :=
  fun x hx => Nat.le_trans (h.levels_le_of_mem x hx) (h.levels_le hk)

end Expression

end Grammar

namespace Node

/-- A statement with at most `bodies` bodies inside each other and expressions of at most `height`.
Below the innermost body there is one more statement. -/
structure Within (bodies height : Nat) (node : Node) : Prop where
  nesting : node.nesting ≤ bodies
  expressions : ∀ e ∈ node.expressions, e.levels ≤ height
  levels : node.levels ≤ bodies + height + 1

/-- The same of all statements of a body. -/
structure AllWithin (bodies height : Nat) (nodes : List Node) : Prop where
  nesting : nestingAll nodes ≤ bodies
  expressions : ∀ e ∈ expressionsAll nodes, e.levels ≤ height
  levels : levelsAll nodes ≤ bodies + height + 1

variable {bodies bodies' height d : Nat} {ts : List Token} {node e : Node}
  {nodes thenBody elseBody body : List Node}

theorem Within.mono (h : node.Within bodies height) (hle : bodies ≤ bodies') :
    node.Within bodies' height :=
  ⟨Nat.le_trans h.nesting hle, h.expressions, Nat.le_trans h.levels (by omega)⟩

theorem AllWithin.mono (h : AllWithin bodies height nodes) (hle : bodies ≤ bodies') :
    AllWithin bodies' height nodes :=
  ⟨Nat.le_trans h.nesting hle, h.expressions, Nat.le_trans h.levels (by omega)⟩

theorem AllWithin.nil : AllWithin bodies height [] :=
  ⟨Nat.zero_le _, by simp [expressionsAll], Nat.zero_le _⟩

theorem AllWithin.cons (h : node.Within bodies height) (hs : AllWithin bodies height nodes) :
    AllWithin bodies height (node :: nodes) where
  nesting := Nat.max_le.2 ⟨h.nesting, hs.nesting⟩
  expressions := List.forall_mem_append.2 ⟨h.expressions, hs.expressions⟩
  levels := Nat.max_le.2 ⟨h.levels, hs.levels⟩

section Expressions

variable (he : Expression 0 ts e d) (hk : e.height ≤ height)

include he hk

/-- An assignment or an exit is one node above its expression. -/
theorem Within.value (hn : node.nesting = e.nesting) (hx : node.expressions = e.expressions)
    (hl : node.levels = e.levels + 1) : node.Within bodies height where
  nesting := by
    rw [hn, he.nesting_eq]
    exact Nat.zero_le bodies
  expressions := hx ▸ he.expressions_le hk
  levels := by
    rw [hl]
    exact Nat.succ_le_succ (Nat.le_add_left_of_le (he.levels_le hk))

theorem Within.branch (ht : AllWithin bodies height thenBody)
    (hs : AllWithin bodies height elseBody) :
    (Node.branch e thenBody elseBody).Within (bodies + 1) height where
  nesting := by
    have hthen := ht.nesting
    have helse := hs.nesting
    simp only [Node.nesting, he.nesting_eq]
    omega
  expressions := List.forall_mem_append.2
    ⟨he.expressions_le hk, List.forall_mem_append.2 ⟨ht.expressions, hs.expressions⟩⟩
  levels := by
    have hcondition := he.levels_le hk
    have hthen := ht.levels
    have helse := hs.levels
    simp only [Node.levels]
    omega

theorem Within.loop (hb : AllWithin bodies height body) :
    (Node.loop e body).Within (bodies + 1) height where
  nesting := by
    have hbody := hb.nesting
    simp only [Node.nesting, he.nesting_eq]
    omega
  expressions := List.forall_mem_append.2 ⟨he.expressions_le hk, hb.expressions⟩
  levels := by
    have hcondition := he.levels_le hk
    have hbody := hb.levels
    simp only [Node.levels]
    omega

end Expressions

end Node

namespace Grammar

open Node

mutual

theorem Statement.within : ∀ {ts : List Token} {s : Node} {d k : Nat}, Statement ts s d →
    s.tallest ≤ k → s.Within d k
  | _, _, _, _, .declaration _ _ he, hk => .value he hk rfl rfl rfl
  | _, _, _, _, .assignment _ he, hk => .value he hk rfl rfl rfl
  | _, _, _, _, .exit he, hk => .value he hk rfl rfl rfl
  | _, _, _, _, .ifThen hc ht, hk => by
    obtain ⟨hkc, hk⟩ := Nat.max_le.1 hk
    obtain ⟨d, rfl, hthen⟩ := ht.within (Nat.max_le.1 hk).1
    exact (Within.branch hc hkc hthen .nil).mono (Nat.le_max_right ..)
  | _, _, _, _, .ifElse hc ht he, hk => by
    obtain ⟨hkc, hk⟩ := Nat.max_le.1 hk
    obtain ⟨hkt, hke⟩ := Nat.max_le.1 hk
    obtain ⟨d, rfl, hthen⟩ := ht.within hkt
    obtain ⟨d', rfl, helse⟩ := he.within hke
    have hbranch := Within.branch hc hkc (hthen.mono (Nat.le_max_left d d'))
      (helse.mono (Nat.le_max_right d d'))
    exact hbranch.mono (by omega)
  | _, _, _, _, .whileLoop hc hb, hk => by
    obtain ⟨hkc, hk⟩ := Nat.max_le.1 hk
    obtain ⟨d, rfl, hbody⟩ := hb.within hk
    exact (Within.loop hc hkc hbody).mono (Nat.le_max_right ..)

/-- The braces are one level, and the rest is that of the statements between them. -/
theorem Braced.within : ∀ {ts : List Token} {nodes : List Node} {d k : Nat}, Braced ts nodes d →
    tallestAll nodes ≤ k → ∃ d', d = d' + 1 ∧ AllWithin d' k nodes
  | _, _, _, _, .braces h, hk => ⟨_, rfl, h.within hk⟩

theorem Statements.within : ∀ {ts : List Token} {nodes : List Node} {d k : Nat},
    Statements ts nodes d → tallestAll nodes ≤ k → AllWithin d k nodes
  | _, _, _, _, .nil, _ => .nil
  | _, _, _, _, .cons hs hn, hk => by
    obtain ⟨hks, hkn⟩ := Nat.max_le.1 hk
    refine .cons ((hs.within hks).mono ?_) ((hn.within hkn).mono ?_)
    · exact Nat.le_max_left ..
    · exact Nat.le_max_right ..

end

theorem Definition.within {ts : List Token} {f : Node} {d k : Nat} (h : Definition ts f d)
    (hk : f.tallest ≤ k) :
    f.nesting ≤ d ∧ (∀ e ∈ f.expressions, e.levels ≤ k) ∧ f.levels ≤ d + k + 2 := by
  cases h with
  | function _ _ _ hb =>
    have hbody := hb.within hk
    exact ⟨hbody.nesting, hbody.expressions, Nat.succ_le_succ hbody.levels⟩

theorem Definitions.within {ts : List Token} {fs : List Node} {d k : Nat}
    (h : Definitions ts fs d) : tallestAll fs ≤ k →
    ∀ f ∈ fs, f.nesting ≤ d ∧ (∀ e ∈ f.expressions, e.levels ≤ k) ∧ f.levels ≤ d + k + 2 := by
  induction h with
  | one h => exact fun hk => List.forall_mem_singleton.2 (h.within (Nat.max_le.1 hk).1)
  | cons h _ ih =>
    intro hk
    obtain ⟨hkf, hks⟩ := Nat.max_le.1 hk
    refine List.forall_mem_cons.2 ⟨?_, fun f hf => ?_⟩
    · obtain ⟨hn, he, hl⟩ := h.within hkf
      exact ⟨by omega, he, by omega⟩
    · obtain ⟨hn, he, hl⟩ := ih hks f hf
      exact ⟨by omega, he, by omega⟩

/-! ## Readers and programs -/

/-- A method that starts with no more open levels than there may be has as many open at its end,
whatever comes of it, and never more than there may be on its way. What is read as an expression
comes with the height of its tree. So in a program, whatever the length of its stream, expressions,
bodies inside each other and whole trees are bounded. -/
theorem nesting_exact_and_bounded :
    (∀ (α : Type) (q : Method α) (c : Cursor), c.depth ≤ maxNesting →
      (stop (q.read c)).depth = c.depth ∧
      (∃ seen, Trace q.read c seen (q.read c)) ∧
      ∀ seen o, Trace q.read c seen o → o = q.read c ∧ ∀ c' ∈ seen, c'.depth ≤ maxNesting) ∧
    (∀ rounds least, ∀ r ∈ [binary rounds least, unary (binary rounds 0),
      primary (binary rounds 0)], ∀ c e c', r c = .ok e c' →
        e.height = e.node.levels ∧ 1 ≤ e.height ∧ e.height ≤ maxNesting) ∧
    ∀ (ts : List Token) (P : Program), Program.ofTokens ts = .ok P → ∀ f ∈ P.functions,
      (∀ e ∈ f.expressions, e.levels ≤ maxNesting) ∧ f.nesting ≤ maxNesting ∧
        f.levels ≤ 2 * maxNesting + 2 := by
  refine ⟨fun α q c hc => ?_, fun rounds least r hr c e c' he => ?_, fun ts P hP f hf => ?_⟩
  · obtain ⟨seen, o, h⟩ := q.traced c
    obtain rfl := h.eq
    exact ⟨(h.depth hc).1, ⟨seen, h⟩, fun seen' o' h' => ⟨h'.eq.symm, (h'.depth hc).2⟩⟩
  · have hgives : Gives r Measured.Exact := by
      simp only [List.mem_cons, List.not_mem_nil, or_false] at hr
      rcases hr with rfl | rfl | rfl
      · exact binary_exact rounds least
      · exact unary_exact (binary_exact rounds 0)
      · exact primary_exact (binary_exact rounds 0)
    obtain ⟨heq, hle⟩ := hgives c e c' he
    exact ⟨heq, heq ▸ e.node.one_le_levels, hle⟩
  · obtain ⟨d, hd, hlimit, hk⟩ := Program.definitions_of_ofTokens hP
    obtain ⟨hnesting, hexpressions, hlevels⟩ := hd.within hk f hf
    exact ⟨hexpressions, Nat.le_trans hnesting hlimit, by omega⟩

/-- The last level there is, opened by a parenthesis and closed again, and a program with two bodies
inside each other over an expression of height 3. -/
theorem nesting_exact_and_bounded_last_level :
    let c : Cursor := ⟨0, 255, [ofSymbol '(', ⟨.number, "1"⟩, ofSymbol ')']⟩
    let r := primary (binary 2 0)
    let e : Measured := ⟨.literal .int "1", 1⟩
    let source :=
      "int f(int x) \x7b while (x) \x7b if (x < 9) \x7b x = -(x + 1); \x7d \x7d return x; \x7d"
    r c = .ok e ⟨3, 255, []⟩ ∧ e.height = e.node.levels ∧
      (∃ seen, Trace r c seen (r c)) ∧ (∀ seen o, Trace r c seen o → ∀ c' ∈ seen, c'.depth ≤ 256) ∧
      ∃ P f, Program.ofTokens (tokenizeSource source) = .ok P ∧ f ∈ P.functions ∧
        (∀ e ∈ f.expressions, e.levels ≤ 256) ∧ f.nesting = 2 ∧ f.nesting ≤ 256 ∧
        f.levels = 7 ∧ f.levels ≤ 514 := by
  intro c r e source
  let x : Node := .var "x"
  let inner : Node :=
    .branch (.binary .lt x (.literal .int "9"))
      [.assign "x" (.negate (.binary .add x (.literal .int "1")))] []
  let f : Node := .function .int "f" [⟨.int, "x"⟩] [.loop x [inner], .exit x]
  have hread : r c = .ok e ⟨3, 255, []⟩ := rfl
  have hP : Program.ofTokens (tokenizeSource
      "int f(int x) \x7b while (x) \x7b if (x < 9) \x7b x = -(x + 1); \x7d \x7d return x; \x7d") =
      .ok ⟨[f]⟩ := rfl
  have hf : f ∈ [f] := List.mem_singleton_self f
  obtain ⟨hkept, hmeasured, hbounded⟩ := nesting_exact_and_bounded
  obtain ⟨-, hseen, hlevels⟩ := hkept Measured (.primary 2) c (by decide)
  obtain ⟨hheight, -, -⟩ := hmeasured 2 0 r (by simp [r]) c e _ hread
  obtain ⟨hexpressions, hnesting, htree⟩ := hbounded _ ⟨[f]⟩ hP f hf
  exact ⟨hread, hheight, hseen, fun seen o h => (hlevels seen o h).2, ⟨[f]⟩, f, hP, hf, hexpressions,
    rfl, hnesting, rfl, htree⟩

end Grammar

end ThreeAddress

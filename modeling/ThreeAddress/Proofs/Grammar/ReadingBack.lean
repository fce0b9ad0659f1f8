import ThreeAddress.Proofs.Grammar.Completeness
import ThreeAddress.Proofs.Grammar.Headlines

/-!
# Headlines read back

The headline of an expression is a spelling of it, as long as no negation stands right before
another one (`Written.spelt`). Its parentheses are fewer than the levels of the tree, so it is read
back within the limits. A minus sign takes one primary, and a second minus sign is none: so a
headline with two of them is refused at the second one (`Written.refused`).
-/

namespace ThreeAddress

open Token Grammar

/-! ## Expressions in a tree -/

namespace Node

mutual

/-- The expressions of a tree, each with all its parts. -/
def expressions : Node → List Node
  | .function _ _ _ body => expressionsAll body
  | .assign _ value => value.expressions
  | .exit value => value.expressions
  | .branch condition thenBody elseBody =>
    condition.expressions ++ (expressionsAll thenBody ++ expressionsAll elseBody)
  | .loop condition body => condition.expressions ++ expressionsAll body
  | .binary op left right => .binary op left right :: (left.expressions ++ right.expressions)
  | .negate operand => .negate operand :: operand.expressions
  | .literal ty text => [.literal ty text]
  | .var name => [.var name]

def expressionsAll : List Node → List Node
  | [] => []
  | node :: rest => node.expressions ++ expressionsAll rest

end

/-- Is there a negation of a negation in the tree? -/
def DoublyNegated (node : Node) : Prop :=
  ∃ e, .negate (.negate e) ∈ node.expressions

theorem mem_expressionsAll {x : Node} {nodes : List Node} (h : x ∈ expressionsAll nodes) :
    ∃ node ∈ nodes, x ∈ node.expressions := by
  induction nodes with
  | nil => cases h
  | cons node rest ih =>
    rcases List.mem_append.1 h with h | h
    · exact ⟨node, List.mem_cons_self, h⟩
    · obtain ⟨node', hm, hx⟩ := ih h
      exact ⟨node', List.mem_cons_of_mem _ hm, hx⟩

theorem tallest_le_tallestAll {node : Node} {nodes : List Node} (h : node ∈ nodes) :
    node.tallest ≤ tallestAll nodes := by
  induction nodes with
  | nil => cases h
  | cons first rest ih =>
    rw [tallestAll]
    rcases List.mem_cons.1 h with rfl | h
    · exact Nat.le_max_left ..
    · exact Nat.le_trans (ih h) (Nat.le_max_right ..)

theorem doublyNegated_binary {op : Operator} {left right : Node} :
    (binary op left right).DoublyNegated ↔ left.DoublyNegated ∨ right.DoublyNegated := by
  simp [DoublyNegated, expressions, exists_or]

theorem doublyNegated_negate {operand : Node} : (negate operand).DoublyNegated ↔
    (∃ e, operand = .negate e) ∨ operand.DoublyNegated := by
  simp [DoublyNegated, expressions, exists_or, eq_comm]

end Node

theorem Written.of_mem_expressions {e : Node} (he : Written e) :
    ∀ x ∈ e.expressions, Written x ∧ x.height ≤ e.height := by
  induction he with
  | number h => simpa [Node.expressions] using Written.number h
  | quoted h hq => simpa [Node.expressions] using Written.quoted h hq
  | name h hq => simpa [Node.expressions] using Written.name h hq
  | binary hl hr ihl ihr =>
    intro x hx
    simp only [Node.expressions, List.mem_cons, List.mem_append] at hx
    rcases hx with rfl | hx | hx
    · exact ⟨.binary hl hr, Nat.le_refl _⟩
    · obtain ⟨hw, hh⟩ := ihl x hx
      exact ⟨hw, by simp only [Node.height]; omega⟩
    · obtain ⟨hw, hh⟩ := ihr x hx
      exact ⟨hw, by simp only [Node.height]; omega⟩
  | negate h ih =>
    intro x hx
    rcases List.mem_cons.1 hx with rfl | hx
    · exact ⟨.negate h, Nat.le_refl _⟩
    · obtain ⟨hw, hh⟩ := ih x hx
      exact ⟨hw, Nat.le_succ_of_le hh⟩

theorem Node.of_mem_expressionsAll {nodes : List Node} {x : Node}
    (h : ∀ node ∈ nodes, ∀ x ∈ node.expressions, Written x ∧ x.height ≤ node.tallest)
    (hx : x ∈ expressionsAll nodes) : Written x ∧ x.height ≤ tallestAll nodes := by
  obtain ⟨node, hm, hx⟩ := mem_expressionsAll hx
  obtain ⟨hw, hh⟩ := h node hm x hx
  exact ⟨hw, Nat.le_trans hh (tallest_le_tallestAll hm)⟩

theorem WrittenTree.of_mem_expressions {node : Node} (h : WrittenTree node) :
    ∀ x ∈ node.expressions, Written x ∧ x.height ≤ node.tallest := by
  induction h with
  | function _ _ _ ih => exact fun x hx => Node.of_mem_expressionsAll ih hx
  | assign _ he => exact he.of_mem_expressions
  | exit he => exact he.of_mem_expressions
  | branch hc _ _ iht ihe =>
    intro x hx
    simp only [Node.expressions, List.mem_append] at hx
    simp only [Node.tallest]
    rcases hx with hx | hx | hx
    · obtain ⟨hw, hh⟩ := hc.of_mem_expressions x hx
      exact ⟨hw, by omega⟩
    · obtain ⟨hw, hh⟩ := Node.of_mem_expressionsAll iht hx
      exact ⟨hw, by omega⟩
    · obtain ⟨hw, hh⟩ := Node.of_mem_expressionsAll ihe hx
      exact ⟨hw, by omega⟩
  | loop hc _ ih =>
    intro x hx
    simp only [Node.expressions, List.mem_append] at hx
    simp only [Node.tallest]
    rcases hx with hx | hx
    · obtain ⟨hw, hh⟩ := hc.of_mem_expressions x hx
      exact ⟨hw, by omega⟩
    · obtain ⟨hw, hh⟩ := Node.of_mem_expressionsAll ih hx
      exact ⟨hw, by omega⟩

/-! ## Headlines that spell their expression -/

/-- The level of the grammar that the headline of an expression is on. -/
def Node.level : Node → Nat
  | .negate _ => 3
  | _ => 4

theorem Node.three_le_level (e : Node) : 3 ≤ e.level := by
  cases e <;> simp [level]

/-- Each pair of parentheses is that of an operator, so there are fewer of them inside each other
than the expression is high. -/
theorem Written.spelt {e : Node} (he : Written e) (hd : ¬e.DoublyNegated) :
    ∃ d < e.height, Expression e.level e.headlineTokens e d := by
  induction he with
  | number h => exact ⟨0, Nat.one_pos, .number _⟩
  | quoted h hq => exact ⟨0, Nat.one_pos, .quoted hq⟩
  | name h hq => exact ⟨0, Nat.one_pos, .name hq⟩
  | @binary op left right _ _ ihl ihr =>
    obtain ⟨hnl, hnr⟩ := not_or.1 (fun h => hd (Node.doublyNegated_binary.2 h))
    obtain ⟨d, hdl, hl⟩ := ihl hnl
    obtain ⟨d', hdr, hr⟩ := ihr hnr
    have hop := precedence_lt op
    have hlevel := left.three_le_level
    have hlevel' := right.three_le_level
    have hl' : Expression op.precedence left.headlineTokens left d := hl.down (by omega)
    have hjoin := hl'.joined (hr.down (by omega))
    refine ⟨max d d' + 1, by simp only [Node.height]; omega, ?_⟩
    simpa [Node.headlineTokens, Node.level] using Expression.paren (hjoin.down (Nat.zero_le _))
  | @negate operand _ ih =>
    obtain ⟨hnot, hno⟩ := not_or.1 (fun h => hd (Node.doublyNegated_negate.2 h))
    obtain ⟨d, hdo, ho⟩ := ih hno
    have hlevel : operand.level = 4 := by
      cases operand with
      | negate e => exact absurd ⟨e, rfl⟩ hnot
      | _ => rfl
    rw [hlevel] at ho
    exact ⟨d, Nat.lt_succ_of_lt hdo, .minus ho⟩

/-! ## Headlines that are refused -/

namespace Grammar

/-- The reader refuses a minus sign where an expression should begin. -/
def RefusesSign {α : Type} (r : Reader α) (c : Cursor) : Prop :=
  ∃ position c', r c = .error ⟨.noExpression, position, some "-"⟩ c'

namespace RefusesSign

variable {α β : Type} {n least p depth : Nat} {c : Cursor} {ts : List Token}

theorem bind {r : Reader α} {f : α → Reader β} (h : RefusesSign r c) :
    RefusesSign (r >>= f) c := by
  obtain ⟨position, c', h⟩ := h
  exact ⟨position, c', bind_error h⟩

theorem of_eq {r r' : Reader α} {c' : Cursor} (h : RefusesSign r c) (heq : r' c' = r c) :
    RefusesSign r' c' := by
  obtain ⟨position, c'', h⟩ := h
  exact ⟨position, c'', heq.trans h⟩

theorem primary {inner : Reader Measured} :
    RefusesSign (Grammar.primary inner) ⟨p, depth, ofSymbol '-' :: ts⟩ :=
  ⟨p, _, rfl⟩

theorem binary (h : RefusesSign (unary (Grammar.binary n 0)) c) :
    RefusesSign (Grammar.binary (n + 1) least) c := by
  rw [Grammar.binary]
  exact h.bind

theorem minus (h : RefusesSign (Grammar.primary (Grammar.binary n 0)) ⟨p + 1, depth, ts⟩) :
    RefusesSign (unary (Grammar.binary n 0)) ⟨p, depth, ofSymbol '-' :: ts⟩ :=
  h.bind.of_eq unary_minus

theorem paren (hd : depth < maxNesting)
    (h : RefusesSign (Grammar.binary n 0) ⟨p + 1, depth + 1, ts⟩) :
    RefusesSign (unary (Grammar.binary n 0)) ⟨p, depth, ofSymbol '(' :: ts⟩ := by
  obtain ⟨position, c', h⟩ := h
  have hadvance : (advance >>= fun _ => Grammar.binary n 0) ⟨p, depth + 1, ofSymbol '(' :: ts⟩ =
      .error ⟨.noExpression, position, some "-"⟩ c' := by
    rw [advance_bind, h]
  have hnested : nested .expressionTooDeep (advance >>= fun _ => Grammar.binary n 0)
      ⟨p, depth, ofSymbol '(' :: ts⟩ =
      .error ⟨.noExpression, position, some "-"⟩ { c' with depth := c'.depth - 1 } := by
    rw [nested, if_neg (Nat.not_le.2 hd), hadvance]
  refine ⟨position, { c' with depth := c'.depth - 1 }, ?_⟩
  rw [unary_of_primary (by simp [isSymbol, ofSymbol]), primary_open]
  exact bind_error hnested

theorem climb {left : Measured} {op : Operator} (hop : least ≤ op.precedence)
    (h : RefusesSign (Grammar.binary n (op.precedence + 1)) ⟨p + 1, depth, ts⟩) :
    RefusesSign (Grammar.climb (n + 1) least left) ⟨p, depth, ofOperator op :: ts⟩ :=
  h.bind.of_eq (climb_operator hop)

end RefusesSign

end Grammar

theorem Written.head_ne_minus {e : Node} (he : Written e) (hn : ¬∃ e', e = .negate e')
    {rest : List Token} {t : Token} (ht : (e.headlineTokens ++ rest).head? = some t) :
    t.isSymbol '-' = false := by
  cases he with
  | number | quoted | name =>
    cases ht
    rfl
  | binary =>
    cases ht
    simp [isSymbol, ofSymbol]
  | negate => exact absurd ⟨_, rfl⟩ hn

/-- The headline of an expression with a negation of a negation is refused, whatever follows it. -/
theorem Written.refused {e : Node} (he : Written e) (hd : e.DoublyNegated) :
    ∀ {n depth p : Nat} {rest : List Token}, depth + e.height ≤ maxNesting →
      (e.headlineTokens ++ rest).length ≤ n →
      RefusesSign (unary (Grammar.binary n 0)) ⟨p, depth, e.headlineTokens ++ rest⟩ := by
  induction he with
  | number | quoted | name => simp [Node.DoublyNegated, Node.expressions] at hd
  | @binary op left right hl hr ihl ihr =>
    intro n depth p rest hdepth hn
    simp only [Node.height] at hdepth
    have hshape : (Node.binary op left right).headlineTokens ++ rest = ofSymbol '(' ::
        (left.headlineTokens ++ ofOperator op :: (right.headlineTokens ++ ofSymbol ')' :: rest)) := by
      simp [Node.headlineTokens]
    rw [hshape] at hn ⊢
    obtain ⟨n, rfl⟩ : ∃ n', n = n' + 1 := Nat.exists_eq_succ_of_ne_zero fun h => by simp [h] at hn
    have hlen := Nat.le_of_succ_le_succ hn
    refine .paren (by omega) ?_
    by_cases hnl : left.DoublyNegated
    · exact .binary (ihl hnl (by omega) hlen)
    -- the left operand is read, so that the right one is refused where it is read
    obtain ⟨d, hdl, hspelt⟩ := hl.spelt hnl
    have hlevel := left.three_le_level
    have hop := precedence_lt op
    have hleft : Passes n (depth + 1) op.precedence left.headlineTokens left (p + 1)
        (ofOperator op :: (right.headlineTokens ++ ofSymbol ')' :: rest)) :=
      (hspelt.down (by omega)).passes (by omega) (by omega) hlen
    have hnext : ∀ op', operator? (ofOperator op) = some op' → op'.precedence ≤ op.precedence :=
      fun op' h => (eq_of_operator?_ofOperator h) ▸ Nat.le_refl _
    obtain ⟨k, hk, hb⟩ := hleft.binary (by omega) hnext 0 (Nat.zero_le _)
    rw [List.length_cons] at hk
    obtain ⟨k, rfl⟩ : ∃ k', k = k' + 2 := ⟨k - 2, by omega⟩
    have hnr := (Node.doublyNegated_binary.1 hd).resolve_left hnl
    have hright : RefusesSign (unary (Grammar.binary k 0))
        ⟨p + 1 + left.headlineTokens.length + 1, depth + 1,
          right.headlineTokens ++ ofSymbol ')' :: rest⟩ := ihr hnr (by omega) (by omega)
    exact (RefusesSign.climb (Nat.zero_le _) (.binary hright)).of_eq hb
  | @negate operand ho ih =>
    intro n depth p rest hdepth hn
    simp only [Node.height] at hdepth
    refine .minus ?_
    by_cases hnot : ∃ e, operand = .negate e
    · obtain ⟨e, rfl⟩ := hnot
      exact .primary
    · have hno := (Node.doublyNegated_negate.1 hd).resolve_left hnot
      have hoperand : RefusesSign (unary (Grammar.binary n 0))
          ⟨p + 1, depth, operand.headlineTokens ++ rest⟩ :=
        ih hno (by omega) (Nat.le_of_succ_le hn)
      exact hoperand.of_eq (unary_of_primary fun t ht => ho.head_ne_minus hnot ht).symm

/-! ## Sources -/

namespace Written

variable {e : Node}

theorem tokenize_headline (he : Written e) : tokenize e.headline = e.headlineTokens := by
  have h : tokenizeChars (e.headline.toList ++ []) = e.headlineTokens ++ tokenizeChars [] :=
    he.tokenizeChars_headline rfl
  have hnil : tokenizeChars [] = [] := rfl
  rw [hnil, List.append_nil, List.append_nil] at h
  exact h

theorem headline_read (he : Written e) (hd : ¬e.DoublyNegated) (hm : e.height ≤ maxNesting) :
    withRounds expression (Cursor.start e.headlineTokens) =
      .ok e ⟨e.headlineTokens.length, 0, []⟩ := by
  obtain ⟨d, hlt, hspelt⟩ := he.spelt hd
  have hlimit : 0 + d ≤ maxNesting := by
    rw [Nat.zero_add]
    exact Nat.le_trans (Nat.le_of_lt hlt) hm
  have hrest : (e.headlineTokens ++ []).length < e.headlineTokens.length + 1 := by simp
  have h := expression_yields (hspelt.down (Nat.zero_le _)) hm hlimit 0 [] rfl hrest
  rw [List.append_nil, Nat.zero_add] at h
  exact h

theorem headline_refused (he : Written e) (hd : e.DoublyNegated) (hm : e.height ≤ maxNesting) :
    RefusesSign (withRounds expression) (Cursor.start e.headlineTokens) := by
  have hlimit : 0 + e.height ≤ maxNesting := by
    rw [Nat.zero_add]
    exact hm
  have hrest : (e.headlineTokens ++ []).length ≤ e.headlineTokens.length := by simp
  have hunary : RefusesSign (unary (Grammar.binary e.headlineTokens.length 0))
      ⟨0, 0, e.headlineTokens ++ []⟩ := he.refused hd hlimit hrest
  rw [List.append_nil] at hunary
  have hexpression : RefusesSign (expression (e.headlineTokens.length + 1))
      ⟨0, 0, e.headlineTokens⟩ := by
    rw [expression]
    exact (RefusesSign.binary hunary).bind
  exact hexpression

end Written

/-- The headline of an expression of a program, read as one expression from its start to its end,
gives the expression again if there is no negation of a negation in it. Otherwise the headline is
refused, at a minus sign that begins no expression. -/
theorem Program.headline_read_back {source : String} {P : Program} {e : Node}
    (hP : ofTokens (tokenizeSource source) = .ok P) (he : e ∈ Node.expressionsAll P.functions) :
    let ts := tokenize e.headline
    (withRounds expression (Cursor.start ts) = .ok e ⟨ts.length, 0, []⟩ ↔ ¬e.DoublyNegated) ∧
      (e.DoublyNegated → ∃ position c, withRounds expression (Cursor.start ts) =
        .error ⟨.noExpression, position, some "-"⟩ c) := by
  obtain ⟨d, hd, -, hm⟩ := definitions_of_ofTokens hP
  have hwritten := hd.written (lexeme_of_mem_tokenizeSource source)
  obtain ⟨hw, hh⟩ := Node.of_mem_expressionsAll (fun f hf => (hwritten f hf).of_mem_expressions) he
  have hheight := Nat.le_trans hh hm
  have hrefused := fun hn => hw.headline_refused hn hheight
  rw [hw.tokenize_headline]
  refine ⟨⟨fun hok hn => ?_, fun hn => hw.headline_read hn hheight⟩, hrefused⟩
  obtain ⟨position, c, herror⟩ := hrefused hn
  rw [hok] at herror
  cases herror

/-- Parentheses around a negation are not shown, so the minus signs of `-(-x)` come together. -/
theorem Program.headline_read_back_signs :
    let source := "int f(int x) \x7b y = x - -2; return -(-x); \x7d"
    ∃ P e e', ofTokens (tokenizeSource source) = .ok P ∧
      e ∈ Node.expressionsAll P.functions ∧ e' ∈ Node.expressionsAll P.functions ∧
      e.headline = "(x - -2)" ∧ ¬e.DoublyNegated ∧
      withRounds expression (Cursor.start (tokenize e.headline)) = .ok e ⟨6, 0, []⟩ ∧
      e'.headline = "--x" ∧ e'.DoublyNegated ∧
      ∃ position c, withRounds expression (Cursor.start (tokenize e'.headline)) =
        .error ⟨.noExpression, position, some "-"⟩ c := by
  let e : Node := .binary .sub (.var "x") (.negate (.literal .int "2"))
  let e' : Node := .negate (.negate (.var "x"))
  let P : Program := ⟨[.function .int "f" [⟨.int, "x"⟩] [.assign "y" e, .exit e']]⟩
  have hP : ofTokens (tokenizeSource
      "int f(int x) \x7b y = x - -2; return -(-x); \x7d") = .ok P := rfl
  have he : e ∈ Node.expressionsAll P.functions := by
    simp [P, e, Node.expressionsAll, Node.expressions]
  have he' : e' ∈ Node.expressionsAll P.functions := by
    simp [P, e', Node.expressionsAll, Node.expressions]
  have hsingle : ¬e.DoublyNegated := by simp [e, Node.DoublyNegated, Node.expressions]
  have hdouble : e'.DoublyNegated := ⟨.var "x", List.mem_cons_self⟩
  have hlength : (tokenize e.headline).length = 6 := by decide
  obtain ⟨hread, -⟩ := headline_read_back hP he
  obtain ⟨-, hrefused⟩ := headline_read_back hP he'
  exact ⟨P, e, e', hP, he, he', rfl, hsingle, hlength ▸ hread.2 hsingle, rfl, hdouble, hrefused hdouble⟩

end ThreeAddress

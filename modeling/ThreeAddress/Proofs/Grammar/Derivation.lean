import ThreeAddress.Node
import ThreeAddress.Token

/-!
# The grammar as derivations

Which tokens spell which tree, without any limit. `Expression level ts e d` says that the tokens
`ts` spell the expression `e` at a level, and that `d` parentheses are open at once where most are:

```text
level 0     expressions joined by "<" and ">"
level 1     expressions joined by "+" and "-"
level 2     expressions joined by "*", "/" and "%"
level 3     an optional "-" before a primary
level 4     a number, a quoted text, a name, or an expression between parentheses
```

Operators of one level associate to the left. In `Statement ts s d` the number `d` counts open
parentheses of expressions and open bodies of branches and loops together. The braces of a function
and the parentheses around a condition or around parameters do not count.
-/

namespace ThreeAddress

/-! ## Heights -/

namespace Node

/-- The height of an expression, 1 for a leaf. -/
def height : Node → Nat
  | .binary _ left right => max left.height right.height + 1
  | .negate operand => operand.height + 1
  | .literal .. | .var _ => 1
  | .function .. | .assign .. | .exit _ | .branch .. | .loop .. => 0

mutual

/-- The height of the tallest expression in a tree. -/
def tallest : Node → Nat
  | .function _ _ _ body => tallestAll body
  | .assign _ value => value.height
  | .exit value => value.height
  | .branch condition thenBody elseBody =>
    max condition.height (max (tallestAll thenBody) (tallestAll elseBody))
  | .loop condition body => max condition.height (tallestAll body)
  | .binary op left right => (Node.binary op left right).height
  | .negate operand => (Node.negate operand).height
  | .literal .. | .var _ => 1

/-- The height of the tallest expression in some trees. -/
def tallestAll : List Node → Nat
  | [] => 0
  | node :: rest => max (tallest node) (tallestAll rest)

end

end Node

/-! ## Tokens -/

namespace Token

/-- The token of a reserved word. -/
def ofKeyword (word : String) : Token := ⟨.keyword, word⟩

/-- The token of a name or of a quoted text. -/
def ofText (text : String) : Token := ⟨.identifier, text⟩

/-- The token of an operator. -/
def ofOperator (op : Operator) : Token := ⟨.symbol, op.symbol⟩

end Token

namespace Grammar

open Token

/-! ## Operators -/

/-- The signs that join the operands of a level, each with its operator. -/
def levelOperators : Nat → List (Char × Operator)
  | 0 => [('<', .lt), ('>', .gt)]
  | 1 => [('+', .add), ('-', .sub)]
  | 2 => [('*', .mul), ('/', .div), ('%', .mod)]
  | _ => []

theorem ofSymbol_inj {c c' : Char} : ofSymbol c = ofSymbol c' ↔ c = c' := by
  simp [ofSymbol]

/-- Every operator has a sign, on the level of its precedence. -/
theorem exists_sign (op : Operator) : ∃ c, (c, op) ∈ levelOperators op.precedence ∧
    isSymbolChar c = true ∧ ofOperator op = ofSymbol c := by
  cases op with
  | add => exact ⟨'+', by decide, rfl, rfl⟩
  | sub => exact ⟨'-', by decide, rfl, rfl⟩
  | mul => exact ⟨'*', by decide, rfl, rfl⟩
  | div => exact ⟨'/', by decide, rfl, rfl⟩
  | mod => exact ⟨'%', by decide, rfl, rfl⟩
  | lt => exact ⟨'<', by decide, rfl, rfl⟩
  | gt => exact ⟨'>', by decide, rfl, rfl⟩

/-- The levels of the grammar are the precedences, and its signs are those of the operators. -/
theorem mem_levelOperators {level : Nat} {c : Char} {op : Operator} :
    (c, op) ∈ levelOperators level ↔ op.precedence = level ∧ ofOperator op = ofSymbol c := by
  constructor
  · intro h
    match level with
    | 0 | 1 =>
      simp only [levelOperators, List.mem_cons, Prod.mk.injEq, List.not_mem_nil, or_false] at h
      obtain ⟨rfl, rfl⟩ | ⟨rfl, rfl⟩ := h <;> exact ⟨rfl, rfl⟩
    | 2 =>
      simp only [levelOperators, List.mem_cons, Prod.mk.injEq, List.not_mem_nil, or_false] at h
      obtain ⟨rfl, rfl⟩ | ⟨rfl, rfl⟩ | ⟨rfl, rfl⟩ := h <;> exact ⟨rfl, rfl⟩
    | _ + 3 => exact absurd h List.not_mem_nil
  · rintro ⟨rfl, h⟩
    obtain ⟨c', hc', -, h'⟩ := exists_sign op
    rwa [ofSymbol_inj.1 (h.symm.trans h')]

/-! ## Derivations -/

inductive Expression : Nat → List Token → Node → Nat → Prop
  | number (text : String) : Expression 4 [⟨.number, text⟩] (.literal .int text) 0
  | quoted {text : String} (h : isQuotedText text = true) :
      Expression 4 [ofText text] (.literal .string text) 0
  | name {text : String} (h : isQuotedText text = false) : Expression 4 [ofText text] (.var text) 0
  | paren {ts : List Token} {e : Node} {d : Nat} (h : Expression 0 ts e d) :
      Expression 4 (ofSymbol '(' :: (ts ++ [ofSymbol ')'])) e (d + 1)
  | minus {ts : List Token} {e : Node} {d : Nat} (h : Expression 4 ts e d) :
      Expression 3 (ofSymbol '-' :: ts) (.negate e) d
  | up {level : Nat} {ts : List Token} {e : Node} {d : Nat} (h : Expression (level + 1) ts e d) :
      Expression level ts e d
  | join {level : Nat} {ts us : List Token} {l r : Node} {d d' : Nat} {c : Char} {op : Operator}
      (hl : Expression level ts l d) (hop : (c, op) ∈ levelOperators level)
      (hr : Expression (level + 1) us r d') :
      Expression level (ts ++ ofSymbol c :: us) (.binary op l r) (max d d')

mutual

inductive Statement : List Token → Node → Nat → Prop
  | declaration {ty : Ty} {x : String} {ts : List Token} {e : Node} {d : Nat}
      (hty : ty ∈ Ty.valueTypes) (hx : isQuotedText x = false) (he : Expression 0 ts e d) :
      Statement (ofKeyword ty.name :: ofText x :: ofSymbol '=' :: (ts ++ [ofSymbol ';']))
        (.assign x e) d
  | assignment {x : String} {ts : List Token} {e : Node} {d : Nat}
      (hx : isQuotedText x = false) (he : Expression 0 ts e d) :
      Statement (ofText x :: ofSymbol '=' :: (ts ++ [ofSymbol ';'])) (.assign x e) d
  | exit {ts : List Token} {e : Node} {d : Nat} (he : Expression 0 ts e d) :
      Statement (ofKeyword "return" :: (ts ++ [ofSymbol ';'])) (.exit e) d
  | ifThen {cs ts : List Token} {c : Node} {t : List Node} {d d' : Nat}
      (hc : Expression 0 cs c d) (ht : Braced ts t d') :
      Statement (ofKeyword "if" :: ofSymbol '(' :: (cs ++ ofSymbol ')' :: ts)) (.branch c t [])
        (max d d')
  | ifElse {cs ts us : List Token} {c : Node} {t e : List Node} {d d' d'' : Nat}
      (hc : Expression 0 cs c d) (ht : Braced ts t d') (he : Braced us e d'') :
      Statement (ofKeyword "if" :: ofSymbol '(' ::
        (cs ++ ofSymbol ')' :: (ts ++ ofKeyword "else" :: us))) (.branch c t e)
        (max d (max d' d''))
  | whileLoop {cs ts : List Token} {c : Node} {b : List Node} {d d' : Nat}
      (hc : Expression 0 cs c d) (hb : Braced ts b d') :
      Statement (ofKeyword "while" :: ofSymbol '(' :: (cs ++ ofSymbol ')' :: ts)) (.loop c b)
        (max d d')

inductive Braced : List Token → List Node → Nat → Prop
  | braces {ts : List Token} {nodes : List Node} {d : Nat} (h : Statements ts nodes d) :
      Braced (ofSymbol '\x7b' :: (ts ++ [ofSymbol '\x7d'])) nodes (d + 1)

inductive Statements : List Token → List Node → Nat → Prop
  | nil : Statements [] [] 0
  | cons {ts us : List Token} {s : Node} {nodes : List Node} {d d' : Nat}
      (hs : Statement ts s d) (hn : Statements us nodes d') :
      Statements (ts ++ us) (s :: nodes) (max d d')

end

inductive Parameters : List Token → List Param → Prop
  | nil : Parameters [] []
  | cons {ty : Ty} {x : String} {ts : List Token} {ps : List Param} (hty : ty ∈ Ty.valueTypes)
      (hx : isQuotedText x = false) (h : Parameters ts ps) :
      Parameters (ofKeyword ty.name :: ofText x :: ts) (⟨ty, x⟩ :: ps)

inductive Definition : List Token → Node → Nat → Prop
  | function {ty : Ty} {x : String} {ps ts : List Token} {params : List Param} {body : List Node}
      {d : Nat} (hty : ty ∈ Ty.returnTypes) (hx : isQuotedText x = false)
      (hp : Parameters ps params) (hb : Statements ts body d) :
      Definition (ofKeyword ty.name :: ofText x :: ofSymbol '(' ::
        (ps ++ ofSymbol ')' :: ofSymbol '\x7b' :: (ts ++ [ofSymbol '\x7d'])))
        (.function ty x params body) d

/-- One or more function definitions. -/
inductive Definitions : List Token → List Node → Nat → Prop
  | one {ts : List Token} {f : Node} {d : Nat} (h : Definition ts f d) : Definitions ts [f] d
  | cons {ts us : List Token} {f : Node} {fs : List Node} {d d' : Nat} (h : Definition ts f d)
      (hs : Definitions us fs d') : Definitions (ts ++ us) (f :: fs) (max d d')

/-! ## Phrases that there are -/

theorem Expression.down {level level' : Nat} {ts : List Token} {e : Node} {d : Nat}
    (h : Expression level' ts e d) (hl : level ≤ level') : Expression level ts e d := by
  induction hl with
  | refl => exact h
  | step _ ih => exact ih h.up

theorem Expression.ne_nil {level : Nat} {ts : List Token} {e : Node} {d : Nat}
    (h : Expression level ts e d) : ts ≠ [] := by
  induction h with
  | up _ ih => exact ih
  | _ => simp

/-- Operands on the level of an operator are joined by it. -/
theorem Expression.joined {ts us : List Token} {l r : Node} {d d' : Nat} {op : Operator}
    (hl : Expression op.precedence ts l d) (hr : Expression (op.precedence + 1) us r d') :
    Expression op.precedence (ts ++ ofOperator op :: us) (.binary op l r) (max d d') := by
  obtain ⟨c, hop, -, ht⟩ := exists_sign op
  rw [ht]
  exact hl.join hop hr

/-- The expression `0`. -/
theorem Expression.zero (level : Nat) (h : level ≤ 4) :
    Expression level [⟨.number, "0"⟩] (.literal .int "0") 0 :=
  (Expression.number "0").down h

theorem Braced.empty : Braced [ofSymbol '\x7b', ofSymbol '\x7d'] [] 1 := .braces .nil

theorem Statement.ne_nil {ts : List Token} {s : Node} {d : Nat} (h : Statement ts s d) :
    ts ≠ [] := by
  cases h <;> simp

theorem Definition.ne_nil {ts : List Token} {f : Node} {d : Nat} (h : Definition ts f d) :
    ts ≠ [] := by
  cases h
  simp

theorem Definitions.ne_nil {ts : List Token} {fs : List Node} {d : Nat}
    (h : Definitions ts fs d) : ts ≠ [] := by
  cases h with
  | one h => exact h.ne_nil
  | cons h _ => exact List.append_ne_nil_of_left_ne_nil h.ne_nil _

/-- The program `void f() {}`. -/
theorem Definitions.shortest : ∃ ts fs d, Definitions ts fs d := by
  have h : Definition _ (.function .void "f" [] []) 0 :=
    .function (by decide) (by simp [isQuotedText]) .nil .nil
  exact ⟨_, _, _, .one h⟩

end Grammar

end ThreeAddress

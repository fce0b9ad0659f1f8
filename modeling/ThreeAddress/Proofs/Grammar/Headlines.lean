import ThreeAddress.Proofs.Grammar.Derivation
import ThreeAddress.Proofs.Token.Words

/-!
# Headlines of expressions

The headline of an expression is cut into the words and signs that it is put together from
(`Written.tokenizeChars_headline`), and these can be read in one way only
(`Written.headlineTokens_inj`): every operator stands between parentheses of its own, so where an
expression ends is seen without what follows it.
-/

namespace ThreeAddress

open Token Text

/-- An expression whose words are those of a text. -/
inductive Written : Node → Prop
  | number {text : String} (h : Lexeme ⟨.number, text⟩) : Written (.literal .int text)
  | quoted {text : String} (h : Lexeme (ofText text)) (hq : isQuotedText text = true) :
      Written (.literal .string text)
  | name {x : String} (h : Lexeme (ofText x)) (hq : isQuotedText x = false) : Written (.var x)
  | binary {op : Operator} {left right : Node} (hl : Written left) (hr : Written right) :
      Written (.binary op left right)
  | negate {operand : Node} (h : Written operand) : Written (.negate operand)

theorem Grammar.Expression.written {level : Nat} {ts : List Token} {e : Node} {d : Nat}
    (h : Expression level ts e d) (ht : ∀ t ∈ ts, Lexeme t) : Written e := by
  induction h with
  | number text => exact .number (List.forall_mem_singleton.1 ht)
  | quoted hq => exact .quoted (List.forall_mem_singleton.1 ht) hq
  | name hq => exact .name (List.forall_mem_singleton.1 ht) hq
  | paren _ ih => exact ih fun t hm => ht t (by simp [hm])
  | minus _ ih => exact .negate (ih fun t hm => ht t (by simp [hm]))
  | up _ ih => exact ih ht
  | join _ _ _ ihl ihr =>
    exact .binary (ihl fun t hm => ht t (by simp [hm])) (ihr fun t hm => ht t (by simp [hm]))

/-! ## The tokens of a headline -/

/-- What the headline of an expression is put together from. -/
def Node.headlineTokens : Node → List Token
  | .literal .int text => [⟨.number, text⟩]
  | .literal _ text => [ofText text]
  | .var name => [ofText name]
  | .binary op left right =>
    ofSymbol '(' :: (left.headlineTokens ++ ofOperator op :: (right.headlineTokens ++
      [ofSymbol ')']))
  | .negate operand => ofSymbol '-' :: operand.headlineTokens
  | .function .. | .assign .. | .exit _ | .branch .. | .loop .. => []

/-- The sign of an operator is a symbol character. -/
theorem Operator.symbol_spec (op : Operator) : ∃ c, isSymbolChar c = true ∧
    op.symbol.toList = [c] ∧ ofSymbol c = ofOperator op := by
  obtain ⟨c, -, hc, hop⟩ := Grammar.exists_sign op
  have hsymbol : op.symbol = String.singleton c := congrArg Token.text hop
  exact ⟨c, hc, by simp [hsymbol], hop.symm⟩

theorem ofText_injective : Function.Injective ofText := fun _ _ h => congrArg Token.text h

@[simp] theorem ofText_inj {x y : String} : ofText x = ofText y ↔ x = y :=
  ofText_injective.eq_iff

theorem ofOperator_injective : Function.Injective ofOperator := by
  intro op op' h
  have hsymbol : op.symbol = op'.symbol := congrArg Token.text h
  have hsome := Operator.ofSymbol?_symbol op
  rw [hsymbol, Operator.ofSymbol?_symbol, Option.some.injEq] at hsome
  exact hsome.symm

namespace Written

/-- A headline is cut into its tokens where no word goes on after it. -/
theorem tokenizeChars_headline {e : Node} (he : Written e) :
    ∀ {text : List Char}, (scan text).1 = [] →
      tokenizeChars (e.headline.toList ++ text) = e.headlineTokens ++ tokenizeChars text := by
  induction he with
  | number h | quoted h | name h => exact fun htext => h.tokenizeChars_append htext
  | @binary op left right _ _ ihl ihr =>
    intro text htext
    obtain ⟨c, hc, hop, htoken⟩ := op.symbol_spec
    have hclose : isSymbolChar ')' = true := rfl
    have hopen : isSymbolChar '(' = true := rfl
    have hshape : (Node.binary op left right).headline.toList ++ text =
        '(' :: (left.headline.toList ++ ' ' :: c :: ' ' ::
          (right.headline.toList ++ ')' :: text)) := by
      simp [Node.headline, hop]
    rw [hshape, tokenizeChars_symbol hopen, ihl (by rw [scan_blank isBlank_space]),
      tokenizeChars_blank isBlank_space, tokenizeChars_symbol hc, htoken,
      tokenizeChars_blank isBlank_space, ihr (by rw [scan_symbol hclose]),
      tokenizeChars_symbol hclose]
    simp [Node.headlineTokens]
  | @negate operand _ ih =>
    intro text htext
    have hminus : isSymbolChar '-' = true := rfl
    have hshape : (Node.negate operand).headline.toList ++ text =
        '-' :: (operand.headline.toList ++ text) := by
      simp [Node.headline]
    rw [hshape, tokenizeChars_symbol hminus, ih htext]
    rfl

/-- The tokens of a headline are read in one way only, whatever follows them. -/
theorem headlineTokens_inj {e : Node} (he : Written e) : ∀ {e' : Node} {ts ts' : List Token},
    Written e' → e.headlineTokens ++ ts = e'.headlineTokens ++ ts' → e = e' ∧ ts = ts' := by
  induction he with
  | number h =>
    intro e' ts ts' he' heq
    cases he' with
    | number h' => simpa [Node.headlineTokens] using heq
    | _ => simp [Node.headlineTokens, ofText, ofSymbol] at heq
  | quoted h hq =>
    intro e' ts ts' he' heq
    cases he' with
    | quoted h' hq' => simpa [Node.headlineTokens] using heq
    | name h' hq' =>
      -- the tokens of a quoted text and of a name differ in their texts alone
      rw [ofText_injective (List.cons.inj heq).1, hq'] at hq
      cases hq
    | _ => simp [Node.headlineTokens, ofText, ofSymbol] at heq
  | name h hq =>
    intro e' ts ts' he' heq
    cases he' with
    | name h' hq' => simpa [Node.headlineTokens] using heq
    | quoted h' hq' =>
      rw [ofText_injective (List.cons.inj heq).1, hq'] at hq
      cases hq
    | _ => simp [Node.headlineTokens, ofText, ofSymbol] at heq
  | @binary op left right _ _ ihl ihr =>
    intro e' ts ts' he' heq
    cases he' with
    | @binary op' left' right' hl' hr' =>
      simp only [Node.headlineTokens, List.cons_append, List.append_assoc, List.cons.injEq,
        true_and] at heq
      obtain ⟨rfl, hafterLeft⟩ := ihl hl' heq
      obtain ⟨hop, hafterOp⟩ := List.cons.inj hafterLeft
      obtain rfl := ofOperator_injective hop
      obtain ⟨rfl, hafterRight⟩ := ihr hr' hafterOp
      exact ⟨rfl, (List.cons.inj hafterRight).2⟩
    | _ => simp [Node.headlineTokens, ofText, ofSymbol] at heq
  | negate _ ih =>
    intro e' ts ts' he' heq
    cases he' with
    | negate h' =>
      obtain ⟨rfl, hrest⟩ := ih h' (List.cons.inj heq).2
      exact ⟨rfl, hrest⟩
    | _ => simp [Node.headlineTokens, ofText, ofSymbol] at heq

end Written

/-! ## Trees of a text -/

/-- A function or a statement whose words are those of a text. -/
inductive WrittenTree : Node → Prop
  | function {returns : Ty} {name : String} {params : List Param} {body : List Node}
      (hname : Lexeme (ofText name)) (hparams : ∀ p ∈ params, Lexeme (ofText p.name))
      (hbody : ∀ n ∈ body, WrittenTree n) : WrittenTree (.function returns name params body)
  | assign {x : String} {e : Node} (hx : Lexeme (ofText x)) (he : Written e) :
      WrittenTree (.assign x e)
  | exit {e : Node} (he : Written e) : WrittenTree (.exit e)
  | branch {c : Node} {t e : List Node} (hc : Written c) (ht : ∀ n ∈ t, WrittenTree n)
      (he : ∀ n ∈ e, WrittenTree n) : WrittenTree (.branch c t e)
  | loop {c : Node} {body : List Node} (hc : Written c) (hbody : ∀ n ∈ body, WrittenTree n) :
      WrittenTree (.loop c body)

namespace Grammar

mutual

theorem Statement.written : ∀ {ts : List Token} {s : Node} {d : Nat}, Statement ts s d →
    (∀ t ∈ ts, Lexeme t) → WrittenTree s
  | _, _, _, .declaration _ _ he, ht =>
    .assign (ht _ (by simp)) (he.written fun t h => ht t (by simp [h]))
  | _, _, _, .assignment _ he, ht =>
    .assign (ht _ (by simp)) (he.written fun t h => ht t (by simp [h]))
  | _, _, _, .exit he, ht => .exit (he.written fun t h => ht t (by simp [h]))
  | _, _, _, .ifThen hc hb, ht =>
    .branch (hc.written fun t h => ht t (by simp [h])) (hb.written fun t h => ht t (by simp [h]))
      (by simp)
  | _, _, _, .ifElse hc hb hb', ht =>
    .branch (hc.written fun t h => ht t (by simp [h])) (hb.written fun t h => ht t (by simp [h]))
      (hb'.written fun t h => ht t (by simp [h]))
  | _, _, _, .whileLoop hc hb, ht =>
    .loop (hc.written fun t h => ht t (by simp [h])) (hb.written fun t h => ht t (by simp [h]))

theorem Braced.written : ∀ {ts : List Token} {nodes : List Node} {d : Nat}, Braced ts nodes d →
    (∀ t ∈ ts, Lexeme t) → ∀ node ∈ nodes, WrittenTree node
  | _, _, _, .braces h, ht => h.written fun t h => ht t (by simp [h])

theorem Statements.written : ∀ {ts : List Token} {nodes : List Node} {d : Nat},
    Statements ts nodes d → (∀ t ∈ ts, Lexeme t) → ∀ node ∈ nodes, WrittenTree node
  | _, _, _, .nil, _ => by simp
  | _, _, _, .cons hs h, ht => by
    obtain ⟨hts, htr⟩ := List.forall_mem_append.1 ht
    exact List.forall_mem_cons.2 ⟨hs.written hts, h.written htr⟩

end

theorem Parameters.written {ts : List Token} {ps : List Param} (h : Parameters ts ps) :
    (∀ t ∈ ts, Lexeme t) → ∀ p ∈ ps, Lexeme (ofText p.name) := by
  induction h with
  | nil => simp
  | cons _ _ _ ih =>
    intro ht
    obtain ⟨-, hx, hts⟩ := by simpa only [List.forall_mem_cons] using ht
    exact List.forall_mem_cons.2 ⟨hx, ih hts⟩

theorem Definition.written {ts : List Token} {f : Node} {d : Nat} (h : Definition ts f d)
    (ht : ∀ t ∈ ts, Lexeme t) : WrittenTree f := by
  cases h with
  | function _ _ hp hb =>
    exact .function (ht _ (by simp)) (hp.written fun t h => ht t (by simp [h]))
      (hb.written fun t h => ht t (by simp [h]))

theorem Definitions.written {ts : List Token} {fs : List Node} {d : Nat} (h : Definitions ts fs d) :
    (∀ t ∈ ts, Lexeme t) → ∀ f ∈ fs, WrittenTree f := by
  induction h with
  | one h =>
    intro ht
    exact List.forall_mem_singleton.2 (h.written ht)
  | cons h _ ih =>
    intro ht
    obtain ⟨hts, hus⟩ := List.forall_mem_append.1 ht
    exact List.forall_mem_cons.2 ⟨h.written hts, ih hus⟩

end Grammar

end ThreeAddress

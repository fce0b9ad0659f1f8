import ThreeAddress.Proofs.Grammar.Soundness

/-!
# Every phrase is read

`Yields n r depth ts a S` says that the reader `r`, in any stream shorter than `n` that begins with
`ts` and goes on with a token in `S`, moves past `ts` and yields `a`. The lemmas for statements and
functions compose it along a derivation. Expressions need more: `Expression.passes` says that
reading an expression of a level comes to where the reader goes on from it as a left operand.

The main statement is `ofTokens_eq_ok_iff`: reading accepts the streams of the grammar whose nesting
and whose expressions stay within the limits, and yields the program they spell.
-/

namespace ThreeAddress.Grammar

open Token

section Steps

variable {α β : Type} {c c' : Cursor}

theorem bind_ok {r : Reader α} {f : α → Reader β} {a : α} (h : r c = .ok a c') :
    (r >>= f) c = f a c' := by
  show EStateM.bind r f c = _
  rw [EStateM.bind, h]

theorem bind_error {r : Reader α} {f : α → Reader β} {e : SyntaxError} (h : r c = .error e c') :
    (r >>= f) c = .error e c' := by
  show EStateM.bind r f c = _
  rw [EStateM.bind, h]

theorem peek_bind (f : Option Token → Reader β) : (peek? >>= f) c = f c.ahead.head? c := rfl

theorem peekOperator_bind (f : Option Operator → Reader β) :
    (peekOperator? >>= f) c = f (c.ahead.head?.bind operator?) c := rfl

theorem advance_bind {p depth : Nat} {t : Token} {l : List Token} (f : Unit → Reader β) :
    (advance >>= f) ⟨p, depth, t :: l⟩ = f () ⟨p + 1, depth, l⟩ := rfl

theorem grow_bind {below : Nat} (h : below + 1 ≤ maxNesting) (f : Nat → Reader β) :
    (grow below >>= f) c = f (below + 1) c := by
  rw [grow, if_neg (Nat.not_le.2 h), pure_bind]

theorem isSymbol_ofSymbol {c : Char} (h : c.toNat < 128) : (ofSymbol c).isSymbol c = true := by
  simp [isSymbol, ofSymbol, h]

theorem accept_symbol {p depth : Nat} {s : Char} {l : List Token} (h : s.toNat < 128) :
    accept (·.isSymbol s) ⟨p, depth, ofSymbol s :: l⟩ = .ok true ⟨p + 1, depth, l⟩ := by
  simp only [accept, isSymbol_ofSymbol h, if_true]
  rfl

theorem symbol_bind {p depth : Nat} {s : Char} {place : Place} {l : List Token}
    (h : s.toNat < 128) (f : Unit → Reader β) :
    (expectSymbol s place >>= f) ⟨p, depth, ofSymbol s :: l⟩ = f () ⟨p + 1, depth, l⟩ := by
  rw [expectSymbol, bind_assoc, bind_ok (accept_symbol h)]
  rfl

theorem nested_ok {r : Reader α} {cause : Cause} {a : α} {p p' depth : Nat} {l l' : List Token}
    (hd : depth < maxNesting) (h : r ⟨p, depth + 1, l⟩ = .ok a ⟨p', depth + 1, l'⟩) :
    nested cause r ⟨p, depth, l⟩ = .ok a ⟨p', depth, l'⟩ := by
  rw [nested, if_neg (Nat.not_le.2 hd), h]
  rfl

end Steps

/-! ## Expressions -/

theorem operator?_ofOperator (op : Operator) : operator? (ofOperator op) = some op :=
  operator?_eq_some.2 rfl

theorem eq_of_operator?_ofOperator {op op' : Operator} (h : operator? (ofOperator op) = some op') :
    op' = op := by
  rw [operator?_ofOperator] at h
  exact (Option.some.inj h).symm

/-- Nothing continues an operand when no operator of its level follows. -/
theorem climb_stop {n least : Nat} {left : Measured} {c : Cursor}
    (h : ∀ op, c.ahead.head?.bind operator? = some op → op.precedence < least) :
    climb (n + 1) least left c = .ok left c := by
  rw [climb, peekOperator_bind]
  cases hop : c.ahead.head?.bind operator? with
  | none => rfl
  | some op =>
    simp only [h op hop, if_true]
    rfl

theorem climb_operator {n least p depth : Nat} {left : Measured} {op : Operator} {l : List Token}
    (hop : least ≤ op.precedence) :
    climb (n + 1) least left ⟨p, depth, ofOperator op :: l⟩ =
      (do
        let right ← binary n (op.precedence + 1)
        let height ← grow (max left.height right.height)
        climb n least ⟨.binary op left.node right.node, height⟩) ⟨p + 1, depth, l⟩ := by
  have hnext : (Option.bind (ofOperator op :: l).head? operator?) = some op :=
    operator?_ofOperator op
  rw [climb, peekOperator_bind, hnext]
  simp only [Nat.not_lt.2 hop, if_false]
  exact advance_bind _

/-- An operator and a right operand continue an operand. -/
theorem climb_step {n least p depth : Nat} {left right : Measured} {op : Operator}
    {us rest : List Token} (hop : least ≤ op.precedence)
    (hr : binary n (op.precedence + 1) ⟨p + 1, depth, us ++ rest⟩ =
      .ok right ⟨p + 1 + us.length, depth, rest⟩)
    (hm : max left.height right.height + 1 ≤ maxNesting) :
    climb (n + 1) least left ⟨p, depth, ofOperator op :: (us ++ rest)⟩ =
      climb n least ⟨.binary op left.node right.node, max left.height right.height + 1⟩
        ⟨p + 1 + us.length, depth, rest⟩ := by
  rw [climb_operator hop, bind_ok hr, grow_bind hm]

theorem unary_minus {inner : Reader Measured} {p depth : Nat} {l : List Token} :
    unary inner ⟨p, depth, ofSymbol '-' :: l⟩ =
      (do
        let operand ← primary inner
        let height ← grow operand.height
        return ⟨.negate operand.node, height⟩ : Reader Measured) ⟨p + 1, depth, l⟩ := by
  rw [unary, bind_ok (accept_symbol (by decide)), if_pos rfl]

theorem primary_open {inner : Reader Measured} {p depth : Nat} {l : List Token} :
    primary inner ⟨p, depth, ofSymbol '(' :: l⟩ =
      (do
        let e ← nested .expressionTooDeep do
          advance
          inner
        expectSymbol ')' .afterExpression
        return e) ⟨p, depth, ofSymbol '(' :: l⟩ := by
  rw [primary, peek_bind]
  show (if (ofSymbol '(').isSymbol '(' then _ else _ : Reader Measured) _ = _
  rw [isSymbol_ofSymbol (by decide), if_pos rfl]

theorem unary_of_primary {inner : Reader Measured} {c : Cursor}
    (h : ∀ t, c.ahead.head? = some t → t.isSymbol '-' = false) :
    unary inner c = primary inner c := by
  obtain ⟨p, depth, ahead⟩ := c
  cases ahead with
  | nil => rfl
  | cons t l =>
    have ht : accept (·.isSymbol '-') ⟨p, depth, t :: l⟩ = .ok false ⟨p, depth, t :: l⟩ := by
      simp [accept, h t rfl]
    rw [unary, bind_ok ht]
    rfl

theorem level_lt_of_mem {level : Nat} {c : Char} {op : Operator}
    (h : (c, op) ∈ levelOperators level) : level < 3 :=
  (mem_levelOperators.1 h).1 ▸ precedence_lt op

theorem Expression.level_le {level : Nat} {ts : List Token} {e : Node} {d : Nat}
    (h : Expression level ts e d) : level ≤ 4 := by
  induction h with
  | number | quoted | name | paren | minus => omega
  | up _ ih => omega
  | join _ hop _ _ _ =>
    have := level_lt_of_mem hop
    omega

/-- A primary does not begin with a minus sign. -/
theorem Expression.head_ne_minus {ts rest : List Token} {e : Node} {d : Nat}
    (h : Expression 4 ts e d) {t : Token} (ht : (ts ++ rest).head? = some t) :
    t.isSymbol '-' = false := by
  generalize hl : 4 = level at h
  cases h with
  | number | quoted | name =>
    cases ht
    rfl
  | paren =>
    cases ht
    simp [isSymbol, ofSymbol]
  | minus => cases hl
  | up h =>
    have := h.level_le
    omega
  | join _ hop _ =>
    have := level_lt_of_mem hop
    omega

/-- How the readers of expressions move past an expression of a level, with the first operand read
in `n + 1` rounds. -/
structure Passes (n depth level : Nat) (ts : List Token) (e : Node) (p : Nat) (rest : List Token) :
    Prop where
  primary : level = 4 → primary (binary n 0) ⟨p, depth, ts ++ rest⟩ =
    .ok ⟨e, e.height⟩ ⟨p + ts.length, depth, rest⟩
  unary : level = 3 → unary (binary n 0) ⟨p, depth, ts ++ rest⟩ =
    .ok ⟨e, e.height⟩ ⟨p + ts.length, depth, rest⟩
  binary : level ≤ 3 → (∀ op, rest.head?.bind operator? = some op → op.precedence ≤ level) →
    ∀ least ≤ level, ∃ k, rest.length < k ∧ binary (n + 1) least ⟨p, depth, ts ++ rest⟩ =
      climb k least ⟨e, e.height⟩ ⟨p + ts.length, depth, rest⟩

theorem Passes.of_unary {n depth p : Nat} {ts rest : List Token} {e : Node} (hts : ts ≠ [])
    (hn : (ts ++ rest).length ≤ n)
    (h : Grammar.unary (Grammar.binary n 0) ⟨p, depth, ts ++ rest⟩ =
      .ok ⟨e, e.height⟩ ⟨p + ts.length, depth, rest⟩) : Passes n depth 3 ts e p rest := by
  refine ⟨nofun, fun _ => h, fun _ _ least _ => ⟨n, ?_, ?_⟩⟩
  · have := List.length_pos_iff.2 hts
    rw [List.length_append] at hn
    omega
  · rw [Grammar.binary, bind_ok h]

theorem Passes.paren {n depth p d : Nat} {ts rest : List Token} {e : Node}
    (hd : depth + (d + 1) ≤ maxNesting)
    (hn : (ofSymbol '(' :: (ts ++ [ofSymbol ')']) ++ rest).length ≤ n)
    (ih : Passes (n - 1) (depth + 1) 0 ts e (p + 1) (ofSymbol ')' :: rest)) :
    Passes n depth 4 (ofSymbol '(' :: (ts ++ [ofSymbol ')'])) e p rest := by
  refine ⟨fun _ => ?_, nofun, nofun⟩
  obtain ⟨n, rfl⟩ : ∃ n', n = n' + 1 := Nat.exists_eq_succ_of_ne_zero fun h => by simp [h] at hn
  obtain ⟨k, hk, hb⟩ := ih.binary (Nat.zero_le 3) nofun 0 (Nat.le_refl 0)
  have hinner : Grammar.binary (n + 1) 0 ⟨p + 1, depth + 1, ts ++ ofSymbol ')' :: rest⟩ =
      .ok ⟨e, e.height⟩ ⟨p + 1 + ts.length, depth + 1, ofSymbol ')' :: rest⟩ := by
    obtain ⟨k, rfl⟩ : ∃ k', k = k' + 1 := Nat.exists_eq_succ_of_ne_zero fun h => by simp [h] at hk
    exact hb.trans (climb_stop nofun)
  have hl : ofSymbol '(' :: (ts ++ [ofSymbol ')']) ++ rest =
      ofSymbol '(' :: (ts ++ ofSymbol ')' :: rest) := by simp
  rw [hl, primary_open, bind_ok (nested_ok (by omega) ((advance_bind _).trans hinner)),
    symbol_bind (by decide)]
  show EStateM.Result.ok _ _ = _
  congr 2
  simp only [List.length_cons, List.length_append, List.length_nil]
  omega

theorem Expression.passes {level : Nat} {ts : List Token} {e : Node} {d : Nat}
    (h : Expression level ts e d) : ∀ {n depth p : Nat} {rest : List Token},
    e.height ≤ maxNesting → depth + d ≤ maxNesting → (ts ++ rest).length ≤ n →
    Passes n depth level ts e p rest := by
  induction h with
  | number text =>
    intro n depth p rest hm hd hn
    exact ⟨fun _ => rfl, nofun, nofun⟩
  | @quoted text h =>
    intro n depth p rest hm hd hn
    have hq : (ofText text).isQuoted = true := h
    refine ⟨fun _ => ?_, nofun, nofun⟩
    show EStateM.Result.ok (⟨if (ofText text).isQuoted then _ else _, 1⟩ : Measured) _ = _
    rw [hq]
    rfl
  | @name text h =>
    intro n depth p rest hm hd hn
    have hq : (ofText text).isQuoted = false := h
    refine ⟨fun _ => ?_, nofun, nofun⟩
    show EStateM.Result.ok (⟨if (ofText text).isQuoted then _ else _, 1⟩ : Measured) _ = _
    rw [hq]
    rfl
  | paren h ih =>
    intro n depth p rest hm hd hn
    refine .paren hd hn (ih hm (by omega) ?_)
    simp only [List.length_append, List.length_cons, List.length_nil] at hn ⊢
    omega
  | @minus ts e d h ih =>
    intro n depth p rest hm hd hn
    have hprimary := (ih (p := p + 1) (Nat.le_of_succ_le hm) hd (Nat.le_of_succ_le hn)).primary rfl
    refine .of_unary (List.cons_ne_nil _ _) hn ?_
    rw [List.cons_append, unary_minus, bind_ok hprimary, grow_bind hm]
    show EStateM.Result.ok _ _ = _
    congr 2
    rw [List.length_cons]
    omega
  | @up level ts e d h ih =>
    intro n depth p rest hm hd hn
    have hih := ih (p := p) hm hd hn
    rcases Nat.lt_trichotomy level 3 with hlt | rfl | hgt
    · refine ⟨by omega, by omega, fun _ hstop least hl => ?_⟩
      exact hih.binary hlt (fun op hop => Nat.le_succ_of_le (hstop op hop)) least (by omega)
    · refine .of_unary h.ne_nil hn ?_
      rw [unary_of_primary fun t ht => h.head_ne_minus ht]
      exact hih.primary rfl
    · have := h.level_le
      omega
  | @join level ts us l r d d' c op hl hmem hr ihl ihr =>
    intro n depth p rest hm hd hn
    obtain ⟨hop, ht⟩ := mem_levelOperators.1 hmem
    rw [← ht] at hn ⊢
    have hlt := level_lt_of_mem hmem
    have hmax : max l.height r.height + 1 ≤ maxNesting := hm
    have happ : ts ++ ofOperator op :: us ++ rest = ts ++ ofOperator op :: (us ++ rest) := by simp
    rw [happ] at hn
    have hdl : depth + d ≤ maxNesting := by omega
    have hdr : depth + d' ≤ maxNesting := by omega
    have hnext : ∀ op', operator? (ofOperator op) = some op' → op'.precedence ≤ level := by
      intro op' h
      rw [eq_of_operator?_ofOperator h]
      exact Nat.le_of_eq hop
    refine ⟨by omega, by omega, fun hle hstop least hleast => ?_⟩
    have hleft := ihl (p := p) (by omega) hdl hn
    obtain ⟨k, hk, hbl⟩ := hleft.binary hle hnext least hleast
    -- of the rounds left one is for the operator, and enough are for the right operand
    obtain ⟨k, rfl⟩ : ∃ k', k = k' + 2 := ⟨k - 2, by simp at hk; omega⟩
    have hlen : (us ++ rest).length ≤ k := by
      rw [List.length_cons] at hk
      omega
    have hright := ihr (p := p + ts.length + 1) (by omega) hdr hlen
    obtain ⟨j, hj, hbr⟩ := hright.binary hlt (fun op' h => Nat.le_succ_of_le (hstop op' h))
      (level + 1) (Nat.le_refl _)
    obtain ⟨j, rfl⟩ : ∃ j', j = j' + 1 := ⟨j - 1, by omega⟩
    rw [climb_stop fun op' h => Nat.lt_succ_of_le (hstop op' h), ← hop] at hbr
    refine ⟨k + 1, ?_, ?_⟩
    · rw [List.length_append] at hlen
      omega
    · have hpos : p + (ts ++ ofOperator op :: us).length = p + ts.length + 1 + us.length := by
        rw [List.length_append, List.length_cons]
        omega
      rw [happ, hbl, climb_step (hop ▸ hleast) hbr hmax, hpos]
      rfl

/-! ## Readers along a derivation -/

theorem typeOf?_name {ty : Ty} {allowed : List Ty} (hty : ty ∈ allowed) (hu : .unknown ∉ allowed) :
    typeOf? allowed (ofKeyword ty.name) = some ty :=
  typeOf?_eq_some.2 ⟨hty, fun h => hu (h ▸ hty), rfl⟩

/-- The reader moves past `ts` and yields `a` in any stream shorter than `n` that begins with `ts`
and goes on with a token in `S`. -/
def Yields {α : Type} (n : Nat) (r : Reader α) (depth : Nat) (ts : List Token) (a : α)
    (S : Option Token → Prop) : Prop :=
  ∀ p rest, S rest.head? → (ts ++ rest).length < n →
    r ⟨p, depth, ts ++ rest⟩ = .ok a ⟨p + ts.length, depth, rest⟩

namespace Yields

variable {α β : Type} {n depth : Nat} {r : Reader α} {ts us : List Token} {a : α} {b : β}
  {S S' : Option Token → Prop}

theorem le {m : Nat} (h : Yields n r depth ts a S) (hm : m ≤ n) : Yields m r depth ts a S :=
  fun p rest hS hl => h p rest hS (Nat.lt_of_lt_of_le hl hm)

theorem pure : Yields n (pure a) depth [] a S := fun _ _ _ _ => rfl

theorem bind {f : α → Reader β} (h : Yields n r depth ts a S')
    (hf : Yields (n - ts.length) (f a) depth us b S)
    (hS : ∀ rest : List Token, S rest.head? → S' (us ++ rest).head?) :
    Yields n (r >>= f) depth (ts ++ us) b S := by
  intro p rest hr hl
  rw [List.append_assoc] at hl ⊢
  rw [bind_ok (h p (us ++ rest) (hS rest hr) hl), hf _ rest hr (by simp at hl ⊢; omega),
    List.length_append, Nat.add_assoc]

theorem peek {t : Token} {f : Option Token → Reader α}
    (h : Yields n (f (some t)) depth (t :: ts) a S) :
    Yields n (peek? >>= f) depth (t :: ts) a S :=
  fun p rest hr hl => h p rest hr hl

theorem advance {t : Token} {f : Unit → Reader α} (h : Yields (n - 1) (f ()) depth ts a S) :
    Yields n (advance >>= f) depth (t :: ts) a S := by
  intro p rest hr hl
  rw [List.cons_append, advance_bind, h _ rest hr (Nat.lt_sub_of_add_lt hl), List.length_cons,
    Nat.add_assoc, Nat.add_comm 1]

theorem symbol {s : Char} {place : Place} {f : Unit → Reader α} (hs : s.toNat < 128)
    (h : Yields (n - 1) (f ()) depth ts a S) :
    Yields n (expectSymbol s place >>= f) depth (ofSymbol s :: ts) a S := by
  intro p rest hr hl
  rw [List.cons_append, symbol_bind hs]
  exact advance h p rest hr hl

theorem name {x : String} {place : Place} {f : String → Reader α} (hx : isQuotedText x = false)
    (h : Yields (n - 1) (f x) depth ts a S) :
    Yields n (expectName place >>= f) depth (ofText x :: ts) a S := by
  have hn : (ofText x).isName = true := isName_iff.2 ⟨x, hx, rfl⟩
  rw [expectName, bind_assoc]
  refine peek ?_
  simp only [hn, if_true, bind_assoc, pure_bind]
  exact advance h

theorem type {ty : Ty} {allowed : List Ty} {place : Place} {f : Ty → Reader α}
    (ht : typeOf? allowed (ofKeyword ty.name) = some ty) (h : Yields (n - 1) (f ty) depth ts a S) :
    Yields n (expectType allowed place >>= f) depth (ofKeyword ty.name :: ts) a S := by
  rw [expectType, bind_assoc]
  refine peek ?_
  simp only [Option.bind_some, ht, bind_assoc, pure_bind]
  exact advance h

theorem accepted {w : String} {f : Bool → Reader α} (h : Yields (n - 1) (f true) depth ts a S) :
    Yields n (accept (·.isKeyword w) >>= f) depth (ofKeyword w :: ts) a S := by
  intro p rest hr hl
  have ha : accept (·.isKeyword w) ⟨p, depth, ofKeyword w :: (ts ++ rest)⟩ =
      .ok true ⟨p + 1, depth, ts ++ rest⟩ := by
    simp only [accept, isKeyword_iff.2, if_true]
    rfl
  rw [List.cons_append, bind_ok ha]
  exact advance (f := fun _ => f true) h p rest hr hl

theorem declined {w : String} {f : Bool → Reader α} (h : Yields n (f false) depth [] a S)
    (hS : ∀ next, S next → next ≠ some (ofKeyword w)) :
    Yields n (accept (·.isKeyword w) >>= f) depth [] a S := by
  intro p rest hr hl
  have ha : accept (·.isKeyword w) ⟨p, depth, rest⟩ = .ok false ⟨p, depth, rest⟩ := by
    cases rest with
    | nil => rfl
    | cons t l =>
      have ht : t.isKeyword w = false :=
        Bool.eq_false_iff.2 fun h => hS _ hr (congrArg some (isKeyword_iff.1 h))
      simp only [accept, ht]
      rfl
  rw [List.nil_append, bind_ok ha]
  exact h p rest hr hl

theorem nested {cause : Cause} (hd : depth < maxNesting) (h : Yields n r (depth + 1) ts a S) :
    Yields n (nested cause r) depth ts a S :=
  fun p rest hr hl => nested_ok hd (h p rest hr hl)

end Yields

section Statements

variable {n depth d : Nat} {ts : List Token} {e : Node} {S : Option Token → Prop}

theorem expression_yields (h : Expression 0 ts e d) (hm : e.height ≤ maxNesting)
    (hd : depth + d ≤ maxNesting) :
    Yields n (expression n) depth ts e fun next => next.bind operator? = none := by
  intro p rest hr hl
  obtain ⟨n, rfl⟩ : ∃ n', n = n' + 1 := ⟨n - 1, by omega⟩
  have hstop : ∀ {m} op, rest.head?.bind operator? = some op → op.precedence < m := by
    intro m op h
    rw [hr] at h
    cases h
  obtain ⟨k, hk, hb⟩ := (h.passes (p := p) hm hd (Nat.le_of_lt_succ hl)).binary (Nat.zero_le 3)
    (fun op h => Nat.le_of_lt_succ (hstop op h)) 0 (Nat.le_refl 0)
  obtain ⟨k, rfl⟩ : ∃ k', k = k' + 1 := ⟨k - 1, by omega⟩
  rw [expression, bind_ok (hb.trans (climb_stop hstop))]
  rfl

theorem assigned_yields {x : String} {p q : Place} (h : Expression 0 ts e d)
    (hm : e.height ≤ maxNesting) (hd : depth + d ≤ maxNesting) :
    Yields n (assigned n x p q) depth (ofSymbol '=' :: (ts ++ [ofSymbol ';'])) (.assign x e) S :=
  .symbol (by decide) (.bind ((expression_yields h hm hd).le (Nat.sub_le ..))
    (.symbol (by decide) .pure) fun _ _ => rfl)

theorem returned_yields (h : Expression 0 ts e d) (hm : e.height ≤ maxNesting)
    (hd : depth + d ≤ maxNesting) :
    Yields n (returned n) depth (ts ++ [ofSymbol ';']) (.exit e) S :=
  .bind (expression_yields h hm hd) (.symbol (by decide) .pure) fun _ _ => rfl

theorem condition_yields {word : Guard} (h : Expression 0 ts e d) (hm : e.height ≤ maxNesting)
    (hd : depth + d ≤ maxNesting) :
    Yields n (condition n word) depth (ofSymbol '(' :: (ts ++ [ofSymbol ')'])) e fun _ => True :=
  .symbol (by decide) (.bind ((expression_yields h hm hd).le (Nat.sub_le ..))
    (.symbol (by decide) .pure) fun _ _ => rfl)

theorem braced_yields {body : Body} {inner : Reader (List Node)} {nodes : List Node}
    (hd : depth < maxNesting)
    (h : Yields n inner (depth + 1) ts nodes fun next => next = some (ofSymbol '\x7d')) :
    Yields n (braced body inner) depth (ofSymbol '\x7b' :: (ts ++ [ofSymbol '\x7d'])) nodes S :=
  .bind (.nested hd (.symbol (by decide) (h.le (Nat.sub_le ..)))) (.symbol (by decide) .pure)
    fun _ _ => rfl

section Rest

variable {inner : Reader (List Node)} {cs us : List Token} {c : Node} {t u : List Node}

theorem ifRest_then (hc : Expression 0 cs c d) (hm : c.height ≤ maxNesting)
    (hd : depth + d ≤ maxNesting)
    (ht : Yields n (braced .ifBody inner) depth ts t fun _ => True) :
    Yields n (ifRest n inner) depth (ofSymbol '(' :: (cs ++ ofSymbol ')' :: ts)) (.branch c t [])
      fun next => next ≠ some (ofKeyword "else") := by
  have h : Yields n (ifRest n inner) depth (ofSymbol '(' :: (cs ++ [ofSymbol ')']) ++ (ts ++ []))
      (.branch c t []) fun next => next ≠ some (ofKeyword "else") :=
    .bind (condition_yields hc hm hd) (.bind (ht.le (Nat.sub_le ..))
      (.declined .pure fun _ h => h) fun _ _ => trivial) fun _ _ => trivial
  simpa using h

theorem ifRest_else (hc : Expression 0 cs c d) (hm : c.height ≤ maxNesting)
    (hd : depth + d ≤ maxNesting)
    (ht : Yields n (braced .ifBody inner) depth ts t fun _ => True)
    (hu : Yields n (braced .elseBody inner) depth us u S) :
    Yields n (ifRest n inner) depth
      (ofSymbol '(' :: (cs ++ ofSymbol ')' :: (ts ++ ofKeyword "else" :: us)))
      (.branch c t u) S := by
  have h : Yields n (ifRest n inner) depth
      (ofSymbol '(' :: (cs ++ [ofSymbol ')']) ++ (ts ++ ofKeyword "else" :: (us ++ [])))
      (.branch c t u) S :=
    .bind (condition_yields hc hm hd) (.bind (ht.le (Nat.sub_le ..))
      (.accepted (.bind (hu.le (by omega)) .pure fun _ h => h)) fun _ _ => trivial)
      fun _ _ => trivial
  simpa using h

theorem whileRest_yields (hc : Expression 0 cs c d) (hm : c.height ≤ maxNesting)
    (hd : depth + d ≤ maxNesting) (ht : Yields n (braced .loopBody inner) depth ts t S) :
    Yields n (whileRest n inner) depth (ofSymbol '(' :: (cs ++ ofSymbol ')' :: ts)) (.loop c t)
      S := by
  have h : Yields n (whileRest n inner) depth
      (ofSymbol '(' :: (cs ++ [ofSymbol ')']) ++ (ts ++ [])) (.loop c t) S :=
    .bind (condition_yields hc hm hd) (.bind (ht.le (Nat.sub_le ..)) .pure fun _ h => h)
      fun _ _ => trivial
  simpa using h

end Rest

/-! The first token decides which statement is read. -/

variable {inner : Reader (List Node)} {s : Node}

theorem statement_declaration {ty : Ty}
    (ht : typeOf? Ty.valueTypes (ofKeyword ty.name) = some ty)
    (h : Yields (n + 1) (declaration n) depth (ofKeyword ty.name :: ts) s S) :
    Yields (n + 1) (statement n inner) depth (ofKeyword ty.name :: ts) s S := by
  refine .peek ?_
  simpa only [ht, Option.isSome_some, if_true] using h

theorem statement_if (h : Yields n (ifRest n inner) depth ts s S) :
    Yields (n + 1) (statement n inner) depth (ofKeyword "if" :: ts) s S := by
  have ht : typeOf? Ty.valueTypes (ofKeyword "if") = none := rfl
  have hk : (ofKeyword "if").isKeyword "if" = true := isKeyword_iff.2 rfl
  refine .peek ?_
  simp only [ht, hk, if_true]
  exact .advance h

theorem statement_while (h : Yields n (whileRest n inner) depth ts s S) :
    Yields (n + 1) (statement n inner) depth (ofKeyword "while" :: ts) s S := by
  have ht : typeOf? Ty.valueTypes (ofKeyword "while") = none := rfl
  have hi : (ofKeyword "while").isKeyword "if" = false := rfl
  have hk : (ofKeyword "while").isKeyword "while" = true := isKeyword_iff.2 rfl
  refine .peek ?_
  simp only [ht, hi, hk, if_true]
  exact .advance h

theorem statement_return (h : Yields n (returned n) depth ts s S) :
    Yields (n + 1) (statement n inner) depth (ofKeyword "return" :: ts) s S := by
  have ht : typeOf? Ty.valueTypes (ofKeyword "return") = none := rfl
  have hi : (ofKeyword "return").isKeyword "if" = false := rfl
  have hw : (ofKeyword "return").isKeyword "while" = false := rfl
  have hk : (ofKeyword "return").isKeyword "return" = true := isKeyword_iff.2 rfl
  refine .peek ?_
  simp only [ht, hi, hw, hk, if_true]
  exact .advance h

theorem statement_assignment {x : String} (hx : isQuotedText x = false)
    (h : Yields (n + 1) (assignment n) depth (ofText x :: ts) s S) :
    Yields (n + 1) (statement n inner) depth (ofText x :: ts) s S := by
  have ht : typeOf? Ty.valueTypes (ofText x) = none := rfl
  have hk : ∀ w, (ofText x).isKeyword w = false := fun _ => rfl
  have hn : (ofText x).isName = true := isName_iff.2 ⟨x, hx, rfl⟩
  refine .peek ?_
  simp only [ht, hk, hn, if_true]
  exact h

theorem statements_nil :
    Yields n (statements n) depth [] [] fun next => next = some (ofSymbol '\x7d') := by
  intro p rest hr hl
  obtain ⟨n, rfl⟩ : ∃ n', n = n' + 1 := ⟨n - 1, by omega⟩
  obtain ⟨l, rfl⟩ := List.head?_eq_some_iff.1 hr
  have hc : (ofSymbol '\x7d').isSymbol '\x7d' = true := isSymbol_ofSymbol (by decide)
  rw [statements, peek_bind]
  simp only [List.nil_append, List.head?_cons, hc, if_true]
  rfl

theorem Statement.head {ts : List Token} {s : Node} {d : Nat} (h : Statement ts s d) :
    ∃ t l, ts = t :: l ∧ t.isSymbol '\x7d' = false ∧ t ≠ ofKeyword "else" := by
  cases h with
  | @declaration ty _ _ _ _ hty _ _ =>
    refine ⟨_, _, rfl, rfl, ?_⟩
    simp only [Ty.valueTypes, List.mem_cons, List.not_mem_nil, or_false] at hty
    rcases hty with rfl | rfl <;> decide
  | assignment | exit | ifThen | ifElse | whileLoop =>
    exact ⟨_, _, rfl, rfl, by simp [ofText, ofKeyword]⟩

theorem Statements.head_ne_else {us rest : List Token} {nodes : List Node} {d : Nat}
    (h : Statements us nodes d) (hr : rest.head? = some (ofSymbol '\x7d')) :
    (us ++ rest).head? ≠ some (ofKeyword "else") := by
  cases h with
  | nil =>
    rw [List.nil_append, hr]
    simp [ofSymbol, ofKeyword]
  | cons hs _ =>
    obtain ⟨t, l, rfl, -, ht⟩ := hs.head
    simpa using ht

theorem statements_cons {us : List Token} {nodes : List Node} {d' : Nat} (h : Statement ts s d)
    (hs : Yields (n + 1) (statement n (statements n)) depth ts s fun next =>
      next ≠ some (ofKeyword "else")) (h' : Statements us nodes d')
    (hn : Yields n (statements n) depth us nodes fun next => next = some (ofSymbol '\x7d')) :
    Yields (n + 1) (statements (n + 1)) depth (ts ++ us) (s :: nodes) fun next =>
      next = some (ofSymbol '\x7d') := by
  obtain ⟨t, l, rfl, ht, -⟩ := h.head
  have hlen : n + 1 - (t :: l).length ≤ n := by
    rw [List.length_cons]
    omega
  have hrest : Yields (n + 1) (statement n (statements n) >>= fun first =>
      statements n >>= fun others => pure (first :: others)) depth (t :: l ++ (us ++ []))
      (s :: nodes) fun next => next = some (ofSymbol '\x7d') := by
    refine hs.bind (.bind (hn.le hlen) .pure fun _ h => h) fun rest hr => ?_
    rw [List.append_nil]
    exact h'.head_ne_else hr
  rw [List.append_nil] at hrest
  rw [statements]
  refine .peek ?_
  simp only [ht]
  exact hrest

mutual

theorem Statement.yields : ∀ {n depth d : Nat} {ts : List Token} {s : Node}, Statement ts s d →
    s.tallest ≤ maxNesting → depth + d ≤ maxNesting →
    Yields (n + 1) (statement n (statements n)) depth ts s fun next =>
      next ≠ some (ofKeyword "else")
  | n, depth, d, _, _, .declaration hty hx he, hm, hd => by
    have ht := typeOf?_name hty (by decide)
    exact statement_declaration ht (.type ht (.name hx ((assigned_yields he hm hd).le
      (Nat.sub_le ..))))
  | n, depth, d, _, _, .assignment hx he, hm, hd =>
    statement_assignment hx (.name hx (assigned_yields he hm hd))
  | n, depth, d, _, _, .exit he, hm, hd => statement_return (returned_yields he hm hd)
  | n, depth, _, _, _, .ifThen hc ht, hm, hd => by
    obtain ⟨hcm, hbm⟩ := Nat.max_le.1 hm
    obtain ⟨htm, -⟩ := Nat.max_le.1 hbm
    exact statement_if (ifRest_then hc hcm (by omega) (ht.yields htm (by omega)))
  | n, depth, _, _, _, .ifElse hc ht he, hm, hd => by
    obtain ⟨hcm, hbm⟩ := Nat.max_le.1 hm
    obtain ⟨htm, hem⟩ := Nat.max_le.1 hbm
    exact statement_if (ifRest_else hc hcm (by omega) (ht.yields htm (by omega))
      (he.yields hem (by omega)))
  | n, depth, _, _, _, .whileLoop hc hb, hm, hd => by
    obtain ⟨hcm, hbm⟩ := Nat.max_le.1 hm
    exact statement_while (whileRest_yields hc hcm (by omega) (hb.yields hbm (by omega)))

theorem Braced.yields : ∀ {n depth d : Nat} {body : Body} {ts : List Token} {nodes : List Node}
    {S : Option Token → Prop}, Braced ts nodes d →
    Node.tallestAll nodes ≤ maxNesting → depth + d ≤ maxNesting →
    Yields n (braced body (statements n)) depth ts nodes S
  | n, depth, _, body, _, _, S, .braces h, hm, hd =>
    braced_yields (by omega) (h.yields hm (by omega))

theorem Statements.yields : ∀ {n depth d : Nat} {ts : List Token} {nodes : List Node},
    Statements ts nodes d → Node.tallestAll nodes ≤ maxNesting → depth + d ≤ maxNesting →
    Yields n (statements n) depth ts nodes fun next => next = some (ofSymbol '\x7d')
  | n, depth, _, _, _, .nil, hm, hd => statements_nil
  | 0, depth, _, _, _, .cons hs hn, hm, hd => fun _ _ _ hl => absurd hl (Nat.not_lt_zero _)
  | n + 1, depth, _, _, _, .cons hs hn, hm, hd => by
    obtain ⟨hsm, hnm⟩ := Nat.max_le.1 hm
    exact statements_cons hs (hs.yields hsm (by omega)) hn (hn.yields hnm (by omega))

end

end Statements

/-! ## Functions -/

section Functions

variable {n depth d : Nat} {ts : List Token}

theorem parameters_yields : ∀ {n : Nat} {ts : List Token} {ps : List Param}, Parameters ts ps →
    Yields n (parameters n) depth ts ps fun next => next = some (ofSymbol ')')
  | 0, _, _, _ => fun _ _ _ hl => absurd hl (Nat.not_lt_zero _)
  | n + 1, _, _, .nil => by
    intro p rest hr hl
    obtain ⟨l, rfl⟩ := List.head?_eq_some_iff.1 hr
    have ht : (some (ofSymbol ')')).bind (typeOf? Ty.valueTypes) = none := rfl
    rw [parameters, peek_bind]
    simp only [List.nil_append, List.head?_cons, ht]
    rfl
  | n + 1, _, _, @Parameters.cons ty x ts ps hty hx h => by
    have ht := typeOf?_name hty (by decide)
    have hrest : Yields n (parameters n >>= fun others => pure (⟨ty, x⟩ :: others)) depth (ts ++ [])
        (⟨ty, x⟩ :: ps) fun next => next = some (ofSymbol ')') :=
      .bind (parameters_yields h) .pure fun _ h => h
    rw [List.append_nil] at hrest
    rw [parameters]
    refine .peek ?_
    simp only [Option.bind_some, ht]
    exact .type ht (.name hx (hrest.le (Nat.sub_le ..)))

theorem definition_yields {f : Node} (h : Definition ts f d) (hm : f.tallest ≤ maxNesting)
    (hd : depth + d ≤ maxNesting) :
    Yields (n + 1) (definition n) depth ts f fun _ => True := by
  cases h with
  | function hty hx hp hb =>
    have hbody := hb.yields (n := n) hm hd
    refine .type (typeOf?_name hty (by decide)) (.name hx (.symbol (by decide) ?_))
    refine .bind ((parameters_yields hp).le (by omega)) ?_ fun _ _ => rfl
    refine .symbol (by decide) (.symbol (by decide) ?_)
    exact .bind (hbody.le (by omega)) (.symbol (by decide) .pure) fun _ _ => rfl

theorem functions_yields : ∀ {n d : Nat} {ts : List Token} {fs : List Node}, Definitions ts fs d →
    Node.tallestAll fs ≤ maxNesting → depth + d ≤ maxNesting →
    Yields n (functions n) depth ts fs fun next => next = none
  | 0, _, _, _, _, _, _ => fun _ _ _ hl => absurd hl (Nat.not_lt_zero _)
  | n + 1, _, _, _, .one h, hm, hd => by
    obtain ⟨hfm, -⟩ := Nat.max_le.1 hm
    intro p rest hr hl
    rw [functions, bind_ok (definition_yields h hfm hd p rest trivial hl), peek_bind]
    simp only [hr]
    rfl
  | n + 1, _, _, _, @Definitions.cons ts us f fs _ _ h hs, hm, hd => by
    obtain ⟨hfm, hfsm⟩ := Nat.max_le.1 hm
    have hrest : Yields n (functions n >>= fun others => pure (f :: others)) depth (us ++ [])
        (f :: fs) fun next => next = none :=
      .bind (functions_yields hs hfsm (by omega)) .pure fun _ h => h
    obtain ⟨t, l, rfl⟩ := List.exists_cons_of_ne_nil hs.ne_nil
    have hpos : 0 < ts.length := List.length_pos_iff.2 h.ne_nil
    rw [List.append_nil] at hrest
    rw [functions]
    refine .bind (definition_yields h hfm (by omega)) (.peek ?_) fun _ _ => trivial
    exact hrest.le (by omega)

end Functions

end ThreeAddress.Grammar

namespace ThreeAddress

open Grammar

/-- Reading accepts exactly the grammar within its limits, and yields the program that is spelt. -/
theorem Program.ofTokens_eq_ok_iff (ts : List Token) (P : Program) :
    Program.ofTokens ts = .ok P ↔
      ∃ d, Definitions ts P.functions d ∧ d ≤ maxNesting ∧
        Node.tallestAll P.functions ≤ maxNesting := by
  constructor
  · exact definitions_of_ofTokens
  · rintro ⟨d, hfs, hd, hm⟩
    have hlen : (ts ++ []).length < ts.length + 1 := by simp
    have hd' : 0 + d ≤ maxNesting := by omega
    have h := functions_yields hfs hm hd' 0 [] rfl hlen
    simp only [List.append_nil, Nat.zero_add] at h
    exact ofTokens_of_functions (o := .ok P.functions) h

end ThreeAddress

import ThreeAddress.Grammar.Program
import ThreeAddress.Proofs.Grammar.Reading

/-!
# What each reader reads

A stream shorter than the rounds of a reader is read as the grammar says: a success is a derivation
within the limits, and the tokens before a refusal are the beginning of a phrase. There is one lemma
for each reader, in the order of the readers.

* `binary_reads`, `climb_reads` — a level of expressions, and how it goes on from a left operand;
* `statements_reads` — the statements of a body;
* `functions_reads` — a whole program.
-/

namespace ThreeAddress.Grammar

open Token

/-- How `r` and `r'` read streams shorter than `n` and `m`, at every depth there may be. -/
def ReadsAt {α : Type} (n m : Nat) (r r' : Reader α) (g : Nat → Goal α) : Prop :=
  ∀ depth ≤ maxNesting, Reads n m r r' depth (fun _ => True) (g depth)

theorem ReadsAt.use {α : Type} {n m n' m' depth : Nat} {r r' : Reader α} {g : Nat → Goal α}
    {A : List Token → Prop} (h : ReadsAt n m r r' g) (hd : depth ≤ maxNesting) (hn : n' ≤ n)
    (hm : m' ≤ m) : Reads n' m' r r' depth A (g depth) :=
  ((h depth hd).le hn hm).on fun _ _ => trivial

/-! ## Expressions -/

/-- The tokens spell an expression of a level that fits below `depth` open nesting levels. -/
def Fits (depth level : Nat) (ts : List Token) (e : Measured) : Prop :=
  e.height = e.node.height ∧ e.height ≤ maxNesting ∧
    ∃ d, Expression level ts e.node d ∧ depth + d ≤ maxNesting

/-- An expression of a level that no operator of the level continues. -/
def operands (level depth : Nat) : Goal Measured :=
  ⟨fun ts next e => Fits depth level ts e ∧
    ∀ op, next.bind operator? = some op → op.precedence < level,
    fun ts => ∃ e d, Expression level ts e d⟩

theorem Fits.down {depth level level' : Nat} {ts : List Token} {e : Measured}
    (h : Fits depth level' ts e) (hl : level ≤ level') : Fits depth level ts e := by
  obtain ⟨hh, hm, d, he, hd⟩ := h
  exact ⟨hh, hm, d, he.down hl, hd⟩

theorem Fits.ne_nil {depth level : Nat} {ts : List Token} {e : Measured}
    (h : Fits depth level ts e) : ts ≠ [] := by
  obtain ⟨-, -, d, he, -⟩ := h
  exact he.ne_nil

theorem Fits.leaf {depth : Nat} {ts : List Token} {e : Node} (hd : depth ≤ maxNesting)
    (he : Expression 4 ts e 0) (hh : e.height = 1) : Fits depth 4 ts ⟨e, 1⟩ :=
  ⟨hh.symm, by simp [maxNesting], 0, he, hd⟩

theorem precedence_lt (op : Operator) : op.precedence < 3 := by
  cases op <;> decide

theorem operands_phrase {level : Nat} (depth : Nat) (h : level ≤ 4) :
    ∃ ts, (operands level depth).phrase ts :=
  ⟨_, _, _, .zero level h⟩

variable {n m : Nat}

theorem primary_reads {r r' : Reader Measured} (hr : ReadsAt n m r r' (operands 0)) :
    ReadsAt (n + 1) (m + 1) (primary r) (primary r') (operands 4) := by
  intro depth hd
  have hp := operands_phrase depth (Nat.le_refl 4)
  have hstop : ∀ next op, Option.bind next operator? = some op → op.precedence < 4 :=
    fun _ op _ => Nat.lt_succ_of_lt (precedence_lt op)
  refine .peek fun next => ?_
  cases next with
  | none => exact .refuse hp
  | some t =>
    obtain ⟨kind, text⟩ := t
    cases kind with
    | number =>
      refine .advance (fun _ hl => hl.2) (.pure (fun l _ => ⟨?_, hstop _⟩) ⟨[], ?_⟩)
      · exact .leaf hd (.number text) rfl
      · exact ⟨_, _, .number text⟩
    | identifier =>
      by_cases hq : isQuotedText text = true
      · refine .advance (fun _ hl => hl.2) (.pure (fun l _ => ⟨?_, hstop _⟩) ⟨[], ?_⟩)
        · simp only [isQuoted, hq]
          exact .leaf hd (.quoted hq) rfl
        · exact ⟨_, _, .quoted hq⟩
      · have hq : isQuotedText text = false := by simpa using hq
        refine .advance (fun _ hl => hl.2) (.pure (fun l _ => ⟨?_, hstop _⟩) ⟨[], ?_⟩)
        · simp only [isQuoted, hq]
          exact .leaf hd (.name hq) rfl
        · exact ⟨_, _, .name hq⟩
    | keyword | unknown => exact .refuse hp
    | symbol =>
      by_cases ht : (⟨.symbol, text⟩ : Token).isSymbol '(' = true
      · simp only [ht, if_true]
        rw [eq_ofSymbol_of_isSymbol ht]
        refine .bind (g := (operands 0 (depth + 1)).cons (ofSymbol '(')) ?_ ?_ ?_
        · refine .nested (.inl rfl) ⟨_, _, rfl, _, _, .zero 0 (Nat.zero_le 4)⟩ fun hd' => ?_
          refine .advance (fun _ hl => hl.2) (Reads.cons (hr.use hd' ?_ ?_))
          · exact Nat.le_refl n
          · exact Nat.le_refl m
        · intro _ hphrase
          obtain ⟨us, rfl, e, d, he⟩ := hphrase
          exact ⟨[ofSymbol ')'], e, _, .paren he⟩
        · intro _ _ e hread
          obtain ⟨us, rfl, ⟨hh, hm, d, he, hd'⟩, -⟩ := hread
          refine .symbol (.pure (fun l _ => ⟨⟨hh, hm, d + 1, ?_, by omega⟩, hstop _⟩) ⟨[], ?_⟩)
          · exact .paren he
          · exact ⟨_, _, .paren he⟩
      · simp only [ht]
        exact .refuse hp

theorem unary_reads {r r' : Reader Measured} (hr : ReadsAt n m r r' (operands 0)) :
    ReadsAt (n + 1) (m + 1) (unary r) (unary r') (operands 3) := by
  intro depth hd
  have hp := operands_phrase depth (Nat.le_succ 3)
  have hstop : ∀ next op, Option.bind next operator? = some op → op.precedence < 3 :=
    fun _ op _ => precedence_lt op
  have hprimary := primary_reads hr
  refine .accept (fun t ht => ?_) ?_
  · rw [eq_ofSymbol_of_isSymbol ht]
    refine .bind (hprimary.use hd (Nat.le_succ n) (Nat.le_succ m)) ?_ ?_
    · intro us hphrase
      obtain ⟨e, d, he⟩ := hphrase
      exact ⟨[], _, _, .minus (by simpa using he)⟩
    · intro us _ e hread
      obtain ⟨⟨hh, -, d, he, hd'⟩, -⟩ := hread
      have hm : Expression 3 (ofSymbol '-' :: us) (.negate e.node) d := .minus he
      refine .grow ⟨[], _, _, by simpa using hm⟩ fun hb => ?_
      refine .pure (fun l _ => ⟨⟨?_, hb, d, by simpa using hm, hd'⟩, hstop _⟩) ⟨[], ?_⟩
      · show e.height + 1 = e.node.height + 1
        rw [hh]
      · exact ⟨_, _, by simpa using hm⟩
  · refine (hprimary.use hd (Nat.le_refl _) (Nat.le_refl _)).goal (fun ts next e he => ?_) ?_
    · exact ⟨he.1.down (Nat.le_succ 3), hstop _⟩
    · intro ts hphrase
      obtain ⟨e, d, he⟩ := hphrase
      exact ⟨e, d, he.up⟩

mutual

theorem binary_reads : ∀ (n m : Nat) {least : Nat}, least ≤ 3 →
    ReadsAt n m (binary n least) (binary m least) (operands least)
  | 0, m, least, hl, depth, _ => .never (operands_phrase depth (by omega)) fun _ _ => Nat.zero_le _
  | n + 1, m, least, hl, depth, hd => by
    refine .rounds (binary · least) (fun m => ?_) m
    rw [binary, binary]
    refine .bind (unary_reads (binary_reads n m (Nat.zero_le 3)) depth hd) ?_ ?_
    · intro us hphrase
      obtain ⟨e, d, he⟩ := hphrase
      exact ⟨[], e, d, by simpa using he.down hl⟩
    · intro us next e hread
      obtain ⟨he, hnext⟩ := hread
      have hpos : 0 < us.length := List.length_pos_iff.2 he.ne_nil
      refine ((climb_reads n m hd hl he).le (by omega) (by omega)).on fun l hA op hop => ?_
      exact Nat.le_of_lt (hnext op (hA.2 ▸ hop))

theorem climb_reads : ∀ (n m : Nat) {depth least level : Nat} {us : List Token} {left : Measured},
    depth ≤ maxNesting → least ≤ level → Fits depth level us left →
    Reads n m (climb n least left) (climb m least left) depth
      (fun l => ∀ op, l.head?.bind operator? = some op → op.precedence ≤ level)
      ((operands least depth).after us)
  | 0, m, depth, least, level, us, left, hd, hl, he => by
    obtain ⟨-, -, d, he, -⟩ := he
    exact .never ⟨[], left.node, d, by simpa using he.down hl⟩ fun _ _ => Nat.zero_le _
  | n + 1, m, depth, least, level, us, left, hd, hl, he => by
    have hstay : Fits depth least us left := he.down hl
    have hp : ∃ ts, ((operands least depth).after us).phrase ts := by
      obtain ⟨-, -, d, hleft, -⟩ := hstay
      exact ⟨[], left.node, d, by simpa using hleft⟩
    refine .rounds (climb · least left) (fun m => ?_) m
    rw [climb, climb]
    refine .peekOperator fun next => ?_
    cases hop : next.bind operator? with
    | none =>
      refine .pure (fun l hA => ⟨by simpa using hstay, fun op h => ?_⟩) hp
      rw [hA.2, hop] at h
      cases h
    | some op =>
      by_cases hlow : op.precedence < least
      · simp only [hlow, if_true]
        refine .pure (fun l hA => ⟨by simpa using hstay, fun op' h => ?_⟩) hp
        rw [hA.2, hop] at h
        cases h
        exact hlow
      by_cases hhigh : level < op.precedence
      · refine .never hp fun l hA => ?_
        have := hA.1 op (hA.2 ▸ hop)
        omega
      simp only [hlow]
      obtain ⟨t, rfl, ht⟩ := Option.bind_eq_some_iff.1 hop
      obtain rfl := operator?_eq_some.1 ht
      obtain ⟨hh, -, d, hleft, hd'⟩ := he.down (Nat.le_of_not_lt hhigh)
      have hlow' := Nat.le_of_not_lt hlow
      have hright := binary_reads n m (precedence_lt op)
      refine .advance (fun _ hl => hl.2) ?_
      refine .bind (hright.use hd (Nat.le_refl n) (Nat.le_refl m)) ?_ ?_
      · intro vs hphrase
        obtain ⟨e, d', hr⟩ := hphrase
        exact ⟨[], _, _, by simpa using (hleft.joined hr).down hlow'⟩
      · intro vs next e hread
        obtain ⟨⟨hh', -, d', hr, hd''⟩, hnext⟩ := hread
        have hjoin := hleft.joined hr
        refine .grow ⟨[], _, _, by simpa using hjoin.down hlow'⟩ fun hb => ?_
        have hfits : Fits depth op.precedence (us ++ ofOperator op :: vs)
            ⟨.binary op left.node e.node, max left.height e.height + 1⟩ :=
          ⟨by simp [Node.height, hh, hh'], hb, _, hjoin, by omega⟩
        have hclimb := climb_reads n m hd hlow' hfits
        rw [Goal.after_after, Goal.after_after]
        refine (hclimb.le (Nat.sub_le ..) (Nat.sub_le ..)).on fun l hA op' h => ?_
        exact Nat.le_of_lt_succ (hnext op' (hA.2 ▸ h))

end

/-! ## Statements -/

/-- The phrases of a relation whose nesting and whose expressions stay within the limits. -/
def within {α : Type} (R : List Token → α → Nat → Prop) (height : α → Nat) (depth : Nat) : Goal α :=
  ⟨fun ts _ a => height a ≤ maxNesting ∧ ∃ d, R ts a d ∧ depth + d ≤ maxNesting,
    fun ts => ∃ a d, R ts a d⟩

/-- Everything that a phrase needs has been read. -/
theorem Reads.done {α : Type} {R : List Token → α → Nat → Prop} {height : α → Nat} {us : List Token}
    {a : α} {n m depth d : Nat} {A : List Token → Prop} (h : R us a d) (ha : height a ≤ maxNesting)
    (hd : depth + d ≤ maxNesting) :
    Reads n m (Pure.pure a) (Pure.pure a) depth A ((within R height depth).after us) := by
  have h' : R (us ++ []) a d := by rwa [List.append_nil]
  exact .pure (fun l _ => ⟨ha, d, h', hd⟩) ⟨[], a, d, h'⟩

/-- The goal of a reader for the rest of a statement, after the tokens `us`. -/
abbrev restOf (us : List Token) (depth : Nat) : Goal Node :=
  (within Statement Node.tallest depth).after us

abbrev expressions : Nat → Goal Node := within (Expression 0) Node.height

abbrev bodies : Nat → Goal (List Node) := within Braced Node.tallestAll

abbrev sequences : Nat → Goal (List Node) := within Statements Node.tallestAll

theorem expression_reads (n m : Nat) :
    ReadsAt n m (expression n) (expression m) expressions := by
  intro depth hd
  refine .bind (binary_reads n m (Nat.zero_le 3) depth hd) ?_ ?_
  · intro us hphrase
    obtain ⟨e, d, he⟩ := hphrase
    exact ⟨[], e, d, by simpa using he⟩
  · intro us _ e hread
    obtain ⟨⟨hh, hm, d, he, hd'⟩, -⟩ := hread
    exact .done he (hh ▸ hm) hd'

theorem assigned_reads (n m : Nat) (us : List Token) (x : String) (p q : Place)
    (h : ∀ {ts e d}, Expression 0 ts e d →
      Statement (us ++ ofSymbol '=' :: (ts ++ [ofSymbol ';'])) (.assign x e) d) :
    ReadsAt n m (assigned n x p q) (assigned m x p q) (restOf us) := by
  intro depth hd
  have hvalue := expression_reads n m
  refine .symbol (.bind (hvalue.use hd (Nat.sub_le ..) (Nat.sub_le ..)) ?_ ?_)
  · intro ts hphrase
    obtain ⟨e, d, he⟩ := hphrase
    exact ⟨[ofSymbol ';'], _, _, h he⟩
  · intro ts _ e hread
    obtain ⟨hm, d, he, hd'⟩ := hread
    exact .symbol (.pure (fun l _ => ⟨hm, d, h he, hd'⟩) ⟨[], _, _, h he⟩)

theorem returned_reads (n m : Nat) :
    ReadsAt n m (returned n) (returned m) (restOf [ofKeyword "return"]) := by
  intro depth hd
  refine .bind (expression_reads n m depth hd) ?_ ?_
  · intro ts hphrase
    obtain ⟨e, d, he⟩ := hphrase
    exact ⟨[ofSymbol ';'], _, _, .exit he⟩
  · intro ts _ e hread
    obtain ⟨hm, d, he, hd'⟩ := hread
    exact .symbol (.pure (fun l _ => ⟨hm, d, .exit he, hd'⟩) ⟨[], _, _, .exit he⟩)

theorem condition_reads (n m : Nat) (word : Guard) :
    ReadsAt n m (condition n word) (condition m word) (within (fun ts e d => ∃ us,
      ts = ofSymbol '(' :: (us ++ [ofSymbol ')']) ∧ Expression 0 us e d) Node.height) := by
  intro depth hd
  have hvalue := expression_reads n m
  refine .symbol (.bind (hvalue.use hd (Nat.sub_le ..) (Nat.sub_le ..)) ?_ ?_)
  · intro ts hphrase
    obtain ⟨e, d, he⟩ := hphrase
    exact ⟨[ofSymbol ')'], e, d, ts, rfl, he⟩
  · intro ts _ e hread
    obtain ⟨hm, d, he, hd'⟩ := hread
    exact .symbol (.pure (fun l _ => ⟨hm, d, ⟨ts, rfl, he⟩, hd'⟩) ⟨[], e, d, ts, rfl, he⟩)

section Inner

variable {inner inner' : Reader (List Node)}

theorem braced_reads (body : Body) (hi : ReadsAt n m inner inner' sequences) :
    ReadsAt n m (braced body inner) (braced body inner') bodies := by
  intro depth hd
  refine .bind (g := (sequences (depth + 1)).cons (ofSymbol '\x7b')) ?_ ?_ ?_
  · refine .nested (.inr rfl) ⟨_, _, rfl, _, _, .nil⟩ fun hd' => .symbol ?_
    exact Reads.cons (hi.use hd' (Nat.sub_le ..) (Nat.sub_le ..))
  · intro _ hphrase
    obtain ⟨us, rfl, b, d, hb⟩ := hphrase
    exact ⟨[ofSymbol '\x7d'], b, _, .braces hb⟩
  · intro _ _ b hread
    obtain ⟨us, rfl, hm, d, hb, hd'⟩ := hread
    exact .symbol (.pure (fun l _ => ⟨hm, d + 1, .braces hb, by omega⟩) ⟨[], b, _, .braces hb⟩)

theorem ifRest_reads (hi : ReadsAt n m inner inner' sequences) :
    ReadsAt n m (ifRest n inner) (ifRest m inner') (restOf [ofKeyword "if"]) := by
  intro depth hd
  refine .bind (condition_reads n m .ifWord depth hd) ?_ ?_
  · intro _ hphrase
    obtain ⟨c, d, cs, rfl, hc⟩ := hphrase
    exact ⟨_, _, _, by simpa using .ifThen hc .empty⟩
  intro _ _ c hread
  obtain ⟨hcm, d, ⟨cs, rfl, hc⟩, hcd⟩ := hread
  refine .bind ((braced_reads .ifBody hi).use hd (Nat.sub_le ..) (Nat.sub_le ..)) ?_ ?_
  · intro ts hphrase
    obtain ⟨t, d', ht⟩ := hphrase
    exact ⟨[], _, _, by simpa using .ifThen hc ht⟩
  intro ts _ t hread
  obtain ⟨htm, d', ht, htd⟩ := hread
  refine .accept (fun w hw => ?_) ?_
  · obtain rfl := isKeyword_iff.1 hw
    refine .bind ((braced_reads .elseBody hi).use hd (by omega) (by omega)) ?_ ?_
    · intro us hphrase
      obtain ⟨e, d'', he⟩ := hphrase
      exact ⟨[], _, _, by simpa using .ifElse hc ht he⟩
    · intro us _ e hread
      obtain ⟨hem, d'', he, hed⟩ := hread
      simp only [Goal.after_after]
      refine .done (d := max d (max d' d'')) ?_ ?_ ?_
      · simpa using .ifElse hc ht he
      · exact Nat.max_le.2 ⟨hcm, Nat.max_le.2 ⟨htm, hem⟩⟩
      · omega
  · simp only [Goal.after_after]
    refine .done (d := max d d') ?_ ?_ ?_
    · simpa using .ifThen hc ht
    · exact Nat.max_le.2 ⟨hcm, Nat.max_le.2 ⟨htm, Nat.zero_le _⟩⟩
    · omega

theorem whileRest_reads (hi : ReadsAt n m inner inner' sequences) :
    ReadsAt n m (whileRest n inner) (whileRest m inner') (restOf [ofKeyword "while"]) := by
  intro depth hd
  refine .bind (condition_reads n m .whileWord depth hd) ?_ ?_
  · intro _ hphrase
    obtain ⟨c, d, cs, rfl, hc⟩ := hphrase
    exact ⟨_, _, _, by simpa using .whileLoop hc .empty⟩
  intro _ _ c hread
  obtain ⟨hcm, d, ⟨cs, rfl, hc⟩, hcd⟩ := hread
  refine .bind ((braced_reads .loopBody hi).use hd (Nat.sub_le ..) (Nat.sub_le ..)) ?_ ?_
  · intro ts hphrase
    obtain ⟨b, d', hb⟩ := hphrase
    exact ⟨[], _, _, by simpa using .whileLoop hc hb⟩
  · intro ts _ b hread
    obtain ⟨hbm, d', hb, hbd⟩ := hread
    simp only [Goal.after_after]
    refine .done (d := max d d') ?_ (Nat.max_le.2 ⟨hcm, hbm⟩) ?_
    · simpa using .whileLoop hc hb
    · omega

theorem statement_reads (hi : ReadsAt n m inner inner' sequences) :
    ReadsAt (n + 1) (m + 1) (statement n inner) (statement m inner')
      (within Statement Node.tallest) := by
  intro depth hd
  have hp : ∃ ts, (within Statement Node.tallest depth).phrase ts :=
    ⟨_, _, _, .exit (.zero 0 (Nat.zero_le 4))⟩
  refine .peek fun next => ?_
  cases next with
  | none => exact .refuse hp
  | some t =>
    by_cases hty : (typeOf? Ty.valueTypes t).isSome = true
    · simp only [hty, if_true]
      refine .type ⟨.int, by decide⟩ fun ty hty => .name fun x hx => ?_
      have hrest := assigned_reads n m [ofKeyword ty.name, ofText x] x .afterDeclaredName
        .afterDeclaration fun he => .declaration hty hx he
      exact hrest.use hd (by omega) (by omega)
    by_cases hif : t.isKeyword "if" = true
    · simp only [hty, hif, if_true]
      obtain rfl := isKeyword_iff.1 hif
      exact .advance (fun _ hl => hl.2) ((ifRest_reads hi).use hd (by omega) (by omega))
    by_cases hwhile : t.isKeyword "while" = true
    · simp only [hty, hif, hwhile, if_true]
      obtain rfl := isKeyword_iff.1 hwhile
      exact .advance (fun _ hl => hl.2) ((whileRest_reads hi).use hd (by omega) (by omega))
    by_cases hret : t.isKeyword "return" = true
    · simp only [hty, hif, hwhile, hret, if_true]
      obtain rfl := isKeyword_iff.1 hret
      exact .advance (fun _ hl => hl.2) ((returned_reads n m).use hd (by omega) (by omega))
    by_cases hname : t.isName = true
    · simp only [hty, hif, hwhile, hret, hname, if_true]
      refine .name fun x hx => ?_
      have hrest := assigned_reads n m [ofText x] x .afterTarget .afterAssignment fun he =>
        .assignment hx he
      exact hrest.use hd (by omega) (by omega)
    · simp only [hty, hif, hwhile, hret, hname]
      exact .refuse hp

end Inner

theorem statements_reads : ∀ n m : Nat, ReadsAt n m (statements n) (statements m) sequences
  | 0, m, depth, _ => .never ⟨[], [], 0, .nil⟩ fun _ _ => Nat.zero_le _
  | n + 1, m, depth, hd => by
    have hend : ∀ {n m A}, Reads n m (pure []) (pure []) depth A (sequences depth) :=
      .pure (fun _ _ => ⟨Nat.zero_le _, 0, .nil, hd⟩) ⟨[], [], 0, .nil⟩
    refine .rounds statements (fun m => ?_) m
    rw [statements, statements]
    refine .peek fun next => ?_
    cases next with
    | none => exact hend
    | some t =>
      by_cases ht : t.isSymbol '\x7d' = true
      · simp only [ht, if_true]
        exact hend
      simp only [ht]
      have ih := statements_reads n m
      refine .bind ((statement_reads ih).use hd (Nat.le_refl _) (Nat.le_refl _)) ?_ ?_
      · intro ts hphrase
        obtain ⟨s, d, hs⟩ := hphrase
        exact ⟨[], _, _, .cons hs .nil⟩
      intro ts _ s hread
      obtain ⟨hsm, d, hs, hsd⟩ := hread
      have hpos : 0 < ts.length := List.length_pos_iff.2 hs.ne_nil
      refine .bind (ih.use hd (by omega) (by omega)) ?_ ?_
      · intro us hphrase
        obtain ⟨nodes, d', hn⟩ := hphrase
        exact ⟨[], _, _, by simpa using .cons hs hn⟩
      · intro us _ nodes hread
        obtain ⟨hnm, d', hn, hnd⟩ := hread
        rw [Goal.after_after]
        exact .done (.cons hs hn) (Nat.max_le.2 ⟨hsm, hnm⟩) (by omega)

/-! ## Functions -/

theorem parameters_reads : ∀ n m : Nat, ReadsAt n m (parameters n) (parameters m)
    (within (fun ts ps _ => Parameters ts ps) fun _ => 0)
  | 0, m, depth, _ => .never ⟨[], [], 0, .nil⟩ fun _ _ => Nat.zero_le _
  | n + 1, m, depth, hd => by
    refine .rounds parameters (fun m => ?_) m
    rw [parameters, parameters]
    refine .peek fun next => ?_
    cases hty : next.bind (typeOf? Ty.valueTypes) with
    | none => exact .pure (fun _ _ => ⟨Nat.zero_le _, 0, .nil, hd⟩) ⟨[], [], 0, .nil⟩
    | some _ =>
      refine .type ⟨.int, by decide⟩ fun ty hty => .name fun x hx => ?_
      refine .bind ((parameters_reads n m).use hd (by omega) (by omega)) ?_ ?_
      · intro ts hphrase
        obtain ⟨ps, d, hps⟩ := hphrase
        exact ⟨[], _, d, by simpa using .cons hty hx hps⟩
      · intro ts _ ps hread
        obtain ⟨-, d, hps, hd'⟩ := hread
        simp only [Goal.after_after]
        exact .done (.cons hty hx hps) (Nat.zero_le _) hd'

theorem definition_reads (n m : Nat) : ReadsAt (n + 1) (m + 1) (definition n) (definition m)
    (within Definition Node.tallest) := by
  intro depth hd
  refine .type ⟨.int, by decide⟩ fun ty hty => .name fun x hx => .symbol ?_
  refine .bind ((parameters_reads n m).use hd (by omega) (by omega)) ?_ ?_
  · intro ts hphrase
    obtain ⟨ps, -, hps⟩ := hphrase
    exact ⟨_, _, _, by simpa using .function hty hx hps .nil⟩
  intro ts _ ps hread
  obtain ⟨-, -, hps, -⟩ := hread
  refine .symbol (.symbol (.bind ((statements_reads n m).use hd (by omega) (by omega)) ?_ ?_))
  · intro us hphrase
    obtain ⟨body, d, hb⟩ := hphrase
    exact ⟨[ofSymbol '\x7d'], _, _, by simpa using .function hty hx hps hb⟩
  · intro us _ body hread
    obtain ⟨hm, d, hb, hd'⟩ := hread
    refine .symbol ?_
    simp only [Goal.after_after]
    refine .done (d := d) ?_ hm hd'
    simpa using .function hty hx hps hb

/-- `definitions` as a reader of what it read. -/
def functions (rounds : Nat) : Reader (List Node) :=
  match rounds with
  | 0 => return []
  | rounds + 1 => do
    let f ← definition rounds
    match ← peek? with
    | none => return [f]
    | some _ =>
      let others ← functions rounds
      return f :: others

theorem functions_eq : ∀ (n : Nat) (c : Cursor), functions n c =
    match definitions n c with
    | (fs, .ok () c') => .ok fs c'
    | (_, .error e c') => .error e c'
  | 0, _ => rfl
  | n + 1, c => by
    rw [definitions]
    show EStateM.bind (definition n) _ c = _
    rw [EStateM.bind]
    cases definition n c with
    | error e c' => rfl
    | ok f c' =>
      obtain ⟨position, depth, ahead⟩ := c'
      cases ahead with
      | nil => rfl
      | cons t l =>
        show EStateM.bind (functions n) _ _ = _
        rw [EStateM.bind, functions_eq n]
        rcases hd : definitions n ⟨position, depth, t :: l⟩ with ⟨fs, r⟩
        simp only [hd]
        cases r <;> rfl

/-- Function definitions with nothing after them. -/
def programs (depth : Nat) : Goal (List Node) :=
  ⟨fun ts next fs => next = none ∧ (within Definitions Node.tallestAll depth).reads ts next fs,
    (within Definitions Node.tallestAll depth).phrase⟩

theorem functions_reads : ∀ n m : Nat, ReadsAt n m (functions n) (functions m) programs
  | 0, m, depth, _ => .never Definitions.shortest fun _ _ => Nat.zero_le _
  | n + 1, m, depth, hd => by
    refine .rounds functions (fun m => ?_) m
    rw [functions, functions]
    refine .bind (definition_reads n m depth hd) ?_ ?_
    · intro ts hphrase
      obtain ⟨f, d, hf⟩ := hphrase
      exact ⟨[], _, _, by simpa using .one hf⟩
    intro ts _ f hread
    obtain ⟨hfm, d, hf, hfd⟩ := hread
    have hpos : 0 < ts.length := List.length_pos_iff.2 hf.ne_nil
    refine .peek fun next => ?_
    cases next with
    | none =>
      have hone : Definitions (ts ++ []) [f] d := by simpa using .one hf
      have hmax : Node.tallestAll [f] ≤ maxNesting := Nat.max_le.2 ⟨hfm, Nat.zero_le _⟩
      exact .pure (fun l hl => ⟨hl.2, hmax, d, hone, hfd⟩) ⟨[], _, _, hone⟩
    | some t =>
      refine .bind ((functions_reads n m).use hd (by omega) (by omega)) ?_ ?_
      · intro us hphrase
        obtain ⟨fs, d', hfs⟩ := hphrase
        exact ⟨[], _, _, by simpa using .cons hf hfs⟩
      · intro us next fs hread
        obtain ⟨rfl, hfsm, d', hfs, hfsd⟩ := hread
        have hall : Definitions (ts ++ (us ++ [])) (f :: fs) (max d d') := by
          simpa using .cons hf hfs
        refine .pure (fun l hl => ⟨hl.2, Nat.max_le.2 ⟨hfm, hfsm⟩, _, hall, ?_⟩) ⟨[], _, _, hall⟩
        omega

/-! ## Programs -/

/-- What comes of an end at a position. -/
def outcome (o : Except Cause (List Node)) (position : Nat) (next : Option Token) :
    Except SyntaxError Program :=
  match o with
  | .ok fs => .ok ⟨fs⟩
  | .error cause => .error ⟨cause, position, next.map Token.text⟩

theorem ofTokens_of_functions {ts rest : List Token} {o : Except Cause (List Node)} {p : Nat}
    (h : functions (ts.length + 1) (Cursor.start ts) = ending o ⟨p, 0, rest⟩) :
    Program.ofTokens ts = outcome o p rest.head? := by
  have hc : (Cursor.start ts).ahead.length = ts.length := rfl
  rw [functions_eq] at h
  rw [Program.ofTokens, readFrom, program, hc]
  rcases hd : definitions (ts.length + 1) (Cursor.start ts) with ⟨fs, c' | c'⟩ <;>
    rw [hd] at h <;> cases o <;> cases h <;> rfl

/-- Two streams with the same beginning up to the token where the reading of the first one ends. -/
theorem ofTokens_run (ts ts' : List Token) : ∃ used rest o, ts = used ++ rest ∧
    Program.ofTokens ts = outcome o used.length rest.head? ∧
    (programs 0).Meets used rest.head? o ∧
    ∀ rest', ts' = used ++ rest' → rest'.head? = rest.head? →
      Program.ofTokens ts' = outcome o used.length rest.head? := by
  have hreads := functions_reads (ts.length + 1) (ts'.length + 1) 0 (Nat.zero_le _)
  obtain ⟨used, rest, o, rfl, hr, hg, hr'⟩ := hreads.run ts trivial (Nat.lt_succ_self _)
  refine ⟨used, rest, o, rfl, ?_, hg, fun rest' hs hn => ?_⟩
  · refine ofTokens_of_functions (p := used.length) ?_
    simpa [Cursor.start] using hr 0
  · subst hs
    rw [← hn]
    refine ofTokens_of_functions (p := used.length) ?_
    simpa [Cursor.start] using hr' 0 rest' hn (Nat.lt_succ_self _)

end ThreeAddress.Grammar

namespace ThreeAddress

open Grammar

/-- A program that was read is spelt by its tokens, within the limits. -/
theorem Program.definitions_of_ofTokens {ts : List Token} {P : Program}
    (h : Program.ofTokens ts = .ok P) :
    ∃ d, Definitions ts P.functions d ∧ d ≤ maxNesting ∧
      Node.tallestAll P.functions ≤ maxNesting := by
  obtain ⟨used, rest, o, rfl, hr, hg, -⟩ := ofTokens_run ts ts
  rw [hr] at h
  cases o with
  | error cause => cases h
  | ok fs =>
    cases h
    obtain ⟨hnext, hm, d, hfs, hd⟩ := hg
    obtain rfl := List.head?_eq_none_iff.1 hnext
    exact ⟨d, by simpa using hfs, by omega, hm⟩

end ThreeAddress

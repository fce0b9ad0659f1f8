import ThreeAddress.Proofs.Grammar.Completeness
import ThreeAddress.Proofs.Grammar.Stages

/-!
# Readers that follow the stages

`Follows excused n r s A g`: from a stream in `A` that is shorter than `n` the reader `r` moves
along a walk from the stage `s`. A success leads to what goes on after an operand, at the same depth, and
meets `g`; a refusal is where the walk stops, and it is about nesting exactly if the next token
would open one parenthesis too many. A reader that also limits the height of its trees may be
excused: it may refuse for that anywhere.

As in `Reads`, there is one rule for each step of a reader.
-/

namespace ThreeAddress.Grammar

open Token Stage

/-- What a reading from `s`, at the position `p` of a stream, comes to. -/
inductive Follow {α : Type} (excused : Prop) (s : Stage)
    (g : List Token → Option Token → α → Prop) (p : Nat) :
    List Token → EStateM.Result SyntaxError Cursor α → Prop
  | excused {l : List Token} {e : SyntaxError} {c : Cursor} (h : excused)
      (he : e.cause = .expressionTooDeep) : Follow excused s g p l (.error e c)
  | ok (used : List Token) {rest : List Token} {a : α} (hw : Walk s used ⟨.operator, s.depth⟩)
      (hg : g used rest.head? a) :
      Follow excused s g p (used ++ rest) (.ok a ⟨p + used.length, s.depth, rest⟩)
  | refused (used : List Token) {rest : List Token} {s' : Stage} {cause : Cause} {c : Cursor}
      (hw : Walk s used s') (hu : s' ≠ final) (hs : s'.Stops rest.head?)
      (hc : cause = .expressionTooDeep ↔ s'.TooDeep rest.head?) :
      Follow excused s g p (used ++ rest)
        (.error ⟨cause, p + used.length, rest.head?.map Token.text⟩ c)

def Follows {α : Type} (excused : Prop) (n : Nat) (r : Reader α) (s : Stage)
    (A : List Token → Prop) (g : List Token → Option Token → α → Prop) : Prop :=
  ∀ p l, A l → l.length < n → Follow excused s g p l (r ⟨p, s.depth, l⟩)

/-- Reading on from a place of the walk. -/
theorem Follow.after {α : Type} {excused : Prop} {s s' : Stage}
    {g : List Token → Option Token → α → Prop} {p : Nat} (used : List Token) {l : List Token}
    {res : EStateM.Result SyntaxError Cursor α} (hw : Walk s used s') (hd : s'.depth = s.depth)
    (h : Follow excused s' (fun us => g (used ++ us)) (p + used.length) l res) :
    Follow excused s g p (used ++ l) res := by
  cases h with
  | excused h he => exact .excused h he
  | ok _ hw' hg =>
    rw [← List.append_assoc, Nat.add_assoc, ← List.length_append, hd]
    exact .ok _ (hw.append (hd ▸ hw')) hg
  | refused _ hw' hu hs hc =>
    rw [← List.append_assoc, Nat.add_assoc, ← List.length_append]
    exact .refused _ (hw.append hw') hu hs hc

theorem symbol_missing {β : Type} {p depth : Nat} {s : Char} {place : Place} {l : List Token}
    {f : Unit → Reader β} (h : l.head? ≠ some (ofSymbol s)) :
    (expectSymbol s place >>= f) ⟨p, depth, l⟩ =
      .error ⟨.noSymbol s place, p, l.head?.map Token.text⟩ ⟨p, depth, l⟩ := by
  have hno : accept (·.isSymbol s) ⟨p, depth, l⟩ = .ok false ⟨p, depth, l⟩ := by
    cases l with
    | nil => rfl
    | cons t l =>
      have ht : t.isSymbol s = false := by
        by_contra ht
        exact h (congrArg some (eq_ofSymbol_of_isSymbol (by simpa using ht)))
      simp [Grammar.accept, ht]
  rw [expectSymbol, bind_assoc, bind_ok hno]
  rfl

/-- A parenthesis that is one too many. -/
theorem Follow.tooDeep {α : Type} {excused : Prop} {phase : Phase} {depth p : Nat}
    {g : List Token → Option Token → α → Prop} {l : List Token} {c : Cursor}
    (hphase : phase ≠ .operator) (hd : maxNesting ≤ depth) :
    Follow excused ⟨phase, depth⟩ g p (ofSymbol '(' :: l)
      (.error ⟨.expressionTooDeep, p, some (ofSymbol '(').text⟩ c) := by
  have hstop : Stops ⟨phase, depth⟩ (ofSymbol '(' :: l).head? := by
    refine stops_operand hphase ?_ (fun h => absurd hd (Nat.not_le.2 h)) ?_
    · rintro _ ⟨⟩
      decide
    · intro _ h
      have := ofSymbol_inj.1 (Option.some.inj h)
      cases this
  refine .refused [] .nil ?_ hstop ?_
  · exact fun h => hphase (congrArg Stage.phase h)
  · exact iff_of_true rfl ⟨hphase, hd, rfl⟩

/-- The end of what is read between parentheses. -/
theorem Follow.close {α : Type} {excused : Prop} {s : Stage} {p : Nat}
    {g : List Token → Option Token → α → Prop} {used rest : List Token} {a : α}
    (hw : Walk s used ⟨.operator, s.depth + 1⟩)
    (hsign : ∀ c ∈ signs 0 ++ signs 1, rest.head? ≠ some (ofSymbol c))
    (hg : rest.head? = some (ofSymbol ')') → ∀ next, g (used ++ [ofSymbol ')']) next a) :
    Follow excused s g p (used ++ rest) ((expectSymbol ')' .afterExpression >>= fun _ => pure a)
      ⟨p + used.length, s.depth, rest⟩) := by
  by_cases hclose : rest.head? = some (ofSymbol ')')
  · have hgo := hg hclose
    obtain ⟨rest, rfl⟩ := List.head?_eq_some_iff.1 hclose
    have hok : Follow excused s g p (used ++ [ofSymbol ')'] ++ rest) (.ok a _) :=
      .ok _ (hw.append (.one .closing)) (hgo rest.head?)
    rw [List.append_assoc, List.length_append] at hok
    rw [symbol_bind (by decide)]
    exact hok
  · rw [symbol_missing hclose]
    refine .refused _ hw (by simp [final]) ?_ ?_
    · exact stops_operator hsign (fun _ => hclose) fun _ => Nat.succ_pos _
    · exact iff_of_false (by simp) (not_tooDeep_operator _ _)

namespace Follows

variable {α β : Type} {excused : Prop} {n depth : Nat} {s s' : Stage} {r : Reader α}
  {A B : List Token → Prop} {g g' : List Token → Option Token → α → Prop}

theorem on (h : Follows excused n r s B g) (hA : ∀ l, A l → B l) : Follows excused n r s A g :=
  fun p l ha hl => h p l (hA l ha) hl

theorem le {m : Nat} (h : Follows excused n r s A g) (hm : m ≤ n) : Follows excused m r s A g :=
  fun p l ha hl => h p l ha (Nat.lt_of_lt_of_le hl hm)

/-- What holds if there is any stream. -/
theorem assuming {P : Prop} (hA : ∀ l, A l → P) (h : P → Follows excused n r s A g) :
    Follows excused n r s A g :=
  fun p l ha hl => h (hA l ha) p l ha hl

theorem goal (h : Follows excused n r s A g) (hg : ∀ us next a, g us next a → g' us next a) :
    Follows excused n r s A g' := by
  intro p l ha hl
  have hr := h p l ha hl
  generalize r ⟨p, s.depth, l⟩ = res at hr
  cases hr with
  | excused h he => exact .excused h he
  | ok _ hw h => exact .ok _ hw (hg _ _ _ h)
  | refused _ hw hu hs hc => exact .refused _ hw hu hs hc

theorem pure {a : α} (hg : ∀ l, A l → g [] l.head? a) :
    Follows excused n (Pure.pure a) ⟨.operator, depth⟩ A g :=
  fun _ l ha _ => .ok [] .nil (hg l ha)

theorem refuse {cause : Cause} (hu : s ≠ final) (hs : ∀ l, A l → s.Stops l.head?)
    (hc : ∀ l, A l → (cause = .expressionTooDeep ↔ s.TooDeep l.head?)) :
    Follows excused n (refuse cause) s A g :=
  fun _ l ha _ => .refused [] .nil hu (hs l ha) (hc l ha)

/-- A refusal where an operand is missing. -/
theorem refuse_operand {phase : Phase} {cause : Cause} (hphase : phase ≠ .operator)
    (hc : cause ≠ .expressionTooDeep)
    (hnumber : ∀ l, A l → ∀ t, l.head? = some t → t.kind ≠ .number)
    (hopen : ∀ l, A l → l.head? ≠ some (ofSymbol '('))
    (hminus : ∀ l, A l → phase = .operand → l.head? ≠ some (ofSymbol '-')) :
    Follows excused n (Grammar.refuse cause) ⟨phase, depth⟩ A g := by
  refine refuse (fun h => hphase (congrArg Stage.phase h)) (fun l ha => ?_) fun l ha => ?_
  · exact stops_operand hphase (hnumber l ha) (fun _ => hopen l ha) (hminus l ha)
  · exact iff_of_false hc fun h => hopen l ha h.2.2

theorem bind {f : α → Reader β} {g' : List Token → Option Token → β → Prop}
    (h : Follows excused n r s A g)
    (hf : ∀ used next a, Walk s used ⟨.operator, s.depth⟩ → g used next a →
      Follows excused (n - used.length) (f a) ⟨.operator, s.depth⟩
        (fun l => A (used ++ l) ∧ l.head? = next) fun us => g' (used ++ us)) :
    Follows excused n (r >>= f) s A g' := by
  intro p l ha hl
  have hr := h p l ha hl
  show Follow _ _ _ _ _ (EStateM.bind r f _)
  rw [EStateM.bind]
  generalize r ⟨p, s.depth, l⟩ = res at hr
  cases hr with
  | excused h he => exact .excused h he
  | ok _ hw hg =>
    rw [List.length_append] at hl
    exact .after _ hw rfl (hf _ _ _ hw hg _ _ ⟨ha, rfl⟩ (by omega))
  | refused _ hw hu hs hc => exact .refused _ hw hu hs hc

theorem peek {f : Option Token → Reader α}
    (h : ∀ next, Follows excused n (f next) s (fun l => A l ∧ l.head? = next) g) :
    Follows excused n (peek? >>= f) s A g :=
  fun p l ha hl => h l.head? p l ⟨ha, rfl⟩ hl

/-- Looking for an operator. -/
theorem peekOperator {f : Option Operator → Reader α}
    (h : ∀ next : Option Token, Follows excused n (f (next.bind operator?)) s
      (fun l => A l ∧ l.head? = next) g) :
    Follows excused n (peekOperator? >>= f) s A g :=
  fun p l ha hl => h l.head? p l ⟨ha, rfl⟩ hl

/-- Reading the next token `t`. -/
theorem advance {f : Unit → Reader α} {t : Token} (hA : ∀ l, A l → l.head? = some t)
    (hs : Step s t s') (hd : s'.depth = s.depth)
    (h : Follows excused (n - 1) (f ()) s' (fun l => A (t :: l)) fun us => g (t :: us)) :
    Follows excused n (advance >>= f) s A g := by
  intro p l ha hl
  obtain ⟨l, rfl⟩ := List.head?_eq_some_iff.1 (hA l ha)
  have hr := h (p + 1) l ha (Nat.lt_sub_of_add_lt hl)
  rw [hd] at hr
  exact .after [t] (.one hs) hd hr

/-- Reading the next token if it passes a test. -/
theorem accept (s' : Stage) {f : Bool → Reader α} {test : Token → Bool} (hd : s'.depth = s.depth)
    (h₁ : ∀ t, test t = true → Step s t s' ∧
      Follows excused (n - 1) (f true) s' (fun l => A (t :: l)) fun us => g (t :: us))
    (h₀ : Follows excused n (f false) s (fun l => A l ∧ ∀ t, l.head? = some t → test t = false) g) :
    Follows excused n (accept test >>= f) s A g := by
  intro p l ha hl
  show Follow _ _ _ _ _ (EStateM.bind (Grammar.accept test) f _)
  rw [EStateM.bind, Grammar.accept]
  cases l with
  | nil => exact h₀ p [] ⟨ha, by simp⟩ hl
  | cons t l =>
    by_cases ht : test t = true
    · obtain ⟨hs, h⟩ := h₁ t ht
      have hr := h (p + 1) l ha (Nat.lt_sub_of_add_lt hl)
      rw [hd] at hr
      simp only [ht, if_true]
      exact .after [t] (.one hs) hd hr
    · have hno : ∀ u, (t :: l).head? = some u → test u = false := by
        intro u hu
        cases hu
        exact Bool.eq_false_iff.2 ht
      simp only [ht]
      exact h₀ p (t :: l) ⟨ha, hno⟩ hl

/-- Growing by one level of height, where a tree that is too tall is an excuse. -/
theorem grow {below : Nat} {f : Nat → Reader α} (h : Follows True n (f (below + 1)) s A g) :
    Follows True n (grow below >>= f) s A g := by
  intro p l ha hl
  rw [Grammar.grow]
  by_cases hb : maxNesting ≤ below
  · rw [if_pos hb]
    exact .excused trivial rfl
  · rw [if_neg hb, pure_bind]
    exact h p l ha hl

/-- What is read between parentheses. -/
theorem parens {inner : Reader α} {k : α → β} {phase : Phase}
    {g₀ : List Token → Option Token → α → Prop} {g : List Token → Option Token → β → Prop}
    (hphase : phase ≠ .operator)
    (h : depth < maxNesting → Follows excused n inner ⟨.operand, depth + 1⟩
      (fun l => A (ofSymbol '(' :: l)) g₀)
    (hsign : ∀ us next a, g₀ us next a → ∀ c ∈ signs 0 ++ signs 1, next ≠ some (ofSymbol c))
    (hg : ∀ us next a, g₀ us (some (ofSymbol ')')) a →
      g (ofSymbol '(' :: (us ++ [ofSymbol ')'])) next (k a)) :
    Follows excused (n + 1)
      ((nested .expressionTooDeep do
        Grammar.advance
        inner) >>= fun a => expectSymbol ')' .afterExpression >>= fun _ => Pure.pure (k a))
      ⟨phase, depth⟩ (fun l => A l ∧ l.head? = some (ofSymbol '(')) g := by
  intro p l ha hl
  obtain ⟨ha, hhead⟩ := ha
  obtain ⟨l, rfl⟩ := List.head?_eq_some_iff.1 hhead
  show Follow _ _ _ _ _ (EStateM.bind (nested _ _) _ _)
  rw [EStateM.bind, nested]
  by_cases hd : maxNesting ≤ depth
  · rw [if_pos hd]
    exact .tooDeep hphase hd
  · have hopen : Step ⟨phase, depth⟩ (ofSymbol '(') ⟨.operand, depth + 1⟩ :=
      .opening hphase (Nat.lt_of_not_le hd)
    have hr := h (Nat.lt_of_not_le hd) (p + 1) l ha (Nat.lt_of_succ_lt_succ hl)
    have hp : ∀ used : List Token, p + 1 + used.length = p + (ofSymbol '(' :: used).length := by
      intro used
      rw [List.length_cons]
      omega
    have hadvance : (Grammar.advance >>= fun _ => inner) ⟨p, depth + 1, ofSymbol '(' :: l⟩ =
      inner ⟨p + 1, depth + 1, l⟩ := rfl
    simp only [if_neg hd, hadvance]
    generalize inner ⟨p + 1, depth + 1, l⟩ = res at hr
    cases hr with
    | excused h he => exact .excused h he
    | @refused used rest s' cause c hw hu hs hc =>
      show Follow _ _ _ _ _ (.error ⟨cause, p + 1 + used.length, _⟩ _)
      rw [hp]
      exact .refused _ (.cons hopen hw) hu hs hc
    | @ok used rest a hw hgo =>
      show Follow _ _ _ _ _ ((expectSymbol ')' _ >>= _) ⟨p + 1 + used.length, depth, rest⟩)
      rw [hp]
      refine .close (.cons hopen hw) (hsign _ _ _ hgo) fun hclose next => ?_
      exact hg used next a (hclose ▸ hgo)

end Follows

end ThreeAddress.Grammar

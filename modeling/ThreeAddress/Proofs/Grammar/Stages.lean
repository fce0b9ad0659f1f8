import ThreeAddress.Proofs.Grammar.Derivation
import ThreeAddress.Grammar.Arithmetic

/-!
# Plain arithmetic, token by token

`Arithmetic level ts d` is the grammar of plain arithmetic. The levels matter for trees only: which
token may come next depends on what came last and on how many parentheses are open. So the phrases
within the limit are the walks of a small machine with a counter (`Stage.Step`, `Walk`) that come
back to the depth they started from (`Arithmetic.walk`, `Arithmetic.depth_le`).

From every stage a walk can be completed (`Stage.completion`). Hence a token that no step takes is
the first one that does not fit.
-/

namespace ThreeAddress.Grammar

open Token

/-! ## The grammar -/

/-- The signs that join the operands of a level. -/
def signs : Nat → List Char
  | 0 => ['+', '-']
  | 1 => ['*', '/']
  | _ => []

theorem mem_signs {level : Nat} {c : Char} (h : c ∈ signs level) : c ∈ signs 0 ++ signs 1 := by
  match level, h with
  | 0, h => exact List.mem_append_left _ h
  | 1, h => exact List.mem_append_right _ h

/-- The tokens spell plain arithmetic of a level without any limit, and `d` parentheses are open at
once where most are:

```text
level 0     level 1 joined by "+" and "-"
level 1     level 2 joined by "*" and "/"
level 2     an optional "-" before level 3
level 3     a number, or level 0 between parentheses
```
-/
inductive Arithmetic : Nat → List Token → Nat → Prop
  | number (text : String) : Arithmetic 3 [⟨.number, text⟩] 0
  | paren {ts : List Token} {d : Nat} (h : Arithmetic 0 ts d) :
      Arithmetic 3 (ofSymbol '(' :: (ts ++ [ofSymbol ')'])) (d + 1)
  | minus {ts : List Token} {d : Nat} (h : Arithmetic 3 ts d) : Arithmetic 2 (ofSymbol '-' :: ts) d
  | up {level : Nat} {ts : List Token} {d : Nat} (h : Arithmetic (level + 1) ts d) :
      Arithmetic level ts d
  | join {level : Nat} {ts us : List Token} {d d' : Nat} {c : Char} (hl : Arithmetic level ts d)
      (hc : c ∈ signs level) (hr : Arithmetic (level + 1) us d') :
      Arithmetic level (ts ++ ofSymbol c :: us) (max d d')

/-- A number or a symbol of plain arithmetic. -/
def IsArithmetic (t : Token) : Prop :=
  t.kind = .number ∨ ∃ c ∈ ['+', '-', '*', '/', '(', ')'], t = ofSymbol c

/-! ## Stages -/

/-- What comes next: an operand that may have a sign, an operand after its sign, or what goes on
after an operand. -/
inductive Phase where
  | operand
  | unsigned
  | operator

/-- A place in plain arithmetic, with the number of open parentheses. -/
structure Stage where
  phase : Phase
  depth : Nat

namespace Stage

/-- Where plain arithmetic starts. -/
def start : Stage := ⟨.operand, 0⟩

/-- Where plain arithmetic may end. -/
def final : Stage := ⟨.operator, 0⟩

/-- The token leads from one stage to another. -/
inductive Step : Stage → Token → Stage → Prop
  | number {phase : Phase} {depth : Nat} {text : String} (h : phase ≠ .operator) :
      Step ⟨phase, depth⟩ ⟨.number, text⟩ ⟨.operator, depth⟩
  | opening {phase : Phase} {depth : Nat} (h : phase ≠ .operator) (hd : depth < maxNesting) :
      Step ⟨phase, depth⟩ (ofSymbol '(') ⟨.operand, depth + 1⟩
  | minus {depth : Nat} : Step ⟨.operand, depth⟩ (ofSymbol '-') ⟨.unsigned, depth⟩
  | sign {depth : Nat} {c : Char} (hc : c ∈ signs 0 ++ signs 1) :
      Step ⟨.operator, depth⟩ (ofSymbol c) ⟨.operand, depth⟩
  | closing {depth : Nat} : Step ⟨.operator, depth + 1⟩ (ofSymbol ')') ⟨.operator, depth⟩

end Stage

open Stage

theorem Stage.Step.isArithmetic {s s' : Stage} {t : Token} (h : Step s t s') : IsArithmetic t := by
  cases h with
  | number => exact .inl rfl
  | sign hc => exact .inr ⟨_, List.mem_append_left ['(', ')'] hc, rfl⟩
  | opening | minus | closing => exact .inr ⟨_, by decide, rfl⟩

theorem number_ne_ofSymbol (text : String) (c : Char) : (⟨.number, text⟩ : Token) ≠ ofSymbol c := by
  simp [ofSymbol]

theorem Stage.Step.unique {s s₁ s₂ : Stage} {t : Token} (h₁ : Step s t s₁) (h₂ : Step s t s₂) :
    s₁ = s₂ := by
  generalize ht : t = t' at h₂
  cases h₁ <;> cases h₂ <;> grind [ofSymbol_inj, number_ne_ofSymbol, signs]

theorem Stage.Step.of_opening {s s' : Stage} (h : Step s (ofSymbol '(') s') :
    s.depth < maxNesting ∧ s' = ⟨.operand, s.depth + 1⟩ := by
  generalize ht : ofSymbol '(' = t at h
  cases h <;> grind [ofSymbol_inj, number_ne_ofSymbol, signs]

/-! ## Walks -/

/-- The tokens lead from one stage to another, one step for each. -/
inductive Walk : Stage → List Token → Stage → Prop
  | nil {s : Stage} : Walk s [] s
  | cons {s s' s'' : Stage} {t : Token} {ts : List Token} (h : Step s t s') (hw : Walk s' ts s'') :
      Walk s (t :: ts) s''

namespace Walk

variable {s s' s'' s₁ s₂ : Stage} {t : Token} {ts us : List Token}

theorem one (h : Step s t s') : Walk s [t] s' := .cons h .nil

theorem append (h : Walk s ts s') (h' : Walk s' us s'') : Walk s (ts ++ us) s'' := by
  induction h with
  | nil => exact h'
  | cons hs _ ih => exact .cons hs (ih h')

theorem unique (h₁ : Walk s ts s₁) (h₂ : Walk s ts s₂) : s₁ = s₂ := by
  induction h₁ with
  | nil =>
    cases h₂
    rfl
  | cons hs _ ih =>
    cases h₂ with
    | cons hs' hw => exact ih (hs.unique hs' ▸ hw)

theorem split (h : Walk s (ts ++ us) s'') : ∃ s', Walk s ts s' ∧ Walk s' us s'' := by
  induction ts generalizing s with
  | nil => exact ⟨s, .nil, h⟩
  | cons t ts ih =>
    cases h with
    | cons hs hw =>
      obtain ⟨s', hw₁, hw₂⟩ := ih hw
      exact ⟨s', .cons hs hw₁, hw₂⟩

/-- Some token leads past an operand. -/
theorem length_pos (h : Walk s ts s') (hs : s.phase ≠ s'.phase) : 0 < ts.length := by
  cases h with
  | nil => exact absurd rfl hs
  | cons => exact Nat.succ_pos _

theorem isArithmetic (h : Walk s ts s') : ∀ t ∈ ts, IsArithmetic t := by
  induction h with
  | nil => nofun
  | cons hs _ ih => exact List.forall_mem_cons.2 ⟨hs.isArithmetic, ih⟩

end Walk

/-- Closing parentheses lead out of them. -/
theorem walk_closing : ∀ depth, Walk ⟨.operator, depth⟩ (List.replicate depth (ofSymbol ')')) final
  | 0 => .nil
  | depth + 1 => .cons .closing (walk_closing depth)

/-- Every walk can go on to the end: after an operand that may be missing all parentheses are
closed. -/
theorem Stage.completion (s : Stage) : ∃ ts, Walk s ts final := by
  obtain ⟨phase, depth⟩ := s
  cases phase with
  | operator => exact ⟨_, walk_closing depth⟩
  | operand | unsigned =>
    exact ⟨⟨.number, "0"⟩ :: _, .cons (.number nofun) (walk_closing depth)⟩

/-! ## Where walks stop -/

namespace Stage

/-- The next token leads nowhere, or there is none although more must come. -/
structure Stops (s : Stage) (next : Option Token) : Prop where
  unfinished : next = none → s ≠ final
  refused : ∀ {t : Token} {s' : Stage}, next = some t → ¬Step s t s'

/-- The next token would open one parenthesis too many. -/
def TooDeep (s : Stage) (next : Option Token) : Prop :=
  s.phase ≠ .operator ∧ maxNesting ≤ s.depth ∧ next = some (ofSymbol '(')

theorem stops_operand {phase : Phase} {depth : Nat} {next : Option Token}
    (hphase : phase ≠ .operator) (hnumber : ∀ t, next = some t → t.kind ≠ .number)
    (hopen : depth < maxNesting → next ≠ some (ofSymbol '('))
    (hminus : phase = .operand → next ≠ some (ofSymbol '-')) : Stops ⟨phase, depth⟩ next := by
  refine ⟨fun _ h => hphase (congrArg Stage.phase h), fun hnext hs => ?_⟩
  cases hs with
  | number => exact hnumber _ hnext rfl
  | opening _ hd => exact hopen hd hnext
  | minus => exact hminus rfl hnext
  | sign | closing => exact hphase rfl

theorem stops_operator {depth : Nat} {next : Option Token}
    (hsign : ∀ c ∈ signs 0 ++ signs 1, next ≠ some (ofSymbol c))
    (hclosing : 0 < depth → next ≠ some (ofSymbol ')')) (hend : next = none → 0 < depth) :
    Stops ⟨.operator, depth⟩ next := by
  refine ⟨fun hnext h => ?_, fun hnext hs => ?_⟩
  · cases h
    exact absurd (hend hnext) (Nat.lt_irrefl 0)
  · cases hs with
    | number h | opening h => exact h rfl
    | sign hc => exact hsign _ hc hnext
    | closing => exact hclosing (Nat.succ_pos _) hnext

theorem not_tooDeep_operator (depth : Nat) (next : Option Token) :
    ¬TooDeep ⟨.operator, depth⟩ next := fun h => h.1 rfl

end Stage

section
variable {s s' : Stage} {used used' rest rest' us : List Token}

/-- No walk goes beyond a stop. -/
theorem Stage.Stops.eq_nil (h : s.Stops rest.head?) (hw : Walk s us s') (hr : us <+: rest) :
    us = [] := by
  cases hw with
  | nil => rfl
  | cons hs _ =>
    obtain ⟨l, rfl⟩ := hr
    exact absurd hs (h.refused rfl)

/-- The walk through a stream stops after `used`, and the cause says whether that is for nesting. -/
def StopsAt (used : List Token) (next : Option Token) (cause : Cause) : Prop :=
  ∃ s, Walk start used s ∧ s.Stops next ∧ (cause = .expressionTooDeep ↔ s.TooDeep next)

variable {cause cause' : Cause}

/-- A whole walk stops where tokens are left that do not go on with it. -/
theorem StopsAt.of_final {t : Token} (hw : Walk start used final)
    (hsign : ∀ c ∈ signs 0 ++ signs 1, some t ≠ some (ofSymbol c))
    (hc : cause ≠ .expressionTooDeep) : StopsAt used (some t) cause :=
  ⟨final, hw, stops_operator hsign (fun h => absurd h (Nat.lt_irrefl 0)) nofun,
    iff_of_false hc (not_tooDeep_operator 0 _)⟩

theorem StopsAt.not_final (h : StopsAt used rest.head? cause) :
    ¬Walk start (used ++ rest) final := by
  obtain ⟨s, hw, hs, -⟩ := h
  intro hall
  obtain ⟨s', hw', hrest⟩ := hall.split
  obtain rfl := hw.unique hw'
  obtain rfl := hs.eq_nil hrest (List.prefix_refl rest)
  cases hrest
  exact hs.unfinished rfl rfl

/-- A stream has one place where its walk stops. -/
theorem StopsAt.unique (h : StopsAt used rest.head? cause) (h' : StopsAt used' rest'.head? cause')
    (heq : used ++ rest = used' ++ rest') :
    used = used' ∧ (cause = .expressionTooDeep ↔ cause' = .expressionTooDeep) := by
  obtain ⟨s, hw, hs, hc⟩ := h
  obtain ⟨s', hw', hs', hc'⟩ := h'
  have hused : used = used' := by
    rcases List.append_eq_append_iff.1 heq with ⟨us, rfl, rfl⟩ | ⟨us, rfl, rfl⟩
    · obtain ⟨s'', hw'', hus⟩ := hw'.split
      obtain rfl := hw.unique hw''
      obtain rfl := hs.eq_nil hus (List.prefix_append us rest')
      exact (List.append_nil used).symm
    · obtain ⟨s'', hw'', hus⟩ := hw.split
      obtain rfl := hw'.unique hw''
      obtain rfl := hs'.eq_nil hus (List.prefix_append us rest)
      exact List.append_nil used'
  subst hused
  obtain rfl := hw.unique hw'
  obtain rfl := List.append_cancel_left heq
  exact ⟨rfl, hc.trans hc'.symm⟩

end

/-! ## Phrases are walks -/

/-- A phrase that fits below the open parentheses is a walk to what goes on after an operand. Only a
phrase of level 3 has no sign. -/
theorem Arithmetic.walk {level : Nat} {ts : List Token} {d : Nat} (h : Arithmetic level ts d) :
    ∀ (phase : Phase) (depth : Nat), phase ≠ .operator → (level < 3 → phase = .operand) →
      depth + d ≤ maxNesting → Walk ⟨phase, depth⟩ ts ⟨.operator, depth⟩ := by
  induction h with
  | number text =>
    intro phase depth hphase _ _
    exact .one (.number hphase)
  | paren _ ih =>
    intro phase depth hphase _ hd
    have hinner := ih .operand (depth + 1) nofun (fun _ => rfl) (by omega)
    exact .cons (.opening hphase (by omega)) (hinner.append (.one .closing))
  | minus _ ih =>
    intro phase depth _ hlevel hd
    obtain rfl := hlevel (by decide)
    exact .cons .minus (ih .unsigned depth nofun (by omega) hd)
  | @up level _ _ _ ih =>
    intro phase depth hphase hlevel hd
    exact ih phase depth hphase (fun hl => hlevel (by omega)) hd
  | @join level ts us d d' c _ hc _ ihl ihr =>
    intro phase depth hphase hlevel hd
    have hleft := ihl phase depth hphase hlevel (by omega)
    have hright := ihr .operand depth nofun (fun _ => rfl) (by omega)
    exact hleft.append (.cons (.sign (mem_signs hc)) hright)

/-- A phrase that is a walk fits below the open parentheses. -/
theorem Arithmetic.depth_le {level : Nat} {ts : List Token} {d : Nat} (h : Arithmetic level ts d) :
    ∀ (phase : Phase) (depth : Nat) {s : Stage}, phase ≠ .operator →
      (level < 3 → phase = .operand) → depth ≤ maxNesting → Walk ⟨phase, depth⟩ ts s →
      depth + d ≤ maxNesting := by
  induction h with
  | number => exact fun _ _ _ _ _ hd _ => hd
  | paren _ ih =>
    intro phase depth s hphase _ _ hw
    cases hw with
    | cons hs hw =>
      obtain ⟨hlt, rfl⟩ := hs.of_opening
      obtain ⟨_, hw, -⟩ := hw.split
      have hinner := ih .operand (depth + 1) nofun (fun _ => rfl) hlt hw
      omega
  | minus _ ih =>
    intro phase depth s _ hlevel hd hw
    obtain rfl := hlevel (by decide)
    cases hw with
    | cons hs hw =>
      obtain rfl := hs.unique .minus
      exact ih .unsigned depth nofun (by omega) hd hw
  | up _ ih =>
    intro phase depth s hphase hlevel hd hw
    exact ih phase depth hphase (fun hl => hlevel (by omega)) hd hw
  | @join level ts us d d' c hl hc _ ihl ihr =>
    intro phase depth s hphase hlevel hd hw
    obtain ⟨s', hw, hright⟩ := hw.split
    have hdl := ihl phase depth hphase hlevel hd hw
    obtain rfl := hw.unique (hl.walk phase depth hphase hlevel hdl)
    cases hright with
    | cons hs hright =>
      obtain rfl := hs.unique (.sign (mem_signs hc))
      have hdr := ihr .operand depth nofun (fun _ => rfl) hd hright
      omega

end ThreeAddress.Grammar

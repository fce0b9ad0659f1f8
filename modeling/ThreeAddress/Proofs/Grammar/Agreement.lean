import ThreeAddress.Proofs.Grammar.Acceptance
import ThreeAddress.Token.Lexer

/-!
# Plain arithmetic as a returned value

Plain arithmetic can be checked on its own, and it can be read as the value that a function returns
(`returning`). One reader goes level by level and the other by precedence, but both follow the same
stages (`expression_follows`). A stream has one place where its walk stops, so both stop at the same
token (`check_agrees_with_reading`).

They part where a tree is too tall: the check builds none.
-/

namespace ThreeAddress.Grammar

open Token Stage

/-! ## Signs and operators -/

theorem operator_of_sign {level : Nat} {c : Char} (h : c ∈ signs level) :
    ∃ op, (c, op) ∈ levelOperators (level + 1) := by
  match level with
  | 0 =>
    rcases List.mem_pair.1 h with rfl | rfl
    · exact ⟨.add, by decide⟩
    · exact ⟨.sub, by decide⟩
  | 1 =>
    rcases List.mem_pair.1 h with rfl | rfl
    · exact ⟨.mul, by decide⟩
    · exact ⟨.div, by decide⟩
  | _ + 2 => exact absurd h List.not_mem_nil

theorem sign_of_operator {op : Operator} (h : IsArithmetic (ofOperator op)) :
    ∃ level, ∃ c ∈ signs level, op.precedence = level + 1 ∧ ofOperator op = ofSymbol c := by
  obtain h | ⟨c, hc, h⟩ := h
  · cases h
  cases op with
  | add => exact ⟨0, '+', by decide, rfl, rfl⟩
  | sub => exact ⟨0, '-', by decide, rfl, rfl⟩
  | mul => exact ⟨1, '*', by decide, rfl, rfl⟩
  | div => exact ⟨1, '/', by decide, rfl, rfl⟩
  | mod =>
    obtain rfl : '%' = c := ofSymbol_inj.1 h
    exact absurd hc (by decide)
  | lt =>
    obtain rfl : '<' = c := ofSymbol_inj.1 h
    exact absurd hc (by decide)
  | gt =>
    obtain rfl : '>' = c := ofSymbol_inj.1 h
    exact absurd hc (by decide)

/-! ## Trees -/

theorem Arithmetic.expression {level : Nat} {ts : List Token} {d : Nat}
    (h : Arithmetic level ts d) : ∃ e, Expression (level + 1) ts e d := by
  induction h with
  | number text => exact ⟨_, .number text⟩
  | paren _ ih =>
    obtain ⟨e, he⟩ := ih
    exact ⟨e, .paren he.up⟩
  | minus _ ih =>
    obtain ⟨e, he⟩ := ih
    exact ⟨_, .minus he⟩
  | up _ ih =>
    obtain ⟨e, he⟩ := ih
    exact ⟨e, he.up⟩
  | join _ hc _ ihl ihr =>
    obtain ⟨l, hl⟩ := ihl
    obtain ⟨r, hr⟩ := ihr
    obtain ⟨op, hop⟩ := operator_of_sign hc
    exact ⟨_, hl.join hop hr⟩

/-- Below comparisons, of which there are none, the levels of expressions are those of plain
arithmetic. -/
theorem Expression.arithmetic {level : Nat} {ts : List Token} {e : Node} {d : Nat}
    (h : Expression level ts e d) (hts : ∀ t ∈ ts, IsArithmetic t) :
    Arithmetic (level - 1) ts d := by
  induction h with
  | number text => exact .number text
  | quoted | name => simp [IsArithmetic, ofText, ofSymbol] at hts
  | paren _ ih => exact .paren (ih (by simp_all))
  | minus _ ih => exact .minus (ih (by simp_all))
  | @up level _ _ _ _ ih =>
    cases level with
    | zero => exact ih hts
    | succ level => exact .up (ih hts)
  | @join level ts us _ _ _ _ c op _ hop _ ihl ihr =>
    obtain ⟨hlevel, ht⟩ := mem_levelOperators.1 hop
    obtain ⟨level', c', hc, hlevel', ht'⟩ := sign_of_operator (ht ▸ hts (ofSymbol c) (by simp))
    obtain rfl : level = level' + 1 := hlevel.symm.trans hlevel'
    obtain rfl : c = c' := ofSymbol_inj.1 (ht.symm.trans ht')
    exact .join (ihl fun t h => hts t (by simp [h])) hc (ihr fun t h => hts t (by simp [h]))

/-! ## What is ahead -/

/-- What ends a returned value and the function. -/
def closing : List Token := [ofSymbol ';', ofSymbol '\x7d']

/-- The stream goes on with plain arithmetic and ends as the function does. -/
def Ahead (l : List Token) : Prop := ∃ us, (∀ t ∈ us, IsArithmetic t) ∧ l = us ++ closing

theorem not_isArithmetic_semicolon : ¬IsArithmetic (ofSymbol ';') := by
  simp [IsArithmetic, ofSymbol]

theorem Ahead.drop (used : List Token) {l : List Token} (h : Ahead (used ++ l))
    (hu : ∀ t ∈ used, IsArithmetic t) : Ahead l := by
  obtain ⟨us, hus, heq⟩ := h
  rcases List.append_eq_append_iff.1 heq with ⟨vs, rfl, rfl⟩ | ⟨vs, rfl, hvs⟩
  · exact ⟨vs, fun t ht => hus t (by simp [ht]), rfl⟩
  · cases vs with
    | nil => exact ⟨[], nofun, by simpa using hvs.symm⟩
    | cons t vs =>
      obtain rfl : ofSymbol ';' = t := (List.cons.inj hvs).1
      exact absurd (hu _ (by simp)) not_isArithmetic_semicolon

theorem Ahead.head {l : List Token} {t : Token} (h : Ahead l) (ht : l.head? = some t) :
    IsArithmetic t ∨ t = ofSymbol ';' := by
  obtain ⟨us, hus, rfl⟩ := h
  cases us with
  | nil =>
    cases ht
    exact .inr rfl
  | cons u us =>
    cases ht
    exact .inl (hus _ (by simp))

theorem Ahead.kind_ne {l : List Token} {t : Token} (h : Ahead l) (ht : l.head? = some t) :
    t.kind ≠ .identifier := by
  rcases h.head ht with (hk | ⟨c, -, rfl⟩) | rfl
  · rw [hk]
    nofun
  · nofun
  · nofun

theorem Ahead.sign {l : List Token} {op : Operator} (h : Ahead l)
    (ht : l.head? = some (ofOperator op)) :
    ∃ c ∈ signs 0 ++ signs 1, ofOperator op = ofSymbol c := by
  rcases h.head ht with ha | hs
  · obtain ⟨level, c, hc, -, heq⟩ := sign_of_operator ha
    exact ⟨c, mem_signs hc, heq⟩
  · have hno : ofOperator op ≠ ofSymbol ';' := by cases op <;> decide
    exact absurd hs hno

/-! ## Reading by precedence -/

/-- The next token is no operator that binds as tightly as `least`. -/
def Weaker (least : Nat) (next : Option Token) : Prop :=
  ∀ op, next.bind operator? = some op → op.precedence < least

theorem Weaker.ne_sign {next : Option Token} (h : Weaker 0 next) :
    ∀ c ∈ signs 0 ++ signs 1, next ≠ some (ofSymbol c) := by
  rintro c hc rfl
  obtain ⟨level, hc⟩ : ∃ level, c ∈ signs level :=
    (List.mem_append.1 hc).elim (fun h => ⟨0, h⟩) fun h => ⟨1, h⟩
  obtain ⟨op, hop⟩ := operator_of_sign hc
  have hnext : operator? (ofSymbol c) = some op :=
    operator?_eq_some.2 (mem_levelOperators.1 hop).2.symm
  exact absurd (h op hnext) (Nat.not_lt_zero _)

/-- From what is ahead the reader follows the stages up to an operator weaker than `least`, unless a
tree is too tall. -/
def ReadsValue (least n : Nat) (r : Reader Measured) : Prop :=
  ∀ depth, Follows True n r ⟨.operand, depth⟩ Ahead fun _ next _ => Weaker least next

section
variable {n : Nat} {inner : Reader Measured}

theorem primary_follows (phase : Phase) (depth : Nat) (hphase : phase ≠ .operator)
    (hinner : ReadsValue 0 n inner) :
    Follows True (n + 1) (primary inner) ⟨phase, depth⟩
      (fun l => Ahead l ∧ (phase = .operand → l.head? ≠ some (ofSymbol '-')))
      fun _ _ _ => True := by
  refine .peek fun next => ?_
  cases next with
  | none => exact .refuse_operand hphase nofun (by simp_all) (by simp_all) fun l hl => hl.1.2
  | some t =>
    obtain ⟨kind, text⟩ := t
    cases kind with
    | number =>
      exact .advance (fun l hl => hl.2) (.number hphase) rfl (.pure fun l hl => trivial)
    | identifier => exact fun _ l hl => absurd rfl (hl.1.1.kind_ne hl.2)
    | keyword | unknown =>
      exact .refuse_operand hphase nofun (by simp_all) (by simp_all [ofSymbol]) fun l hl => hl.1.2
    | symbol =>
      by_cases hopen : (⟨.symbol, text⟩ : Token).isSymbol '(' = true
      · simp only [hopen, if_true]
        rw [eq_ofSymbol_of_isSymbol hopen]
        have hread : Follows True n inner ⟨.operand, depth + 1⟩
            (fun l => Ahead (ofSymbol '(' :: l)) fun _ next _ => Weaker 0 next :=
          (hinner (depth + 1)).on fun l hl => hl.drop [_] (by simp [IsArithmetic])
        exact (Follows.parens (k := id) (A := Ahead) hphase (fun _ => hread)
          (fun _ _ _ h => h.ne_sign) fun _ _ _ _ => trivial).on fun l hl => ⟨hl.1.1, hl.2⟩
      · simp only [hopen]
        refine .refuse_operand hphase nofun (by simp_all) (fun l hl h => ?_) fun l hl => hl.1.2
        rw [hl.2] at h
        cases h
        exact hopen (isSymbol_ofSymbol (by decide))

theorem unary_follows (depth : Nat) (hinner : ReadsValue 0 n inner) :
    Follows True (n + 1) (unary inner) ⟨.operand, depth⟩ Ahead fun _ _ _ => True := by
  refine .accept ⟨.unsigned, depth⟩ rfl (fun t ht => ?_) ?_
  · obtain rfl := eq_ofSymbol_of_isSymbol ht
    have hprimary := primary_follows .unsigned depth nofun hinner
    refine ⟨.minus, .bind ((hprimary.le (Nat.le_succ n)).on fun l hl => ⟨?_, nofun⟩) ?_⟩
    · exact hl.drop [_] (by simp [IsArithmetic])
    · intro _ _ _ _ _
      exact .grow (.pure fun _ _ => trivial)
  · have hprimary := primary_follows .operand depth nofun hinner
    refine hprimary.on fun l hl => ⟨hl.1, fun _ h => ?_⟩
    have hno := hl.2 _ h
    rw [isSymbol_ofSymbol (by decide)] at hno
    cases hno

end

mutual

theorem binary_follows : ∀ n least : Nat, ReadsValue least n (binary n least)
  | 0, _, _ => fun _ _ _ hl => absurd hl (Nat.not_lt_zero _)
  | n + 1, least, depth => by
    rw [binary]
    refine .bind (unary_follows depth (binary_follows n 0)) fun used _ left hw _ => ?_
    have hpos := hw.length_pos nofun
    refine ((climb_follows n least depth left).le (by omega)).on fun l hl => ?_
    exact hl.1.drop used hw.isArithmetic

theorem climb_follows : ∀ (n least depth : Nat) (left : Measured),
    Follows True n (climb n least left) ⟨.operator, depth⟩ Ahead fun _ next _ => Weaker least next
  | 0, _, _, _ => fun _ _ _ hl => absurd hl (Nat.not_lt_zero _)
  | n + 1, least, depth, left => by
    rw [climb]
    refine .peekOperator fun next => ?_
    rcases hop : next.bind operator? with _ | op
    · refine .pure fun l hl op h => ?_
      rw [hl.2, hop] at h
      cases h
    · by_cases hweak : op.precedence < least
      · simp only [hweak, if_true]
        refine .pure fun l hl op' h => ?_
        rw [hl.2, hop] at h
        cases h
        exact hweak
      · simp only [hweak, if_false]
        obtain ⟨t, rfl, ht⟩ := Option.bind_eq_some_iff.1 hop
        obtain rfl := operator?_eq_some.1 ht
        refine .assuming (fun l hl => hl.1.sign hl.2) fun hsign => ?_
        obtain ⟨c, hc, heq⟩ := hsign
        have hstep : Step ⟨.operator, depth⟩ (ofOperator op) ⟨.operand, depth⟩ := heq ▸ .sign hc
        refine .advance (fun l hl => hl.2) hstep rfl ?_
        refine .bind ((binary_follows n (op.precedence + 1) depth).on fun l hl => ?_) ?_
        · exact hl.1.drop [_] (Walk.one hstep).isArithmetic
        · intro used _ right hw _
          refine .grow (((climb_follows n least depth _).le (Nat.sub_le ..)).on fun l hl => ?_)
          exact hl.1.1.drop (_ :: used) (Walk.cons hstep hw).isArithmetic

end

theorem expression_follows (n depth : Nat) :
    Follows True n (expression n) ⟨.operand, depth⟩ Ahead fun _ next _ => Weaker 0 next :=
  .bind (binary_follows n 0 depth) fun _ _ _ _ hnext => .pure fun _ hl => hl.2 ▸ hnext

/-! ## A function that returns plain arithmetic -/

/-- What stands before the value that a function returns. -/
def opening : List Token :=
  [ofKeyword "int", ofText "f", ofSymbol '(', ofSymbol ')', ofSymbol '\x7b', ofKeyword "return"]

/-- The definition of a function that returns what the tokens spell. -/
def returning (ts : List Token) : List Token := opening ++ (ts ++ closing)

example : tokenizeSource "int f ( ) \x7b return 2 * ( 3 ) ; \x7d" =
    returning [⟨.number, "2"⟩, ofSymbol '*', ofSymbol '(', ⟨.number, "3"⟩, ofSymbol ')'] :=
  rfl

/-- The rest of such a definition. -/
def returnedRest (rounds : Nat) : Reader Node := do
  let value ← expression rounds
  expectSymbol ';' .afterReturnValue
  let others ← statements rounds
  expectSymbol '\x7d' .afterFunctionBody
  return .function .int "f" [] (.exit value :: others)

theorem definition_opening (n : Nat) (l : List Token) :
    definition (n + 1) ⟨0, 0, opening ++ l⟩ = returnedRest n ⟨6, 0, l⟩ := by
  have h : definition (n + 1) ⟨0, 0, opening ++ l⟩ =
      ((returned n >>= fun first => statements n >>= fun others => pure (first :: others)) >>=
        fun body => expectSymbol '\x7d' .afterFunctionBody >>= fun _ =>
          pure (.function .int "f" [] body)) ⟨6, 0, l⟩ := rfl
  rw [h, returnedRest, returned]
  simp only [bind_assoc, pure_bind]

section
variable {ts : List Token}

/-- One round for each token of the definition but the first ones. -/
theorem definition_returning (ts : List Token) :
    definition (returning ts).length (Cursor.start (returning ts)) =
      returnedRest (ts.length + 7) ⟨6, 0, ts ++ closing⟩ := by
  have hlength : (returning ts).length = ts.length + 7 + 1 := by
    simp [returning, opening, closing]
  rw [hlength, Cursor.start, returning, definition_opening]

theorem ofTokens_of_definition_error {e : SyntaxError} {c : Cursor}
    (h : definition ts.length (Cursor.start ts) = .error e c) : Program.ofTokens ts = .error e := by
  have hc : (Cursor.start ts).ahead.length = ts.length := rfl
  rw [Program.ofTokens, readFrom, program, hc, definitions, h]

theorem ofTokens_of_definition_ok {f : Node} {p d : Nat}
    (h : definition ts.length (Cursor.start ts) = .ok f ⟨p, d, []⟩) :
    Program.ofTokens ts = .ok ⟨[f]⟩ := by
  have hc : (Cursor.start ts).ahead.length = ts.length := rfl
  rw [Program.ofTokens, readFrom, program, hc, definitions, h]

theorem ofTokens_returning_ok {e : Node} {p : Nat}
    (h : expression (ts.length + 7) ⟨6, 0, ts ++ closing⟩ = .ok e ⟨p, 0, closing⟩) :
    Program.ofTokens (returning ts) = .ok ⟨[.function .int "f" [] [.exit e]]⟩ := by
  have hlength : [ofSymbol '\x7d'].length < ts.length + 7 := by simp
  have hnone : statements (ts.length + 7) ⟨p + 1, 0, [ofSymbol '\x7d']⟩ =
      .ok [] ⟨p + 1, 0, [ofSymbol '\x7d']⟩ := statements_nil (p + 1) [ofSymbol '\x7d'] rfl hlength
  refine ofTokens_of_definition_ok (p := p + 2) (d := 0) ?_
  rw [definition_returning, returnedRest, bind_ok h, closing, symbol_bind (by decide),
    bind_ok hnone, symbol_bind (by decide)]
  rfl

theorem ofTokens_returning_error {e : SyntaxError} {c : Cursor}
    (h : expression (ts.length + 7) ⟨6, 0, ts ++ closing⟩ = .error e c) :
    Program.ofTokens (returning ts) = .error e := by
  refine ofTokens_of_definition_error (c := c) ?_
  rw [definition_returning, returnedRest, bind_error h]

theorem ofTokens_returning_unfinished {e : Node} {p : Nat} {rest : List Token}
    (h : expression (ts.length + 7) ⟨6, 0, ts ++ closing⟩ = .ok e ⟨p, 0, rest⟩)
    (hnext : rest.head? ≠ some (ofSymbol ';')) :
    Program.ofTokens (returning ts) =
      .error ⟨.noSymbol ';' .afterReturnValue, p, rest.head?.map Token.text⟩ := by
  refine ofTokens_of_definition_error (c := ⟨p, 0, rest⟩) ?_
  rw [definition_returning, returnedRest, bind_ok h, symbol_missing hnext]

/-- Where a walk stops in what is ahead, it stops in the plain arithmetic. -/
theorem StopsAt.of_closing {used us : List Token} {cause : Cause} {s : Stage}
    (hw : Walk start used s) (hu : s ≠ final) (hs : s.Stops (us ++ closing).head?)
    (hc : cause = .expressionTooDeep ↔ s.TooDeep (us ++ closing).head?) :
    StopsAt used us.head? cause := by
  cases us with
  | cons t us => exact ⟨s, hw, hs, hc⟩
  | nil =>
    refine ⟨s, hw, ⟨fun _ => hu, nofun⟩, hc.trans (iff_of_false ?_ ?_)⟩
    · exact fun h => absurd h.2.2 (by decide)
    · exact fun h => absurd h.2.2 nofun

/-- What the reading of a returned value comes to: a refusal for nesting, a whole walk, or a refusal
where the walk stops. -/
theorem ofTokens_returning_cases (hts : ∀ t ∈ ts, IsArithmetic t) :
    (∃ e, Program.ofTokens (returning ts) = .error e ∧ e.cause = .expressionTooDeep) ∨
    (Walk start ts final ∧ ∃ P, Program.ofTokens (returning ts) = .ok P) ∨
    ∃ used rest e, ts = used ++ rest ∧ StopsAt used rest.head? e.cause ∧
      e.position = used.length + 6 ∧ Program.ofTokens (returning ts) = .error e := by
  have hahead : Ahead (ts ++ closing) := ⟨ts, hts, rfl⟩
  have hr := expression_follows (ts.length + 7) 0 6 (ts ++ closing) hahead (by simp [closing])
  generalize hres : expression (ts.length + 7) ⟨6, 0, ts ++ closing⟩ = res at hr
  generalize hl : ts ++ closing = l at hr hahead
  cases hr with
  | excused _ he => exact .inl ⟨_, ofTokens_returning_error hres, he⟩
  | @refused used rest s cause c hw hu hs hc =>
    obtain ⟨us, -, rfl⟩ := hahead.drop used hw.isArithmetic
    rw [← List.append_assoc] at hl
    have hts := List.append_cancel_right hl
    exact .inr (.inr ⟨used, us, _, hts, .of_closing hw hu hs hc, Nat.add_comm ..,
      ofTokens_returning_error hres⟩)
  | @ok used rest e hw hweak =>
    obtain ⟨us, hus, rfl⟩ := hahead.drop used hw.isArithmetic
    rw [← List.append_assoc] at hl
    obtain rfl := List.append_cancel_right hl
    cases us with
    | nil =>
      rw [List.append_nil] at hres ⊢
      exact .inr (.inl ⟨hw, _, ofTokens_returning_ok hres⟩)
    | cons t us =>
      have hnext : (t :: us ++ closing).head? ≠ some (ofSymbol ';') := by
        rintro ⟨⟩
        exact not_isArithmetic_semicolon (hus _ (by simp))
      refine .inr (.inr ⟨used, t :: us, _, rfl, ?_, Nat.add_comm ..,
        ofTokens_returning_unfinished hres hnext⟩)
      exact .of_final hw hweak.ne_sign nofun

end

/-! ## Agreement -/

theorem append_ne {p q s : String} {i : Nat} (hi : i < p.toList.length)
    (h : p.toList[i]? ≠ s.toList[i]?) : p ++ q ≠ s := by
  rintro rfl
  rw [String.toList_append, List.getElem?_append_left hi] at h
  exact h rfl

theorem message_tooDeep_iff {cause : Cause} :
    cause.message = "Expression nested too deeply" ↔ cause = .expressionTooDeep := by
  refine ⟨fun h => ?_, fun h => h ▸ rfl⟩
  -- what was expected begins with "Expe", so the fourth letter tells it from "Expression"
  cases cause with
  | expressionTooDeep => rfl
  | noSymbol symbol place =>
    have h : "Expected '" ++ String.singleton symbol ++ "' " ++ place.phrase = _ := h
    rw [String.append_assoc, String.append_assoc] at h
    exact absurd h (append_ne (i := 3) (by decide) (by decide))
  | noName place =>
    have h : "Expected identifier " ++ place.phrase = _ := h
    exact absurd h (append_ne (i := 3) (by decide) (by decide))
  | noType allowed place =>
    have h : "Expected " ++ " or ".intercalate (allowed.map Ty.name) ++ " " ++ place.phrase = _ := h
    rw [String.append_assoc, String.append_assoc] at h
    exact absurd h (append_ne (i := 3) (by decide) (by decide))
  | _ => exact absurd h (by decide)

/-- A tree within the limit is read. -/
theorem ofTokens_returning_of_expression {ts : List Token} {e : Node} {d : Nat}
    (h : Expression 0 ts e d) (hm : e.height ≤ maxNesting) (hd : d ≤ maxNesting) :
    Program.ofTokens (returning ts) = .ok ⟨[.function .int "f" [] [.exit e]]⟩ := by
  have hdepth : 0 + d ≤ maxNesting := by omega
  exact ofTokens_returning_ok (expression_yields h hm hdepth 6 closing rfl (by simp [closing]))

/-- The check of plain arithmetic and the reading of a function that returns it agree unless the
reading is refused for nesting: both succeed, or both are refused at the same token. If the check is
refused for nesting, so is the reading; and what the check alone lets pass has a tree that is too
tall. -/
theorem check_agrees_with_reading (ts : List Token) (hts : ∀ t ∈ ts, IsArithmetic t) :
    ((∀ e, Program.ofTokens (returning ts) = .error e →
        e.cause.message ≠ "Expression nested too deeply") →
      (checkArithmetic ts = .ok () ∧ ∃ P, Program.ofTokens (returning ts) = .ok P) ∨
      ∃ e e', checkArithmetic ts = .error e ∧ Program.ofTokens (returning ts) = .error e' ∧
        e'.position = e.position + 6) ∧
    (∀ e, checkArithmetic ts = .error e → e.cause.message = "Expression nested too deeply" →
      ∃ e', Program.ofTokens (returning ts) = .error e' ∧
        e'.cause.message = "Expression nested too deeply") ∧
    (checkArithmetic ts = .ok () → ∀ e, Program.ofTokens (returning ts) = .error e →
      (∃ tree d, Expression 0 ts tree d) ∧
      ∀ tree d, Expression 0 ts tree d → maxNesting < tree.height) := by
  simp only [ne_eq, message_tooDeep_iff]
  rcases checkArithmetic_cases ts with ⟨hspells, hok⟩ | ⟨used, rest, cause, rfl, hstop, herror⟩
  · refine ⟨fun hdeep => .inl ⟨hok, ?_⟩, ?_, fun _ e herror => ⟨?_, fun tree d htree => ?_⟩⟩
    · rcases ofTokens_returning_cases hts with
        ⟨e, he, hc⟩ | ⟨-, hread⟩ | ⟨used, rest, e, rfl, hstop, -⟩
      · exact absurd hc (hdeep e he)
      · exact hread
      · exact absurd hspells.walk hstop.not_final
    · rw [hok]
      nofun
    · obtain ⟨d, h, -⟩ := hspells
      obtain ⟨tree, htree⟩ := h.expression
      exact ⟨tree, d, htree.up⟩
    · by_contra hlow
      have hd := (htree.arithmetic hts).depth_le .operand 0 nofun (fun _ => rfl)
        (Nat.zero_le _) hspells.walk
      rw [ofTokens_returning_of_expression htree (by omega) (by omega)] at herror
      cases herror
  · rcases ofTokens_returning_cases hts with
      ⟨e', he', hc'⟩ | ⟨hwalk, -⟩ | ⟨used', rest', e', heq, hstop', hp', he'⟩
    · refine ⟨fun hdeep => absurd hc' (hdeep e' he'), fun _ _ _ => ⟨e', he', hc'⟩, ?_⟩
      rw [herror]
      nofun
    · exact absurd hwalk hstop.not_final
    · obtain ⟨rfl, hcause⟩ := hstop.unique hstop' heq
      refine ⟨fun _ => .inr ⟨_, e', herror, he', hp'⟩, fun e he hc => ⟨e', he', ?_⟩, ?_⟩
      · rw [herror] at he
        cases he
        exact hcause.1 hc
      · rw [herror]
        nofun

/-- Both refuse `1 + * 2` at the same token. A sum of 257 ones passes the check, but its tree is too
tall to be read. -/
theorem check_agrees_with_reading_sums :
    let bad := [⟨.number, "1"⟩, ofSymbol '+', ofSymbol '*', ⟨.number, "2"⟩]
    let tall := ⟨.number, "1"⟩ :: (List.replicate 256 [ofSymbol '+', ⟨.number, "1"⟩]).flatten
    ((∀ t ∈ bad, IsArithmetic t) ∧ ∃ e e', checkArithmetic bad = .error e ∧
      Program.ofTokens (returning bad) = .error e' ∧ e'.position = e.position + 6) ∧
    (∀ t ∈ tall, IsArithmetic t) ∧ checkArithmetic tall = .ok () ∧
      (∃ e, Program.ofTokens (returning tall) = .error e) ∧
      ∀ tree d, Expression 0 tall tree d → maxNesting < tree.height := by
  intro bad tall
  have hbad : ∀ t ∈ bad, IsArithmetic t := by simp [bad, IsArithmetic]
  have htall : ∀ t ∈ tall, IsArithmetic t := by
    intro t ht
    rcases List.mem_cons.1 ht with rfl | ht
    · exact .inl rfl
    · obtain ⟨l, hl, ht⟩ := List.mem_flatten.1 ht
      rw [List.eq_of_mem_replicate hl] at ht
      rcases List.mem_pair.1 ht with rfl | rfl
      · exact .inr ⟨'+', by decide, rfl⟩
      · exact .inl rfl
  have hread : Program.ofTokens (returning bad) = .error ⟨.noExpression, 8, some "*"⟩ := rfl
  have hcheck : checkArithmetic tall = .ok () := by decide +kernel
  have hrefused : (Program.ofTokens (returning tall)).isOk = false := by decide +kernel
  obtain ⟨hagree, -, -⟩ := check_agrees_with_reading bad hbad
  obtain ⟨-, -, hheight⟩ := check_agrees_with_reading tall htall
  refine ⟨⟨hbad, (hagree fun e he => ?_).resolve_left fun h => ?_⟩, htall, hcheck, ?_⟩
  · rw [hread] at he
    cases he
    decide
  · cases h.1
  · rcases htree : Program.ofTokens (returning tall) with e | P
    · exact ⟨⟨e, rfl⟩, (hheight hcheck e htree).2⟩
    · rw [htree] at hrefused
      cases hrefused

end ThreeAddress.Grammar

import ThreeAddress.Proofs.Grammar.Following

/-!
# What is accepted as plain arithmetic

Reading plain arithmetic follows the stages and needs no excuse (`sum_reads`): a success is a
phrase within the limit, and a refusal is where the walk stops (`checkArithmetic_cases`). So exactly
the phrases within the limit are accepted, and a refusal points at the first token with which no
accepted stream begins (`checkArithmetic_decides`).
-/

namespace ThreeAddress.Grammar

open Token Stage

/-! ## Readers of a level -/

/-- No sign of the level comes next. -/
def NoSign (level : Nat) (next : Option Token) : Prop :=
  ∀ c ∈ signs level, next ≠ some (ofSymbol c)

theorem NoSign.both {next : Option Token} (h₀ : NoSign 0 next) (h₁ : NoSign 1 next) :
    ∀ c ∈ signs 0 ++ signs 1, next ≠ some (ofSymbol c) :=
  fun c hc => (List.mem_append.1 hc).elim (h₀ c) (h₁ c)

/-- The tokens spell plain arithmetic of a level that fits below `depth` open parentheses. -/
def Spells (level depth : Nat) (us : List Token) : Prop :=
  ∃ d, Arithmetic level us d ∧ depth + d ≤ maxNesting

theorem Spells.up {level depth : Nat} {us : List Token} (h : Spells (level + 1) depth us) :
    Spells level depth us := by
  obtain ⟨d, h, hd⟩ := h
  exact ⟨d, h.up, hd⟩

theorem Spells.join {level depth : Nat} {us vs : List Token} {c : Char} (hl : Spells level depth us)
    (hc : c ∈ signs level) (hr : Spells (level + 1) depth vs) :
    Spells level depth (us ++ ofSymbol c :: vs) := by
  obtain ⟨d, hl, hd⟩ := hl
  obtain ⟨d', hr, hd'⟩ := hr
  exact ⟨max d d', hl.join hc hr, by omega⟩

/-- From any stream the reader follows the stages past arithmetic of a level, up to a next token as
`stop` says. -/
def ReadsLevel (level : Nat) (stop : Option Token → Prop) (n depth : Nat) (r : Reader Unit) :
    Prop :=
  Follows False n r ⟨.operand, depth⟩ (fun _ => True) fun us next _ =>
    Spells level depth us ∧ stop next

/-- A number, or what `inner` reads between parentheses. -/
def operand (inner : Reader Unit) : Reader Unit := do
  match ← peek? with
  | none => refuse .noOperand
  | some t =>
    if t.kind = .number then advance
    else if t.isSymbol '(' then
      nested .expressionTooDeep do
        advance
        inner
      expectSymbol ')' .afterExpression
    else refuse .noOperand

theorem signed_eq (inner : Reader Unit) :
    signed inner = accept (·.isSymbol '-') >>= fun _ => operand inner := rfl

section
variable {n depth : Nat}

theorem operand_follows {inner : Reader Unit} {stop : Option Token → Prop} (phase : Phase)
    (hphase : phase ≠ .operator) (hd : depth ≤ maxNesting)
    (hstop : ∀ next, stop next → ∀ c ∈ signs 0 ++ signs 1, next ≠ some (ofSymbol c))
    (hinner : ∀ depth ≤ maxNesting, ReadsLevel 0 stop n depth inner) :
    Follows False (n + 1) (operand inner) ⟨phase, depth⟩
      (fun l => phase = .operand → l.head? ≠ some (ofSymbol '-'))
      fun us _ _ => Spells 3 depth us := by
  refine .peek fun next => ?_
  cases next with
  | none => exact .refuse_operand hphase nofun (by simp_all) (by simp_all) fun l hl => hl.1
  | some t =>
    by_cases hnumber : t.kind = .number
    · simp only [hnumber, if_true]
      obtain ⟨kind, text⟩ := t
      obtain rfl : kind = .number := hnumber
      rw [← bind_pure advance]
      exact .advance (fun l hl => hl.2) (.number hphase) rfl
        (.pure fun l hl => ⟨0, .number text, hd⟩)
    by_cases hopen : t.isSymbol '(' = true
    · simp only [hnumber, hopen, if_false, if_true]
      obtain rfl := eq_ofSymbol_of_isSymbol hopen
      have hparens := Follows.parens (k := id) (A := fun _ => True)
        (g := fun us _ _ => Spells 3 depth us) hphase (fun hlt => hinner (depth + 1) hlt)
        (fun us next _ h => hstop next h.2) fun us _ _ h => by
          obtain ⟨⟨d, h, hd⟩, -⟩ := h
          exact ⟨d + 1, .paren h, by omega⟩
      simp only [id, bind_pure_unit] at hparens
      exact hparens.on fun l hl => ⟨trivial, hl.2⟩
    · simp only [hnumber, hopen, if_false]
      refine .refuse_operand hphase nofun (fun l hl u hu => ?_) (fun l hl h => ?_) fun l hl => hl.1
      · rw [hl.2] at hu
        cases hu
        exact hnumber
      · rw [hl.2] at h
        cases h
        exact hopen (isSymbol_ofSymbol (by decide))

theorem signed_reads {inner : Reader Unit} {stop : Option Token → Prop} (hd : depth ≤ maxNesting)
    (hstop : ∀ next, stop next → ∀ c ∈ signs 0 ++ signs 1, next ≠ some (ofSymbol c))
    (hinner : ∀ depth ≤ maxNesting, ReadsLevel 0 stop n depth inner) :
    ReadsLevel 2 (fun _ => True) (n + 1) depth (signed inner) := by
  rw [signed_eq]
  refine .accept ⟨.unsigned, depth⟩ rfl (fun t ht => ?_) ?_
  · obtain rfl := eq_ofSymbol_of_isSymbol ht
    have hoperand := operand_follows .unsigned nofun hd hstop hinner
    refine ⟨.minus, ((hoperand.le (Nat.le_succ n)).on fun _ _ => nofun).goal fun us _ _ h => ?_⟩
    obtain ⟨d, h, hd⟩ := h
    exact ⟨⟨d, .minus h, hd⟩, trivial⟩
  · have hoperand := operand_follows .operand nofun hd hstop hinner
    refine (hoperand.on fun l hl _ h => ?_).goal fun us _ _ h => ⟨h.up, trivial⟩
    have := hl.2 _ h
    rw [isSymbol_ofSymbol (by decide)] at this
    cases this

section
variable {level : Nat} {c₁ c₂ : Char} {stop : Option Token → Prop} {item : Reader Unit}

theorem isSymbol_or_iff {t : Token} (hs : signs level = [c₁, c₂]) :
    (t.isSymbol c₁ || t.isSymbol c₂) = true ↔ ∃ c ∈ signs level, t = ofSymbol c := by
  have hascii : ∀ c ∈ signs level, c.toNat < 128 := fun c hc => by
    have hall : ((signs 0 ++ signs 1).all fun c => decide (c.toNat < 128)) = true := by decide
    exact of_decide_eq_true (List.all_eq_true.1 hall c (mem_signs hc))
  simp only [hs, List.mem_cons, List.not_mem_nil, or_false, Bool.or_eq_true] at hascii ⊢
  constructor
  · rintro (h | h)
    · exact ⟨c₁, .inl rfl, eq_ofSymbol_of_isSymbol h⟩
    · exact ⟨c₂, .inr rfl, eq_ofSymbol_of_isSymbol h⟩
  · rintro ⟨c, rfl | rfl, rfl⟩
    · exact .inl (isSymbol_ofSymbol (hascii c (.inl rfl)))
    · exact .inr (isSymbol_ofSymbol (hascii c (.inr rfl)))

/-- Going on from arithmetic of a level by signs of the level and operands. -/
theorem more_follows (hs : signs level = [c₁, c₂])
    (hitem : ReadsLevel (level + 1) stop (n + 1) depth item) :
    ∀ {rounds : Nat} {us : List Token}, rounds ≤ n → Spells level depth us →
      Follows False rounds (more c₁ c₂ item rounds) ⟨.operator, depth⟩ (fun l => stop l.head?)
        fun vs next _ => Spells level depth (us ++ vs) ∧ stop next ∧ NoSign level next
  | 0, us, _, _ => fun _ _ _ hl => absurd hl (Nat.not_lt_zero _)
  | rounds + 1, us, hr, hus => by
    rw [more]
    refine .accept ⟨.operand, depth⟩ rfl (fun t ht => ?_) ?_
    · obtain ⟨c, hc, rfl⟩ := (isSymbol_or_iff hs).1 ht
      refine ⟨.sign (mem_signs hc), .bind ((hitem.le (by omega)).on fun _ _ => trivial) ?_⟩
      intro vs next _ _ hvs
      have hmore := more_follows hs hitem (Nat.le_of_succ_le hr) (hus.join hc hvs.1)
      refine ((hmore.le (by omega)).goal fun ws next _ h => ?_).on fun l hl => hl.2 ▸ hvs.2
      simpa using h
    · refine .pure fun l hl => ⟨by simpa using hus, hl.1, fun c hc h => ?_⟩
      have hno := hl.2 _ h
      rw [(isSymbol_or_iff hs).2 ⟨c, hc, rfl⟩] at hno
      cases hno

theorem joined_reads (hs : signs level = [c₁, c₂])
    (hitem : ReadsLevel (level + 1) stop (n + 1) depth item) :
    ReadsLevel level (fun next => stop next ∧ NoSign level next) (n + 1) depth
      (joined c₁ c₂ item n) := by
  refine .bind hitem fun us next _ hw hus => ?_
  have hpos := hw.length_pos nofun
  have hmore := more_follows hs hitem (Nat.le_refl n) hus.1.up
  exact (hmore.le (by omega)).on fun l hl => hl.2 ▸ hus.2

end

/-- Arithmetic is read up to a token that is no sign. -/
theorem sum_reads : ∀ (n : Nat) {depth : Nat}, depth ≤ maxNesting →
    ReadsLevel 0 (fun next => (True ∧ NoSign 1 next) ∧ NoSign 0 next) n depth (sum n)
  | 0, _, _ => fun _ _ _ hl => absurd hl (Nat.not_lt_zero _)
  | n + 1, depth, hd => by
    rw [sum]
    refine joined_reads rfl (joined_reads rfl (signed_reads hd ?_ fun _ hd => sum_reads n hd))
    rintro next ⟨⟨-, h₁⟩, h₀⟩
    exact h₀.both h₁

end

/-! ## Whole streams -/

/-- What the check of a stream comes to. -/
theorem checkArithmetic_cases (ts : List Token) :
    (Spells 0 0 ts ∧ checkArithmetic ts = .ok ()) ∨
    ∃ used rest cause, ts = used ++ rest ∧ StopsAt used rest.head? cause ∧
      checkArithmetic ts = .error ⟨cause, used.length, rest.head?.map Token.text⟩ := by
  have hrounds : withRounds sum (Cursor.start ts) = sum (ts.length + 1) ⟨0, 0, ts⟩ := rfl
  have hr := sum_reads (ts.length + 1) (Nat.zero_le _) 0 ts trivial (Nat.lt_succ_self _)
  rw [← hrounds] at hr
  generalize hsum : withRounds sum (Cursor.start ts) = res at hr
  cases hr with
  | excused h => exact h.elim
  | @refused used rest s cause c hw _ hs hc =>
    refine .inr ⟨used, rest, cause, rfl, ⟨s, hw, hs, hc⟩, ?_⟩
    rw [checkArithmetic, readFrom, arithmetic, bind_error hsum, Nat.zero_add]
  | @ok used rest _ hw hg =>
    obtain ⟨hspells, ⟨-, h₁⟩, h₀⟩ := hg
    rw [checkArithmetic, readFrom, arithmetic, bind_ok hsum, peek_bind,
      Nat.zero_add]
    cases rest with
    | nil =>
      rw [List.append_nil]
      exact .inl ⟨hspells, rfl⟩
    | cons t l =>
      have hstop : StopsAt used (some t) .afterArithmetic := .of_final hw (h₀.both h₁) (by decide)
      exact .inr ⟨used, t :: l, _, rfl, hstop, rfl⟩

theorem Spells.walk {us : List Token} (h : Spells 0 0 us) : Walk start us final := by
  obtain ⟨d, h, hd⟩ := h
  exact h.walk .operand 0 nofun (fun _ => rfl) hd

theorem checkArithmetic_eq_ok_iff (ts : List Token) :
    checkArithmetic ts = .ok () ↔ Walk start ts final := by
  rcases checkArithmetic_cases ts with ⟨hspells, hok⟩ | ⟨used, rest, cause, rfl, hstop, herror⟩
  · exact iff_of_true hok hspells.walk
  · refine iff_of_false ?_ hstop.not_final
    rw [herror]
    nofun

/-- Exactly the phrases within the limit are accepted. A refusal points at the first token that does
not fit: the tokens before it begin an accepted stream, and no accepted stream begins with them and
that token. -/
theorem checkArithmetic_decides (ts : List Token) :
    (checkArithmetic ts = .ok () ↔ ∃ d, Arithmetic 0 ts d ∧ d ≤ maxNesting) ∧
    ∀ e, checkArithmetic ts = .error e →
      e.position ≤ ts.length ∧
      e.found = (ts[e.position]?).map Token.text ∧
      (e.found = none ↔ e.position = ts.length) ∧
      (∃ us, checkArithmetic (ts.take e.position ++ us) = .ok ()) ∧
      (e.position < ts.length →
        ∀ us, checkArithmetic (ts.take (e.position + 1) ++ us) ≠ .ok ()) := by
  have hspells : Spells 0 0 ts ↔ ∃ d, Arithmetic 0 ts d ∧ d ≤ maxNesting := by
    simp only [Spells, Nat.zero_add]
  rcases checkArithmetic_cases ts with ⟨h, hok⟩ | ⟨used, rest, cause, rfl, hstop, herror⟩
  · refine ⟨iff_of_true hok (hspells.1 h), fun e he => ?_⟩
    rw [hok] at he
    cases he
  · refine ⟨iff_of_false ?_ fun h => hstop.not_final (hspells.2 h).walk, ?_⟩
    · rw [herror]
      nofun
    intro e he
    rw [herror] at he
    cases he
    have hnext : (used ++ rest)[used.length]? = rest.head? := by
      rw [List.getElem?_append_right (Nat.le_refl _), Nat.sub_self, List.head?_eq_getElem?]
    simp only [hnext, List.take_left, Option.map_eq_none_iff, List.head?_eq_none_iff, true_and]
    refine ⟨by simp, by simp, ?_, fun hlt us => ?_⟩
    · obtain ⟨s, hw, -⟩ := hstop
      obtain ⟨us, hus⟩ := s.completion
      exact ⟨us, (checkArithmetic_eq_ok_iff _).2 (hw.append hus)⟩
    · cases rest with
      | nil => simp at hlt
      | cons t l =>
        have htake : (used ++ t :: l).take (used.length + 1) ++ us = used ++ t :: us := by
          simp [List.take_append, List.take_of_length_le]
        rw [htake, Ne, checkArithmetic_eq_ok_iff]
        have hstop' : StopsAt used (t :: us).head? cause := hstop
        exact hstop'.not_final

/-- `1 + * 2` is refused at its third token. -/
theorem checkArithmetic_decides_third :
    let ts := [⟨.number, "1"⟩, ofSymbol '+', ofSymbol '*', ⟨.number, "2"⟩]
    checkArithmetic ts = .error ⟨.noOperand, 2, some "*"⟩ ∧
      (∃ us, checkArithmetic (ts.take 2 ++ us) = .ok ()) ∧
      ∀ us, checkArithmetic (ts.take 3 ++ us) ≠ .ok () := by
  intro ts
  have h : checkArithmetic ts = .error ⟨.noOperand, 2, some "*"⟩ := rfl
  obtain ⟨-, hrefusal⟩ := checkArithmetic_decides ts
  obtain ⟨-, -, -, hviable, hbad⟩ := hrefusal _ h
  exact ⟨h, hviable, hbad (by decide)⟩

end ThreeAddress.Grammar

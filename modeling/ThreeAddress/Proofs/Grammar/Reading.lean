import Mathlib.Data.List.Basic
import ThreeAddress.Grammar.Expression
import ThreeAddress.Proofs.Grammar.Derivation

/-!
# How readers read

`Reads n m r r' depth A g` is about two readers that differ at most in their rounds. From a stream
in `A` that is shorter than `n` the reader `r` moves past some tokens and then ends with a value or
refuses the next token; what it did meets the goal `g`; and `r'` does the same from any place of any
stream, shorter than `m`, that begins with the tokens that were passed and goes on with the same
next token. So no reader depends on its position, on more than one token ahead or, with enough of them,
on its rounds.

A goal says what the tokens and the value of a success are, and of which phrases the tokens passed
before a refusal are a beginning. One rule for each step of a reader leads from what the rest of the
reader does to what the whole does; its goal is `after` the tokens of the step.
-/

namespace ThreeAddress

/-- The causes of a refusal that are about nesting. -/
def Cause.IsLimit (cause : Cause) : Prop := cause = .expressionTooDeep ∨ cause = .statementsTooDeep

namespace Grammar

open Token

/-! ## Which tokens pass a test -/

theorem eq_ofSymbol_of_isSymbol {t : Token} {c : Char} (h : t.isSymbol c = true) :
    t = ofSymbol c := by
  obtain ⟨kind, text⟩ := t
  simp only [isSymbol, Bool.and_eq_true, beq_iff_eq] at h
  obtain ⟨⟨rfl, -⟩, ht⟩ := h
  rw [ofSymbol, Token.mk.injEq]
  exact ⟨rfl, String.toList_injective (by simpa using ht)⟩

theorem isKeyword_iff {t : Token} {word : String} :
    t.isKeyword word = true ↔ t = ofKeyword word := by
  obtain ⟨kind, text⟩ := t
  simp [isKeyword, ofKeyword]

theorem isName_iff {t : Token} :
    t.isName = true ↔ ∃ x, isQuotedText x = false ∧ t = ofText x := by
  obtain ⟨kind, text⟩ := t
  simp only [isName, isQuoted, Bool.and_eq_true, beq_iff_eq, Bool.not_eq_true', ofText, mk.injEq]
  constructor
  · rintro ⟨rfl, ht⟩
    exact ⟨text, by simpa using ht, rfl, rfl⟩
  · rintro ⟨x, hx, rfl, rfl⟩
    exact ⟨rfl, by simpa using hx⟩

theorem typeOf?_eq_some {allowed : List Ty} {t : Token} {ty : Ty} :
    typeOf? allowed t = some ty ↔ ty ∈ allowed ∧ ty ≠ .unknown ∧ t = ofKeyword ty.name := by
  obtain ⟨kind, text⟩ := t
  have hw : Ty.ofKeyword? text = some ty ↔ ty ≠ .unknown ∧ text = ty.name := by
    constructor
    · intro h
      unfold Ty.ofKeyword? at h
      split_ifs at h with h₁ h₂ h₃ <;> cases h
      · exact ⟨nofun, h₁⟩
      · exact ⟨nofun, h₂⟩
      · exact ⟨nofun, h₃⟩
    · rintro ⟨hty, rfl⟩
      exact Ty.ofKeyword?_name hty
  by_cases hk : kind = .keyword
  · simp [typeOf?, hk, ofKeyword, Option.filter_eq_some_iff, hw, and_comm, and_left_comm]
  · simp [typeOf?, hk, ofKeyword]

/-- The operator that a token denotes. -/
def operator? (t : Token) : Option Operator :=
  if t.kind = .symbol then Operator.ofSymbol? t.text else none

theorem operator?_eq_some {t : Token} {op : Operator} :
    operator? t = some op ↔ t = ofOperator op := by
  obtain ⟨kind, text⟩ := t
  by_cases hk : kind = .symbol
  · simp only [operator?, hk, if_true, ofOperator, Token.mk.injEq, true_and]
    refine ⟨fun h => (Operator.symbol_of_ofSymbol? h).symm, ?_⟩
    rintro rfl
    exact Operator.ofSymbol?_symbol op
  · simp [operator?, hk, ofOperator]

/-! ## Ends and goals of a reading -/

/-- The end of a reading at `c`: a value, or the refusal of the next token. -/
def ending {α : Type} (o : Except Cause α) (c : Cursor) : EStateM.Result SyntaxError Cursor α :=
  match o with
  | .ok a => .ok a c
  | .error cause => .error (c.refusal cause) c

/-- What a reader is after. -/
structure Goal (α : Type) where
  /-- The tokens that were passed, the next token and the value of a success. -/
  reads : List Token → Option Token → α → Prop
  /-- The phrases that the reader accepts if nothing is limited. -/
  phrase : List Token → Prop

namespace Goal

variable {α : Type}

/-- What is left of a goal after some tokens. -/
def after (g : Goal α) (us : List Token) : Goal α :=
  ⟨fun ts next a => g.reads (us ++ ts) next a, fun ts => g.phrase (us ++ ts)⟩

/-- A goal with a token in front. -/
def cons (t : Token) (g : Goal α) : Goal α :=
  ⟨fun ts next a => ∃ us, ts = t :: us ∧ g.reads us next a,
    fun ts => ∃ us, ts = t :: us ∧ g.phrase us⟩

/-- A reading meets the goal: a success reads what it should, and a refusal that is not about
nesting comes after the beginning of a phrase. -/
def Meets (g : Goal α) (used : List Token) (next : Option Token) : Except Cause α → Prop
  | .ok a => g.reads used next a
  | .error cause => cause.IsLimit ∨ ∃ more, g.phrase (used ++ more)

theorem after_after (g : Goal α) (us vs : List Token) :
    (g.after us).after vs = g.after (us ++ vs) := by
  simp only [after, List.append_assoc]

theorem Meets.of_after {g : Goal α} {us ts : List Token} {next : Option Token}
    {o : Except Cause α} (h : (g.after us).Meets ts next o) : g.Meets (us ++ ts) next o := by
  cases o with
  | ok a => exact h
  | error cause => simpa only [Meets, after, List.append_assoc] using h

theorem Meets.mono {g g' : Goal α} {used : List Token} {next : Option Token} {o : Except Cause α}
    (h : g.Meets used next o) (hr : ∀ a, g.reads used next a → g'.reads used next a)
    (hp : ∀ ts, g.phrase ts → g'.phrase ts) : g'.Meets used next o := by
  cases o with
  | ok a => exact hr a h
  | error cause => exact h.imp_right fun ⟨more, hm⟩ => ⟨more, hp _ hm⟩

end Goal

/-- How `r` reads streams in `A` shorter than `n`, and `r'` streams shorter than `m`. -/
structure Reads {α : Type} (n m : Nat) (r r' : Reader α) (depth : Nat) (A : List Token → Prop)
    (g : Goal α) : Prop where
  possible : ∃ ts, g.phrase ts
  run : ∀ ahead, A ahead → ahead.length < n → ∃ used rest o, ahead = used ++ rest ∧
    (∀ p, r ⟨p, depth, ahead⟩ = ending o ⟨p + used.length, depth, rest⟩) ∧
    g.Meets used rest.head? o ∧
    ∀ p rest', rest'.head? = rest.head? → (used ++ rest').length < m →
      r' ⟨p, depth, used ++ rest'⟩ = ending o ⟨p + used.length, depth, rest'⟩

namespace Reads

variable {α β : Type} {n m depth : Nat} {r r' : Reader α} {A : List Token → Prop} {g : Goal α}

theorem on {B : List Token → Prop} (h : Reads n m r r' depth B g) (hA : ∀ l, A l → B l) :
    Reads n m r r' depth A g :=
  ⟨h.possible, fun ahead ha => h.run ahead (hA ahead ha)⟩

theorem le {n' m' : Nat} (h : Reads n m r r' depth A g) (hn : n' ≤ n) (hm : m' ≤ m) :
    Reads n' m' r r' depth A g := by
  refine ⟨h.possible, fun ahead ha hl => ?_⟩
  obtain ⟨used, rest, o, hs, hr, hg, hr'⟩ := h.run ahead ha (by omega)
  exact ⟨used, rest, o, hs, hr, hg, fun p rest' hn hl => hr' p rest' hn (by omega)⟩

/-- Of streams shorter than 0 there are none, so the second reader may be any. -/
theorem zero {r'' : Reader α} (h : Reads n m r r' depth A g) : Reads n 0 r r'' depth A g := by
  refine ⟨h.possible, fun ahead ha hl => ?_⟩
  obtain ⟨used, rest, o, hs, hr, hg, -⟩ := h.run ahead ha hl
  exact ⟨used, rest, o, hs, hr, hg, fun p rest' hn hl => absurd hl (Nat.not_lt_zero _)⟩

/-- The second reader may be one for each number of rounds. -/
theorem rounds (q : Nat → Reader α) (h : ∀ m, Reads n (m + 1) r (q (m + 1)) depth A g) :
    ∀ m, Reads n m r (q m) depth A g
  | 0 => (h 0).zero
  | m + 1 => h m

theorem goal {g' : Goal α} (h : Reads n m r r' depth A g)
    (hr : ∀ ts next a, g.reads ts next a → g'.reads ts next a)
    (hp : ∀ ts, g.phrase ts → g'.phrase ts) : Reads n m r r' depth A g' := by
  obtain ⟨⟨ts, hts⟩, hrun⟩ := h
  refine ⟨⟨ts, hp ts hts⟩, fun ahead ha hl => ?_⟩
  obtain ⟨used, rest, o, hs, hr₁, hg, hr'⟩ := hrun ahead ha hl
  exact ⟨used, rest, o, hs, hr₁, hg.mono (hr used rest.head?) hp, hr'⟩

theorem cons {t : Token} (h : Reads n m r r' depth A g) :
    Reads n m r r' depth A ((g.cons t).after [t]) :=
  h.goal (fun _ _ _ hr => ⟨_, rfl, hr⟩) fun _ hp => ⟨_, rfl, hp⟩

/-! ## Ends -/

/-- From no stream at all, any readers do. -/
theorem never (hp : ∃ ts, g.phrase ts) (hA : ∀ l, A l → n ≤ l.length) :
    Reads n m r r' depth A g :=
  ⟨hp, fun ahead ha hl => absurd (hA ahead ha) (Nat.not_le.2 hl)⟩

theorem pure {a : α} (hg : ∀ l, A l → g.reads [] l.head? a) (hp : ∃ ts, g.phrase ts) :
    Reads n m (pure a) (pure a) depth A g :=
  ⟨hp, fun ahead ha _ => ⟨[], ahead, .ok a, rfl, fun _ => rfl, hg ahead ha, fun _ _ _ _ => rfl⟩⟩

theorem refuse {cause : Cause} (hp : ∃ ts, g.phrase ts) :
    Reads n m (refuse cause) (refuse cause) depth A g :=
  ⟨hp, fun ahead _ _ =>
    ⟨[], ahead, .error cause, rfl, fun _ => rfl, .inr hp, fun _ _ _ _ => rfl⟩⟩

/-! ## Steps -/

theorem bind {f f' : α → Reader β} {g' : Goal β} (h : Reads n m r r' depth A g)
    (hp : ∀ us, g.phrase us → ∃ ts, g'.phrase (us ++ ts))
    (hf : ∀ us next a, g.reads us next a →
      Reads (n - us.length) (m - us.length) (f a) (f' a) depth
        (fun l => A (us ++ l) ∧ l.head? = next) (g'.after us)) :
    Reads n m (r >>= f) (r' >>= f') depth A g' := by
  obtain ⟨⟨us₀, hus₀⟩, hrun⟩ := h
  obtain ⟨ts₀, hts₀⟩ := hp us₀ hus₀
  refine ⟨⟨_, hts₀⟩, fun ahead ha hlen => ?_⟩
  obtain ⟨us, rest, o, rfl, hr, hg, hr'⟩ := hrun ahead ha hlen
  cases o with
  | error cause =>
    refine ⟨us, rest, .error cause, rfl, fun p => ?_, ?_, fun p rest' hn hl => ?_⟩
    · show EStateM.bind r f _ = _
      rw [EStateM.bind, hr]
      rfl
    · refine hg.imp_right fun ⟨more, hm⟩ => ?_
      obtain ⟨ts, hts⟩ := hp _ hm
      exact ⟨more ++ ts, by rwa [← List.append_assoc]⟩
    · show EStateM.bind r' f' _ = _
      rw [EStateM.bind, hr' p rest' hn hl]
      rfl
  | ok a =>
    have hlen₂ : rest.length < n - us.length := by
      rw [List.length_append] at hlen
      omega
    obtain ⟨vs, rest₂, o, rfl, hr₂, hg₂, hr₂'⟩ :=
      (hf us rest.head? a hg).run rest ⟨ha, rfl⟩ hlen₂
    refine ⟨us ++ vs, rest₂, o, (List.append_assoc ..).symm, fun p => ?_, hg₂.of_after,
      fun p rest' hn hl => ?_⟩
    · show EStateM.bind r f _ = _
      rw [EStateM.bind, hr]
      simpa [ending, Nat.add_assoc] using hr₂ (p + us.length)
    · have hn' : (vs ++ rest').head? = (vs ++ rest₂).head? := by
        rw [List.head?_append, List.head?_append, hn]
      have hl' : (us ++ (vs ++ rest')).length < m := by rwa [← List.append_assoc]
      have hl₂ : (vs ++ rest').length < m - us.length := by
        rw [List.length_append] at hl'
        omega
      show EStateM.bind r' f' _ = _
      rw [List.append_assoc, EStateM.bind, hr' p (vs ++ rest') hn' hl']
      simpa [ending, Nat.add_assoc] using hr₂' (p + us.length) rest' hn hl₂

/-- Looking at the next token. -/
theorem peek {f f' : Option Token → Reader α}
    (h : ∀ next, Reads n m (f next) (f' next) depth (fun l => A l ∧ l.head? = next) g) :
    Reads n m (peek? >>= f) (peek? >>= f') depth A g := by
  refine ⟨(h none).possible, fun ahead ha hlen => ?_⟩
  obtain ⟨used, rest, o, rfl, hr, hg, hr'⟩ := (h _).run ahead ⟨ha, rfl⟩ hlen
  refine ⟨used, rest, o, rfl, hr, hg, fun p rest' hn hl => ?_⟩
  have hn' : (used ++ rest').head? = (used ++ rest).head? := by
    rw [List.head?_append, List.head?_append, hn]
  show f' (used ++ rest').head? _ = _
  rw [hn']
  exact hr' p rest' hn hl

/-- Reading the next token `t`. -/
theorem advance {f f' : Unit → Reader α} {t : Token} (hA : ∀ l, A l → l.head? = some t)
    (h : Reads (n - 1) (m - 1) (f ()) (f' ()) depth (fun l => A (t :: l)) (g.after [t])) :
    Reads n m (advance >>= f) (advance >>= f') depth A g := by
  obtain ⟨⟨ts, hts⟩, hrun⟩ := h
  refine ⟨⟨_, hts⟩, fun ahead ha hlen => ?_⟩
  obtain ⟨l, rfl⟩ := List.head?_eq_some_iff.1 (hA ahead ha)
  obtain ⟨used, rest, o, rfl, hr, hg, hr'⟩ := hrun l ha (Nat.lt_sub_of_add_lt hlen)
  refine ⟨t :: used, rest, o, rfl, fun p => ?_, hg.of_after, fun p rest' hn hl => ?_⟩
  · show f () ⟨p + 1, depth, used ++ rest⟩ = _
    simpa [Nat.add_assoc, Nat.add_comm 1] using hr (p + 1)
  · have hl' : (used ++ rest').length < m - 1 := by
      rw [List.cons_append, List.length_cons] at hl
      omega
    show f' () ⟨p + 1, depth, used ++ rest'⟩ = _
    simpa [Nat.add_assoc, Nat.add_comm 1] using hr' (p + 1) rest' hn hl'

/-- Reading the next token if it passes a test. -/
theorem accept {f f' : Bool → Reader α} {test : Token → Bool}
    (h₁ : ∀ t, test t = true →
      Reads (n - 1) (m - 1) (f true) (f' true) depth (fun l => A (t :: l)) (g.after [t]))
    (h₀ : Reads n m (f false) (f' false) depth
      (fun l => A l ∧ ∀ t, l.head? = some t → test t = false) g) :
    Reads n m (accept test >>= f) (accept test >>= f') depth A g := by
  refine ⟨h₀.possible, fun ahead ha hlen => ?_⟩
  by_cases ht : ∃ t, ahead.head? = some t ∧ test t = true
  · obtain ⟨t, hh, ht⟩ := ht
    obtain ⟨l, rfl⟩ := List.head?_eq_some_iff.1 hh
    have hstep : ∀ (k : Bool → Reader α) p l, (Grammar.accept test >>= k) ⟨p, depth, t :: l⟩ =
        k true ⟨p + 1, depth, l⟩ := fun k p l => by
      show EStateM.bind _ k _ = _
      simp [EStateM.bind, Grammar.accept, ht, Cursor.advance]
    obtain ⟨used, rest, o, rfl, hr, hg, hr'⟩ := (h₁ t ht).run l ha (Nat.lt_sub_of_add_lt hlen)
    refine ⟨t :: used, rest, o, rfl, fun p => ?_, hg.of_after, fun p rest' hn hl => ?_⟩
    · rw [hstep, hr]
      simp [Nat.add_assoc, Nat.add_comm 1]
    · have hl' : (used ++ rest').length < m - 1 := by
        rw [List.cons_append, List.length_cons] at hl
        omega
      rw [List.cons_append, hstep, hr' _ _ hn hl']
      simp [Nat.add_assoc, Nat.add_comm 1]
  · have hno : ∀ t, ahead.head? = some t → test t = false := fun t hh =>
      Bool.eq_false_iff.2 fun h => ht ⟨t, hh, h⟩
    have hstep : ∀ (k : Bool → Reader α) p l, (∀ t, l.head? = some t → test t = false) →
        (Grammar.accept test >>= k) ⟨p, depth, l⟩ = k false ⟨p, depth, l⟩ := fun k p l hl => by
      show EStateM.bind _ k _ = _
      cases l with
      | nil => rfl
      | cons t l => simp [EStateM.bind, Grammar.accept, hl t rfl]
    obtain ⟨used, rest, o, rfl, hr, hg, hr'⟩ := h₀.run ahead ⟨ha, hno⟩ hlen
    refine ⟨used, rest, o, rfl, fun p => ?_, hg, fun p rest' hn hl => ?_⟩
    · rw [hstep _ _ _ hno, hr]
    · have hn' : (used ++ rest').head? = (used ++ rest).head? := by
        rw [List.head?_append, List.head?_append, hn]
      rw [hstep _ _ _ (by rwa [hn']), hr' p rest' hn hl]

/-- Reading a symbol that must come. -/
theorem symbol {c : Char} {place : Place} {f f' : Unit → Reader α}
    (h : Reads (n - 1) (m - 1) (f ()) (f' ()) depth (fun l => A (ofSymbol c :: l))
      (g.after [ofSymbol c])) :
    Reads n m (expectSymbol c place >>= f) (expectSymbol c place >>= f') depth A g := by
  have hp : ∃ ts, g.phrase ts := by
    obtain ⟨ts, hts⟩ := h.possible
    exact ⟨_, hts⟩
  have hb : ∀ k : Unit → Reader α, expectSymbol c place >>= k =
      Grammar.accept (·.isSymbol c) >>= fun b =>
        (if b then Pure.pure () else Grammar.refuse (.noSymbol c place)) >>= k := fun k => by
    rw [expectSymbol, bind_assoc]
  rw [hb, hb]
  refine accept (fun t ht => ?_) ?_
  · rw [eq_ofSymbol_of_isSymbol ht]
    simpa using h
  · refine bind (g := ⟨fun _ _ _ => False, fun us => us = []⟩) ?_ ?_ ?_
    · exact (refuse ⟨[], rfl⟩)
    · rintro _ rfl
      exact hp
    · exact fun _ _ _ hf => hf.elim

/-- Reading a name that must come. -/
theorem name {place : Place} {f f' : String → Reader α}
    (h : ∀ x, isQuotedText x = false →
      Reads (n - 1) (m - 1) (f x) (f' x) depth (fun l => A (ofText x :: l)) (g.after [ofText x])) :
    Reads n m (expectName place >>= f) (expectName place >>= f') depth A g := by
  have hp : ∃ ts, g.phrase ts := by
    obtain ⟨ts, hts⟩ := (h "x" (by simp [isQuotedText])).possible
    exact ⟨_, hts⟩
  rw [expectName, bind_assoc, bind_assoc]
  refine peek fun next => ?_
  cases next with
  | none => exact refuse hp
  | some t =>
    by_cases ht : t.isName = true
    · simp only [ht, if_true, bind_assoc, pure_bind]
      obtain ⟨x, hx, rfl⟩ := isName_iff.1 ht
      exact advance (fun _ hl => hl.2) ((h x hx).on fun _ hl => hl.1)
    · simp only [ht]
      exact refuse hp

/-- Reading a type that must come. -/
theorem type {allowed : List Ty} {place : Place} {f f' : Ty → Reader α}
    (hne : ∃ ty, ty ∈ allowed)
    (h : ∀ ty ∈ allowed, Reads (n - 1) (m - 1) (f ty) (f' ty) depth
      (fun l => A (ofKeyword ty.name :: l)) (g.after [ofKeyword ty.name])) :
    Reads n m (expectType allowed place >>= f) (expectType allowed place >>= f') depth A g := by
  have hp : ∃ ts, g.phrase ts := by
    obtain ⟨ty, hty⟩ := hne
    obtain ⟨ts, hts⟩ := (h ty hty).possible
    exact ⟨_, hts⟩
  rw [expectType, bind_assoc, bind_assoc]
  refine peek fun next => ?_
  cases ht : next.bind (typeOf? allowed) with
  | none => exact refuse hp
  | some ty =>
    obtain ⟨t, rfl, ht⟩ := Option.bind_eq_some_iff.1 ht
    obtain ⟨hty, -, rfl⟩ := typeOf?_eq_some.1 ht
    simp only [bind_assoc, pure_bind]
    exact advance (fun _ hl => hl.2) ((h ty hty).on fun _ hl => hl.1)

/-- Looking for an operator. -/
theorem peekOperator {f f' : Option Operator → Reader α}
    (h : ∀ next : Option Token, Reads n m (f (next.bind operator?)) (f' (next.bind operator?)) depth
      (fun l => A l ∧ l.head? = next) g) :
    Reads n m (peekOperator? >>= f) (peekOperator? >>= f') depth A g := by
  rw [peekOperator?, bind_assoc, bind_assoc]
  exact peek h

/-- Growing by one level of height. -/
theorem grow {below : Nat} {f f' : Nat → Reader α} (hp : ∃ ts, g.phrase ts)
    (h : below + 1 ≤ maxNesting → Reads n m (f (below + 1)) (f' (below + 1)) depth A g) :
    Reads n m (grow below >>= f) (grow below >>= f') depth A g := by
  rw [Grammar.grow]
  by_cases hb : maxNesting ≤ below
  · rw [if_pos hb]
    exact refuse hp
  · rw [if_neg hb, pure_bind, pure_bind]
    exact h (Nat.lt_of_not_le hb)

/-- Reading one nesting level deeper. -/
theorem nested {cause : Cause} (hc : cause.IsLimit) (hp : ∃ ts, g.phrase ts)
    (h : depth < maxNesting → Reads n m r r' (depth + 1) A g) :
    Reads n m (nested cause r) (nested cause r') depth A g := by
  refine ⟨hp, fun ahead ha hlen => ?_⟩
  by_cases hd : depth < maxNesting
  · obtain ⟨used, rest, o, rfl, hr, hg, hr'⟩ := (h hd).run ahead ha hlen
    refine ⟨used, rest, o, rfl, fun p => ?_, hg, fun p rest' hn hl => ?_⟩
    · rw [Grammar.nested, if_neg (Nat.not_le.2 hd), hr]
      cases o <;> rfl
    · rw [Grammar.nested, if_neg (Nat.not_le.2 hd), hr' p rest' hn hl]
      cases o <;> rfl
  · refine ⟨[], ahead, .error cause, rfl, fun p => ?_, .inl hc, fun p rest' _ _ => ?_⟩
    · rw [Grammar.nested, if_pos (Nat.not_lt.1 hd)]
      rfl
    · rw [Grammar.nested, if_pos (Nat.not_lt.1 hd)]
      rfl

end Reads

end Grammar

end ThreeAddress

import ThreeAddress.Proofs.Code.Closed
import ThreeAddress.Proofs.Code.Simulation
import ThreeAddress.Proofs.Grammar.Soundness
import ThreeAddress.Proofs.Token.Words

/-!
# Lowering preserves meaning

The code of a function that a source spells and that has no name like a temporary does what the
function's body does (`Preserves`), for every domain of values and from every store.
-/

namespace ThreeAddress

open Code

variable {V : Type*}

/-! ## Words of a source -/

/-- The text of a number is a numeral, and that of a name or of a quoted text is not. -/
def Token.Spelt (t : Token) : Prop :=
  (t.kind = .number → isNumeral t.text = true) ∧ (t.kind = .identifier → isNumeral t.text = false)

namespace Token

theorem spelt_ofWord (word : String) : (ofWord word).Spelt := by
  show (kindOf word = .number → _) ∧ (kindOf word = .identifier → _)
  unfold kindOf
  split
  · exact ⟨nofun, nofun⟩
  split
  · next hn => exact ⟨fun _ => hn, nofun⟩
  · next hn =>
    refine ⟨fun h => ?_, fun _ => Bool.eq_false_iff.2 hn⟩
    split at h
    · split at h <;> cases h
    · cases h

theorem Lexeme.spelt {t : Token} (h : Lexeme t) : t.Spelt := by
  rw [h.kind]
  exact spelt_ofWord t.text

theorem spelt_tokenizeSource (source : String) : ∀ t ∈ tokenizeSource source, t.Spelt :=
  fun t ht => (lexeme_of_mem_tokenizeSource source t ht).spelt

end Token

namespace Grammar

theorem Expression.plain {level : Nat} {ts : List Token} {e : Node} {d : Nat}
    (h : Expression level ts e d) (ht : ∀ t ∈ ts, t.Spelt)
    (hn : ∀ x ∈ e.names, ¬LooksTemporary x) : Plain e := by
  induction h with
  | number text => exact .number ((List.forall_mem_singleton.1 ht).1 rfl)
  | quoted hq => exact .quoted ((List.forall_mem_singleton.1 ht).2 rfl) hq
  | name hq =>
    exact .name ((List.forall_mem_singleton.1 ht).2 rfl) hq (hn _ (List.mem_singleton_self _))
  | paren _ ih => exact ih (fun t hm => ht t (by simp [hm])) hn
  | minus _ ih => exact .negate (ih (fun t hm => ht t (by simp [hm])) hn)
  | up _ ih => exact ih ht hn
  | join _ _ _ ihl ihr =>
    refine .binary (ihl (fun t hm => ht t (by simp [hm])) fun x hx => hn x ?_)
      (ihr (fun t hm => ht t (by simp [hm])) fun x hx => hn x ?_)
    · exact List.mem_append_left _ hx
    · exact List.mem_append_right _ hx

mutual

theorem Statement.plain : ∀ {ts : List Token} {s : Node} {d : Nat}, Statement ts s d →
    (∀ t ∈ ts, t.Spelt) → (∀ x ∈ s.names, ¬LooksTemporary x) → PlainStatement s
  | _, _, _, .declaration _ _ he, ht, hn =>
    .assign (he.plain (fun t h => ht t (by simp [h])) fun x h => hn x (List.mem_cons_of_mem _ h))
  | _, _, _, .assignment _ he, ht, hn =>
    .assign (he.plain (fun t h => ht t (by simp [h])) fun x h => hn x (List.mem_cons_of_mem _ h))
  | _, _, _, .exit he, ht, hn => .exit (he.plain (fun t h => ht t (by simp [h])) hn)
  | _, _, _, .ifThen hc hb, ht, hn => by
    obtain ⟨hnc, hnb⟩ := List.forall_mem_append.1 hn
    obtain ⟨hnt, -⟩ := List.forall_mem_append.1 hnb
    exact .branch (hc.plain (fun t h => ht t (by simp [h])) hnc)
      (hb.plain (fun t h => ht t (by simp [h])) hnt) nofun
  | _, _, _, .ifElse hc hb hb', ht, hn => by
    obtain ⟨hnc, hnb⟩ := List.forall_mem_append.1 hn
    obtain ⟨hnt, hne⟩ := List.forall_mem_append.1 hnb
    exact .branch (hc.plain (fun t h => ht t (by simp [h])) hnc)
      (hb.plain (fun t h => ht t (by simp [h])) hnt) (hb'.plain (fun t h => ht t (by simp [h])) hne)
  | _, _, _, .whileLoop hc hb, ht, hn => by
    obtain ⟨hnc, hnb⟩ := List.forall_mem_append.1 hn
    exact .loop (hc.plain (fun t h => ht t (by simp [h])) hnc)
      (hb.plain (fun t h => ht t (by simp [h])) hnb)

theorem Braced.plain : ∀ {ts : List Token} {nodes : List Node} {d : Nat}, Braced ts nodes d →
    (∀ t ∈ ts, t.Spelt) → (∀ x ∈ Node.namesAll nodes, ¬LooksTemporary x) →
    ∀ node ∈ nodes, PlainStatement node
  | _, _, _, .braces h, ht, hn => h.plain (fun t h => ht t (by simp [h])) hn

theorem Statements.plain : ∀ {ts : List Token} {nodes : List Node} {d : Nat},
    Statements ts nodes d → (∀ t ∈ ts, t.Spelt) →
    (∀ x ∈ Node.namesAll nodes, ¬LooksTemporary x) → ∀ node ∈ nodes, PlainStatement node
  | _, _, _, .nil, ht, hn => nofun
  | _, _, _, .cons hs h, ht, hn => by
    obtain ⟨hts, htr⟩ := List.forall_mem_append.1 ht
    obtain ⟨hns, hnr⟩ := List.forall_mem_append.1 hn
    exact List.forall_mem_cons.2 ⟨hs.plain hts hns, h.plain htr hnr⟩

end

theorem Definitions.of_mem {ts : List Token} {fs : List Node} {d : Nat} (h : Definitions ts fs d)
    {f : Node} (hf : f ∈ fs) : ∃ us d', Definition us f d' ∧ us ⊆ ts := by
  induction h with
  | one h =>
    rw [List.mem_singleton] at hf
    subst hf
    exact ⟨_, _, h, List.Subset.refl _⟩
  | cons h _ ih =>
    rcases List.mem_cons.1 hf with rfl | hf
    · exact ⟨_, _, h, List.subset_append_left _ _⟩
    · obtain ⟨us, d', hus, hsub⟩ := ih hf
      exact ⟨us, d', hus, fun t ht => List.mem_append_right _ (hsub ht)⟩

end Grammar

/-! ## The meaning of a function -/

/-- The run of `code` from its first instruction does what `body` does from the store `s`. -/
structure Preserves (m : Domain V) (on : Bool) (body : List Node) (code : List Instruction)
    (temporaries : Nat) (s : Store V) : Prop where
  /-- The run returns the values that the body returns. -/
  returned : ∀ v, Halts m code ⟨0, s⟩ (.finished (.returned v)) ↔
    ExecutesAll m on body s (.returned v)
  /-- Where the run falls off the end, the body ends, with the same values of all names but the
  generated temporaries. -/
  ended : ∀ u, Halts m code ⟨0, s⟩ (.finished (.ended u)) →
    ∃ s', ExecutesAll m on body s (.ended s') ∧ Agree 0 temporaries s' u
  /-- Where the body ends, the run falls off the end. -/
  evaluated : ∀ s', ExecutesAll m on body s (.ended s') →
    ∃ u, Halts m code ⟨0, s⟩ (.finished (.ended u)) ∧ Agree 0 temporaries s' u
  /-- The run stops if and only if the body has an outcome. -/
  halts : (∃ h, Halts m code ⟨0, s⟩ h) ↔ ∃ o, ExecutesAll m on body s o
  /-- The run finds every label. -/
  found : ¬Halts m code ⟨0, s⟩ .lost

/-- An evaluation has its run, from the first instruction to a stop. -/
theorem ExecutesAll.halts {p : Polarity} {body : List Node} {m : Domain V} {s : Store V}
    {o : Outcome V} (h : ExecutesAll m p.stays body s o) (hp : ∀ node ∈ body, PlainStatement node) :
    let e := Node.emitAll (computing p) {} body
    match o with
    | .returned v => Halts m e.code ⟨0, s⟩ (.finished (.returned v))
    | .ended s' => ∃ u, Halts m e.code ⟨0, s⟩ (.finished (.ended u)) ∧
        Agree 0 e.counters.temporaries s' u := by
  intro e
  have hl := ((labelled_rule (computing p)).emitAll body {}).labels
  have hn : (labels e.code).Nodup := hl.nodup_iff.2 (labelNames_nodup _ _)
  have hrun := h.runs hn hp .self (Nat.le_refl _) (.refl s)
  cases o with
  | returned v => exact hrun
  | ended s' =>
    obtain ⟨n, u, hs, ha⟩ := hrun
    exact ⟨u, hs.halts (.of_step (step_past m (List.getElem?_eq_none (by simp [e])))), ha⟩

/-- The code of statements as a source spells them keeps their meaning, under either polarity. -/
theorem preserves_of_plain (p : Polarity) {body : List Node}
    (hp : ∀ node ∈ body, PlainStatement node) (m : Domain V) (s : Store V) :
    Preserves m p.stays body (Node.emitAll (computing p) {} body).code
      (Node.emitAll (computing p) {} body).counters.temporaries s := by
  have hl := ((labelled_rule (computing p)).emitAll body {}).labels
  have hn := hl.nodup_iff.2 (labelNames_nodup _ _)
  -- a run that stops is the run of an evaluation
  have hback : ∀ {h}, Halts m (Node.emitAll (computing p) {} body).code ⟨0, s⟩ h →
      ∃ o, ExecutesAll m p.stays body s o := fun {h} ⟨n, hr⟩ =>
    executesAll_of_run hn n body hp .self (Nat.le_refl _) (.refl s) hr
  refine ⟨fun v => ⟨fun hh => ?_, fun h => h.halts hp⟩, fun u hh => ?_, fun s' h => h.halts hp,
    ⟨fun ⟨h, hh⟩ => hback hh, fun ⟨o, h⟩ => ?_⟩, fun hh => ?_⟩
  · obtain ⟨o, h⟩ := hback hh
    cases o with
    | returned w =>
      cases hh.unique (h.halts hp)
      exact h
    | ended s' =>
      obtain ⟨u, hu, -⟩ := h.halts hp
      cases hh.unique hu
  · obtain ⟨o, h⟩ := hback hh
    cases o with
    | returned w => cases hh.unique (h.halts hp)
    | ended s' =>
      obtain ⟨u', hu, ha⟩ := h.halts hp
      cases hh.unique hu
      exact ⟨s', h, ha⟩
  · cases o with
    | returned w => exact ⟨_, h.halts hp⟩
    | ended s' =>
      obtain ⟨u, hu, -⟩ := h.halts hp
      exact ⟨_, hu⟩
  · obtain ⟨o, h⟩ := hback hh
    cases o with
    | returned w => cases hh.unique (h.halts hp)
    | ended s' =>
      obtain ⟨u, hu, -⟩ := h.halts hp
      cases hh.unique hu

/-- Lowering preserves meaning. -/
theorem code_preserves_meaning {source : String} {P : Program} {f : Node}
    (hP : Program.ofTokens (Token.tokenizeSource source) = .ok P) (hf : f ∈ P.functions)
    (hnames : ∀ x ∈ f.names, ¬LooksTemporary x) (m : Domain V) (s : Store V) :
    Preserves m true f.bodyStatements (f.code ⟨.jumpIfFalse, .recursive⟩)
      (f.emit ⟨.jumpIfFalse, .recursive⟩ {}).counters.temporaries s := by
  obtain ⟨d, hd, -, -⟩ := Program.definitions_of_ofTokens hP
  obtain ⟨us, d', hdef, hus⟩ := hd.of_mem hf
  cases hdef with
  | function _ _ _ hb =>
    refine preserves_of_plain .jumpIfFalse (hb.plain (fun t ht => ?_) fun x hx => ?_) m s
    · exact Token.spelt_tokenizeSource source t (hus (by simp [ht]))
    · exact hnames x (List.mem_append_right _ hx)

/-- The integers, with comparisons as 0 and 1 and every text as 0. -/
def Domain.integers : Domain Int where
  number text := (Nat.ofDigitChars 10 text.toList 0 : Nat)
  text _ := 0
  binary
    | .add, a, b => a + b
    | .sub, a, b => a - b
    | .mul, a, b => a * b
    | .div, a, b => a / b
    | .mod, a, b => a % b
    | .lt, a, b => if a < b then 1 else 0
    | .gt, a, b => if a > b then 1 else 0
  negate a := -a
  truth a := a ≠ 0

/-- A countdown from 2 comes to 0, since its code does. -/
theorem countdown_preserves_meaning :
    let f := Node.function .int "f" [⟨.int, "n"⟩] [.loop (.binary .gt (.var "n") (.literal .int "0"))
      [.assign "n" (.binary .sub (.var "n") (.literal .int "1"))], .exit (.var "n")]
    Program.ofTokens (Token.tokenizeSource "int f(int n) {while (n > 0) {n = n - 1;} return n;}") =
        .ok ⟨[f]⟩ ∧
      (∀ x ∈ f.names, ¬LooksTemporary x) ∧
      Halts .integers (f.code ⟨.jumpIfFalse, .recursive⟩) ⟨0, fun _ => 2⟩
        (.finished (.returned 0)) ∧
      ExecutesAll .integers true f.bodyStatements (fun _ => 2) (.returned 0) := by
  intro f
  have hP : Program.ofTokens
      (Token.tokenizeSource "int f(int n) {while (n > 0) {n = n - 1;} return n;}") =
      .ok ⟨[f]⟩ := rfl
  have hnames : ∀ x ∈ f.names, ¬LooksTemporary x := by
    intro x hx
    have hxn : x = "n" := by simpa [f, Node.names, Node.namesAll] using hx
    rintro ⟨ds, -, -, hd⟩
    rw [hxn] at hd
    cases hd
  have hrun : Halts .integers (f.code ⟨.jumpIfFalse, .recursive⟩) ⟨0, fun _ => 2⟩
      (.finished (.returned 0)) := ⟨30, rfl⟩
  have hf : f ∈ (⟨[f]⟩ : Program).functions := List.mem_singleton_self f
  exact ⟨hP, hnames, hrun, ((code_preserves_meaning hP hf hnames .integers _).returned 0).1 hrun⟩

end ThreeAddress

import ThreeAddress.Proofs.Grammar.Completeness

/-!
# One program after the other

The tokens of a program and then those of another one spell the functions of both
(`ofTokens_append_ok`). If the tokens of the second part are refused, all of them are, at the token
of the second part where it was refused alone (`ofTokens_append_error`).
-/

namespace ThreeAddress

theorem Node.tallestAll_append (fs gs : List Node) :
    tallestAll (fs ++ gs) = max (tallestAll fs) (tallestAll gs) := by
  induction fs with
  | nil => simp [tallestAll]
  | cons f fs ih => rw [List.cons_append, tallestAll, ih, tallestAll, Nat.max_assoc]

namespace Grammar

variable {ts us : List Token} {fs gs : List Node} {d d' : Nat}

theorem Definitions.append (h : Definitions ts fs d) (h' : Definitions us gs d') :
    Definitions (ts ++ us) (fs ++ gs) (max d d') := by
  induction h with
  | one h => exact .cons h h'
  | cons h _ ih =>
    rw [List.append_assoc, List.cons_append, Nat.max_assoc]
    exact .cons h ih

/-- Functions that are spelt are passed, and what is refused after them is refused with them. -/
theorem Definitions.passes (h : Definitions ts fs d) (hus : us ≠ []) : ∀ {n p : Nat},
    Node.tallestAll fs ≤ maxNesting → d ≤ maxNesting → (ts ++ us).length < n →
    ∃ m, us.length < m ∧ ∀ e c, functions m ⟨p + ts.length, 0, us⟩ = .error e c →
      functions n ⟨p, 0, ts ++ us⟩ = .error e c := by
  obtain ⟨t, l, rfl⟩ := List.exists_cons_of_ne_nil hus
  induction h with
  | @one ts f d h =>
    intro n p hm hd hn
    obtain ⟨n, rfl⟩ : ∃ n', n = n' + 1 := ⟨n - 1, by omega⟩
    have hpos : 0 < ts.length := List.length_pos_iff.2 h.ne_nil
    have hf : definition n ⟨p, 0, ts ++ t :: l⟩ = .ok f ⟨p + ts.length, 0, t :: l⟩ :=
      definition_yields h (Nat.max_le.1 hm).1 (by omega) p (t :: l) trivial hn
    rw [List.length_append] at hn
    refine ⟨n, by omega, fun e c he => ?_⟩
    rw [functions, bind_ok hf, peek_bind]
    exact bind_error he
  | @cons ts vs f fs d d' h hs ih =>
    intro n p hm hd hn
    obtain ⟨n, rfl⟩ : ∃ n', n = n' + 1 := ⟨n - 1, by omega⟩
    obtain ⟨hfm, hfsm⟩ := Nat.max_le.1 hm
    have hpos : 0 < ts.length := List.length_pos_iff.2 h.ne_nil
    rw [List.append_assoc] at hn ⊢
    have hf : definition n ⟨p, 0, ts ++ (vs ++ t :: l)⟩ =
        .ok f ⟨p + ts.length, 0, vs ++ t :: l⟩ :=
      definition_yields h hfm (by omega) p (vs ++ t :: l) trivial hn
    rw [List.length_append] at hn
    obtain ⟨m, hlen, hm⟩ := ih (n := n) (p := p + ts.length) hfsm (by omega) (by omega)
    refine ⟨m, hlen, fun e c he => ?_⟩
    rw [List.length_append, ← Nat.add_assoc] at he
    obtain ⟨v, vs', hv⟩ := List.exists_cons_of_ne_nil hs.ne_nil
    have hnext : (vs ++ t :: l).head? = some v := by rw [hv]; rfl
    rw [functions, bind_ok hf, peek_bind]
    simp only [hnext]
    exact bind_error (hm e c he)

end Grammar

open Grammar

namespace Program

variable {ts us : List Token} {P Q : Program} {e : SyntaxError}

theorem ofTokens_append_ok (h : ofTokens ts = .ok P) (h' : ofTokens us = .ok Q) :
    ofTokens (ts ++ us) = .ok ⟨P.functions ++ Q.functions⟩ := by
  obtain ⟨d, hfs, hd, hm⟩ := definitions_of_ofTokens h
  obtain ⟨d', hgs, hd', hm'⟩ := definitions_of_ofTokens h'
  refine (ofTokens_eq_ok_iff _ _).2 ⟨max d d', hfs.append hgs, Nat.max_le.2 ⟨hd, hd'⟩, ?_⟩
  rw [Node.tallestAll_append]
  exact Nat.max_le.2 ⟨hm, hm'⟩

theorem ofTokens_append_error (h : ofTokens ts = .ok P) (hus : us ≠ [])
    (h' : ofTokens us = .error e) :
    ofTokens (ts ++ us) = .error { e with position := e.position + ts.length } := by
  obtain ⟨d, hfs, hd, hm⟩ := definitions_of_ofTokens h
  obtain ⟨m, hlen, hpass⟩ := hfs.passes hus (p := 0) hm hd (Nat.lt_succ_self _)
  have hreads := functions_reads (us.length + 1) m 0 (Nat.zero_le _)
  obtain ⟨used, rest, o, hs, hr, -, hr'⟩ := hreads.run us trivial (Nat.lt_succ_self _)
  have halone := ofTokens_of_functions (p := used.length) ((hr 0).trans (by rw [Nat.zero_add]))
  rw [halone] at h'
  cases o with
  | ok fs => cases h'
  | error cause =>
    cases h'
    subst hs
    have hafter := hpass _ _ (hr' (0 + ts.length) rest rfl hlen)
    rw [ofTokens_of_functions (o := .error cause) hafter]
    show Except.error _ = Except.error _
    congr 2
    show 0 + ts.length + used.length = used.length + ts.length
    rw [Nat.zero_add, Nat.add_comm]

end Program

end ThreeAddress

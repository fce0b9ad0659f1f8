import ThreeAddress.Proofs.Grammar.Soundness

/-!
# Where a refusal points

The main statement is `ofTokens_refusal`. A syntax error reports the first token that does not fit:
the tokens before it are the beginning of a program, unless the error is about nesting, and every
stream with the same tokens up to and including it is refused with the same error.
-/

namespace ThreeAddress

open Grammar

theorem Cause.message_of_isLimit {cause : Cause} (h : cause.IsLimit) :
    cause.message = "Expression nested too deeply" ∨
      cause.message = "Statements nested too deeply" :=
  h.imp (congrArg Cause.message) (congrArg Cause.message)

theorem eq_append_of_take_eq {ts' used l : List Token} {t : Token}
    (h : ts'.take (used.length + 1) = (used ++ t :: l).take (used.length + 1)) :
    ts' = used ++ t :: ts'.drop (used.length + 1) := by
  have ht : (used ++ t :: l).take (used.length + 1) = used ++ [t] := by
    rw [List.take_append, Nat.add_sub_cancel_left, List.take_of_length_le (Nat.le_succ _)]
    rfl
  calc ts' = ts'.take (used.length + 1) ++ ts'.drop (used.length + 1) :=
        (List.take_append_drop ..).symm
    _ = used ++ t :: ts'.drop (used.length + 1) := by rw [h, ht, List.append_assoc]; rfl

/-- A refused stream in two parts, and what is refused with it. -/
theorem Program.split_of_refusal {ts : List Token} {e : SyntaxError}
    (h : Program.ofTokens ts = .error e) (ts' : List Token) :
    ∃ used rest, ts = used ++ rest ∧ e.position = used.length ∧
      e.found = rest.head?.map Token.text ∧
      (e.cause.IsLimit ∨ ∃ more fs d, Definitions (used ++ more) fs d) ∧
      ∀ rest', ts' = used ++ rest' → rest'.head? = rest.head? →
        Program.ofTokens ts' = .error e := by
  obtain ⟨used, rest, o, hs, hr, hg, hr'⟩ := ofTokens_run ts ts'
  rw [hr] at h
  cases o with
  | ok fs => cases h
  | error cause =>
    cases h
    exact ⟨used, rest, hs, rfl, rfl, hg, hr'⟩

theorem Program.ofTokens_refusal {ts : List Token} {e : SyntaxError}
    (h : Program.ofTokens ts = .error e) :
    e.position ≤ ts.length ∧
    e.found = (ts[e.position]?).map Token.text ∧
    (e.found = none ↔ e.position = ts.length) ∧
    (e.position < ts.length → ∀ ts', ts'.take (e.position + 1) = ts.take (e.position + 1) →
      Program.ofTokens ts' = .error e) ∧
    (e.cause.message ≠ "Expression nested too deeply" →
      e.cause.message ≠ "Statements nested too deeply" →
      ∃ more fs d, Definitions (ts.take e.position ++ more) fs d) := by
  obtain ⟨used, rest, rfl, hp, hf, hg, -⟩ := split_of_refusal h ts
  have hle : e.position ≤ (used ++ rest).length := by
    rw [List.length_append]
    omega
  have hfound : e.found = ((used ++ rest)[e.position]?).map Token.text := by
    rw [hf, hp, List.getElem?_append_right (Nat.le_refl _), Nat.sub_self, List.head?_eq_getElem?]
  refine ⟨hle, hfound, ?_, fun hlt ts' hts' => ?_, fun he hs => ?_⟩
  · rw [hfound, Option.map_eq_none_iff, List.getElem?_eq_none_iff]
    omega
  · obtain ⟨vs, l, hvs, hpv, -, -, hr⟩ := split_of_refusal h ts'
    rw [hvs, hpv] at hts' hlt
    cases l with
    | nil => simp at hlt
    | cons t l => exact hr _ (eq_append_of_take_eq hts') rfl
  · rcases hg with hlimit | hg
    · rcases Cause.message_of_isLimit hlimit with hm | hm
      · exact absurd hm he
      · exact absurd hm hs
    · rwa [hp, List.take_left' rfl]

/-- `int f;` is refused at its third token for want of a parenthesis. -/
theorem Program.ofTokens_refusal_third :
    let ts := [Token.ofKeyword "int", Token.ofText "f", Token.ofSymbol ';']
    let e : SyntaxError := ⟨.noSymbol '(' .afterFunctionName, 2, some ";"⟩
    Program.ofTokens ts = .error e ∧
      (∀ ts', ts'.take 3 = ts → Program.ofTokens ts' = .error e) ∧
      ∃ more fs d, Definitions (ts.take 2 ++ more) fs d := by
  intro ts e
  have h : Program.ofTokens ts = .error e := rfl
  obtain ⟨-, -, -, hsame, hviable⟩ := ofTokens_refusal h
  refine ⟨h, hsame (by decide), hviable ?_ ?_⟩
  · decide
  · decide

end ThreeAddress

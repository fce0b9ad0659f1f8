import ThreeAddress.Proofs.Code.Renumbering
import ThreeAddress.Proofs.Grammar.Sequences
import ThreeAddress.Proofs.Inventory.Scopes
import ThreeAddress.Proofs.Token.Lines

/-!
# One source after the other

Nothing of one function goes over into the next but the counters of the code and the tables of the
inventory. So a source that compiles can stand before any other one: the products are joined
(`Compilation.Joins`), or the error is that of the second source, later by the tokens of the first
(`Compilation.of_joined_sources`).
-/

namespace ThreeAddress.Compilation

open Code

/-- The products of two sources, one after the other. -/
structure Joins (c₁ c₂ c : Compilation) : Prop where
  tokens : c.tokens = c₁.tokens ++ c₂.tokens
  functions : c.program.functions = c₁.program.functions ++ c₂.program.functions
  /-- The rows of the function table. -/
  declared : c.inventory.functions.toList =
    c₁.inventory.functions.toList ++ c₂.inventory.functions.toList
  /-- The rows of the symbol table, if no scope of the first source is one of the second. -/
  symbols : (∀ name ∈ c₁.program.functionNames, name ∉ c₂.program.functionNames) →
    c.inventory.symbols.toList = c₁.inventory.symbols.toList ++ c₂.inventory.symbols.toList
  /-- The code, if the second source names nothing like a temporary: its labels and temporaries are
  numbered after those of the first. -/
  code : (∀ x ∈ c₂.program.names, ¬LooksTemporary x) →
    c.code = c₁.code ++ c₂.code.map
      (Instruction.raised ⟨(computed c₁.code).length, (labels c₁.code).length⟩)

/-- A source after one that compiles compiles if it does so by itself, to the products of both. If
it is refused, then both are, at the same token and for the same cause. -/
theorem of_joined_sources {s₁ s₂ : String} {o : Options} {c₁ : Compilation}
    (h₁ : ofSource s₁ o = .ok c₁) :
    (∀ c₂, ofSource s₂ o = .ok c₂ →
      ∃ c, ofSource (s₁ ++ "\n" ++ s₂) o = .ok c ∧ Joins c₁ c₂ c) ∧
    (∀ f, ofSource s₂ o = .error f → Token.tokenizeSource s₂ ≠ [] →
      ofSource (s₁ ++ "\n" ++ s₂) o = .error
        ⟨c₁.tokens ++ f.tokens,
          { f.error with position := f.error.position + c₁.tokens.length }⟩) := by
  obtain ⟨P, hP, rfl⟩ := ofSource_eq_ok_iff.1 h₁
  constructor
  · intro c₂ h₂
    obtain ⟨Q, hQ, rfl⟩ := ofSource_eq_ok_iff.1 h₂
    refine ⟨_, ofSource_eq_ok_iff.2 ⟨⟨P.functions ++ Q.functions⟩, ?_, rfl⟩, ?_⟩
    · rw [Token.tokenizeSource_append]
      exact Program.ofTokens_append_ok hP hQ
    · exact {
        tokens := Token.tokenizeSource_append s₁ s₂
        functions := rfl
        declared := Program.functions_append
        symbols := Program.symbols_append hP hQ
        code := Program.code_append o hQ }
  · intro f h₂ hne
    obtain ⟨herror, htokens⟩ := ofSource_eq_error_iff.1 h₂
    refine ofSource_eq_error_iff.2 ⟨?_, ?_⟩
    · rw [Token.tokenizeSource_append]
      exact Program.ofTokens_append_error hP hne herror
    · rw [Token.tokenizeSource_append, htokens]

/-- A loop and then a branch: the branch takes the labels 3 and 4. Where the second source breaks
off, both do. -/
theorem of_joined_loop_branch :
    let s₁ := "int f(int n) \x7b while (n > 0) \x7b n = n - 1; \x7d return n; \x7d"
    let s₂ := "int g(int a) \x7b if (a < 2) \x7b a = 2 * a; \x7d return a; \x7d"
    ∃ c₁ c₂ c, ofSource s₁ {} = .ok c₁ ∧ ofSource s₂ {} = .ok c₂ ∧
      ofSource (s₁ ++ "\n" ++ s₂) {} = .ok c ∧
      c.inventory.symbols.toList = [⟨"n", .unknown, "f"⟩, ⟨"a", .unknown, "g"⟩] ∧
      c.code = c₁.code ++
        [⟨"<", "a", "2", "t3"⟩, ⟨"ifFalse", "t3", "goto", "L3"⟩, ⟨"*", "2", "a", "t4"⟩,
          .assign "t4" "a", .goto "L4", .label "L3", .label "L4", .exit "a"] ∧
      ofSource (s₁ ++ "\n" ++ "int g(") {} = .error
        ⟨c₁.tokens ++ Token.tokenizeSource "int g(",
          ⟨.noSymbol ')' .afterParameters, 3 + c₁.tokens.length, none⟩⟩ := by
  intro s₁ s₂
  have hP : Program.ofTokens (Token.tokenizeSource
      "int f(int n) \x7b while (n > 0) \x7b n = n - 1; \x7d return n; \x7d") =
      .ok ⟨[.function .int "f" [⟨.int, "n"⟩]
        [.loop (.binary .gt (.var "n") (.literal .int "0"))
          [.assign "n" (.binary .sub (.var "n") (.literal .int "1"))], .exit (.var "n")]]⟩ := rfl
  have hQ : Program.ofTokens (Token.tokenizeSource
      "int g(int a) \x7b if (a < 2) \x7b a = 2 * a; \x7d return a; \x7d") =
      .ok ⟨[.function .int "g" [⟨.int, "a"⟩]
        [.branch (.binary .lt (.var "a") (.literal .int "2"))
          [.assign "a" (.binary .mul (.literal .int "2") (.var "a"))] [], .exit (.var "a")]]⟩ := rfl
  have hR : Program.ofTokens (Token.tokenizeSource "int g(") =
      .error ⟨.noSymbol ')' .afterParameters, 3, none⟩ := rfl
  have h₁ : ofSource s₁ {} = .ok _ := ofSource_eq_ok_iff.2 ⟨_, hP, rfl⟩
  have h₂ : ofSource s₂ {} = .ok _ := ofSource_eq_ok_iff.2 ⟨_, hQ, rfl⟩
  have h₃ : ofSource "int g(" {} = .error ⟨Token.tokenizeSource "int g(", _⟩ :=
    ofSource_eq_error_iff.2 ⟨hR, rfl⟩
  obtain ⟨c, hc, hjoins⟩ := (of_joined_sources h₁).1 _ h₂
  refine ⟨_, _, c, h₁, h₂, hc, ?_, ?_, (of_joined_sources h₁).2 _ h₃ (by decide)⟩
  · rw [hjoins.symbols (by decide), (Program.inventory_tables _).1, (Program.inventory_tables _).1,
      SymbolTable.toList_ofRecords, SymbolTable.toList_ofRecords]
    rfl
  · rw [hjoins.code, List.append_cancel_left_eq]
    · decide +kernel
    · intro x hx
      have hxa : x = "a" := by simpa [Program.names, Node.names, Node.namesAll] using hx
      rintro ⟨ds, -, -, hd⟩
      rw [hxa] at hd
      cases hd

end ThreeAddress.Compilation

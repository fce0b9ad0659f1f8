import ThreeAddress.Proofs.Grammar.Completeness
import ThreeAddress.Proofs.Inventory.Declarations

/-!
# Scopes of a program

What a program declares stands in the scopes of its functions (`Definitions.scope_mem`): the
grammar puts no function inside another one, and the bodies of branches and loops are no scopes. So
the symbols of two programs with different function names do not meet
(`Program.symbols_append`).
-/

namespace ThreeAddress

open Grammar

namespace Node

/-- The name of a function definition. -/
def functionName? : Node → Option String
  | .function _ name _ _ => some name
  | _ => none

theorem recordsAll_append (scope : String) (fs gs : List Node) :
    recordsAll scope (fs ++ gs) = recordsAll scope fs ++ recordsAll scope gs := by
  induction fs with
  | nil => rfl
  | cons f fs ih => rw [List.cons_append, recordsAll, recordsAll, ih, List.append_assoc]

theorem definedFunctionsAll_append (fs gs : List Node) :
    definedFunctionsAll (fs ++ gs) = definedFunctionsAll fs ++ definedFunctionsAll gs := by
  induction fs with
  | nil => rfl
  | cons f fs ih =>
    rw [List.cons_append, definedFunctionsAll, definedFunctionsAll, ih, List.append_assoc]

end Node

/-- The names of the functions of a program, in source order. -/
def Program.functionNames (P : Program) : List String :=
  P.functions.filterMap Node.functionName?

namespace Grammar

theorem Expression.records_eq {level : Nat} {ts : List Token} {e : Node} {d : Nat}
    (h : Expression level ts e d) (scope : String) : e.records scope = [] := by
  induction h with
  | paren _ ih => exact ih
  | up _ ih => exact ih
  | number | quoted | name | minus | join => rfl

mutual

/-- The records of a statement stand in the scope of the statement. -/
theorem Statement.scope_eq : ∀ {ts : List Token} {s : Node} {d : Nat}, Statement ts s d →
    ∀ {scope : String}, ∀ r ∈ s.records scope, r.scope = scope
  | _, _, _, .declaration .., scope, r, hr => by
    rw [Node.records_assign] at hr
    rw [List.mem_singleton.1 hr]
  | _, _, _, .assignment .., scope, r, hr => by
    rw [Node.records_assign] at hr
    rw [List.mem_singleton.1 hr]
  | _, _, _, .exit he, scope, r, hr => by
    rw [Node.records, he.records_eq] at hr
    cases hr
  | _, _, _, .ifThen hc ht, scope, r, hr => by
    rw [Node.records, hc.records_eq] at hr
    exact ht.scope_eq r (by simpa [Node.recordsAll] using hr)
  | _, _, _, .ifElse hc ht he, scope, r, hr => by
    rw [Node.records, hc.records_eq] at hr
    rcases List.mem_append.1 hr with hr | hr
    · exact ht.scope_eq r hr
    · exact he.scope_eq r hr
  | _, _, _, .whileLoop hc hb, scope, r, hr => by
    rw [Node.records, hc.records_eq] at hr
    exact hb.scope_eq r hr

theorem Braced.scope_eq : ∀ {ts : List Token} {nodes : List Node} {d : Nat}, Braced ts nodes d →
    ∀ {scope : String}, ∀ r ∈ Node.recordsAll scope nodes, r.scope = scope
  | _, _, _, .braces h, _, r, hr => h.scope_eq r hr

theorem Statements.scope_eq : ∀ {ts : List Token} {nodes : List Node} {d : Nat},
    Statements ts nodes d → ∀ {scope : String}, ∀ r ∈ Node.recordsAll scope nodes, r.scope = scope
  | _, _, _, .nil, _, r, hr => by cases hr
  | _, _, _, .cons hs hn, _, r, hr => by
    rcases List.mem_append.1 hr with hr | hr
    · exact hs.scope_eq r hr
    · exact hn.scope_eq r hr

end

variable {ts : List Token} {f : Node} {fs : List Node} {d : Nat}

theorem Definition.scope_mem (h : Definition ts f d) {r : Symbol}
    (hr : r ∈ f.records globalScope) : f.functionName? = some r.scope := by
  cases h with
  | function _ _ _ hb =>
    rcases List.mem_append.1 hr with hr | hr
    · obtain ⟨p, -, rfl⟩ := List.mem_map.1 hr
      rfl
    · rw [hb.scope_eq r hr]
      rfl

/-- The records of functions stand in the scopes of these functions. -/
theorem Definitions.scope_mem (h : Definitions ts fs d) {r : Symbol}
    (hr : r ∈ Node.recordsAll globalScope fs) : r.scope ∈ fs.filterMap Node.functionName? := by
  induction h with
  | one h =>
    rw [Node.recordsAll, Node.recordsAll, List.append_nil] at hr
    exact List.mem_filterMap.2 ⟨_, List.mem_singleton_self _, h.scope_mem hr⟩
  | cons h _ ih =>
    rcases List.mem_append.1 hr with hr | hr
    · exact List.mem_filterMap.2 ⟨_, List.mem_cons_self, h.scope_mem hr⟩
    · exact List.mem_filterMap.2 (by
        obtain ⟨g, hg, hname⟩ := List.mem_filterMap.1 (ih hr)
        exact ⟨g, List.mem_cons_of_mem _ hg, hname⟩)

end Grammar

namespace Program

theorem inventory_tables (P : Program) :
    P.inventory.symbols = SymbolTable.ofRecords P.records ∧
      P.inventory.functions.toList = Node.definedFunctionsAll P.functions :=
  (Inventory.adds_visitAll P.functions globalScope {}).tables

variable {P Q : Program}

theorem functions_append :
    (⟨P.functions ++ Q.functions⟩ : Program).inventory.functions.toList =
      P.inventory.functions.toList ++ Q.inventory.functions.toList := by
  rw [(inventory_tables _).2, (inventory_tables P).2, (inventory_tables Q).2,
    Node.definedFunctionsAll_append]

theorem symbols_append {ts us : List Token} (hP : ofTokens ts = .ok P) (hQ : ofTokens us = .ok Q)
    (hnames : ∀ name ∈ P.functionNames, name ∉ Q.functionNames) :
    (⟨P.functions ++ Q.functions⟩ : Program).inventory.symbols.toList =
      P.inventory.symbols.toList ++ Q.inventory.symbols.toList := by
  obtain ⟨d, hfs, -, -⟩ := definitions_of_ofTokens hP
  obtain ⟨d', hgs, -, -⟩ := definitions_of_ofTokens hQ
  have hrecords : (⟨P.functions ++ Q.functions⟩ : Program).records = P.records ++ Q.records :=
    Node.recordsAll_append globalScope P.functions Q.functions
  rw [(inventory_tables _).1, (inventory_tables P).1, (inventory_tables Q).1, hrecords,
    SymbolTable.toList_ofRecords, SymbolTable.toList_ofRecords, SymbolTable.toList_ofRecords]
  refine rowsOf_append fun key hkey hkey' => ?_
  obtain ⟨r, hr, rfl⟩ := List.mem_map.1 hkey
  obtain ⟨r', hr', hkeys⟩ := List.mem_map.1 hkey'
  have hscope : r'.scope = r.scope := congrArg Prod.snd hkeys
  exact hnames r.scope (hfs.scope_mem hr) (hscope ▸ hgs.scope_mem hr')

end Program

end ThreeAddress

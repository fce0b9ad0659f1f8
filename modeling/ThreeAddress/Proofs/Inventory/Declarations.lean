import ThreeAddress.Inventory.Events
import ThreeAddress.Proofs.Inventory.Tables

/-!
# The inventory of trees

A walk over a tree adds to the tables what the tree declares: `Adds` says that the symbol table
went through some records and that the function table got some rows, and `adds_visit` that these
are the records and the definitions of the tree.

So the inventory of any nodes, visited one after the other, can be read off the list of their
records (`inventory_lists_declarations`).
-/

namespace ThreeAddress

open SymbolTable

namespace Inventory

/-- The walk from `inv` to `inv'` made some records and defined some functions. -/
structure Adds (inv : Inventory) (records : List Symbol) (defined : List FunctionRow)
    (inv' : Inventory) : Prop where
  symbols : inv'.symbols = records.foldl recordRow inv.symbols
  functions : inv'.functions.toList = inv.functions.toList ++ defined

namespace Adds

variable {inv inv₁ inv₂ : Inventory} {as bs : List Symbol} {fs gs : List FunctionRow}

theorem refl (inv : Inventory) : Adds inv [] [] inv :=
  ⟨rfl, (List.append_nil _).symm⟩

theorem trans (h : Adds inv as fs inv₁) (h' : Adds inv₁ bs gs inv₂) :
    Adds inv (as ++ bs) (fs ++ gs) inv₂ :=
  ⟨by rw [h'.symbols, h.symbols, List.foldl_append],
    by rw [h'.functions, h.functions, List.append_assoc]⟩

theorem record (inv : Inventory) (name : String) (ty : Ty) (scope : String) :
    Adds inv [⟨name, ty, scope⟩] [] (inv.record name ty scope) :=
  ⟨rfl, (List.append_nil _).symm⟩

theorem addFunction (inv : Inventory) (name : String) (returns : Ty) :
    Adds inv [] [⟨name, returns⟩] (inv.addFunction name returns) :=
  ⟨rfl, by simp [Inventory.addFunction, FunctionTable.toList, FunctionTable.push]⟩

theorem params (inv : Inventory) (scope : String) (ps : List Param) :
    Adds inv (ps.map fun p => ⟨p.name, .unknown, scope⟩) [] (inv.recordParams scope ps) := by
  induction ps generalizing inv with
  | nil => exact refl inv
  | cons p ps ih => exact (record inv p.name .unknown scope).trans (ih _)

end Adds

mutual

/-- A walk over a node makes the records of the node and defines its functions. -/
theorem adds_visit : ∀ (node : Node) (scope : String) (inv : Inventory),
    Adds inv (node.records scope) node.definedFunctions (visit scope inv node)
  | .function returns name params body, scope, inv => by
    have hbody := (Adds.params inv name params).trans (adds_visitAll body name _)
    have hrow := hbody.trans (.addFunction _ name returns)
    rwa [List.append_nil] at hrow
  | .assign target value, scope, inv => by
    rw [Node.records_assign]
    exact .record inv target value.valueTy scope
  | .exit value, scope, inv => adds_visit value scope inv
  | .branch condition thenBody elseBody, scope, inv =>
    ((adds_visit condition scope inv).trans (adds_visitAll thenBody scope _)).trans
      (adds_visitAll elseBody scope _)
  | .loop condition body, scope, inv =>
    (adds_visit condition scope inv).trans (adds_visitAll body scope _)
  | .binary .., _, inv => .refl inv
  | .negate _, _, inv => .refl inv
  | .literal .., _, inv => .refl inv
  | .var _, _, inv => .refl inv

theorem adds_visitAll : ∀ (nodes : List Node) (scope : String) (inv : Inventory),
    Adds inv (Node.recordsAll scope nodes) (Node.definedFunctionsAll nodes)
      (visitAll scope inv nodes)
  | [], _, inv => .refl inv
  | node :: rest, scope, inv => (adds_visit node scope inv).trans (adds_visitAll rest scope _)

end

/-- The inventory of nodes that are visited one after the other, each in a scope. -/
def ofVisits (visits : List (String × Node)) : Inventory :=
  visits.foldl (fun inv v => visit v.1 inv v.2) {}

theorem adds_visits (visits : List (String × Node)) (inv : Inventory) :
    Adds inv (visits.flatMap fun v => v.2.records v.1)
      (visits.flatMap fun v => v.2.definedFunctions)
      (visits.foldl (fun inv v => visit v.1 inv v.2) inv) := by
  induction visits generalizing inv with
  | nil => exact .refl inv
  | cons v visits ih => exact (adds_visit v.2 v.1 inv).trans (ih _)

/-- The tables that a walk leaves from empty ones. -/
theorem Adds.tables {records : List Symbol} {defined : List FunctionRow} {inv : Inventory}
    (h : Adds {} records defined inv) :
    inv.symbols = SymbolTable.ofRecords records ∧ inv.functions.toList = defined :=
  ⟨h.symbols, h.functions⟩

/-- The inventory of any nodes, visited in any scopes. The symbol table has one row for each name
and scope that is recorded, in the order of the first records and with the type of the last one;
the function table has a row for each definition that is visited, in the order in which their
bodies end. -/
theorem inventory_lists_declarations (visits : List (String × Node)) :
    let inv := ofVisits visits
    let records := visits.flatMap fun v => v.2.records v.1
    inv.symbols.keys = (records.map Symbol.key).eraseDups ∧
    (∀ row ∈ inv.symbols.toList, lastRecord? records row.key = some row) ∧
    inv.functions.toList = visits.flatMap fun v => v.2.definedFunctions := by
  intro inv records
  obtain ⟨hsymbols, hfunctions⟩ := (adds_visits visits {}).tables
  have hrows : inv.symbols.toList = rowsOf records := by
    rw [← SymbolTable.toList_ofRecords, ← hsymbols]
    rfl
  refine ⟨?_, fun row hrow => ?_, hfunctions⟩
  · rw [SymbolTable.keys, hrows, map_key_rowsOf]
  · rw [hrows] at hrow
    exact mem_rowsOf.1 hrow

end Inventory

end ThreeAddress

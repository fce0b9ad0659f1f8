import ThreeAddress.Compilation
import ThreeAddress.Proofs.Code.Meaning
import ThreeAddress.Proofs.Inventory.Scopes

/-!
# Assignments in the code and in the inventory

The walk that fills the tables and the lowering to code go over a tree each by itself, and under the
older polarity the code of a branch has the bodies the other way round. Both meet the same
assignments: `Statement.assigns` says that the code of a statement assigns the variables that the
walk over it records, and under the standard polarity in the order of the walk. For a whole source,
this is `assignments_agree`.
-/

namespace ThreeAddress

/-! ## The variables that a code assigns -/

/-- The variable that an assignment gives a value. -/
def Instruction.assigned? (i : Instruction) : Option String :=
  if i.op = "=" then some i.result else none

namespace Instruction

@[simp] theorem assigned?_assign (value target : String) :
    (assign value target).assigned? = some target := rfl

@[simp] theorem assigned?_goto (name : String) : (goto name).assigned? = none := rfl

@[simp] theorem assigned?_exit (value : String) : (exit value).assigned? = none := rfl

@[simp] theorem assigned?_jump (p : Polarity) (c name : String) :
    (p.jump c name).assigned? = none := by
  cases p <;> rfl

@[simp] theorem assigned?_operator (op : Operator) (x y z : String) :
    assigned? ⟨op.symbol, x, y, z⟩ = none := by
  cases op <;> rfl

@[simp] theorem assigned?_minus (x y z : String) : assigned? ⟨"minus", x, y, z⟩ = none := rfl

@[simp] theorem assigned?_label (name : String) : (label name).assigned? = none := by
  have h : (label name).op ≠ "=" := by
    intro h
    have hl := isLabel_label name
    simp [isLabel, h] at hl
  simp [assigned?, h]

end Instruction

namespace Code

/-- The variables that the assignments of the code give values to, in code order. -/
def assigned (code : List Instruction) : List String :=
  code.filterMap Instruction.assigned?

@[simp] theorem assigned_nil : assigned [] = [] := rfl

@[simp] theorem assigned_append (a b : List Instruction) :
    assigned (a ++ b) = assigned a ++ assigned b := List.filterMap_append

@[simp] theorem assigned_cons (i : Instruction) (code : List Instruction) :
    assigned (i :: code) = i.assigned?.toList ++ assigned code := by
  unfold assigned
  cases h : i.assigned? with
  | none => rw [List.filterMap_cons_none h]; rfl
  | some x => rw [List.filterMap_cons_some h]; rfl

/-- An operand is computed without an assignment. -/
theorem assigned_operand (used : Nat) (node : Node) : assigned (node.operand used).code = [] := by
  fun_induction Node.operand used node with
  | case3 used op left right l r t hl hr => simp [l, r, hl, hr]
  | case4 used value v t hv => simp [v, hv]
  | _ => rfl

@[simp] theorem assigned_resolve (r : Resolution) (used : Nat) (node : Node) :
    assigned (node.resolve r used).code = [] := by
  cases r with
  | recursive => exact assigned_operand used node
  | literalOnly => cases node <;> rfl

end Code

open Code

/-- The code assigns the variables `xs`, each as often as it is listed, and under the standard
polarity in the order of the list. -/
structure Assigns (p : Polarity) (code : List Instruction) (xs : List String) : Prop where
  perm : (assigned code).Perm xs
  inOrder : p = .jumpIfFalse → assigned code = xs

namespace Assigns

variable {p : Polarity} {a b : List Instruction} {xs ys : List String}

theorem of_eq (h : assigned a = xs) : Assigns p a xs := ⟨h ▸ .refl _, fun _ => h⟩

theorem append (ha : Assigns p a xs) (hb : Assigns p b ys) : Assigns p (a ++ b) (xs ++ ys) := by
  refine ⟨?_, fun hp => ?_⟩
  · rw [assigned_append]
    exact ha.perm.append hb.perm
  · rw [assigned_append, ha.inOrder hp, hb.inOrder hp]

/-- The bodies of a branch stand in the code as the polarity lays them out. -/
theorem branch {v : Operand} {j l : Nat} {f g : Emitted} (hv : assigned v.code = [])
    (hf : Assigns p f.code (p.fallen xs ys)) (hg : Assigns p g.code (p.jumped xs ys)) :
    Assigns p (Emitted.branch p v j l f g).code (xs ++ ys) := by
  have hcode : assigned (Emitted.branch p v j l f g).code = assigned (f.code ++ g.code) := by
    simp [Emitted.branch, hv]
  have hregions := hf.append hg
  cases p with
  | jumpIfFalse => exact .of_eq (hcode.trans (hregions.inOrder rfl))
  | jumpIfTrue => exact ⟨hcode ▸ hregions.perm.trans List.perm_append_comm, by simp⟩

theorem loop {v : Operand} {j l : Nat} {f : Emitted} (hv : assigned v.code = [])
    (hf : Assigns p f.code xs) : Assigns p (Emitted.loop p v j l f).code xs := by
  have hcode : assigned (Emitted.loop p v j l f).code = assigned f.code := by
    simp [Emitted.loop, hv]
  exact ⟨hcode ▸ hf.perm, fun hp => hcode.trans (hf.inOrder hp)⟩

end Assigns

/-! ## Statements -/

namespace Grammar

/-- The code of a branch, if that of its bodies assigns what they record. -/
theorem assigns_branch {o : Options} (c : Node) {t e : List Node} {xs ys : List String}
    (ht : ∀ k, Assigns o.polarity (Node.emitAll o k t).code xs)
    (he : ∀ k, Assigns o.polarity (Node.emitAll o k e).code ys) (k : Counters) :
    Assigns o.polarity ((Node.branch c t e).emit o k).code (xs ++ ys) := by
  have hf := o.polarity.fallen_of (R := fun body xs => ∀ k,
    Assigns o.polarity (Node.emitAll o k body).code xs) ht he
  have hj := o.polarity.jumped_of (R := fun body xs => ∀ k,
    Assigns o.polarity (Node.emitAll o k body).code xs) ht he
  rw [Node.emit_branch]
  exact .branch (assigned_resolve ..) (hf _) (hj _)

mutual

/-- The code of a statement assigns what the walk over the statement records. -/
theorem Statement.assigns (o : Options) (scope : String) : ∀ {ts : List Token} {s : Node} {d : Nat},
    Statement ts s d → ∀ k, Assigns o.polarity (s.emit o k).code ((s.records scope).map Symbol.name)
  | _, _, _, .declaration .., k => .of_eq (by simp [Node.emit])
  | _, _, _, .assignment .., k => .of_eq (by simp [Node.emit])
  | _, _, _, .exit he, k => .of_eq (by simp [Node.emit, Node.records, he.records_eq])
  | _, .branch c t [], _, .ifThen hc ht, k => by
    have he : ∀ k, Assigns o.polarity (Node.emitAll o k []).code [] := fun k => .of_eq rfl
    have hbranch := assigns_branch c (ht.assigns o scope) he k
    simpa [Node.records, Node.recordsAll, hc.records_eq] using hbranch
  | _, .branch c t e, _, .ifElse hc ht he, k => by
    have hbranch := assigns_branch c (ht.assigns o scope) (he.assigns o scope) k
    simpa [Node.records, hc.records_eq] using hbranch
  | _, _, _, .whileLoop hc hb, k => by
    rw [Node.records, hc.records_eq, List.nil_append]
    exact .loop (assigned_resolve ..) (hb.assigns o scope _)

theorem Braced.assigns (o : Options) (scope : String) : ∀ {ts : List Token} {nodes : List Node}
    {d : Nat}, Braced ts nodes d → ∀ k, Assigns o.polarity (Node.emitAll o k nodes).code
      ((Node.recordsAll scope nodes).map Symbol.name)
  | _, _, _, .braces h, k => h.assigns o scope k

theorem Statements.assigns (o : Options) (scope : String) : ∀ {ts : List Token} {nodes : List Node}
    {d : Nat}, Statements ts nodes d → ∀ k, Assigns o.polarity (Node.emitAll o k nodes).code
      ((Node.recordsAll scope nodes).map Symbol.name)
  | _, _, _, .nil, k => .of_eq rfl
  | _, _, _, .cons hs hn, k => by
    rw [Node.recordsAll, List.map_append]
    exact (hs.assigns o scope k).append (hn.assigns o scope _)

end

end Grammar

/-! ## Definitions -/

namespace Node

def parameters : Node → List Param
  | .function _ _ params _ => params
  | _ => []

/-- What the walk over a function definition records in its body. -/
def bodyRecords : Node → List Symbol
  | .function _ name _ body => recordsAll name body
  | _ => []

end Node

namespace Grammar

variable {ts : List Token} {f : Node} {d : Nat}

theorem Definition.records_eq (h : Definition ts f d) : ∃ name, f.functionName? = some name ∧
    f.records globalScope =
      f.parameters.map (fun p => ⟨p.name, .unknown, name⟩) ++ f.bodyRecords := by
  cases h
  exact ⟨_, rfl, rfl⟩

theorem Definition.assigns (h : Definition ts f d) (o : Options) :
    Assigns o.polarity (f.code o) (f.bodyRecords.map Symbol.name) := by
  cases h with
  | function _ _ _ hb => exact hb.assigns o _ {}

/-- A definition records its parameters and the variables that its code assigns, in the scope of its
own name. -/
theorem Definition.mem_keys (h : Definition ts f d) (o : Options) {x scope : String} :
    (x, scope) ∈ (f.records globalScope).map Symbol.key ↔ f.functionName? = some scope ∧
      (x ∈ f.parameters.map Param.name ∨ x ∈ Code.assigned (f.code o)) := by
  obtain ⟨name, hname, hrecords⟩ := h.records_eq
  have hbody : f.bodyRecords.map Symbol.key = (f.bodyRecords.map Symbol.name).map (·, name) := by
    rw [List.map_map]
    refine List.map_congr_left fun r hr => ?_
    have hscope := h.scope_mem (hrecords ▸ List.mem_append_right _ hr)
    rw [hname, Option.some.injEq] at hscope
    simp [Symbol.key, hscope]
  have hkeys : (f.records globalScope).map Symbol.key =
      (f.parameters.map Param.name ++ f.bodyRecords.map Symbol.name).map (·, name) := by
    rw [hrecords, List.map_append, hbody, List.map_append, List.map_map, List.map_map]
    simp [Symbol.key]
  rw [hkeys, hname, (h.assigns o).perm.mem_iff, ← List.mem_append, List.mem_map, Option.some.injEq]
  constructor
  · rintro ⟨y, hy, hpair⟩
    cases hpair
    exact ⟨rfl, hy⟩
  · rintro ⟨rfl, hx⟩
    exact ⟨x, hx, rfl⟩

theorem Definitions.mem_keys {fs : List Node} (h : Definitions ts fs d) (o : Options)
    {x scope : String} : (x, scope) ∈ (Node.recordsAll globalScope fs).map Symbol.key ↔
      ∃ f ∈ fs, f.functionName? = some scope ∧
        (x ∈ f.parameters.map Param.name ∨ x ∈ Code.assigned (f.code o)) := by
  induction h with
  | one h => simp only [Node.recordsAll, List.append_nil, h.mem_keys o, List.mem_singleton,
      exists_eq_left]
  | cons h _ ih => simp only [Node.recordsAll, List.map_append, List.mem_append, h.mem_keys o, ih,
      List.mem_cons, exists_eq_or_imp]

end Grammar

/-! ## Sources -/

/-- A function whose code assigns what the walk over it records. -/
structure SameAssignments (o : Options) (f : Node) : Prop where
  /-- The walk records the parameters and then the assignments of the body, whatever the tables
  hold before it. -/
  walk : ∃ name, f.functionName? = some name ∧ ∀ inv : Inventory,
    (Inventory.visit globalScope inv f).symbols =
      (f.parameters.map (fun p => (⟨p.name, .unknown, name⟩ : Symbol)) ++ f.bodyRecords).foldl
        SymbolTable.recordRow inv.symbols
  inOrder : o.polarity = .jumpIfFalse → assigned (f.code o) = f.bodyRecords.map Symbol.name

/-- The inventory and the code see the same assignments. The table has a row for a variable in a
scope exactly if the variable is a parameter of a function of that name or assigned by the code of
one, under any options; and under the standard polarity the code of each function assigns its
variables in the order in which they are recorded. -/
theorem assignments_agree {source : String} {o : Options} {c : Compilation}
    (h : Compilation.ofSource source o = .ok c) (o' : Options) :
    (∀ x scope, (x, scope) ∈ c.inventory.symbols.keys ↔
      ∃ f ∈ c.program.functions, f.functionName? = some scope ∧
        (x ∈ f.parameters.map Param.name ∨ x ∈ assigned (f.code o'))) ∧
    ∀ f ∈ c.program.functions, SameAssignments o' f := by
  obtain ⟨P, hP, rfl⟩ := Compilation.ofSource_eq_ok_iff.1 h
  obtain ⟨d, hd, -, -⟩ := Program.definitions_of_ofTokens hP
  refine ⟨fun x scope => ?_, fun f hf => ?_⟩
  · show (x, scope) ∈ P.inventory.symbols.keys ↔ _
    rw [SymbolTable.keys, (Program.inventory_tables P).1, SymbolTable.toList_ofRecords,
      map_key_rowsOf, List.mem_eraseDups]
    exact hd.mem_keys o'
  · obtain ⟨us, d', hdef, -⟩ := hd.of_mem hf
    obtain ⟨name, hname, hrecords⟩ := hdef.records_eq
    refine ⟨⟨name, hname, fun inv => ?_⟩, fun hp => (hdef.assigns o').inOrder hp⟩
    rw [← hrecords]
    exact (Inventory.adds_visit f globalScope inv).symbols

/-- The older layout has the bodies of a branch the other way round, with the same assignments. -/
theorem assignments_agree_branch :
    let f := Node.function .int "f" [⟨.int, "a"⟩] [.branch (.var "a")
      [.assign "x" (.literal .int "1")] [.assign "y" (.literal .int "2"), .assign "x" (.var "a")]]
    let source := "int f(int a) \x7b if (a) \x7b x = 1; \x7d else \x7b y = 2; x = a; \x7d \x7d"
    ∃ c, Compilation.ofSource source .compatible = .ok c ∧
      c.code = f.code .compatible ∧ assigned c.code = ["y", "x", "x"] ∧
      ("y", "f") ∈ c.inventory.symbols.keys ∧ ("y", "g") ∉ c.inventory.symbols.keys ∧
      assigned (f.code {}) = ["x", "y", "x"] := by
  intro f source
  have hP : Program.ofTokens (Token.tokenizeSource
      "int f(int a) \x7b if (a) \x7b x = 1; \x7d else \x7b y = 2; x = a; \x7d \x7d") =
      .ok ⟨[f]⟩ := rfl
  have h : Compilation.ofSource source .compatible = .ok _ :=
    Compilation.ofSource_eq_ok_iff.2 ⟨_, hP, rfl⟩
  obtain ⟨hrows, hfunctions⟩ := assignments_agree h {}
  refine ⟨_, h, rfl, rfl, (hrows _ _).2 ⟨f, List.mem_singleton_self f, rfl, .inr (by decide)⟩, ?_,
    (hfunctions f (List.mem_singleton_self f)).inOrder rfl⟩
  intro hg
  obtain ⟨g, hg, hname, -⟩ := (hrows _ _).1 hg
  rw [List.mem_singleton.1 hg] at hname
  exact absurd hname (by decide)

end ThreeAddress

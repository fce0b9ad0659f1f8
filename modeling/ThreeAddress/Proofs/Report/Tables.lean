import ThreeAddress.Compilation
import ThreeAddress.Proofs.Inventory.Scopes
import ThreeAddress.Proofs.Report.Trees
import ThreeAddress.Proofs.Token.Cuts

/-!
# The reports of the tables

The reports of the symbol table and of the function table determine the rows of the tables
(`Compilation.reports_determine_tables`).

A name that is shorter than its column is followed by blanks, so name and type are two words of the
line; a longer one runs into the type, and both are one word. How many words a line has tells the two
apart (`tokenizeChars_columns`), and no two types end in the same letter, so also in the one word it
is seen where the name ends (`append_ty_inj`).
-/

namespace ThreeAddress

open Token Text

/-! ## Names -/

/-- A text of word characters, one at least. -/
structure Name (x : String) : Prop where
  ne_empty : x ≠ ""
  joined : Joined x.toList

theorem Token.Lexeme.name {x : String} (h : Lexeme (ofText x)) : Name x :=
  ⟨h.text_ne_empty, h.joined (by simp [ofText])⟩

theorem name_ty (ty : Ty) : Name ty.name := by
  cases ty <;> exact ⟨by decide, by decide⟩

theorem Name.append {x y : String} (hx : Name x) (hy : Name y) : Name (x ++ y) := by
  refine ⟨by simp [hx.ne_empty], ?_⟩
  rw [String.toList_append]
  exact List.forall_mem_append.2 ⟨hx.joined, hy.joined⟩

/-- A name is one token where no word goes on behind it. -/
theorem Name.tokenizeChars_append {x : String} (hx : Name x) {later : List Char}
    (hlater : (scan later).1 = []) :
    tokenizeChars (x.toList ++ later) = ofWord x :: tokenizeChars later := by
  have hne : x.toList ≠ [] := by simpa using hx.ne_empty
  rw [tokenizeChars_word hne hx.joined hlater, String.ofList_toList]

/-- No two types end in the same letter, so a type is seen at the end of a text. -/
theorem append_ty_inj {x y : String} {ty ty' : Ty} (h : x ++ ty.name = y ++ ty'.name) :
    x = y ∧ ty = ty' := by
  have hlast : ∀ (z : String) (u : Ty), (z ++ u.name).toList.getLast? = u.name.toList.getLast? := by
    intro z u
    have hne : u.name.toList ≠ [] := by cases u <;> decide
    rw [String.toList_append, List.getLast?_append_of_ne_nil _ hne]
  have hty : ty.name.toList.getLast? = ty'.name.toList.getLast? := by
    rw [← hlast x ty, h, hlast]
  obtain rfl : ty = ty' := by
    revert hty
    cases ty <;> cases ty' <;> decide
  exact ⟨(String.append_left_inj _).1 h, rfl⟩

/-! ## Lines of tables -/

namespace Report

/-- The words of a name in a column of 16 characters and a type behind it. -/
def columnTokens (x : String) (ty : Ty) : List Token :=
  if x.length < 16 then [ofWord x, ofWord ty.name] else [ofWord (x ++ ty.name)]

theorem columnTokens_inj {x y : String} {ty ty' : Ty} (h : columnTokens x ty = columnTokens y ty') :
    x = y ∧ ty = ty' := by
  unfold columnTokens at h
  split at h
  · split at h
    · obtain ⟨hx, hrest⟩ := List.cons.inj h
      exact ⟨congrArg Token.text hx, ofWord_ty_injective (List.cons.inj hrest).1⟩
    · simp at h
  · split at h
    · simp at h
    · exact append_ty_inj (congrArg Token.text (List.cons.inj h).1)

theorem blank_filler (width : Nat) (x : String) : Blank (filler width x).toList := by
  intro c hc
  rw [filler, String.toList_ofList] at hc
  rw [List.eq_of_mem_replicate hc, isBlank_space]

theorem filler_ne_nil {width : Nat} {x : String} (h : x.length < width) :
    (filler width x).toList ≠ [] := by
  have hpos : width - x.length ≠ 0 := by omega
  simp [filler, hpos]

/-- A name and a type are read as two words, or as one where the name fills its column. -/
theorem tokenizeChars_columns {x : String} (hx : Name x) (ty : Ty) {later : List Char}
    (hlater : (scan later).1 = []) :
    tokenizeChars ((alignLeft 16 x ++ ty.name).toList ++ later) =
      columnTokens x ty ++ tokenizeChars later := by
  by_cases hlen : x.length < 16
  · have hshape : (alignLeft 16 x ++ ty.name).toList ++ later =
        x.toList ++ ((filler 16 x).toList ++ (ty.name.toList ++ later)) := by
      simp [alignLeft]
    have hgap := blank_filler 16 x
    have hstop := scan_gap hgap (filler_ne_nil hlen) (ty.name.toList ++ later)
    rw [hshape, hx.tokenizeChars_append hstop, tokenizeChars_gap hgap,
      (name_ty ty).tokenizeChars_append hlater, columnTokens, if_pos hlen]
    rfl
  · -- the column is full, and nothing stands between the name and the type
    have hnone : filler 16 x = "" := by
      rw [filler, Nat.sub_eq_zero_of_le (Nat.le_of_not_lt hlen)]
      rfl
    rw [alignLeft, hnone, String.append_empty, (hx.append (name_ty ty)).tokenizeChars_append hlater,
      columnTokens, if_neg hlen]
    rfl

theorem tokenize_functionLine {x : String} (hx : Name x) (ty : Ty) :
    tokenize (functionLine x ty.name) = columnTokens x ty := by
  have hcolumns : tokenizeChars ((alignLeft 16 x ++ ty.name).toList ++ []) = _ :=
    tokenizeChars_columns hx ty rfl
  rwa [List.append_nil, tokenizeChars_nil, List.append_nil] at hcolumns

/-- The column of types is wider than every type, so the scope is a word of its own. -/
theorem tokenize_symbolLine {x scope : String} (hx : Name x) (ty : Ty) (hscope : Name scope) :
    tokenize (symbolLine x ty.name scope) = columnTokens x ty ++ [ofWord scope] := by
  have hwidth : ty.name.length < 10 := by cases ty <;> decide
  have hgap := blank_filler 10 ty.name
  have hshape : (symbolLine x ty.name scope).toList = (alignLeft 16 x ++ ty.name).toList ++
      ((filler 10 ty.name).toList ++ (scope.toList ++ [])) := by
    simp [symbolLine, alignLeft]
  rw [tokenize, hshape, tokenizeChars_columns hx ty (scan_gap hgap (filler_ne_nil hwidth) _),
    tokenizeChars_gap hgap, hscope.tokenizeChars_append rfl]
  rfl

theorem functionLine_inj {f g : FunctionRow} (hf : Name f.name) (hg : Name g.name)
    (h : functionLine f.name f.returns.name = functionLine g.name g.returns.name) : f = g := by
  have hwords := congrArg tokenize h
  rw [tokenize_functionLine hf, tokenize_functionLine hg] at hwords
  obtain ⟨name, returns⟩ := f
  obtain ⟨rfl, rfl⟩ := columnTokens_inj hwords
  rfl

/-- A row of the symbol table whose texts are names. -/
structure Named (s : Symbol) : Prop where
  name : Name s.name
  scope : Name s.scope

theorem symbolLine_inj {s u : Symbol} (hs : Named s) (hu : Named u)
    (h : symbolLine s.name s.ty.name s.scope = symbolLine u.name u.ty.name u.scope) : s = u := by
  have hwords := congrArg tokenize h
  rw [tokenize_symbolLine hs.name _ hs.scope, tokenize_symbolLine hu.name _ hu.scope] at hwords
  obtain ⟨hcolumns, hscope⟩ := List.append_inj' hwords rfl
  obtain ⟨name, ty, scope⟩ := s
  obtain ⟨rfl, rfl⟩ := columnTokens_inj hcolumns
  obtain rfl : scope = u.scope := congrArg Token.text (List.cons.inj hscope).1
  rfl

theorem oneLine_name {x : String} (hx : Name x) : OneLine x := by
  intro hfeed
  have hword := (hx.joined _ hfeed).1
  rw [isBlank_lineFeed] at hword
  cases hword

theorem oneLine_alignLeft {width : Nat} {x : String} (hx : OneLine x) :
    OneLine (alignLeft width x) := by
  have hfiller : OneLine (filler width x) := by
    simp [OneLine, filler]
  exact oneLine_append.2 ⟨hx, hfiller⟩

theorem oneLine_functionLine {x : String} (hx : Name x) (ty : Ty) :
    OneLine (functionLine x ty.name) :=
  oneLine_append.2 ⟨oneLine_alignLeft (oneLine_name hx), oneLine_ty ty⟩

theorem oneLine_symbolLine {s : Symbol} (hs : Named s) :
    OneLine (symbolLine s.name s.ty.name s.scope) := by
  have hname : OneLine (alignLeft 16 s.name) := oneLine_alignLeft (oneLine_name hs.name)
  have hty : OneLine (alignLeft 10 s.ty.name) := oneLine_alignLeft (oneLine_ty s.ty)
  exact oneLine_append.2 ⟨oneLine_append.2 ⟨hname, hty⟩, oneLine_name hs.scope⟩

/-- The lines behind a title. -/
theorem ofLines_title_inj {title : String} {ls ls' : List String}
    (h : ofLines (title :: ls) = ofLines (title :: ls')) : ofLines ls = ofLines ls' := by
  rw [ofLines_cons, ofLines_cons, String.append_right_inj, String.append_right_inj] at h
  exact h

theorem symbols_inj {t u : SymbolTable} (ht : ∀ s ∈ t.toList, Named s) (hu : ∀ s ∈ u.toList, Named s)
    (h : symbols t = symbols u) : t.toList = u.toList :=
  ofLines_map_inj (fun _ => oneLine_symbolLine) (fun _ _ => symbolLine_inj) ht hu
    (ofLines_title_inj h)

theorem functions_inj {t u : FunctionTable} (ht : ∀ f ∈ t.toList, Name f.name)
    (hu : ∀ f ∈ u.toList, Name f.name) (h : functions t = functions u) : t = u := by
  have hrows : t.toList = u.toList :=
    ofLines_map_inj (fun f hf => oneLine_functionLine hf f.returns)
      (fun _ _ => functionLine_inj) ht hu (ofLines_title_inj h)
  obtain ⟨rows⟩ := t
  obtain ⟨rows'⟩ := u
  exact congrArg FunctionTable.mk (Array.toList_inj.1 hrows)

end Report

/-! ## The tables of a source -/

open Report (Named)

theorem Written.records_eq {e : Node} (he : Written e) (scope : String) : e.records scope = [] := by
  cases he <;> rfl

theorem Written.definedFunctions_eq {e : Node} (he : Written e) : e.definedFunctions = [] := by
  cases he <;> rfl

theorem Node.named_recordsAll {nodes : List Node} {scope : String}
    (h : ∀ node ∈ nodes, ∀ r ∈ node.records scope, Named r) : ∀ r ∈ recordsAll scope nodes, Named r := by
  induction nodes with
  | nil => simp [recordsAll]
  | cons node rest ih =>
    obtain ⟨hnode, hrest⟩ := List.forall_mem_cons.1 h
    exact List.forall_mem_append.2 ⟨hnode, ih hrest⟩

/-- What a tree records in a scope has names. -/
theorem WrittenTree.named_records {node : Node} (h : WrittenTree node) :
    ∀ {scope : String}, Name scope → ∀ r ∈ node.records scope, Named r := by
  induction h with
  | function hname hparams _ ih =>
    intro scope _
    have hname := hname.name
    exact List.forall_mem_append.2 ⟨List.forall_mem_map.2 fun p hp => ⟨(hparams p hp).name, hname⟩,
      Node.named_recordsAll fun node hn => ih node hn hname⟩
  | assign hx _ =>
    intro scope hscope
    rw [Node.records_assign]
    exact List.forall_mem_singleton.2 ⟨hx.name, hscope⟩
  | exit he =>
    intro scope _
    rw [Node.records, he.records_eq]
    simp
  | branch hc _ _ iht ihe =>
    intro scope hscope
    rw [Node.records, hc.records_eq]
    exact List.forall_mem_append.2 ⟨Node.named_recordsAll fun node hn => iht node hn hscope,
      Node.named_recordsAll fun node hn => ihe node hn hscope⟩
  | loop hc _ ih =>
    intro scope hscope
    rw [Node.records, hc.records_eq]
    exact Node.named_recordsAll fun node hn => ih node hn hscope

theorem Node.named_definedFunctionsAll {nodes : List Node}
    (h : ∀ node ∈ nodes, ∀ f ∈ node.definedFunctions, Name f.name) :
    ∀ f ∈ definedFunctionsAll nodes, Name f.name := by
  induction nodes with
  | nil => simp [definedFunctionsAll]
  | cons node rest ih =>
    obtain ⟨hnode, hrest⟩ := List.forall_mem_cons.1 h
    exact List.forall_mem_append.2 ⟨hnode, ih hrest⟩

theorem WrittenTree.named_definedFunctions {node : Node} (h : WrittenTree node) :
    ∀ f ∈ node.definedFunctions, Name f.name := by
  induction h with
  | function hname _ _ ih =>
    exact List.forall_mem_append.2 ⟨Node.named_definedFunctionsAll ih,
      List.forall_mem_singleton.2 hname.name⟩
  | assign => simp [Node.definedFunctions]
  | exit he => simp [Node.definedFunctions, he.definedFunctions_eq]
  | branch hc _ _ iht ihe =>
    rw [Node.definedFunctions, hc.definedFunctions_eq]
    exact List.forall_mem_append.2 ⟨Node.named_definedFunctionsAll iht,
      Node.named_definedFunctionsAll ihe⟩
  | loop hc _ ih =>
    rw [Node.definedFunctions, hc.definedFunctions_eq]
    exact Node.named_definedFunctionsAll ih

namespace Program

variable {source : String} {P : Program}

theorem named_symbols (hP : ofTokens (tokenizeSource source) = .ok P) :
    ∀ s ∈ P.inventory.symbols.toList, Named s := by
  have hglobal : Name globalScope := ⟨by decide, by decide⟩
  have hrecords : ∀ r ∈ P.records, Named r :=
    Node.named_recordsAll fun f hf => (written hP f hf).named_records hglobal
  intro s hs
  rw [(inventory_tables P).1, SymbolTable.toList_ofRecords, mem_rowsOf] at hs
  exact hrecords s (List.mem_reverse.1 (List.mem_of_find?_eq_some hs))

theorem named_functions (hP : ofTokens (tokenizeSource source) = .ok P) :
    ∀ f ∈ P.inventory.functions.toList, Name f.name := by
  rw [(inventory_tables P).2]
  exact Node.named_definedFunctionsAll fun f hf => (written hP f hf).named_definedFunctions

end Program

/-- Two sources have the same report of their symbols only if their symbol tables have the same rows
in the same order, and the same report of their functions only if they have the same function
table, however long their names are. -/
theorem Compilation.reports_determine_tables {source source' : String} {o o' : Options}
    {c c' : Compilation} (h : ofSource source o = .ok c) (h' : ofSource source' o' = .ok c') :
    (Report.symbols c.inventory.symbols = Report.symbols c'.inventory.symbols →
      c.inventory.symbols.toList = c'.inventory.symbols.toList) ∧
    (Report.functions c.inventory.functions = Report.functions c'.inventory.functions →
      c.inventory.functions = c'.inventory.functions) := by
  obtain ⟨P, hP, rfl⟩ := ofSource_eq_ok_iff.1 h
  obtain ⟨P', hP', rfl⟩ := ofSource_eq_ok_iff.1 h'
  exact ⟨Report.symbols_inj (Program.named_symbols hP) (Program.named_symbols hP'),
    Report.functions_inj (Program.named_functions hP) (Program.named_functions hP')⟩

/-- A name of 17 characters runs into the type behind it. -/
theorem Compilation.reports_determine_tables_long :
    let source := "void remaining_seconds(int remaining_seconds) \x7b \x7d"
    let source' := "void remaining_seconds(string remaining_seconds)\x7b\x7d"
    ∃ c c', ofSource source {} = .ok c ∧ ofSource source' .compatible = .ok c' ∧
      Report.symbols c.inventory.symbols = "Variable        Type      Scope\n" ++
        "remaining_secondsunknown   remaining_seconds\n" ∧
      Report.functions c.inventory.functions =
        "Function        Return\nremaining_secondsvoid\n" ∧
      Report.symbols c.inventory.symbols = Report.symbols c'.inventory.symbols ∧
      c.inventory.symbols.toList = c'.inventory.symbols.toList ∧
      c.inventory.functions = c'.inventory.functions := by
  intro source source'
  let P : Program := ⟨[.function .void "remaining_seconds" [⟨.int, "remaining_seconds"⟩] []]⟩
  let P' : Program := ⟨[.function .void "remaining_seconds" [⟨.string, "remaining_seconds"⟩] []]⟩
  have hP : Program.ofTokens (tokenizeSource
      "void remaining_seconds(int remaining_seconds) \x7b \x7d") = .ok P := rfl
  have hP' : Program.ofTokens (tokenizeSource
      "void remaining_seconds(string remaining_seconds)\x7b\x7d") = .ok P' := rfl
  have h : ofSource source {} = .ok _ := ofSource_eq_ok_iff.2 ⟨P, hP, rfl⟩
  have h' : ofSource source' .compatible = .ok _ := ofSource_eq_ok_iff.2 ⟨P', hP', rfl⟩
  have hrows : P.inventory.symbols.toList = [⟨"remaining_seconds", .unknown, "remaining_seconds"⟩] := by
    rw [(Program.inventory_tables P).1, SymbolTable.toList_ofRecords]
    rfl
  have hrows' : P'.inventory.symbols.toList = P.inventory.symbols.toList := by
    rw [hrows, (Program.inventory_tables P').1, SymbolTable.toList_ofRecords]
    rfl
  have hsymbols : Report.symbols P.inventory.symbols = Report.symbols P'.inventory.symbols := by
    rw [Report.symbols, Report.symbols, hrows']
  obtain ⟨hsame, hsame'⟩ := reports_determine_tables h h'
  refine ⟨_, _, h, h', ?_, rfl, hsymbols, hsame hsymbols, hsame' rfl⟩
  show Report.symbols P.inventory.symbols = _
  rw [Report.symbols, hrows]
  rfl

end ThreeAddress

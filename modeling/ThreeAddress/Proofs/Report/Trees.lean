import ThreeAddress.Proofs.Grammar.Headlines
import ThreeAddress.Proofs.Grammar.Soundness
import ThreeAddress.Proofs.Report.Lines

/-!
# The report of a tree

The report of a program determines the program (`tree_determines_program`). What one line says is
known from its tokens (`value_inj`, `assign_inj`, `function_inj`), and where a body ends from the
depth of the line after it (`outlineAll_inj`): nothing in a body stands as far left as what follows
the body. The words of a source have no line feed in them, so no line of a report is cut in two
(`oneLine_outlineAll`).
-/

namespace ThreeAddress

open Token Text

namespace Report

/-! ## What a line says -/

/-- The text of a value begins with its headline. -/
theorem tokenizeChars_value {e : Node} (he : Written e) :
    ∃ later, tokenizeChars (value e).toList = e.headlineTokens ++ later := by
  have hline : ∀ tail : List Char, (scan tail).1 = [] →
      (value e).toList = e.headline.toList ++ tail →
      ∃ later, tokenizeChars (value e).toList = e.headlineTokens ++ later := by
    intro tail htail hshape
    exact ⟨tokenizeChars tail, by rw [hshape, he.tokenizeChars_headline htail]⟩
  cases he with
  | number => exact hline " (int)".toList rfl (by simp [value, Node.headline, Ty.name])
  | quoted => exact hline " (string)".toList rfl (by simp [value, Node.headline, Ty.name])
  | name | binary | negate => exact hline [] rfl (by simp [value])

/-- A value is known from the tokens of its text. -/
theorem value_inj {e e' : Node} (he : Written e) (he' : Written e')
    (h : tokenize (value e) = tokenize (value e')) : e = e' := by
  obtain ⟨later, hv⟩ := tokenizeChars_value he
  obtain ⟨later', hv'⟩ := tokenizeChars_value he'
  rw [tokenize, tokenize, hv, hv'] at h
  exact (he.headlineTokens_inj he' h).1

theorem tokenize_assign {x : String} (hx : Lexeme (ofText x)) (v : String) :
    tokenize (x ++ " = " ++ v) = ofText x :: ofSymbol '=' :: tokenize v := by
  have hequals : isSymbolChar '=' = true := rfl
  have hshape : (x ++ " = " ++ v).toList =
      (ofText x).text.toList ++ ' ' :: '=' :: ' ' :: v.toList := by
    simp [ofText]
  rw [tokenize, hshape, hx.tokenizeChars_append (by rw [scan_blank isBlank_space]),
    tokenizeChars_blank isBlank_space, tokenizeChars_symbol hequals,
    tokenizeChars_blank isBlank_space, tokenize]

/-- The tokens of parameters. -/
def paramTokens (params : List Param) : List Token :=
  params.flatMap fun p => [ofWord p.ty.name, ofText p.name]

theorem lexeme_ty (ty : Ty) : Lexeme (ofWord ty.name) := by
  have hne : ty.name ≠ "" := by cases ty <;> decide
  have hall : (ty.name.toList.all fun c => !isBlank c && !isSymbolChar c) = true := by
    cases ty <;> decide
  refine ⟨rfl, .inr ⟨hne, fun c hc => ?_⟩⟩
  simpa using List.all_eq_true.1 hall c hc

theorem ofWord_ty_injective {ty ty' : Ty} (h : ofWord ty.name = ofWord ty'.name) : ty = ty' := by
  have hname : ty.name = ty'.name := congrArg Token.text h
  revert hname
  cases ty <;> cases ty' <;> decide

theorem ofWord_ty_ne_close (ty : Ty) : ofWord ty.name ≠ ofSymbol ')' := by
  cases ty <;> decide

/-- The type and the name of a parameter, before a blank or a symbol. -/
theorem tokenizeChars_param {p : Param} (hp : Lexeme (ofText p.name)) {text : List Char}
    (htext : (scan text).1 = []) :
    tokenizeChars ((p.ty.name ++ " " ++ p.name).toList ++ text) =
      ofWord p.ty.name :: ofText p.name :: tokenizeChars text := by
  have hshape : (p.ty.name ++ " " ++ p.name).toList ++ text =
      (ofWord p.ty.name).text.toList ++ ' ' :: ((ofText p.name).text.toList ++ text) := by
    simp [ofText, ofWord]
  rw [hshape, (lexeme_ty p.ty).tokenizeChars_append (by rw [scan_blank isBlank_space]),
    tokenizeChars_blank isBlank_space, hp.tokenizeChars_append htext]

theorem tokenizeChars_paramList : ∀ {ps : List Param}, (∀ p ∈ ps, Lexeme (ofText p.name)) →
    ∀ {text : List Char}, (scan text).1 = [] →
      tokenizeChars ((paramList ps).toList ++ text) = paramTokens ps ++ tokenizeChars text
  | [], _, _, _ => rfl
  | [p], h, text, htext => by
    rw [paramList, List.map_singleton, String.intercalate_singleton,
      tokenizeChars_param (h p (List.mem_singleton_self p)) htext]
    rfl
  | p :: q :: ps, h, text, htext => by
    obtain ⟨hp, hps⟩ := List.forall_mem_cons.1 h
    have hshape : (paramList (p :: q :: ps)).toList ++ text =
        (p.ty.name ++ " " ++ p.name).toList ++ ' ' :: ((paramList (q :: ps)).toList ++ text) := by
      simp [paramList]
    rw [hshape, tokenizeChars_param hp (by rw [scan_blank isBlank_space]),
      tokenizeChars_blank isBlank_space, tokenizeChars_paramList hps htext]
    rfl

theorem paramTokens_inj {ps : List Param} : ∀ {ps' : List Param} {ts ts' : List Token},
    paramTokens ps ++ ofSymbol ')' :: ts = paramTokens ps' ++ ofSymbol ')' :: ts' →
    ps = ps' ∧ ts = ts' := by
  induction ps with
  | nil =>
    intro ps' ts ts' h
    cases ps' with
    | nil => exact ⟨rfl, (List.cons.inj h).2⟩
    | cons p' ps' => exact absurd (List.cons.inj h).1.symm (ofWord_ty_ne_close p'.ty)
  | cons p ps ih =>
    intro ps' ts ts' h
    cases ps' with
    | nil => exact absurd (List.cons.inj h).1 (ofWord_ty_ne_close p.ty)
    | cons p' ps' =>
      obtain ⟨hty, hrest⟩ := List.cons.inj h
      obtain ⟨hname, hrest⟩ := List.cons.inj hrest
      obtain ⟨rfl, hts⟩ := ih hrest
      have hp : p = p' := by
        obtain ⟨ty, name⟩ := p
        rw [show ty = p'.ty from ofWord_ty_injective hty, show name = p'.name from
          ofText_injective hname]
      exact ⟨by rw [hp], hts⟩

/-- The line of a function without its first word. -/
theorem tokenize_function {name : String} {params : List Param} (hname : Lexeme (ofText name))
    (hparams : ∀ p ∈ params, Lexeme (ofText p.name)) (returns : Ty) :
    tokenize (name ++ "(" ++ paramList params ++ ") -> " ++ returns.name) =
      ofText name :: ofSymbol '(' :: (paramTokens params ++ ofSymbol ')' :: ofSymbol '-' ::
        ofSymbol '>' :: [ofWord returns.name]) := by
  have hopen : isSymbolChar '(' = true := rfl
  have hclose : isSymbolChar ')' = true := rfl
  have hshape : (name ++ "(" ++ paramList params ++ ") -> " ++ returns.name).toList =
      (ofText name).text.toList ++ '(' :: ((paramList params).toList ++
        ')' :: ' ' :: '-' :: '>' :: ' ' :: returns.name.toList) := by
    simp [ofText]
  rw [tokenize, hshape, hname.tokenizeChars_append (by rw [scan_symbol hopen]),
    tokenizeChars_symbol hopen, tokenizeChars_paramList hparams (by rw [scan_symbol hclose]),
    tokenizeChars_symbol hclose]
  cases returns <;> rfl

theorem assign_inj {x x' : String} {e e' : Node} (hx : Lexeme (ofText x)) (he : Written e)
    (hx' : Lexeme (ofText x')) (he' : Written e')
    (h : x ++ " = " ++ value e = x' ++ " = " ++ value e') : x = x' ∧ e = e' := by
  have htokens := congrArg tokenize h
  rw [tokenize_assign hx, tokenize_assign hx'] at htokens
  obtain ⟨htarget, htokens⟩ := List.cons.inj htokens
  exact ⟨ofText_injective htarget, value_inj he he' (List.cons.inj htokens).2⟩

theorem function_inj {x x' : String} {ps ps' : List Param} {ty ty' : Ty} (hx : Lexeme (ofText x))
    (hp : ∀ p ∈ ps, Lexeme (ofText p.name)) (hx' : Lexeme (ofText x'))
    (hp' : ∀ p ∈ ps', Lexeme (ofText p.name))
    (h : x ++ "(" ++ paramList ps ++ ") -> " ++ ty.name =
      x' ++ "(" ++ paramList ps' ++ ") -> " ++ ty'.name) : x = x' ∧ ps = ps' ∧ ty = ty' := by
  have htokens := congrArg tokenize h
  rw [tokenize_function hx hp, tokenize_function hx' hp'] at htokens
  obtain ⟨hname, htokens⟩ := List.cons.inj htokens
  obtain ⟨hparams, htokens⟩ := paramTokens_inj (List.cons.inj htokens).2
  simp only [List.cons.injEq, true_and, and_true] at htokens
  exact ⟨ofText_injective hname, hparams, ofWord_ty_injective htokens⟩

/-! ## Where a tree ends -/

/-- The first of the lines, if there is one, is indented less than `depth`. -/
def Shallow (depth : Nat) (lines : List String) : Prop :=
  ∀ line ∈ lines.head?, depthOf line < depth

theorem Shallow.nil (depth : Nat) : Shallow depth [] := by
  simp [Shallow]

theorem Shallow.mono {depth depth' : Nat} {lines : List String} (h : Shallow depth lines)
    (hd : depth ≤ depth') : Shallow depth' lines := fun line hl => Nat.lt_of_lt_of_le (h line hl) hd

theorem shallow_indented {text : String} (h : text.toList.head? ≠ some ' ') (depth : Nat)
    (lines : List String) : Shallow (depth + 1) (indented depth text :: lines) := by
  intro line hl
  rw [List.head?_cons, Option.mem_some_iff] at hl
  rw [← hl, depthOf_indented h]
  exact Nat.lt_succ_self depth

theorem not_shallow_indented {text : String} (h : text.toList.head? ≠ some ' ') {depth : Nat}
    {lines : List String} : ¬Shallow depth (indented depth text :: lines) := by
  intro hs
  have hlt := hs _ rfl
  rw [depthOf_indented h] at hlt
  exact Nat.lt_irrefl depth hlt

/-- The first letter of the line of a function or a statement. -/
def initial : Node → Char
  | .function .. => 'F'
  | .assign .. => 'A'
  | .exit _ => 'R'
  | .branch .. => 'I'
  | .loop .. => 'W'
  | .binary .. | .negate _ | .literal .. | .var _ => ' '

theorem outline_eq_cons {node : Node} (h : WrittenTree node) (depth : Nat) :
    ∃ text lines, outline depth node = indented depth text :: lines ∧
      text.toList.head? = some (initial node) := by
  cases h with
  | function | assign | exit | branch | loop => exact ⟨_, _, rfl, by simp [initial]⟩

theorem initial_ne_space {node : Node} (h : WrittenTree node) : initial node ≠ ' ' := by
  cases h <;> simp [initial]

section
variable {node : Node} {nodes : List Node} {depth : Nat} {rest : List String}

theorem shallow_outline (h : WrittenTree node) :
    Shallow (depth + 1) (outline depth node ++ rest) := by
  obtain ⟨text, lines, hlines, hfirst⟩ := outline_eq_cons h depth
  rw [hlines]
  exact shallow_indented (by simpa [hfirst] using initial_ne_space h) depth _

theorem not_shallow_outline (h : WrittenTree node) :
    ¬Shallow depth (outline depth node ++ rest) := by
  obtain ⟨text, lines, hlines, hfirst⟩ := outline_eq_cons h depth
  rw [hlines]
  exact not_shallow_indented (by simpa [hfirst] using initial_ne_space h)

theorem shallow_outlineAll (h : ∀ node ∈ nodes, WrittenTree node) (hr : Shallow depth rest) :
    Shallow (depth + 1) (outlineAll depth nodes ++ rest) := by
  cases nodes with
  | nil => exact hr.mono (Nat.le_succ depth)
  | cons node nodes =>
    rw [outlineAll, List.append_assoc]
    exact shallow_outline (h node List.mem_cons_self)

end

/-- Two trees whose lines begin alike are of one kind. -/
theorem initial_eq {node node' : Node} (h : WrittenTree node) (h' : WrittenTree node') {depth : Nat}
    {rest rest' : List String} (heq : outline depth node ++ rest = outline depth node' ++ rest') :
    initial node = initial node' := by
  obtain ⟨text, lines, hlines, hfirst⟩ := outline_eq_cons h depth
  obtain ⟨text', lines', hlines', hfirst'⟩ := outline_eq_cons h' depth
  rw [hlines, hlines'] at heq
  rw [indented_injective depth (List.cons.inj heq).1, hfirst', Option.some.injEq] at hfirst
  exact hfirst.symm

/-- The lines of a missing or a present else body. -/
def elseLines (depth : Nat) (body : List Node) : List String :=
  if body.isEmpty then [] else indented depth "Else:" :: outlineAll (depth + 1) body

theorem shallow_elseLines {depth : Nat} {rest : List String} (hr : Shallow depth rest)
    (body : List Node) : Shallow (depth + 1) (elseLines depth body ++ rest) := by
  unfold elseLines
  split
  · exact hr.mono (Nat.le_succ depth)
  · exact shallow_indented (by decide) depth _

theorem outline_branch (depth : Nat) (c : Node) (t e : List Node) :
    outline depth (.branch c t e) = indented depth "If:" ::
      indented (depth + 1) ("Condition: " ++ value c) :: indented (depth + 1) "Then:" ::
        (outlineAll (depth + 2) t ++ elseLines (depth + 1) e) := rfl

theorem outline_loop (depth : Nat) (c : Node) (body : List Node) :
    outline depth (.loop c body) = indented depth "While:" ::
      indented (depth + 1) ("Condition: " ++ value c) :: indented (depth + 1) "Body:" ::
        outlineAll (depth + 2) body := rfl

/-- An else body that is shown is told from one that is not by its first line. -/
theorem elseLines_inj {depth : Nat} {e e' : List Node} {rest rest' : List String}
    (hr : Shallow depth rest) (hr' : Shallow depth rest')
    (hbody : outlineAll (depth + 1) e ++ rest = outlineAll (depth + 1) e' ++ rest' →
      e = e' ∧ rest = rest')
    (h : elseLines depth e ++ rest = elseLines depth e' ++ rest') : e = e' ∧ rest = rest' := by
  have hfirst : ("Else:" : String).toList.head? ≠ some ' ' := by decide
  cases e with
  | nil =>
    cases e' with
    | nil => exact ⟨rfl, h⟩
    | cons node' e' =>
      -- what follows the branch is not deeper than the branch, so it cannot begin with this line
      have hrest : rest = indented depth "Else:" :: _ := h
      rw [hrest] at hr
      exact absurd hr (not_shallow_indented hfirst)
  | cons node e =>
    cases e' with
    | nil =>
      have hrest : indented depth "Else:" :: _ = rest' := h
      rw [← hrest] at hr'
      exact absurd hr' (not_shallow_indented hfirst)
    | cons node' e' => exact hbody (List.cons.inj h).2

theorem condition_inj {depth : Nat} {c c' : Node} (hc : Written c) (hc' : Written c')
    (h : indented depth ("Condition: " ++ value c) = indented depth ("Condition: " ++ value c')) :
    c = c' := by
  have htext := indented_injective depth h
  exact value_inj hc hc' (congrArg tokenize ((String.append_right_inj _).1 htext))

mutual

/-- A tree is read in one way only if what follows it is indented no more than its own line. The
induction is over the first tree, with what follows it general: a body is followed by the rest of
its statement. -/
theorem outline_inj : ∀ (node : Node), WrittenTree node → ∀ {node' : Node} {depth : Nat}
    {rest rest' : List String}, WrittenTree node' → Shallow (depth + 1) rest →
    Shallow (depth + 1) rest' → outline depth node ++ rest = outline depth node' ++ rest' →
    node = node' ∧ rest = rest'
  | .function returns name params body, .function hname hparams hbody, node', depth, rest, rest',
      h', hr, hr', heq => by
    have hi := initial_eq (.function hname hparams hbody) h' heq
    cases h' with
    | function hname' hparams' hbody' =>
      obtain ⟨hline, hlines⟩ := List.cons.inj heq
      have htext := indented_injective depth hline
      obtain ⟨rfl, rfl, rfl⟩ := function_inj hname hparams hname' hparams'
        (by simpa only [String.append_assoc, String.append_right_inj] using htext)
      obtain ⟨rfl, rfl⟩ := outlineAll_inj body hbody hbody' hr hr' hlines
      exact ⟨rfl, rfl⟩
    | _ => simp [initial] at hi
  | .assign x e, .assign hx he, node', depth, rest, rest', h', hr, hr', heq => by
    have hi := initial_eq (.assign hx he) h' heq
    cases h' with
    | assign hx' he' =>
      obtain ⟨hline, hlines⟩ := List.cons.inj heq
      have htext := indented_injective depth hline
      obtain ⟨rfl, rfl⟩ := assign_inj hx he hx' he'
        (by simpa only [String.append_assoc, String.append_right_inj] using htext)
      exact ⟨rfl, hlines⟩
    | _ => simp [initial] at hi
  | .exit e, .exit he, node', depth, rest, rest', h', hr, hr', heq => by
    have hi := initial_eq (.exit he) h' heq
    cases h' with
    | exit he' =>
      obtain ⟨hline, hlines⟩ := List.cons.inj heq
      have htext := indented_injective depth hline
      obtain rfl := value_inj he he' (congrArg tokenize ((String.append_right_inj _).1 htext))
      exact ⟨rfl, hlines⟩
    | _ => simp [initial] at hi
  | .branch c t e, .branch hc ht he, node', depth, rest, rest', h', hr, hr', heq => by
    have hi := initial_eq (.branch hc ht he) h' heq
    cases h' with
    | branch hc' ht' he' =>
      simp only [outline_branch, List.cons_append, List.append_assoc, List.cons.injEq,
        true_and] at heq
      obtain ⟨hcondition, hlines⟩ := heq
      obtain rfl := condition_inj hc hc' hcondition
      obtain ⟨rfl, helse⟩ := outlineAll_inj t ht ht' (shallow_elseLines hr _)
        (shallow_elseLines hr' _) hlines
      obtain ⟨rfl, rfl⟩ := elseLines_inj hr hr' (outlineAll_inj e he he'
        (hr.mono (Nat.le_succ _)) (hr'.mono (Nat.le_succ _))) helse
      exact ⟨rfl, rfl⟩
    | _ => simp [initial] at hi
  | .loop c body, .loop hc hbody, node', depth, rest, rest', h', hr, hr', heq => by
    have hi := initial_eq (.loop hc hbody) h' heq
    cases h' with
    | loop hc' hbody' =>
      simp only [outline_loop, List.cons_append, List.cons.injEq, true_and] at heq
      obtain ⟨hcondition, hlines⟩ := heq
      obtain rfl := condition_inj hc hc' hcondition
      obtain ⟨rfl, rfl⟩ := outlineAll_inj body hbody hbody' (hr.mono (Nat.le_succ _))
        (hr'.mono (Nat.le_succ _)) hlines
      exact ⟨rfl, rfl⟩
    | _ => simp [initial] at hi

theorem outlineAll_inj : ∀ (nodes : List Node), (∀ node ∈ nodes, WrittenTree node) →
    ∀ {nodes' : List Node} {depth : Nat} {rest rest' : List String},
    (∀ node ∈ nodes', WrittenTree node) → Shallow depth rest → Shallow depth rest' →
    outlineAll depth nodes ++ rest = outlineAll depth nodes' ++ rest' →
    nodes = nodes' ∧ rest = rest'
  | [], _, [], depth, rest, rest', _, _, _, heq => ⟨rfl, heq⟩
  | [], _, node' :: nodes', depth, rest, rest', h', hr, _, heq => by
    rw [outlineAll, List.nil_append, outlineAll, List.append_assoc] at heq
    rw [heq] at hr
    exact absurd hr (not_shallow_outline (h' node' List.mem_cons_self))
  | node :: nodes, h, [], depth, rest, rest', _, _, hr', heq => by
    have hcons : outline depth node ++ (outlineAll depth nodes ++ rest) = rest' := by
      simpa [outlineAll] using heq
    rw [← hcons] at hr'
    exact absurd hr' (not_shallow_outline (h node List.mem_cons_self))
  | node :: nodes, h, node' :: nodes', depth, rest, rest', h', hr, hr', heq => by
    obtain ⟨hnode, hnodes⟩ := List.forall_mem_cons.1 h
    obtain ⟨hnode', hnodes'⟩ := List.forall_mem_cons.1 h'
    rw [outlineAll, List.append_assoc, outlineAll, List.append_assoc] at heq
    obtain ⟨rfl, hlater⟩ := outline_inj node hnode hnode' (shallow_outlineAll hnodes hr)
      (shallow_outlineAll hnodes' hr') heq
    obtain ⟨rfl, rfl⟩ := outlineAll_inj nodes hnodes hnodes' hr hr' hlater
    exact ⟨rfl, rfl⟩

end

/-! ## Every line is one line -/

theorem oneLine_of_lexeme {t : Token} (h : Lexeme t) : OneLine t.text := by
  intro hfeed
  exact Bool.false_ne_true ((h.isBlank_eq_false hfeed).symm.trans isBlank_lineFeed)

@[simp] theorem oneLine_ty (ty : Ty) : OneLine ty.name := by
  cases ty <;> decide

@[simp] theorem oneLine_symbol (op : Operator) : OneLine op.symbol := by
  cases op <;> decide

theorem oneLine_headline {e : Node} (he : Written e) : OneLine e.headline := by
  induction he with
  | number h | quoted h | name h => exact oneLine_of_lexeme h
  | binary _ _ ihl ihr => simp +decide [Node.headline, ihl, ihr]
  | negate _ ih => simp +decide [Node.headline, ih]

theorem oneLine_value {e : Node} (he : Written e) : OneLine (value e) := by
  have hline := oneLine_headline he
  cases he with
  | number | quoted =>
    rw [Node.headline] at hline
    simp +decide [value, hline]
  | name | binary | negate => exact hline

theorem oneLine_paramList : ∀ {ps : List Param}, (∀ p ∈ ps, Lexeme (ofText p.name)) →
    OneLine (paramList ps)
  | [], _ => by decide
  | [p], h => by
    have hname : OneLine p.name := oneLine_of_lexeme (h p (List.mem_singleton_self p))
    simp +decide [paramList, hname]
  | p :: q :: ps, h => by
    obtain ⟨hp, hps⟩ := List.forall_mem_cons.1 h
    have hname : OneLine p.name := oneLine_of_lexeme hp
    have hcons : paramList (p :: q :: ps) = p.ty.name ++ " " ++ p.name ++ " " ++
        paramList (q :: ps) := by
      simp [paramList]
    rw [hcons]
    simp +decide [hname, oneLine_paramList hps]

mutual

theorem oneLine_outline : ∀ {node : Node}, WrittenTree node → ∀ depth : Nat,
    ∀ l ∈ outline depth node, OneLine l
  | .function _ name _ _, .function hname hparams hbody, depth => by
    have hname' : OneLine name := oneLine_of_lexeme hname
    refine List.forall_mem_cons.2 ⟨?_, oneLine_outlineAll hbody (depth + 1)⟩
    simp +decide [hname', oneLine_paramList hparams]
  | .assign x _, .assign hx he, depth => by
    have hx' : OneLine x := oneLine_of_lexeme hx
    simp +decide [outline, hx', oneLine_value he]
  | _, .exit he, depth => by
    simp +decide [outline, oneLine_value he]
  | .branch _ _ e, .branch hc ht he, depth => by
    have hthen := oneLine_outlineAll ht (depth + 2)
    have helse : ∀ l ∈ elseLines (depth + 1) e, OneLine l := by
      unfold elseLines
      split
      · simp
      · exact List.forall_mem_cons.2 ⟨by simp +decide, oneLine_outlineAll he (depth + 2)⟩
    rw [outline_branch]
    simp +decide only [List.forall_mem_cons, List.forall_mem_append, oneLine_indented,
      oneLine_append, oneLine_value hc, true_and]
    exact ⟨hthen, helse⟩
  | _, .loop hc hbody, depth => by
    have hlines := oneLine_outlineAll hbody (depth + 2)
    rw [outline_loop]
    simp +decide only [List.forall_mem_cons, oneLine_indented, oneLine_append, oneLine_value hc,
      true_and]
    exact hlines

theorem oneLine_outlineAll : ∀ {nodes : List Node}, (∀ node ∈ nodes, WrittenTree node) →
    ∀ depth : Nat, ∀ l ∈ outlineAll depth nodes, OneLine l
  | [], _, _ => nofun
  | node :: nodes, h, depth => by
    obtain ⟨hnode, hnodes⟩ := List.forall_mem_cons.1 h
    rw [outlineAll]
    exact List.forall_mem_append.2 ⟨oneLine_outline hnode depth, oneLine_outlineAll hnodes depth⟩

end

/-- Trees of a text have the same report only if they are the same trees. -/
theorem outlineAll_ofLines_inj {nodes nodes' : List Node} (h : ∀ node ∈ nodes, WrittenTree node)
    (h' : ∀ node ∈ nodes', WrittenTree node)
    (heq : ofLines (outlineAll 0 nodes) = ofLines (outlineAll 0 nodes')) : nodes = nodes' := by
  have hlines := ofLines_inj (oneLine_outlineAll h 0) (oneLine_outlineAll h' 0) heq
  have hends : outlineAll 0 nodes ++ [] = outlineAll 0 nodes' ++ [] := by
    rw [hlines]
  exact (outlineAll_inj nodes h h' (.nil 0) (.nil 0) hends).1

end Report

/-- The functions of a parsed source are made of the source's words. -/
theorem Program.written {source : String} {P : Program}
    (hP : ofTokens (tokenizeSource source) = .ok P) : ∀ f ∈ P.functions, WrittenTree f := by
  obtain ⟨d, hd, -, -⟩ := definitions_of_ofTokens hP
  exact hd.written (lexeme_of_mem_tokenizeSource source)

/-- Two sources that are read have the same report of their trees only if they are read as the same
program. -/
theorem Report.tree_determines_program {source source' : String} {P P' : Program}
    (hP : Program.ofTokens (tokenizeSource source) = .ok P)
    (hP' : Program.ofTokens (tokenizeSource source') = .ok P')
    (h : Report.tree P = Report.tree P') : P = P' := by
  have hfunctions := outlineAll_ofLines_inj (Program.written hP) (Program.written hP') h
  obtain ⟨functions⟩ := P
  obtain ⟨functions'⟩ := P'
  exact congrArg Program.mk hfunctions

/-- A declaration is shown as an assignment, and an empty else body and parentheses around a value
are not shown at all. -/
theorem Report.tree_determines_program_plain :
    ∃ P P' : Program,
      Program.ofTokens (tokenizeSource
        "int f(string s) \x7b if (s) \x7b int x = (-(1)); \x7d else \x7b \x7d \x7d") = .ok P ∧
      Program.ofTokens (tokenizeSource
        "int f(string s)\n\x7b if ((s)) \x7b x = -1; \x7d \x7d") = .ok P' ∧
      Report.tree P = Report.tree P' ∧ P = P' := by
  let P : Program := ⟨[.function .int "f" [⟨.string, "s"⟩] [.branch (.var "s")
    [.assign "x" (.negate (.literal .int "1"))] []]]⟩
  have hP : Program.ofTokens (tokenizeSource
      "int f(string s) \x7b if (s) \x7b int x = (-(1)); \x7d else \x7b \x7d \x7d") = .ok P := rfl
  have hP' : Program.ofTokens (tokenizeSource
      "int f(string s)\n\x7b if ((s)) \x7b x = -1; \x7d \x7d") = .ok P := rfl
  exact ⟨P, P, hP, hP', rfl, tree_determines_program hP hP' rfl⟩

end ThreeAddress

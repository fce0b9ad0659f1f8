import ThreeAddress.Proofs.Grammar.Resuming

/-!
# The cursors on the way of a reader

`Trace r c seen o` says that the reader `r` can be run from `c` in single steps, stands at the
cursors `seen` one after the other, and ends with `o`. The steps are those of a reader: looking,
moving, refusing, one reader after another, and a reader one nesting level deeper. A function does
not show its own steps, so more than one trace may belong to it. What is said of the cursors on the
way is therefore said of every trace:

* `Trace.eq` — a trace ends as the reader does;
* `Trace.depth` — on a trace no more levels are open than there may be, and at its end as many as at
  its start.

`Method` names the readers of the phrases of the grammar, and each of them has a trace from every
cursor (`Method.traced`): there is one lemma for each reader, in the order of the readers.
-/

namespace ThreeAddress.Grammar

/-! ## Runs in steps -/

/-- The end of a reading with the innermost nesting level closed. -/
def leave {α : Type} :
    EStateM.Result SyntaxError Cursor α → EStateM.Result SyntaxError Cursor α
  | .ok a c => .ok a { c with depth := c.depth - 1 }
  | .error e c => .error e { c with depth := c.depth - 1 }

/-- Runs in single steps. -/
inductive Trace : {α : Type} → Reader α → Cursor → List Cursor →
    EStateM.Result SyntaxError Cursor α → Prop
  | pure {α : Type} {a : α} {c : Cursor} : Trace (pure a) c [c] (.ok a c)
  | refuse {α : Type} {cause : Cause} {c : Cursor} :
      Trace (refuse cause : Reader α) c [c] (.error (c.refusal cause) c)
  | peek {c : Cursor} : Trace peek? c [c] (.ok c.ahead.head? c)
  | advance {c : Cursor} : Trace advance c [c, c.advance] (.ok () c.advance)
  | next {α β : Type} {r : Reader α} {f : α → Reader β} {c c' : Cursor} {seen seen' : List Cursor}
      {a : α} {o : EStateM.Result SyntaxError Cursor β} (h : Trace r c seen (.ok a c'))
      (h' : Trace (f a) c' seen' o) : Trace (r >>= f) c (seen ++ seen') o
  | refused {α β : Type} {r : Reader α} {f : α → Reader β} {c c' : Cursor} {seen : List Cursor}
      {e : SyntaxError} (h : Trace r c seen (.error e c')) : Trace (r >>= f) c seen (.error e c')
  | tooDeep {α : Type} {r : Reader α} {cause : Cause} {c : Cursor} (h : maxNesting ≤ c.depth) :
      Trace (nested cause r) c [c] (.error (c.refusal cause) c)
  | deeper {α : Type} {r : Reader α} {cause : Cause} {c : Cursor} {seen : List Cursor}
      {o : EStateM.Result SyntaxError Cursor α} (hd : c.depth < maxNesting)
      (h : Trace r { c with depth := c.depth + 1 } seen o) :
      Trace (nested cause r) c (c :: (seen ++ [stop (leave o)])) (leave o)
  | rounds {α : Type} {reader : Nat → Reader α} {c : Cursor} {seen : List Cursor}
      {o : EStateM.Result SyntaxError Cursor α} (h : Trace (reader (c.ahead.length + 1)) c seen o) :
      Trace (withRounds reader) c seen o

namespace Trace

variable {α : Type} {r : Reader α} {c : Cursor} {seen : List Cursor}
  {o : EStateM.Result SyntaxError Cursor α}

/-- A trace ends as the reader does. -/
theorem eq (h : Trace r c seen o) : r c = o := by
  induction h with
  | pure | refuse | peek | advance => rfl
  | next _ _ ih ih' => exact (bind_ok ih).trans ih'
  | refused _ ih => exact bind_error ih
  | tooDeep h => rw [nested, if_pos h]
  | @deeper _ _ _ _ _ o hd _ ih =>
    rw [nested, if_neg (Nat.not_le.2 hd), ih]
    cases o <;> rfl
  | rounds _ ih => exact ih

theorem depth_advance (c : Cursor) : c.advance.depth = c.depth := by
  rw [Cursor.advance]
  split <;> rfl

theorem depth_leave (o : EStateM.Result SyntaxError Cursor α) :
    (stop (leave o)).depth = (stop o).depth - 1 := by
  cases o <;> rfl

/-- Only `nested` changes the count of open levels. It looks at the count first, and takes back what it
added whether its reader yields a value or an error. -/
theorem depth (h : Trace r c seen o) : c.depth ≤ maxNesting →
    (stop o).depth = c.depth ∧ ∀ c' ∈ seen, c'.depth ≤ maxNesting := by
  induction h with
  | pure | refuse | peek => exact fun hc => ⟨rfl, List.forall_mem_singleton.2 hc⟩
  | @advance c =>
    intro hc
    have hadvance := depth_advance c
    refine ⟨hadvance, List.forall_mem_cons.2 ⟨hc, List.forall_mem_singleton.2 ?_⟩⟩
    exact hadvance ▸ hc
  | next _ _ ih ih' =>
    intro hc
    obtain ⟨hmiddle, hseen⟩ := ih hc
    obtain ⟨hend, hseen'⟩ := ih' (hmiddle ▸ hc)
    exact ⟨hend.trans hmiddle, List.forall_mem_append.2 ⟨hseen, hseen'⟩⟩
  | refused _ ih => exact ih
  | tooDeep _ => exact fun hc => ⟨rfl, List.forall_mem_singleton.2 hc⟩
  | @deeper _ _ _ c _ o hd _ ih =>
    intro hc
    obtain ⟨hinner, hseen⟩ := ih hd
    have hend : (stop (leave o)).depth = c.depth := by
      rw [depth_leave, hinner, Nat.add_sub_cancel]
    refine ⟨hend, List.forall_mem_cons.2 ⟨hc, List.forall_mem_append.2 ⟨hseen, ?_⟩⟩⟩
    exact List.forall_mem_singleton.2 (hend ▸ hc)
  | rounds _ ih => exact ih

end Trace

/-- The reader has a trace from every cursor. -/
def Traced {α : Type} (r : Reader α) : Prop :=
  ∀ c, ∃ seen o, Trace r c seen o

namespace Traced

variable {α β : Type} {r : Reader α}

theorem pure {a : α} : Traced (pure a : Reader α) := fun _ => ⟨_, _, .pure⟩

theorem refuse {cause : Cause} : Traced (refuse cause : Reader α) := fun _ => ⟨_, _, .refuse⟩

theorem peek : Traced peek? := fun _ => ⟨_, _, .peek⟩

theorem advance : Traced advance := fun _ => ⟨_, _, .advance⟩

theorem bind {f : α → Reader β} (hr : Traced r) (hf : ∀ a, Traced (f a)) : Traced (r >>= f) := by
  intro c
  obtain ⟨seen, o, h⟩ := hr c
  cases o with
  | error e c' => exact ⟨_, _, .refused h⟩
  | ok a c' =>
    obtain ⟨seen', o, h'⟩ := hf a c'
    exact ⟨_, _, .next h h'⟩

theorem nested {cause : Cause} (hr : Traced r) : Traced (nested cause r) := by
  intro c
  by_cases hd : c.depth < maxNesting
  · obtain ⟨seen, o, h⟩ := hr { c with depth := c.depth + 1 }
    exact ⟨_, _, .deeper hd h⟩
  · exact ⟨_, _, .tooDeep (Nat.le_of_not_lt hd)⟩

theorem withRounds {reader : Nat → Reader α} (h : ∀ n, Traced (reader n)) :
    Traced (withRounds reader) := by
  intro c
  obtain ⟨seen, o, h⟩ := h (c.ahead.length + 1) c
  exact ⟨_, _, .rounds h⟩

theorem ite {P : Prop} [Decidable P] {r' : Reader α} (h : Traced r) (h' : Traced r') :
    Traced (if P then r else r') := by
  split
  · exact h
  · exact h'

/-! ## Small readers -/

/-- Accepting is looking and then moving. -/
theorem accept_eq (test : Token → Bool) : accept test = (do
    match ← peek? with
    | some t =>
      if test t then
        Grammar.advance
        return true
      else return false
    | none => return false) := by
  funext c
  obtain ⟨p, depth, ahead⟩ := c
  cases ahead with
  | nil => rfl
  | cons t l =>
    rw [peek_bind]
    by_cases ht : test t = true
    · simp only [accept, ht, if_true, List.head?_cons]
      rfl
    · simp only [accept, ht, List.head?_cons]
      rfl

theorem accept {test : Token → Bool} : Traced (accept test) := by
  rw [accept_eq]
  refine .bind .peek fun next => ?_
  cases next with
  | none => exact .pure
  | some t => exact .ite (.bind .advance fun _ => .pure) .pure

theorem symbol {c : Char} {place : Place} : Traced (expectSymbol c place) :=
  .bind .accept fun _ => .ite .pure .refuse

theorem name {place : Place} : Traced (expectName place) := by
  refine .bind .peek fun next => ?_
  cases next with
  | none => exact .refuse
  | some t => exact .ite (.bind .advance fun _ => .pure) .refuse

theorem type {allowed : List Ty} {place : Place} : Traced (expectType allowed place) := by
  refine .bind .peek fun next => ?_
  split
  · exact .bind .advance fun _ => .pure
  · exact .refuse

/-! ## Expressions -/

variable {inner : Reader Measured}

theorem grow {below : Nat} : Traced (grow below) := .ite .refuse .pure

theorem primary (h : Traced inner) : Traced (primary inner) := by
  refine .bind .peek fun next => ?_
  cases next with
  | none => exact .refuse
  | some t =>
    obtain ⟨kind, text⟩ := t
    have hgroup : Traced (do
        let e ← Grammar.nested .expressionTooDeep do
          Grammar.advance
          inner
        expectSymbol ')' .afterExpression
        return e) :=
      .bind (.nested (.bind .advance fun _ => h)) fun _ => .bind .symbol fun _ => .pure
    cases kind with
    | number | identifier => exact .bind .advance fun _ => .pure
    | symbol | keyword | unknown => exact .ite hgroup .refuse

theorem unary (h : Traced inner) : Traced (unary inner) :=
  .bind .accept fun _ =>
    .ite (.bind (.primary h) fun _ => .bind .grow fun _ => .pure) (.primary h)

mutual

theorem binary : ∀ n least : Nat, Traced (binary n least)
  | 0, _ => .refuse
  | n + 1, least => by
    rw [Grammar.binary]
    exact .bind (.unary (binary n 0)) fun left => climb n least left

theorem climb : ∀ (n least : Nat) (left : Measured), Traced (climb n least left)
  | 0, _, _ => .pure
  | n + 1, least, left => by
    rw [Grammar.climb]
    refine .bind (.bind .peek fun _ => .pure) fun next => ?_
    cases next with
    | none => exact .pure
    | some op =>
      refine .ite .pure (.bind .advance fun _ => ?_)
      exact .bind (binary n _) fun _ => .bind .grow fun _ => climb n least _

end

theorem expression (n : Nat) : Traced (expression n) := .bind (binary n 0) fun _ => .pure

/-! ## Statements -/

theorem assigned (n : Nat) {x : String} {p q : Place} : Traced (assigned n x p q) :=
  .bind .symbol fun _ => .bind (.expression n) fun _ => .bind .symbol fun _ => .pure

theorem declaration (n : Nat) : Traced (declaration n) :=
  .bind .type fun _ => .bind .name fun _ => .assigned n

theorem assignment (n : Nat) : Traced (assignment n) :=
  .bind .name fun _ => .assigned n

theorem returned (n : Nat) : Traced (returned n) :=
  .bind (.expression n) fun _ => .bind .symbol fun _ => .pure

theorem condition (n : Nat) (word : Guard) : Traced (condition n word) :=
  .bind .symbol fun _ => .bind (.expression n) fun _ => .bind .symbol fun _ => .pure

section Inner

variable {inner : Reader (List Node)} (h : Traced inner)

include h

theorem braced (body : Body) : Traced (braced body inner) :=
  .bind (.nested (.bind .symbol fun _ => h)) fun _ => .bind .symbol fun _ => .pure

theorem ifRest (n : Nat) : Traced (ifRest n inner) := by
  refine .bind (.condition n _) fun _ => .bind (.braced h _) fun _ => .bind .accept fun _ => ?_
  exact .ite (.bind (.braced h _) fun _ => .pure) .pure

theorem whileRest (n : Nat) : Traced (whileRest n inner) :=
  .bind (.condition n _) fun _ => .bind (.braced h _) fun _ => .pure

theorem statement (n : Nat) : Traced (statement n inner) := by
  refine .bind .peek fun next => ?_
  cases next with
  | none => exact .refuse
  | some t =>
    refine .ite (.declaration n) (.ite (.bind .advance fun _ => .ifRest h n) ?_)
    refine .ite (.bind .advance fun _ => .whileRest h n) ?_
    exact .ite (.bind .advance fun _ => .returned n) (.ite (.assignment n) .refuse)

end Inner

theorem statements : ∀ n : Nat, Traced (statements n)
  | 0 => .pure
  | n + 1 => by
    rw [Grammar.statements]
    refine .bind .peek fun next => ?_
    cases next with
    | none => exact .pure
    | some t =>
      have ih := statements n
      exact .ite .pure (.bind (.statement ih n) fun _ => .bind ih fun _ => .pure)

/-! ## Functions -/

theorem parameters : ∀ n : Nat, Traced (parameters n)
  | 0 => .pure
  | n + 1 => by
    rw [Grammar.parameters]
    refine .bind .peek fun next => ?_
    split
    · exact .pure
    · refine .bind .type fun _ => .bind .name fun _ => ?_
      exact .bind (parameters n) fun _ => .pure

theorem definition (n : Nat) : Traced (definition n) := by
  refine .bind .type fun _ => .bind .name fun _ => .bind .symbol fun _ => ?_
  refine .bind (.parameters n) fun _ => .bind .symbol fun _ => .bind .symbol fun _ => ?_
  exact .bind (.statements n) fun _ => .bind .symbol fun _ => .pure

theorem functions : ∀ n : Nat, Traced (functions n)
  | 0 => .pure
  | n + 1 => by
    rw [Grammar.functions]
    refine .bind (.definition n) fun _ => .bind .peek fun next => ?_
    cases next with
    | none => exact .pure
    | some t => exact .bind (functions n) fun _ => .pure

theorem program : Traced program := by
  -- `definitions` is no reader, since it also gives what was read before an error
  have hprogram : Grammar.program =
      Grammar.withRounds fun n => Grammar.functions n >>= fun fs => Pure.pure ⟨fs⟩ := by
    funext c
    rw [program_eq, map_eq_pure_bind]
    rfl
  rw [hprogram]
  exact .withRounds fun n => .bind (.functions n) fun _ => .pure

theorem singleFunction : Traced singleFunction := by
  refine .bind (.withRounds .definition) fun _ => .bind .peek fun next => ?_
  cases next with
  | none => exact .pure
  | some t => exact .refuse

end Traced

/-! ## Methods -/

/-- The readers of the phrases of the grammar, by what they yield. -/
inductive Method : Type → Type
  | program : Method Program
  | singleFunction : Method Node
  | definition (rounds : Nat) : Method Node
  | parameters (rounds : Nat) : Method (List Param)
  | statements (rounds : Nat) : Method (List Node)
  | statement (rounds : Nat) : Method Node
  | declaration (rounds : Nat) : Method Node
  | assignment (rounds : Nat) : Method Node
  | returned (rounds : Nat) : Method Node
  | ifRest (rounds : Nat) : Method Node
  | whileRest (rounds : Nat) : Method Node
  | condition (rounds : Nat) (word : Guard) : Method Node
  | braced (rounds : Nat) (body : Body) : Method (List Node)
  | expression (rounds : Nat) : Method Node
  | binary (rounds least : Nat) : Method Measured
  | unary (rounds : Nat) : Method Measured
  | primary (rounds : Nat) : Method Measured

namespace Method

def read {α : Type} : Method α → Reader α
  | program => Grammar.program
  | singleFunction => Grammar.singleFunction
  | definition rounds => Grammar.definition rounds
  | parameters rounds => Grammar.parameters rounds
  | statements rounds => Grammar.statements rounds
  | statement rounds => Grammar.statement rounds (Grammar.statements rounds)
  | declaration rounds => Grammar.declaration rounds
  | assignment rounds => Grammar.assignment rounds
  | returned rounds => Grammar.returned rounds
  | ifRest rounds => Grammar.ifRest rounds (Grammar.statements rounds)
  | whileRest rounds => Grammar.whileRest rounds (Grammar.statements rounds)
  | condition rounds word => Grammar.condition rounds word
  | braced rounds body => Grammar.braced body (Grammar.statements rounds)
  | expression rounds => Grammar.expression rounds
  | binary rounds least => Grammar.binary rounds least
  | unary rounds => Grammar.unary (Grammar.binary rounds 0)
  | primary rounds => Grammar.primary (Grammar.binary rounds 0)

theorem traced {α : Type} (q : Method α) : Traced q.read := by
  cases q with
  | program => exact .program
  | singleFunction => exact .singleFunction
  | definition n => exact .definition n
  | parameters n => exact .parameters n
  | statements n => exact .statements n
  | statement n => exact .statement (.statements n) n
  | declaration n => exact .declaration n
  | assignment n => exact .assignment n
  | returned n => exact .returned n
  | ifRest n => exact .ifRest (.statements n) n
  | whileRest n => exact .whileRest (.statements n) n
  | condition n word => exact .condition n word
  | braced n body => exact .braced (.statements n) body
  | expression n => exact .expression n
  | binary n least => exact .binary n least
  | unary n => exact .unary (.binary n 0)
  | primary n => exact .primary (.binary n 0)

end Method

end ThreeAddress.Grammar

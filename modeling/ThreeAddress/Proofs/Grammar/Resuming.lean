import ThreeAddress.Proofs.Grammar.Completeness

/-!
# Reading on

A reader that was asked for a program or for a single function can be asked again, whether it
succeeded or failed: it stands at a token of the stream with no nesting level open, and reads on as
a new reader reads the tokens that are left (`requests_resume`).

That every reader ends so is part of how readers read (`Reads.run`); `Request.run` says it of the
two requests, and `Standing` is what one request after the other keeps.
-/

namespace ThreeAddress.Grammar

/-- What a reader can be asked for. -/
inductive Request where
  | program
  | singleFunction
  deriving DecidableEq, Repr

/-- What answers a request. -/
def Request.Answer : Request → Type
  | .program => Program
  | .singleFunction => Node

def Request.read : (q : Request) → Reader q.Answer
  | .program => Grammar.program
  | .singleFunction => Grammar.singleFunction

/-- Where a reading stopped. -/
def stop {α : Type} : EStateM.Result SyntaxError Cursor α → Cursor
  | .ok _ c => c
  | .error _ c => c

/-- Where a request leaves the cursor. -/
def Request.after (c : Cursor) (q : Request) : Cursor :=
  stop (q.read c)

/-- The outcome with `n` more tokens in front of all places. -/
def further {α : Type} (n : Nat) :
    EStateM.Result SyntaxError Cursor α → EStateM.Result SyntaxError Cursor α
  | .ok a c => .ok a { c with position := n + c.position }
  | .error e c => .error { e with position := n + e.position } { c with position := n + c.position }

/-! ## One request -/

theorem program_eq (c : Cursor) :
    program c = (Program.mk <$> functions (c.ahead.length + 1)) c := by
  show program c = EStateM.map Program.mk (functions (c.ahead.length + 1)) c
  rw [program, EStateM.map, functions_eq]
  rcases definitions (c.ahead.length + 1) c with ⟨fs, c' | c'⟩ <;> rfl

/-- A request moves past some tokens, from wherever the stream is read. -/
theorem Request.run (q : Request) (ahead : List Token) : ∃ used rest o, ahead = used ++ rest ∧
    ∀ p, q.read ⟨p, 0, ahead⟩ = ending o ⟨p + used.length, 0, rest⟩ := by
  cases q with
  | program =>
    have hreads := functions_reads (ahead.length + 1) 0 0 (Nat.zero_le _)
    obtain ⟨used, rest, o, hs, hr, -, -⟩ := hreads.run ahead trivial (Nat.lt_succ_self _)
    refine ⟨used, rest, o.map Program.mk, hs, fun p => ?_⟩
    show Grammar.program _ = _
    rw [program_eq]
    show EStateM.map Program.mk _ _ = _
    rw [EStateM.map, hr]
    cases o <;> rfl
  | singleFunction =>
    have hreads := definition_reads (ahead.length + 1) 0 0 (Nat.zero_le _)
    obtain ⟨used, rest, o, hs, hr, -, -⟩ := hreads.run ahead trivial (by omega)
    cases o with
    | error cause => exact ⟨used, rest, .error cause, hs, fun p => bind_error (hr p)⟩
    | ok f =>
      cases rest with
      | nil => exact ⟨used, [], .ok f, hs, fun p => bind_ok (hr p)⟩
      | cons t l =>
        exact ⟨used, t :: l, .error .afterFunction, hs, fun p => bind_ok (hr p)⟩

/-! ## One request after the other -/

/-- A cursor between two requests: it is as far in the stream as its position says, and no nesting
level is open. -/
structure Standing (tokens : List Token) (c : Cursor) : Prop where
  depth : c.depth = 0
  place : ∃ passed, tokens = passed ++ c.ahead ∧ c.position = passed.length

namespace Standing

variable {tokens : List Token} {c : Cursor}

theorem start (tokens : List Token) : Standing tokens (Cursor.start tokens) :=
  ⟨rfl, [], rfl, rfl⟩

theorem ahead_eq (h : Standing tokens c) : c.ahead = tokens.drop c.position := by
  obtain ⟨-, passed, hs, hp⟩ := h
  rw [hs, hp, List.drop_left]

theorem position_le (h : Standing tokens c) : c.position ≤ tokens.length := by
  obtain ⟨-, passed, hs, hp⟩ := h
  rw [hs, hp, List.length_append]
  exact Nat.le_add_right ..

/-- A request reads on as from the start of the tokens that are left. -/
theorem read_eq (h : Standing tokens c) (q : Request) :
    q.read c = further c.position (q.read (Cursor.start (tokens.drop c.position))) := by
  obtain ⟨used, rest, o, -, hr⟩ := q.run c.ahead
  have hstart : q.read (Cursor.start c.ahead) = ending o ⟨0 + used.length, 0, rest⟩ := hr 0
  have hc : c = ⟨c.position, 0, c.ahead⟩ := by rw [← h.depth]
  rw [← h.ahead_eq, hstart]
  conv => lhs; rw [hc]
  rw [hr, Nat.zero_add]
  cases o <;> rfl

theorem after (h : Standing tokens c) (q : Request) :
    Standing tokens (q.after c) ∧ c.position ≤ (q.after c).position := by
  obtain ⟨used, rest, o, hs, hr⟩ := q.run c.ahead
  obtain ⟨hd, passed, htokens, hp⟩ := h
  have hafter : q.after c = ⟨c.position + used.length, 0, rest⟩ := by
    have hc : c = ⟨c.position, 0, c.ahead⟩ := by rw [← hd]
    rw [hc, Request.after, hr]
    cases o <;> rfl
  rw [hafter]
  refine ⟨⟨rfl, passed ++ used, ?_, ?_⟩, Nat.le_add_right ..⟩
  · rw [htokens, hs, List.append_assoc]
  · rw [List.length_append, hp]

theorem afterAll (h : Standing tokens c) (requests : List Request) :
    Standing tokens (requests.foldl Request.after c) := by
  induction requests generalizing c with
  | nil => exact h
  | cons q requests ih => exact ih (h.after q).1

end Standing

/-- After any requests, whatever came of them, the cursor stands inside the stream with no nesting
level open, and the next request moves it on and does what it does at the start of the tokens that
are left: the same answer, or the same error at a place that counts from there. -/
theorem requests_resume (tokens : List Token) (requests : List Request) (q : Request) :
    let c := requests.foldl Request.after (Cursor.start tokens)
    c.depth = 0 ∧ c.position ≤ tokens.length ∧ c.ahead = tokens.drop c.position ∧
      c.position ≤ (q.after c).position ∧
      q.read c = further c.position (q.read (Cursor.start (tokens.drop c.position))) := by
  intro c
  have h : Standing tokens c := (Standing.start tokens).afterAll requests
  exact ⟨h.depth, h.position_le, h.ahead_eq, (h.after q).2, h.read_eq q⟩

end ThreeAddress.Grammar

import ThreeAddress.Command.Run

/-!
# What a command leaves behind

A command has one text to give, or none (`Answers`): none if its file cannot be read or is no text,
or if the tokens of that text are not accepted by the reader that the command asks for. It gives the
whole text to one place and succeeds, or fails and leaves nothing (`all_or_nothing`). How much it
logs makes no difference to that.
-/

namespace ThreeAddress.Command

/-! ## Texts and reports -/

/-- A file is read as a text exactly if it has the bytes of that text. -/
theorem decode_eq_ok {found : Found} {source : String} :
    found.decode = .ok source ↔ found = .ok source.toUTF8 := by
  cases found with
  | error reason => simp [Found.decode]
  | ok bytes =>
    have hbytes : String.fromUTF8? bytes = some source ↔ bytes = source.toUTF8 := by
      constructor
      · intro h
        unfold String.fromUTF8? at h
        split at h
        · obtain rfl := Option.some.inj h
          rfl
        · cases h
      · rintro rfl
        exact dif_pos source.isValidUTF8
    rw [Except.ok.injEq, ← hbytes, Found.decode]
    cases String.fromUTF8? bytes <;> simp

/-- The text of one kind of report, and of all of them under their titles. -/
def requested (c : Compilation) : Emission → String
  | .tokens => Report.tokens c.tokens
  | .tree => Report.tree c.program
  | .tables => Report.inventory c.inventory
  | .code => Report.code c.code
  | .everything =>
    "== Tokens ==\n" ++ Report.tokens c.tokens ++ "\n== AST ==\n" ++ Report.tree c.program ++
      "\n== Symbols ==\n" ++ Report.inventory c.inventory ++ "\n== TAC ==\n" ++ Report.code c.code

theorem reports_eq (c : Compilation) (e : Emission) : reports c e = requested c e := by
  unfold reports requested
  -- The reports are not to be evaluated, only where they stand.
  generalize Report.tokens c.tokens = tokens
  generalize Report.tree c.program = tree
  generalize Report.inventory c.inventory = tables
  generalize Report.code c.code = code
  cases e with
  | tokens => rfl
  | tree => rfl
  | tables => rfl
  | code => rfl
  | everything =>
    change "== Tokens ==\n" ++ tokens ++ "\n" ++ ("== AST ==\n" ++ tree) ++ "\n" ++
      ("== Symbols ==\n" ++ tables) ++ "\n" ++ ("== TAC ==\n" ++ code) = _
    have htree : "\n" ++ "== AST ==\n" = "\n== AST ==\n" := rfl
    have htables : "\n" ++ "== Symbols ==\n" = "\n== Symbols ==\n" := rfl
    have hcode : "\n" ++ "== TAC ==\n" = "\n== TAC ==\n" := rfl
    simp only [← htree, ← htables, ← hcode, String.append_assoc]

/-! ## A command's text -/

/-- The text that a command has to give for what was found at its input path. -/
inductive Answers (a : Arguments) : Found → String → Prop
  | accepted {source : String} : a.arithmetic = true →
      Grammar.checkArithmetic (Token.tokenizeSource source) = .ok () →
      Answers a (.ok source.toUTF8) "accepted\n"
  | reported {source : String} {program : Program} : a.arithmetic = false →
      Program.ofTokens (Token.tokenizeSource source) = .ok program →
      Answers a (.ok source.toUTF8)
        (requested ⟨Token.tokenizeSource source, program, program.inventory,
          program.code a.options⟩ a.emission)

variable {a b : Arguments} {found : Found} {text : String}

/-- The text depends on the reader that is asked for and, when that is the one of programs, on the
options and the kind of report; on nothing else. -/
theorem Answers.congr (h : Answers a found text) (harithmetic : b.arithmetic = a.arithmetic)
    (hreports : a.arithmetic = false → b.options = a.options ∧ b.emission = a.emission) :
    Answers b found text := by
  cases h with
  | accepted ha hcheck => exact .accepted (harithmetic.trans ha) hcheck
  | reported ha hread =>
    obtain ⟨hoptions, hemission⟩ := hreports ha
    rw [← hoptions, ← hemission]
    exact .reported (harithmetic.trans ha) hread

theorem action_of_unreadable {reason : String} (h : found.decode = .error reason) :
    (plan a found).action = .fail := by
  simp only [plan, h]

theorem action_of_arithmetic (source : String) (ha : a.arithmetic = true) :
    (plan a (.ok source.toUTF8)).action =
      match Grammar.checkArithmetic (Token.tokenizeSource source) with
      | .error _ => .fail
      | .ok _ => deliver a "accepted\n" := by
  unfold plan
  simp only [decode_eq_ok.2 rfl, ha, if_true]
  unfold planArithmetic
  dsimp only
  cases Grammar.checkArithmetic (Token.tokenizeSource source) <;> rfl

theorem action_of_compilation (source : String) (ha : a.arithmetic = false)
    (hinspect : a.inspect = false) :
    (plan a (.ok source.toUTF8)).action =
      match Program.ofTokens (Token.tokenizeSource source) with
      | .error _ => .fail
      | .ok program => deliver a (requested ⟨Token.tokenizeSource source, program,
          program.inventory, program.code a.options⟩ a.emission) := by
  unfold plan
  simp only [decode_eq_ok.2 rfl, ha, hinspect, Bool.false_eq_true, if_false]
  unfold planCompilation Compilation.ofTokens
  dsimp only
  cases Program.ofTokens (Token.tokenizeSource source) with
  | error e => rfl
  | ok program => exact congrArg (deliver a) (reports_eq ..)

/-- A command with a text delivers it. -/
theorem Answers.action (h : Answers a found text) (hinspect : a.inspect = false) :
    (plan a found).action = deliver a text := by
  cases h with
  | accepted ha hcheck => rw [action_of_arithmetic _ ha, hcheck]
  | reported ha hread => rw [action_of_compilation _ ha hinspect, hread]

/-- A command without a text fails. -/
theorem action_eq_fail (hnone : ∀ text, ¬Answers a found text) (hinspect : a.inspect = false) :
    (plan a found).action = .fail := by
  cases hdecode : found.decode with
  | error reason => exact action_of_unreadable hdecode
  | ok source =>
    obtain rfl := decode_eq_ok.1 hdecode
    cases ha : a.arithmetic with
    | true =>
      rw [action_of_arithmetic source ha]
      cases hcheck : Grammar.checkArithmetic (Token.tokenizeSource source) with
      | error e => rfl
      | ok _ => exact absurd (.accepted ha hcheck) (hnone _)
    | false =>
      rw [action_of_compilation source ha hinspect]
      cases hread : Program.ofTokens (Token.tokenizeSource source) with
      | error e => rfl
      | ok program => exact absurd (.reported ha hread) (hnone _)

/-! ## Outcomes -/

/-- What a command leaves behind, if a path can be written unless there is a `refusal`. -/
def Arguments.outcome (a : Arguments) (found : Found) (refusal : String → Option String) :
    Outcome :=
  (plan a found).finish refusal

/-- Success with a text at one place, the file that is named or else the standard output, and
nothing at any other. -/
inductive Outcome.Delivers : Outcome → Option String → String → Prop
  | printed (text : String) (log : List Record) : Delivers ⟨0, text, none, log⟩ none text
  | written (path text : String) (log : List Record) :
      Delivers ⟨0, "", some (path, text), log⟩ (some path) text

/-- Failure with nothing printed and nothing written. -/
structure Outcome.Fails (left : Outcome) : Prop where
  exitCode : left.exitCode = 1
  printed : left.printed = ""
  written : left.written = none

/-- Two outcomes that differ in nothing but their logs. -/
structure Outcome.SameEffect (left right : Outcome) : Prop where
  exitCode : left.exitCode = right.exitCode
  printed : left.printed = right.printed
  written : left.written = right.written

theorem Outcome.Delivers.unique {left : Outcome} {output : Option String} {text other : String}
    (h : left.Delivers output text) (hother : left.Delivers output other) : text = other := by
  cases h <;> cases hother <;> rfl

theorem Outcome.Delivers.not_fails {left : Outcome} {output : Option String}
    (h : left.Delivers output text) : ¬left.Fails := by
  intro hfails
  cases h <;> cases hfails.exitCode

theorem sameEffect_finish {p q : Plan} (h : p.action = q.action)
    (refusal : String → Option String) : (p.finish refusal).SameEffect (q.finish refusal) := by
  simp only [Plan.finish, h]
  cases q.action with
  | fail => exact ⟨rfl, rfl, rfl⟩
  | print text => exact ⟨rfl, rfl, rfl⟩
  | inspect source o => exact ⟨rfl, rfl, rfl⟩
  | write path text =>
    dsimp only
    cases refusal path <;> exact ⟨rfl, rfl, rfl⟩

theorem delivers_finish {p : Plan} (h : p.action = deliver a text)
    {refusal : String → Option String} (hwritable : ∀ path ∈ a.output, refusal path = none) :
    (p.finish refusal).Delivers a.output text := by
  simp only [Plan.finish, h, deliver]
  cases ho : a.output with
  | none => exact .printed text _
  | some path =>
    simp only [hwritable path ho]
    exact .written path text _

theorem fails_finish {p : Plan} (h : p.action = .fail) (refusal : String → Option String) :
    (p.finish refusal).Fails := by
  simp only [Plan.finish, h]
  exact ⟨rfl, rfl, rfl⟩

/-- A command with a text delivers that one, and a command without a text fails. -/
theorem delivers_iff {refusal : String → Option String} (hinspect : a.inspect = false)
    (hwritable : ∀ path ∈ a.output, refusal path = none) :
    (a.outcome found refusal).Delivers a.output text ↔ Answers a found text := by
  constructor
  · intro h
    by_cases hanswer : ∃ other, Answers a found other
    · obtain ⟨other, hother⟩ := hanswer
      obtain rfl := h.unique (delivers_finish (hother.action hinspect) hwritable)
      exact hother
    · have hfail := action_eq_fail (not_exists.1 hanswer) hinspect
      exact absurd (fails_finish hfail refusal) h.not_fails
  · intro h
    exact delivers_finish (h.action hinspect) hwritable

/-- The plan of a check of arithmetic has nothing to do with reports and options. -/
theorem action_of_arithmetic_congr (ha : a.arithmetic = true) (emission : Emission)
    (compatible : Bool) :
    (plan { a with emission, compatible } found).action = (plan a found).action := by
  cases hdecode : found.decode with
  | error reason => rw [action_of_unreadable hdecode, action_of_unreadable hdecode]
  | ok source =>
    obtain rfl := decode_eq_ok.1 hdecode
    rw [action_of_arithmetic source ha,
      action_of_arithmetic (a := { a with emission, compatible }) source ha]
    rfl

/-- A command that shows no inspector, and whose output file if any can be written, succeeds and
leaves its whole text at one place, or has no text, fails and leaves nothing. Its text is the same
for a file as for the standard output; it does not depend on how much is logged, and when arithmetic
is checked it does not depend on the kind of report and on the options. -/
theorem all_or_nothing (a : Arguments) (found : Found) (refusal : String → Option String)
    (hinspect : a.inspect = false) (hwritable : ∀ path ∈ a.output, refusal path = none) :
    (∀ text, (a.outcome found refusal).Delivers a.output text ↔ Answers a found text) ∧
    ((∀ text, ¬Answers a found text) → (a.outcome found refusal).Fails) ∧
    (∀ path, refusal path = none → ∀ text,
      ({ a with output := some path }.outcome found refusal).Delivers (some path) text ↔
        ({ a with output := none }.outcome found refusal).Delivers none text) ∧
    (∀ verbosity quiet,
      { a with verbosity, quiet }.outcome found refusal = a.outcome found refusal) ∧
    (a.arithmetic = true → ∀ emission compatible,
      ({ a with emission, compatible }.outcome found refusal).SameEffect
        (a.outcome found refusal)) := by
  refine ⟨fun text => delivers_iff hinspect hwritable, ?_, ?_, ?_, ?_⟩
  · intro hnone
    exact fails_finish (action_eq_fail hnone hinspect) refusal
  · intro path hpath text
    have hfile : ({ a with output := some path }.outcome found refusal).Delivers (some path) text ↔
        Answers { a with output := some path } found text :=
      delivers_iff hinspect fun _ h => Option.some.inj h ▸ hpath
    have hstandard : ({ a with output := none }.outcome found refusal).Delivers none text ↔
        Answers { a with output := none } found text :=
      delivers_iff hinspect fun _ h => nomatch h
    rw [hfile, hstandard]
    exact ⟨fun h => h.congr rfl fun _ => ⟨rfl, rfl⟩, fun h => h.congr rfl fun _ => ⟨rfl, rfl⟩⟩
  · intro verbosity quiet
    rfl
  · intro ha emission compatible
    exact sameEffect_finish (action_of_arithmetic_congr ha emission compatible) refusal

/-- A sum whose verdict goes to a file, and the same command if there is no file to read. -/
theorem all_or_nothing_sum :
    let a : Arguments :=
      { input := "sum.txt", output := some "verdict.txt", arithmetic := true }
    let refusal : String → Option String := fun _ => none
    (a.outcome (.ok "1+2".toUTF8) refusal).Delivers (some "verdict.txt") "accepted\n" ∧
      ({ a with output := none }.outcome (.ok "1+2".toUTF8) refusal).Delivers none "accepted\n" ∧
      ({ a with emission := .code, compatible := true }.outcome (.ok "1+2".toUTF8)
        refusal).SameEffect (a.outcome (.ok "1+2".toUTF8) refusal) ∧
      (a.outcome (.error "No such file or directory (os error 2)") refusal).Fails := by
  intro a refusal
  have hsum := all_or_nothing a (.ok "1+2".toUTF8) refusal rfl fun _ _ => rfl
  have hmissing := all_or_nothing a (.error "No such file or directory (os error 2)") refusal rfl
    fun _ _ => rfl
  have haccepted : Grammar.checkArithmetic (Token.tokenizeSource "1+2") = .ok () := by rfl
  have hdelivers := (hsum.1 "accepted\n").2 (.accepted rfl haccepted)
  exact ⟨hdelivers, (hsum.2.2.1 "verdict.txt" rfl _).1 hdelivers, hsum.2.2.2.2 rfl .code true,
    hmissing.2.1 fun text h => nomatch h⟩

end ThreeAddress.Command

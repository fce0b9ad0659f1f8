import ThreeAddress.Report
import ThreeAddress.Text.Lines

/-!
# Lines of a report

A report is cut into its lines again (`pieces_ofLines`, `lines_ofLines`), so two reports are the
same text only if they have the same lines (`ofLines_inj`). The line of a tree shows how deep it is indented
(`depthOf_indented`).
-/

namespace ThreeAddress.Report

open Text

/-! ## One line after the other -/

/-- A text without a line feed. -/
def OneLine (text : String) : Prop := '\n' ∉ text.toList

instance (text : String) : Decidable (OneLine text) :=
  inferInstanceAs (Decidable ('\n' ∉ text.toList))

@[simp] theorem oneLine_append {s t : String} : OneLine (s ++ t) ↔ OneLine s ∧ OneLine t := by
  simp only [OneLine, String.toList_append, List.mem_append, not_or]

theorem pieces_line {line : List Char} (h : '\n' ∉ line) (text : List Char) :
    pieces (line ++ '\n' :: text) = line :: pieces text := by
  induction line with
  | nil => rfl
  | cons c line ih =>
    rw [List.mem_cons, not_or] at h
    obtain ⟨hc, hline⟩ := h
    have hlater := ih hline
    unfold pieces at hlater ⊢
    rw [List.cons_append, List.foldr_cons, hlater, if_neg (Ne.symm hc)]

theorem ofLines_cons (l : String) (ls : List String) :
    ofLines (l :: ls) = l ++ ("\n" ++ ofLines ls) := by
  simp [ofLines, String.append_assoc]

/-- The pieces of a report are its lines, and nothing stands after the last one. -/
theorem pieces_ofLines {ls : List String} (h : ∀ l ∈ ls, OneLine l) :
    pieces (ofLines ls).toList = ls.map String.toList ++ [[]] := by
  induction ls with
  | nil => rfl
  | cons l ls ih =>
    obtain ⟨hl, hls⟩ := List.forall_mem_cons.1 h
    have hshape : (ofLines (l :: ls)).toList = l.toList ++ '\n' :: (ofLines ls).toList := by
      simp [ofLines_cons]
    rw [hshape, pieces_line hl, ih hls]
    rfl

theorem ofLines_inj {ls ls' : List String} (h : ∀ l ∈ ls, OneLine l) (h' : ∀ l ∈ ls', OneLine l)
    (heq : ofLines ls = ofLines ls') : ls = ls' := by
  have hpieces := pieces_ofLines h
  rw [heq, pieces_ofLines h', List.append_cancel_right_eq] at hpieces
  exact ((List.map_inj_right fun _ _ => String.toList_injective).1 hpieces).symm

section
variable {α : Type} {line : α → String} {Readable : α → Prop}

theorem eq_of_map_line_eq (hline : ∀ a b, Readable a → Readable b → line a = line b → a = b) :
    ∀ {as bs : List α}, (∀ a ∈ as, Readable a) → (∀ b ∈ bs, Readable b) →
      as.map line = bs.map line → as = bs
  | [], [], _, _, _ => rfl
  | [], _ :: _, _, _, h => by cases h
  | _ :: _, [], _, _, h => by cases h
  | a :: as, b :: bs, has, hbs, h => by
    obtain ⟨ha, has⟩ := List.forall_mem_cons.1 has
    obtain ⟨hb, hbs⟩ := List.forall_mem_cons.1 hbs
    obtain ⟨hfirst, hlater⟩ := List.cons.inj h
    rw [hline a b ha hb hfirst, eq_of_map_line_eq hline has hbs hlater]

/-- Where a line says what it shows, a report says what all its lines show. -/
theorem ofLines_map_inj (hone : ∀ a, Readable a → OneLine (line a))
    (hline : ∀ a b, Readable a → Readable b → line a = line b → a = b) {as bs : List α}
    (has : ∀ a ∈ as, Readable a) (hbs : ∀ b ∈ bs, Readable b)
    (heq : ofLines (as.map line) = ofLines (bs.map line)) : as = bs := by
  have hlines := ofLines_inj (List.forall_mem_map.2 fun a ha => hone a (has a ha))
    (List.forall_mem_map.2 fun b hb => hone b (hbs b hb)) heq
  exact eq_of_map_line_eq hline has hbs hlines

end

theorem lines_go_append_nil : ∀ {ls : List (List Char)}, (∀ l ∈ ls, l.getLast? ≠ some '\r') →
    lines.go (ls ++ [[]]) = ls
  | [], _ => rfl
  | [l], h => by
    have hl : dropReturn l = l := if_neg (h l (List.mem_singleton_self l))
    rw [List.singleton_append, lines.go, hl]
    rfl
  | l :: l' :: ls, h => by
    obtain ⟨hl, hls⟩ := List.forall_mem_cons.1 h
    have hl : dropReturn l = l := if_neg hl
    rw [List.cons_append, List.cons_append, lines.go, hl, ← List.cons_append,
      lines_go_append_nil hls]

/-- The lines of a report, if none of them ends in a carriage return. -/
theorem lines_ofLines {ls : List String} (h : ∀ l ∈ ls, OneLine l)
    (hreturn : ∀ l ∈ ls, l.toList.getLast? ≠ some '\r') :
    lines (ofLines ls).toList = ls.map String.toList := by
  rw [lines, pieces_ofLines h]
  exact lines_go_append_nil (List.forall_mem_map.2 hreturn)

/-! ## Indented lines -/

/-- How deep a line is indented. -/
def depthOf (line : String) : Nat :=
  (line.toList.takeWhile (· = ' ')).length / 2

theorem depthOf_indented {text : String} (h : text.toList.head? ≠ some ' ') (depth : Nat) :
    depthOf (indented depth text) = depth := by
  have hstart : text.toList.takeWhile (· = ' ') = [] := by
    cases htext : text.toList with
    | nil => rfl
    | cons c cs =>
      have hc : c ≠ ' ' := by
        rintro rfl
        simp [htext] at h
      simp [hc]
  have hspaces : ∀ c ∈ List.replicate (2 * depth) ' ', decide (c = ' ') = true := by
    intro c hc
    simpa using List.eq_of_mem_replicate hc
  rw [depthOf, indented, String.toList_append, String.toList_ofList,
    List.takeWhile_append_of_pos hspaces, hstart, List.append_nil, List.length_replicate]
  omega

theorem indented_injective (depth : Nat) : Function.Injective (indented depth) := by
  intro s t h
  have hlist := congrArg String.toList h
  rw [indented, indented, String.toList_append, String.toList_append,
    List.append_cancel_left_eq] at hlist
  exact String.toList_injective hlist

@[simp] theorem oneLine_indented {depth : Nat} {text : String} :
    OneLine (indented depth text) ↔ OneLine text := by
  have hspaces : OneLine (String.ofList (List.replicate (2 * depth) ' ')) := by
    simp [OneLine]
  simp [indented, hspaces]

end ThreeAddress.Report

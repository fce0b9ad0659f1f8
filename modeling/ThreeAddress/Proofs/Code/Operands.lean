import ThreeAddress.Proofs.Code.Evaluation

/-!
# The code of operands

Running the code that computes an operand changes only the temporaries that the code is numbered
with, and leaves the value of the expression in the operand (`Plain.operand_steps`). The operand
keeps that value while later temporaries change (`Plain.read_congr`).
-/

namespace ThreeAddress

open Code

variable {V : Type*}

/-! ## Code inside code -/

/-- The instructions of `part` stand in `code` from `a` on. -/
def CodeAt (code part : List Instruction) (a : Nat) : Prop :=
  ∀ i ins, part[i]? = some ins → code[a + i]? = some ins

section
variable {code s t : List Instruction} {a : Nat} {ins : Instruction}

theorem CodeAt.self : CodeAt code code 0 := fun i ins h => by rwa [Nat.zero_add]

theorem CodeAt.of_eq {b : Nat} (h : CodeAt code s a) (hab : a = b) : CodeAt code s b := hab ▸ h

theorem CodeAt.left (h : CodeAt code (s ++ t) a) : CodeAt code s a := fun i ins hi =>
  h i ins (by rw [List.getElem?_append_left (List.getElem?_eq_some_iff.1 hi).1, hi])

theorem CodeAt.right (h : CodeAt code (s ++ t) a) : CodeAt code t (a + s.length) := by
  intro i ins hi
  rw [Nat.add_assoc]
  refine h _ ins ?_
  rw [List.getElem?_append_right (Nat.le_add_right ..), Nat.add_sub_cancel_left, hi]

theorem CodeAt.head (h : CodeAt code (ins :: t) a) : code[a]? = some ins := h 0 ins rfl

theorem CodeAt.tail (h : CodeAt code (ins :: t) a) : CodeAt code t (a + 1) := by
  intro i j hi
  rw [Nat.add_assoc, Nat.add_comm 1]
  exact h (i + 1) j hi

end

/-! ## Temporaries -/

/-- A temporary with a number above `lo` and not above `hi`. -/
def Temporary (lo hi : Nat) (x : String) : Prop := ∃ i, lo < i ∧ i ≤ hi ∧ x = temporaryName i

/-- Stores that differ at most in the temporaries between `lo` and `hi`. -/
def Agree (lo hi : Nat) (s u : Store V) : Prop := ∀ x, ¬Temporary lo hi x → s x = u x

theorem Temporary.mono {lo hi lo' hi' : Nat} {x : String} (h : Temporary lo hi x) (hl : lo' ≤ lo)
    (hh : hi ≤ hi') : Temporary lo' hi' x := by
  obtain ⟨i, hi₁, hi₂, rfl⟩ := h
  exact ⟨i, by omega, by omega, rfl⟩

theorem Temporary.looksTemporary {lo hi : Nat} {x : String} (h : Temporary lo hi x) :
    LooksTemporary x := by
  obtain ⟨i, -, -, rfl⟩ := h
  exact looksTemporary_temporaryName i

namespace Agree

variable {lo hi : Nat} {s t u : Store V}

theorem refl (s : Store V) : Agree lo hi s s := fun _ _ => rfl

theorem trans (h : Agree lo hi s t) (h' : Agree lo hi t u) : Agree lo hi s u := fun x hx =>
  (h x hx).trans (h' x hx)

theorem mono {lo' hi' : Nat} (h : Agree lo hi s u) (hl : lo' ≤ lo) (hh : hi ≤ hi') :
    Agree lo' hi' s u := fun x hx => h x fun ht => hx (ht.mono hl hh)

theorem names (h : Agree lo hi s u) {x : String} (hx : ¬LooksTemporary x) : s x = u x :=
  h x fun ht => hx ht.looksTemporary

/-- The same change in both stores. -/
theorem set (h : Agree lo hi s u) (x : String) (v : V) : Agree lo hi (s.set x v) (u.set x v) := by
  intro y hy
  by_cases hyx : y = x
  · simp only [Store.set, hyx, if_true]
  · simp only [Store.set, hyx, if_false]
    exact h y hy

/-- A change of a temporary. -/
theorem set_temporary (s : Store V) {i : Nat} (v : V) (hl : lo < i) (hh : i ≤ hi) :
    Agree lo hi s (s.set (temporaryName i) v) := by
  intro y hy
  have hyx : y ≠ temporaryName i := fun h => hy ⟨i, hl, hh, h⟩
  simp only [Store.set, hyx, if_false]

end Agree

/-! ## Operands -/

theorem Node.le_temporaries (k : Nat) (e : Node) : k ≤ (e.operand k).temporaries := by
  fun_induction Node.operand k e with
  | case3 used op left right l r t hl hr => exact Nat.le_succ_of_le (Nat.le_trans hl hr)
  | case4 used value v t hv => exact Nat.le_succ_of_le hv
  | _ => exact Nat.le_refl _

namespace Plain

variable {m : Domain V}

theorem read_temporary (u : Store V) (i : Nat) :
    m.read u (temporaryName i) = u (temporaryName i) := by
  simp only [Domain.read, isNumeral_temporaryName, isQuotedText_temporaryName]
  rfl

theorem read_set_temporary (u : Store V) (i : Nat) (v : V) :
    m.read (u.set (temporaryName i) v) (temporaryName i) = v := by
  rw [read_temporary, Store.set, if_pos rfl]

/-- An operand keeps its value while later temporaries change. -/
theorem read_congr {e : Node} (he : Plain e) {k hi : Nat} {s u : Store V}
    (h : Agree (e.operand k).temporaries hi s u) :
    m.read s (e.operand k).name = m.read u (e.operand k).name := by
  have htemp : ∀ i ≤ (e.operand k).temporaries, m.read s (temporaryName i) =
      m.read u (temporaryName i) := by
    intro i hi
    rw [read_temporary, read_temporary]
    refine h _ ?_
    rintro ⟨j, hj, -, hji⟩
    have := temporaryName_injective hji
    omega
  cases he with
  | number ht => simp [Node.operand, Domain.read, ht]
  | quoted ht hq => simp [Node.operand, Domain.read, ht, hq]
  | name ht hq hx => simpa [Node.operand, Domain.read, ht, hq] using h.names hx
  | binary => exact htemp _ (Nat.le_refl _)
  | negate => exact htemp _ (Nat.le_refl _)

/-- The code of an operand computes the value of the expression. -/
theorem operand_steps {code : List Instruction} {e : Node} (he : Plain e) :
    ∀ {k a : Nat} {u : Store V}, CodeAt code (e.operand k).code a →
    ∃ u', Steps m code (e.operand k).code.length ⟨a, u⟩ ⟨a + (e.operand k).code.length, u'⟩ ∧
      Agree k (e.operand k).temporaries u u' ∧
      e.value m u = some (m.read u' (e.operand k).name) := by
  induction he with
  | number ht =>
    intro k a u _
    exact ⟨u, .refl _, .refl u, by simp [Node.value, Node.operand, Domain.read, ht]⟩
  | quoted ht hq =>
    intro k a u _
    exact ⟨u, .refl _, .refl u, by simp [Node.value, Node.operand, Domain.read, ht, hq]⟩
  | name ht hq hx =>
    intro k a u _
    exact ⟨u, .refl _, .refl u, by simp [Node.value, Node.operand, Domain.read, ht, hq]⟩
  | @binary op left right hl hr ihl ihr =>
    intro k a u hc
    obtain ⟨u₁, hs₁, ha₁, hv₁⟩ := ihl (u := u) hc.left.left
    obtain ⟨u₂, hs₂, ha₂, hv₂⟩ := ihr (u := u₁) hc.left.right
    have hk := left.le_temporaries k
    have hl' := right.le_temporaries (left.operand k).temporaries
    -- the right operand is computed without touching the left one
    rw [hl.read_congr ha₂] at hv₁
    rw [← hr.value_congr fun x hx => ha₁.names hx] at hv₂
    have hstep := step_operator m (u := u₂) (List.length_append ▸ hc.right).head
    have hs := (hs₁.trans hs₂).trans (.one (by simpa [Nat.add_assoc] using hstep))
    refine ⟨_, by simpa [Node.operand, Nat.add_assoc] using hs, ?_, ?_⟩
    · have hbefore : Agree k (right.operand (left.operand k).temporaries).temporaries u u₂ :=
        (ha₁.mono (Nat.le_refl k) hl').trans (ha₂.mono hk (Nat.le_refl _))
      exact (hbefore.mono (Nat.le_refl k) (Nat.le_succ _)).trans
        (.set_temporary u₂ _ (Nat.lt_succ_of_le (Nat.le_trans hk hl')) (Nat.le_refl _))
    · rw [Node.value, hv₁, hv₂]
      exact congrArg some (read_set_temporary ..).symm
  | @negate operand h ih =>
    intro k a u hc
    obtain ⟨u₁, hs, ha, hv⟩ := ih (u := u) hc.left
    have hk := operand.le_temporaries k
    have hs := hs.trans (.one (step_minus m (u := u₁) hc.right.head))
    refine ⟨_, by simpa [Node.operand, Nat.add_assoc] using hs, ?_, ?_⟩
    · exact (ha.mono (Nat.le_refl k) (Nat.le_succ _)).trans
        (.set_temporary u₁ _ (Nat.lt_succ_of_le hk) (Nat.le_refl _))
    · rw [Node.value, hv]
      exact congrArg some (read_set_temporary ..).symm

end Plain

end ThreeAddress

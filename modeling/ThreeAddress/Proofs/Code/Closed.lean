import Mathlib.Data.List.Nodup
import Mathlib.Data.List.Perm.Basic
import ThreeAddress.Proofs.Code.Labels

/-!
# Emitted code is closed and well labelled

Each branch and each loop puts two labels and two jumps into the code, and every jump goes to a
label of the same construct. The parts:

* `labelled`: the labels are the numbers from the counter on, two for each construct, and the jumps
  go to each of them once;
* `framed`: the construct emitted `j`-th has the labels `2 * j + 1` and `2 * j + 2`, counted from 0
  (`Owns`), and every jump is one of the two of a construct.
-/

namespace ThreeAddress

open Code

/-! ## The labels of a code list -/

/-- The names of the `m` labels after the first `n`. -/
def labelNames (n m : Nat) : List String := (List.range' (n + 1) m).map labelName

theorem labelNames_nodup (n m : Nat) : (labelNames n m).Nodup :=
  List.Nodup.map labelName_injective List.nodup_range'

theorem labelNames_add (n a b : Nat) :
    labelNames n (a + b) = labelNames n a ++ labelNames (n + a) b := by
  rw [labelNames, ← List.range'_append_1, List.map_append]
  simp [labelNames, Nat.add_right_comm]

theorem labelNames_two_add (n m : Nat) :
    labelNames n (2 + m) = labelName (n + 1) :: labelName (n + 2) :: labelNames (n + 2) m := by
  rw [labelNames_add]
  rfl

/-- The labels of code emitted from `k` on with `m` constructs, and its jumps. -/
structure Labelled (k : Counters) (m : Nat) (e : Emitted) : Prop where
  counters : e.counters.labels = k.labels + 2 * m
  labels : (labels e.code).Perm (labelNames k.labels (2 * m))
  targets : (targets e.code).Perm (Code.labels e.code)

section
variable {p : Polarity} {v : Operand} {x y : Nat} {f g : Emitted}

theorem labels_branch (hv : Quiet v.code) : labels (Emitted.branch p v x y f g).code =
    labels f.code ++ labelName x :: (labels g.code ++ [labelName y]) := by
  simp [Emitted.branch, hv.labels_eq]

theorem targets_branch (hv : Quiet v.code) : targets (Emitted.branch p v x y f g).code =
    labelName x :: (targets f.code ++ labelName y :: targets g.code) := by
  simp [Emitted.branch, hv.targets_eq]

theorem labels_loop (hv : Quiet v.code) : labels (Emitted.loop p v x y f).code =
    labelName x :: (labels f.code ++ [labelName y]) := by
  simp [Emitted.loop, hv.labels_eq]

theorem targets_loop (hv : Quiet v.code) : targets (Emitted.loop p v x y f).code =
    labelName y :: (targets f.code ++ [labelName x]) := by
  simp [Emitted.loop, hv.targets_eq]

end

theorem labelled_rule (o : Options) : EmissionRule o fun k cs e => Labelled k cs.length e where
  quiet hk hq := ⟨by simpa using hk, by simp [hq.labels_eq, labelNames],
    by rw [hq.labels_eq, hq.targets_eq]⟩
  append {k cs ds a b} ha hb := by
    refine ⟨?_, ?_, ?_⟩
    · rw [hb.counters, ha.counters, List.length_append]
      omega
    · have hl := ha.labels.append hb.labels
      rwa [ha.counters, ← labelNames_add, ← Nat.mul_add, ← List.length_append, ← labels_append]
        at hl
    · simpa using ha.targets.append hb.targets
  branch {k c t e fs gs v f g} hv hf hg _ := by
    have hfl := List.perm_iff_count.1 hf.labels
    have hgl := List.perm_iff_count.1 hg.labels
    have hft := List.perm_iff_count.1 hf.targets
    have hgt := List.perm_iff_count.1 hg.targets
    have hm : 2 * (Node.branch c t e :: (fs ++ gs)).length =
        2 + (2 * fs.length + 2 * gs.length) := by
      simp only [List.length_cons, List.length_append]
      omega
    rw [hf.counters] at hgl
    refine ⟨?_, List.perm_iff_count.2 fun x => ?_, List.perm_iff_count.2 fun x => ?_⟩
    · rw [hm]
      simp only [Emitted.branch, hg.counters, hf.counters]
      omega
    · rw [hm, labelNames_two_add, labelNames_add, labels_branch hv]
      simp only [List.count_append, List.count_cons, List.count_nil, hfl x, hgl x]
      omega
    · rw [labels_branch hv, targets_branch hv]
      simp only [List.count_append, List.count_cons, List.count_nil, hft x, hgt x]
      omega
  loop {k c body fs v f} hv hf _ := by
    have hfl := List.perm_iff_count.1 hf.labels
    have hft := List.perm_iff_count.1 hf.targets
    have hm : 2 * (Node.loop c body :: fs).length = 2 + 2 * fs.length := by
      rw [List.length_cons]
      omega
    refine ⟨?_, List.perm_iff_count.2 fun x => ?_, List.perm_iff_count.2 fun x => ?_⟩
    · rw [hm]
      simp only [Emitted.loop, hf.counters]
      omega
    · rw [hm, labelNames_two_add, labels_loop hv]
      simp only [List.count_append, List.count_cons, List.count_nil, hfl x]
      omega
    · rw [labels_loop hv, targets_loop hv]
      simp only [List.count_append, List.count_cons, List.count_nil, hft x]
      omega

/-! ## The marks of a construct -/

/-- Where the code of a construct begins, where its condition jumps, where its first region jumps
away, and where its code ends. -/
structure Marks where
  first : Nat
  guard : Nat
  leave : Nat
  last : Nat

/-- The marks later by `d`. -/
def Marks.shift (m : Marks) (d : Nat) : Marks :=
  ⟨d + m.first, d + m.guard, d + m.leave, d + m.last⟩

/-- The labels and jumps of a construct with the labels `n + 1` and `n + 2`. -/
inductive Marked (code : List Instruction) (n : Nat) (m : Marks) : Node → Prop
  | branch {c : Node} {t e : List Node} (order : m.first ≤ m.guard ∧ m.guard < m.leave)
      (inside : m.leave + 1 < m.last) (guard : JumpAt code m.guard (labelName (n + 1)))
      (leave : code[m.leave]? = some (.goto (labelName (n + 2))))
      (jumped : code[m.leave + 1]? = some (.label (labelName (n + 1))))
      (last : code[m.last]? = some (.label (labelName (n + 2)))) :
      Marked code n m (.branch c t e)
  | loop {c : Node} {body : List Node} (order : m.first < m.guard ∧ m.guard < m.leave)
      (inside : m.leave + 1 = m.last) (first : code[m.first]? = some (.label (labelName (n + 1))))
      (guard : JumpAt code m.guard (labelName (n + 2)))
      (leave : code[m.leave]? = some (.goto (labelName (n + 1))))
      (last : code[m.last]? = some (.label (labelName (n + 2)))) :
      Marked code n m (.loop c body)

/-- The construct `node` has the labels `n + 1` and `n + 2`: its code, emitted when `n` labels were
in use, stands in `code` from its first to its last mark. -/
structure Owns (o : Options) (code : List Instruction) (n : Nat) (m : Marks) (node : Node) :
    Prop where
  emitted : ∃ (k : Counters) (pre post : List Instruction), k.labels = n ∧
    code = pre ++ (node.emit o k).code ++ post ∧ pre.length = m.first ∧
    m.first + (node.emit o k).code.length = m.last + 1
  marked : Marked code n m node

section
variable {o : Options} {code : List Instruction} {n : Nat} {m : Marks} {node : Node}

theorem getElem?_inside (pre post : List Instruction) {i : Nat} {ins : Instruction}
    (h : code[i]? = some ins) : (pre ++ code ++ post)[pre.length + i]? = some ins := by
  have hi := (List.getElem?_eq_some_iff.1 h).1
  rw [List.append_assoc, List.getElem?_append_right (by omega), Nat.add_sub_cancel_left,
    List.getElem?_append_left hi, h]

theorem Marked.inside (h : Marked code n m node) (pre post : List Instruction) :
    Marked (pre ++ code ++ post) n (m.shift pre.length) node := by
  cases h with
  | branch order inside guard leave jumped last =>
    obtain ⟨ins, hi, ht⟩ := guard
    refine .branch ?_ ?_ ⟨ins, getElem?_inside pre post hi, ht⟩ (getElem?_inside pre post leave)
      (getElem?_inside pre post jumped) (getElem?_inside pre post last)
    · simp only [Marks.shift]; omega
    · simp only [Marks.shift]; omega
  | loop order inside first guard leave last =>
    obtain ⟨ins, hi, ht⟩ := guard
    refine .loop ?_ ?_ (getElem?_inside pre post first) ⟨ins, getElem?_inside pre post hi, ht⟩
      (getElem?_inside pre post leave) (getElem?_inside pre post last)
    · simp only [Marks.shift]; omega
    · simp only [Marks.shift]; omega

/-- A construct keeps its labels in longer code. -/
theorem Owns.inside (h : Owns o code n m node) (pre post : List Instruction) :
    Owns o (pre ++ code ++ post) n (m.shift pre.length) node := by
  obtain ⟨⟨k, p, q, hk, rfl, hp, hl⟩, hm⟩ := h
  refine ⟨⟨k, pre ++ p, q ++ post, hk, by simp, ?_, ?_⟩, hm.inside pre post⟩
  · simp only [Marks.shift, List.length_append, hp]
  · simp only [Marks.shift]
    omega

end

/-- The constructs `cs` own the labels after `n` two by two, and every jump is one of theirs. -/
structure Framed (o : Options) (code : List Instruction) (n : Nat) (cs : List Node) : Prop where
  owns : ∀ j node, cs[j]? = some node → ∃ m, Owns o code (n + 2 * j) m node
  jumps : ∀ i x, JumpAt code i x → ∃ j node m, cs[j]? = some node ∧
    Owns o code (n + 2 * j) m node ∧ (i = m.guard ∨ i = m.leave)

namespace Framed

variable {o : Options} {a b : List Instruction} {n : Nat} {cs ds : List Node}

theorem quiet (h : Quiet a) : Framed o a n [] :=
  ⟨fun j node hj => by simp at hj, fun i x hi => absurd hi (not_jumpAt h.targets_eq)⟩

theorem append (ha : Framed o a n cs) (hb : Framed o b (n + 2 * cs.length) ds) :
    Framed o (a ++ b) n (cs ++ ds) := by
  have left : ∀ {m k node}, Owns o a k m node → Owns o (a ++ b) k (m.shift 0) node :=
    fun h => h.inside [] b
  have right : ∀ {m k node}, Owns o b k m node → Owns o (a ++ b) k (m.shift a.length) node :=
    fun h => by simpa using h.inside a []
  refine ⟨fun j node hj => ?_, fun i x hi => ?_⟩
  · rw [List.getElem?_append] at hj
    split at hj
    · obtain ⟨m, hm⟩ := ha.owns j node hj
      exact ⟨_, left hm⟩
    · obtain ⟨m, hm⟩ := hb.owns _ node hj
      rw [show n + 2 * cs.length + 2 * (j - cs.length) = n + 2 * j by omega] at hm
      exact ⟨_, right hm⟩
  · rcases at_append.1 hi with hia | ⟨i, rfl, hib⟩
    · obtain ⟨j, node, m, hj, hm, hp⟩ := ha.jumps i x hia
      refine ⟨j, node, _, ?_, left hm, by simpa [Marks.shift] using hp⟩
      rw [List.getElem?_append_left (List.getElem?_eq_some_iff.1 hj).1, hj]
    · obtain ⟨j, node, m, hj, hm, hp⟩ := hb.jumps i x hib
      refine ⟨cs.length + j, node, m.shift a.length, ?_, ?_, ?_⟩
      · rw [List.getElem?_append_right (by omega), Nat.add_sub_cancel_left, hj]
      · rw [Nat.mul_add, ← Nat.add_assoc]
        exact right hm
      · simpa [Marks.shift] using hp

/-- A construct around two parts: its own two jumps are the only others. -/
theorem wrap {node : Node} {m : Marks} {pre mid post : List Instruction}
    (hown : Owns o (pre ++ a ++ mid ++ b ++ post) n m node) (ha : Framed o a (n + 2) cs)
    (hb : Framed o b (n + 2 + 2 * cs.length) ds) (hpre : ∀ i x, JumpAt pre i x → i = m.guard)
    (hmid : ∀ i x, JumpAt mid i x → pre.length + a.length + i = m.leave)
    (hpost : targets post = []) :
    Framed o (pre ++ a ++ mid ++ b ++ post) n (node :: (cs ++ ds)) := by
  have left : ∀ {m k node}, Owns o a k m node →
      Owns o (pre ++ a ++ mid ++ b ++ post) k (m.shift pre.length) node :=
    fun h => by simpa using h.inside pre (mid ++ (b ++ post))
  have right : ∀ {m k node}, Owns o b k m node →
      Owns o (pre ++ a ++ mid ++ b ++ post) k (m.shift (pre ++ a ++ mid).length) node :=
    fun h => h.inside (pre ++ a ++ mid) post
  refine ⟨fun j c hj => ?_, fun i x hi => ?_⟩
  · cases j with
    | zero =>
      cases hj
      exact ⟨m, hown⟩
    | succ j =>
      rw [List.getElem?_cons_succ, List.getElem?_append] at hj
      split at hj
      · obtain ⟨m', hm⟩ := ha.owns j c hj
        rw [show n + 2 + 2 * j = n + 2 * (j + 1) by omega] at hm
        exact ⟨_, left hm⟩
      · obtain ⟨m', hm⟩ := hb.owns _ c hj
        rw [show n + 2 + 2 * cs.length + 2 * (j - cs.length) = n + 2 * (j + 1) by omega] at hm
        exact ⟨_, right hm⟩
  · rcases at_append.1 hi with hi₁ | ⟨j, -, hi₁⟩
    · rcases at_append.1 hi₁ with hi₂ | ⟨j, rfl, hi₂⟩
      · rcases at_append.1 hi₂ with hi₃ | ⟨j, rfl, hi₃⟩
        · rcases at_append.1 hi₃ with hi₄ | ⟨j, rfl, hi₄⟩
          · exact ⟨0, node, m, rfl, hown, .inl (hpre i x hi₄)⟩
          · obtain ⟨l, c, m', hl, hm, hp⟩ := ha.jumps j x hi₄
            refine ⟨l + 1, c, m'.shift pre.length, ?_, ?_, by simpa [Marks.shift] using hp⟩
            · rw [List.getElem?_cons_succ, List.getElem?_append_left
                (List.getElem?_eq_some_iff.1 hl).1, hl]
            · rw [show n + 2 + 2 * l = n + 2 * (l + 1) by omega] at hm
              exact left hm
        · rw [List.length_append]
          exact ⟨0, node, m, rfl, hown, .inr (hmid j x hi₃)⟩
      · obtain ⟨l, c, m', hl, hm, hp⟩ := hb.jumps j x hi₂
        refine ⟨cs.length + l + 1, c, m'.shift (pre ++ a ++ mid).length, ?_, ?_,
          by simpa [Marks.shift] using hp⟩
        · rw [List.getElem?_cons_succ, List.getElem?_append_right (by omega),
            Nat.add_sub_cancel_left, hl]
        · rw [show n + 2 + 2 * cs.length + 2 * l = n + 2 * (cs.length + l + 1) by omega] at hm
          exact right hm
    · exact absurd hi₁ (not_jumpAt hpost)

end Framed

theorem getElem?_split {code a b : List Instruction} {ins : Instruction} {i : Nat}
    (h : code = a ++ ins :: b) (hi : i = a.length) : code[i]? = some ins := by
  subst h hi
  simp

/-- The one jump of a list that ends in it. -/
theorem jumpAt_concat {code : List Instruction} (h : targets code = []) {ins : Instruction}
    {i : Nat} {x : String} (hi : JumpAt (code ++ [ins]) i x) : i = code.length := by
  rcases at_append.1 hi with hi | ⟨j, rfl, hj⟩
  · exact absurd hi (not_jumpAt h)
  · rcases at_cons.1 hj with ⟨rfl, -⟩ | ⟨j, -, hj⟩
    · rfl
    · exact absurd hj at_nil

/-- The one jump of a jump before a label. -/
theorem jumpAt_goto_label {x y z : String} {i : Nat}
    (hi : JumpAt [.goto x, .label y] i z) : i = 0 := by
  rcases at_cons.1 hi with ⟨rfl, -⟩ | ⟨j, -, hj⟩
  · rfl
  · simp [at_cons] at hj

theorem framed_rule (o : Options) :
    EmissionRule o fun k cs e => Labelled k cs.length e ∧ Framed o e.code k.labels cs where
  quiet hk hq := ⟨(labelled_rule o).quiet hk hq, .quiet hq⟩
  append ha hb := ⟨(labelled_rule o).append ha.1 hb.1, ha.2.append (ha.1.counters ▸ hb.2)⟩
  branch {k c t e fs gs v f g} hv hf hg hemit := by
    obtain ⟨hfl, hff⟩ := hf
    obtain ⟨hgl, hgf⟩ := hg
    refine ⟨(labelled_rule o).branch hv hfl hgl hemit, ?_⟩
    rw [hfl.counters] at hgf
    have hcode : (Emitted.branch o.polarity v (k.labels + 1) (k.labels + 2) f g).code =
        v.code ++ [o.polarity.jump v.name (labelName (k.labels + 1))] ++ f.code ++
          [.goto (labelName (k.labels + 2)), .label (labelName (k.labels + 1))] ++ g.code ++
          [.label (labelName (k.labels + 2))] := by
      simp [Emitted.branch]
    rw [hcode]
    refine Framed.wrap (m := ⟨0, v.code.length, v.code.length + 1 + f.code.length,
      v.code.length + 1 + f.code.length + 2 + g.code.length⟩) ⟨⟨k, [], [], rfl, ?_, rfl, ?_⟩, ?_⟩
      hff hgf (fun i x hi => jumpAt_concat hv.targets_eq hi)
      (fun i x hi => ?_) (by simp)
    · rw [hemit, hcode, List.nil_append, List.append_nil]
    · rw [hemit, hcode]
      simp only [List.length_append, List.length_cons, List.length_nil]
      omega
    · refine .branch ⟨Nat.zero_le _, by simp only; omega⟩ (by simp only; omega) ?_ ?_ ?_ ?_
      · exact ⟨o.polarity.jump v.name (labelName (k.labels + 1)),
          getElem?_split (a := v.code) (by simp; rfl) rfl, by simp⟩
      · exact getElem?_split
          (a := v.code ++ [o.polarity.jump v.name (labelName (k.labels + 1))] ++ f.code)
          (by simp; rfl) (by simp; omega)
      · exact getElem?_split
          (a := v.code ++ [o.polarity.jump v.name (labelName (k.labels + 1))] ++ f.code ++
            [.goto (labelName (k.labels + 2))]) (by simp; rfl) (by simp; omega)
      · exact getElem?_split (b := []) rfl (by simp; omega)
    · rw [jumpAt_goto_label hi]
      simp
  loop {k c body fs v f} hv hf hemit := by
    obtain ⟨hfl, hff⟩ := hf
    refine ⟨(labelled_rule o).loop hv hfl hemit, ?_⟩
    have hcode : (Emitted.loop o.polarity v (k.labels + 1) (k.labels + 2) f).code =
        [.label (labelName (k.labels + 1))] ++ v.code ++
          [o.polarity.jump v.name (labelName (k.labels + 2))] ++ f.code ++
          [.goto (labelName (k.labels + 1)), .label (labelName (k.labels + 2))] ++ [] ++ [] := by
      simp [Emitted.loop]
    rw [hcode, ← List.append_nil fs]
    refine Framed.wrap (b := []) (m := ⟨0, v.code.length + 1, v.code.length + 2 + f.code.length,
      v.code.length + 2 + f.code.length + 1⟩) ⟨⟨k, [], [], rfl, ?_, rfl, ?_⟩, ?_⟩
      hff (.quiet Quiet.nil) (fun i x hi => ?_) (fun i x hi => ?_) targets_nil
    · rw [hemit, hcode]
      simp
    · rw [hemit, hcode]
      simp only [List.length_append, List.length_cons, List.length_nil]
      omega
    · refine .loop ⟨Nat.succ_pos _, by simp only; omega⟩ rfl ?_ ?_ ?_ ?_
      · rfl
      · exact ⟨o.polarity.jump v.name (labelName (k.labels + 2)),
          getElem?_split (a := .label (labelName (k.labels + 1)) :: v.code) (by simp; rfl) rfl,
          by simp⟩
      · exact getElem?_split
          (a := .label (labelName (k.labels + 1)) :: v.code ++
            [o.polarity.jump v.name (labelName (k.labels + 2))] ++ f.code)
          (by simp; rfl) (by simp; omega)
      · exact getElem?_split (b := [])
          (a := .label (labelName (k.labels + 1)) :: v.code ++
            [o.polarity.jump v.name (labelName (k.labels + 2))] ++ f.code ++
            [.goto (labelName (k.labels + 1))]) (by simp) (by simp; omega)
    · rw [jumpAt_concat (by simp [hv.targets_eq]) hi]
      simp
    · rw [jumpAt_goto_label hi]
      simp only [List.length_append, List.length_cons, List.length_nil]
      omega

/-! ## The closed code -/

theorem Labelled.count_eq_one {k : Counters} {m : Nat} {e : Emitted} (h : Labelled k m e)
    {x : String} (hx : x ∈ Code.labels e.code) :
    (Code.labels e.code).count x = 1 ∧ (Code.targets e.code).count x = 1 := by
  have hn := h.labels.nodup_iff.2 (labelNames_nodup k.labels (2 * m))
  have hl := List.count_eq_one_of_mem hn hx
  exact ⟨hl, by rw [h.targets.count_eq, hl]⟩

/-- Of the jumps of a construct only the last jump of a loop goes back. -/
theorem Marked.jump_back {code : List Instruction} {n : Nat} {m : Marks} {node : Node}
    (h : Marked code n m node) (hu : ∀ i x, JumpAt code i x → ∃! l, LabelAt code l x)
    {i l : Nat} {x : String} (hp : i = m.guard ∨ i = m.leave) (hi : JumpAt code i x)
    (hx : LabelAt code l x) (hli : l ≤ i) :
    ∃ c body, node = .loop c body ∧ i = m.leave ∧ l = m.first := by
  -- the label of the jump at `j` is at `r` and nowhere else
  have at_label : ∀ {j r y}, i = j → JumpAt code j y → code[r]? = some (.label y) → l = r := by
    intro j r y hij hj hr
    subst hij
    rw [at_unique hi hj] at hx
    exact (hu i y hj).unique hx ⟨_, hr, Instruction.labelName?_label y⟩
  cases h with
  | branch order inside guard leave jumped last =>
    rcases hp with hp | hp
    · have := at_label hp guard jumped
      omega
    · have := at_label hp ⟨_, leave, Instruction.target?_goto _⟩ last
      omega
  | loop order inside first guard leave last =>
    rcases hp with hp | hp
    · have := at_label hp guard last
      omega
    · exact ⟨_, _, rfl, hp, at_label hp ⟨_, leave, Instruction.target?_goto _⟩ first⟩

/-- The labels and jumps of nodes emitted one after the other. The labels are the first `2 * k`
names for `k` constructs, two for each in the order of emission; jumps and labels go together one
to one; a jump stays inside the code of the node it was emitted for; and the jumps back are those
from the end of a loop to its start. -/
theorem emitted_code_closed (o : Options) (nodes : List Node) :
    let code := (Node.emitAll o {} nodes).code
    let made := Node.constructsAll o.polarity nodes
    (labels code).Perm (labelNames 0 (2 * made.length)) ∧
      (∀ j node, made[j]? = some node → ∃ m, Owns o code (2 * j) m node) ∧
      (∀ i x, JumpAt code i x → ∃! l, LabelAt code l x) ∧
      (∀ l x, LabelAt code l x → ∃! i, JumpAt code i x) ∧
      (∀ (k : Counters) (node : Node) (i : Nat) (x : String),
        JumpAt (node.emit o k).code i x → ∃ l, LabelAt (node.emit o k).code l x) ∧
      (∀ i l x, JumpAt code i x → LabelAt code l x → l ≤ i →
        ∃ j condition body m, made[j]? = some (.loop condition body) ∧
          Owns o code (2 * j) m (.loop condition body) ∧ i = m.leave ∧ l = m.first) := by
  intro code made
  obtain ⟨hl, hf⟩ := (framed_rule o).emitAll nodes {}
  have hown : ∀ j node, made[j]? = some node → ∃ m, Owns o code (2 * j) m node := by
    simpa using hf.owns
  have hlabel : ∀ i x, JumpAt code i x → ∃! l, LabelAt code l x := fun i x hi =>
    existsUnique_at_of_count
      (hl.count_eq_one (hl.targets.mem_iff.1 (at_iff_mem.1 ⟨i, hi⟩))).1
  refine ⟨hl.labels, hown, hlabel, fun l x hx => ?_, fun k node i x hi => ?_,
    fun i l x hi hx hli => ?_⟩
  · exact existsUnique_at_of_count (hl.count_eq_one (at_iff_mem.1 ⟨l, hx⟩)).2
  · have hn := ((labelled_rule o).emit node k).targets
    exact at_iff_mem.2 (hn.mem_iff.1 (at_iff_mem.1 ⟨i, hi⟩))
  · obtain ⟨j, node, m, hj, ho, hp⟩ := hf.jumps i x hi
    obtain ⟨c, body, rfl, hleave, hfirst⟩ := ho.marked.jump_back hlabel hp hi hx hli
    exact ⟨j, c, body, m, hj, by simpa using ho, hleave, hfirst⟩

end ThreeAddress

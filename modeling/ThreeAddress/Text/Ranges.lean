/-!
# Ranges of code points

A property of characters is given as closed ranges of code points in ascending order, so that a
search may stop at the first range that begins after the code point (`inRanges_iff`).
-/

namespace ThreeAddress.Text

/-- Does a character lie in one of the ranges? -/
def inRanges : List (Nat × Nat) → Char → Bool
  | [], _ => false
  | r :: later, c => r.1 ≤ c.toNat && (c.toNat ≤ r.2 || inRanges later c)

theorem inRanges_iff {ranges : List (Nat × Nat)} {c : Char}
    (h : ranges.Pairwise fun r s => r.1 ≤ s.1) :
    inRanges ranges c = true ↔ ∃ r ∈ ranges, r.1 ≤ c.toNat ∧ c.toNat ≤ r.2 := by
  induction ranges with
  | nil => simp [inRanges]
  | cons r later ih =>
    obtain ⟨hr, hl⟩ := List.pairwise_cons.1 h
    simp only [inRanges, Bool.and_eq_true, Bool.or_eq_true, decide_eq_true_eq, ih hl,
      List.mem_cons, exists_eq_or_imp]
    constructor
    · rintro ⟨h1, h2 | h2⟩
      · exact .inl ⟨h1, h2⟩
      · exact .inr h2
    · rintro (⟨h1, h2⟩ | ⟨s, hs, h1, h2⟩)
      · exact ⟨h1, .inl h2⟩
      · exact ⟨Nat.le_trans (hr s hs) h1, .inr ⟨s, hs, h1, h2⟩⟩

end ThreeAddress.Text

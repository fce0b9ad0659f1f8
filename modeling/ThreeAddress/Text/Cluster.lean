import ThreeAddress.Text.Cluster.Role

/-!
# Clusters of characters

What a reader takes for one character may be several: a letter with marks, a Hangul syllable, a
conjunct, a flag, a sequence of emoji. Such clusters are the extended grapheme clusters of Unicode.

A text is cut between two characters unless `Seam.joins` holds there. A seam says what stands before
it, so far as later cuts depend on that. Nothing is lost (`clusters_flatten`), and no cluster is
empty (`ne_nil_of_mem_clusters`).
-/

namespace ThreeAddress.Text

/-- How much of a conjunct stands before a seam. -/
inductive Conjunct where
  | outside
  /-- A consonant, and marks after it. -/
  | consonant
  /-- A consonant, and a linker among the marks after it. -/
  | linked
  deriving DecidableEq, Repr

/-- What stands before a place between two characters. -/
structure Seam where
  last : Role := .control
  /-- Does an odd number of regional indicators end here? -/
  isOdd : Bool := false
  /-- Does a pictograph end here, with marks after it, or with marks and one joiner? -/
  afterPictograph : Bool := false
  conjunct : Conjunct := .outside
  deriving DecidableEq, Repr

namespace Seam

/-- Does a character of this role belong to the cluster before the seam? -/
def joins (s : Seam) (r : Role) : Bool :=
  match s.last, r with
  | .carriageReturn, .lineFeed => true
  | .carriageReturn, _ | .lineFeed, _ | .control, _ => false
  | _, .carriageReturn | _, .lineFeed | _, .control => false
  | _, .mark | _, .linker | _, .joiner | _, .nonJoiner | _, .spacingMark => true
  | .prepended, _ => true
  | .leading, .leading | .leading, .vowel | .leading, .openSyllable
  | .leading, .closedSyllable => true
  | .openSyllable, .vowel | .vowel, .vowel => true
  | .openSyllable, .trailing | .vowel, .trailing | .closedSyllable, .trailing
  | .trailing, .trailing => true
  | .joiner, .pictograph => s.afterPictograph
  | .indicator, .indicator => s.isOdd
  | _, .consonant => s.conjunct = .linked
  | _, _ => false

def nextConjunct (s : Seam) : Role → Conjunct
  | .consonant => .consonant
  | .linker => if s.conjunct = .outside then .outside else .linked
  | .mark | .joiner => s.conjunct
  | _ => .outside

def nextPictograph (s : Seam) : Role → Bool
  | .pictograph => true
  | .mark | .linker | .nonJoiner | .joiner => s.afterPictograph && s.last ≠ .joiner
  | _ => false

/-- The seam after one more character. -/
def next (s : Seam) (r : Role) : Seam :=
  { last := r
    isOdd := r = .indicator && !(s.last = .indicator && s.isOdd)
    afterPictograph := s.nextPictograph r
    conjunct := s.nextConjunct r }

/-- The text after a seam: the rest of the cluster before it, and the clusters that follow. -/
def split (s : Seam) : List Char → List Char × List (List Char)
  | [] => ([], [])
  | c :: rest =>
    let r := Role.ofChar c
    let after := (s.next r).split rest
    if s.joins r then (c :: after.1, after.2) else ([], (c :: after.1) :: after.2)

theorem split_append (s : Seam) (text : List Char) :
    (s.split text).1 ++ (s.split text).2.flatten = text := by
  induction text generalizing s with
  | nil => rfl
  | cons c rest ih =>
    have h := ih (s.next (Role.ofChar c))
    simp only [split]
    split <;> simp [h]

theorem ne_nil_of_mem_split {s : Seam} {text cluster : List Char}
    (h : cluster ∈ (s.split text).2) : cluster ≠ [] := by
  induction text generalizing s with
  | nil => simp [split] at h
  | cons c rest ih =>
    simp only [split] at h
    split at h
    · exact ih h
    · rcases List.mem_cons.1 h with rfl | h
      · simp
      · exact ih h

/-- Nothing joins the beginning of a text. -/
theorem split_default_fst (text : List Char) : (({} : Seam).split text).1 = [] := by
  cases text <;> simp [split, joins]

end Seam

/-- A text cut into clusters. -/
def clusters (text : List Char) : List (List Char) :=
  (({} : Seam).split text).2

theorem clusters_flatten (text : List Char) : (clusters text).flatten = text := by
  have h := Seam.split_append {} text
  rwa [Seam.split_default_fst, List.nil_append] at h

theorem ne_nil_of_mem_clusters {text cluster : List Char} (h : cluster ∈ clusters text) :
    cluster ≠ [] :=
  Seam.ne_nil_of_mem_split h

end ThreeAddress.Text

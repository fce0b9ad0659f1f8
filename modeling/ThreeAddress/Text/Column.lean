/-!
# Columns of a table

A field is filled up with spaces to the width of its column. Width is counted in characters (code
points); a longer field is written whole and pushes the later ones to the right.
-/

namespace ThreeAddress.Text

/-- As many spaces as `text` lacks to `width` characters. -/
def filler (width : Nat) (text : String) : String :=
  String.ofList (List.replicate (width - text.length) ' ')

/-- Fills up on the right: the field stands at the left of its column. -/
def alignLeft (width : Nat) (text : String) : String :=
  text ++ filler width text

/-- Fills up on the left: the field stands at the right of its column. -/
def alignRight (width : Nat) (text : String) : String :=
  filler width text ++ text

end ThreeAddress.Text

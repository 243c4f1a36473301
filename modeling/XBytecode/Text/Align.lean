/-!
# Columns

Padding to a column width counts characters and never cuts a longer text.
-/

namespace XBytecode.Text

/-- The text moved to the right end of a column of `width` characters. -/
def alignRight (width : Nat) (text : String) : String :=
  String.ofList (text.toList.leftpad width ' ')

/-- A text at the right end of a column has blanks before it, as many as the column has left. -/
theorem alignRight_eq (width : Nat) (text : String) :
    alignRight width text = String.ofList (List.replicate (width - text.length) ' ') ++ text := by
  have hlength : text.toList.length = text.length := String.length_toList
  rw [alignRight, List.leftpad, hlength, String.ofList_append, String.ofList_toList]

/-- A column is as wide as it should be, or as the text that does not fit. -/
theorem length_alignRight (width : Nat) (text : String) :
    (alignRight width text).length = max width text.length := by
  rw [alignRight_eq, String.length_append, String.length_ofList, List.length_replicate]
  omega

/-- The text at the left end of a column of `width` characters. -/
def alignLeft (width : Nat) (text : String) : String :=
  String.ofList (text.toList.rightpad width ' ')

end XBytecode.Text

/-!
# Lines

A line ends at a line feed, and one carriage return right before the line feed belongs to the
line's end. Text after the last line feed is a line of its own unless it is empty, and keeps a
carriage return that it ends in.
-/

namespace XBytecode.Text

/-- The line whose characters are `held`, last character first, when a line feed follows. -/
def endLine (held : List Char) : String :=
  match held with
  | '\r' :: rest => String.ofList rest.reverse
  | _ => String.ofList held.reverse

/-- The lines of a text of whose first line the characters `held`, last first, have been read. -/
def linesFrom (held : List Char) : List Char → List String
  | [] => if held.isEmpty then [] else [String.ofList held.reverse]
  | c :: cs => if c = '\n' then endLine held :: linesFrom [] cs else linesFrom (c :: held) cs

/-- The lines of a text, in order and without their ends. -/
def lines (text : String) : List String :=
  linesFrom [] text.toList

end XBytecode.Text

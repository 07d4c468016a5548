/-!
# Lines of a text

A line ends at a line feed, with or without one carriage return before it; what
follows the last line feed is a line of its own unless it is empty.
-/

namespace TypeTrace.Text

/-- The lines of a text, without their ends. -/
def lines : List Char → List (List Char)
  | [] => []
  | '\n' :: cs => [] :: lines cs
  | '\r' :: '\n' :: cs => [] :: lines cs
  | c :: cs =>
    match lines cs with
    | [] => [[c]]
    | l :: ls => (c :: l) :: ls

example : lines "a\r\n\nb\r".toList = ["a".toList, [], "b\r".toList] := by decide

end TypeTrace.Text

/-!
# Lines

A line ends at a line feed, and a carriage return right before it belongs to the end. The last line
may have no end.
-/

namespace MediaCache

def endLine : List Char → List Char
  | '\r' :: rest => rest.reverse
  | line => line.reverse

/-- The lines of a text. `seen` is the start of the current one, in reverse. -/
def splitLines (seen : List Char) : List Char → List (List Char)
  | [] => if seen.isEmpty then [] else [seen.reverse]
  | '\n' :: rest => endLine seen :: splitLines [] rest
  | c :: rest => splitLines (c :: seen) rest

def lines (text : String) : List String := (splitLines [] text.toList).map String.ofList

end MediaCache

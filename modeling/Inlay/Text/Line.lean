/-! Line ends: a text read from a file has each of its line ends written as one line feed. -/

namespace Inlay.Text

def unifyLineEnds : List Char → List Char
  | '\r' :: '\n' :: rest => '\n' :: unifyLineEnds rest
  | '\r' :: rest => '\n' :: unifyLineEnds rest
  | c :: rest => c :: unifyLineEnds rest
  | [] => []

end Inlay.Text

import ClassScript.Syntax.Scan

/-! Whether a source is unfinished, so that an interactive reader should ask for another
line: it ends inside a string literal or a block comment, or it opens more brackets and
braces than it closes. -/
namespace ClassScript

/-- How a token changes the count of open brackets and braces. -/
def Token.Kind.depthChange : Token.Kind → Int
  | .leftParen | .leftBrace => 1
  | .rightParen | .rightBrace => -1
  | _ => 0

def Token.openDepth (ts : List Token) : Int :=
  ts.foldl (fun d t => d + t.kind.depthChange) 0

/-- Whether more input could finish the source. Any other scan fault finishes it. -/
def Token.incomplete (source : String) : Bool :=
  match Token.scan source with
  | .error (.unterminated ..) => true
  | .error _ => false
  | .ok ts => 0 < Token.openDepth ts

end ClassScript

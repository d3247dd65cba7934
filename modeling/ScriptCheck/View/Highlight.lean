import ScriptCheck.View.Palette

/-!
# Highlighting a line of source

A line is code up to the first two slashes in a row, and a comment from there on.  Code falls into
words, which are runs of ASCII letters, digits and underscores, and single other characters.  The
pieces keep the line as it is and only give it colours.
-/

namespace ScriptCheck.View

/-- A character of a word. -/
def isWordChar (c : Char) : Bool := c.isAlphanum || c == '_'

/-- Cuts a line before its first comment, given the characters in front of it, last first. -/
def splitCommentFrom (before : List Char) : List Char → List Char × List Char
  | [] => (before.reverse, [])
  | c :: cs =>
    if c == '/' && cs.head? == some '/' then (before.reverse, c :: cs)
    else splitCommentFrom (c :: before) cs

/-- The code and the comment of a line. -/
def splitComment (line : List Char) : List Char × List Char := splitCommentFrom [] line

/-- The words and single other characters of a piece of code. -/
def codePieces (code : List Char) : List (List Char) :=
  code.splitBy fun a b => isWordChar a && isWordChar b

/-- The style of a word; `called` says that an opening parenthesis follows. -/
def wordStyle (word : List Char) (called : Bool) : Style :=
  if word = ['v', 'a', 'r'] then (Style.ink Palette.keyword).strong
  else if word.head?.any Char.isDigit then Style.ink Palette.number
  else if called then Style.ink Palette.function
  else Style.ink Palette.text

/-- The style of a character that is in no word. -/
def markStyle (c : Char) : Style :=
  if c == '(' || c == ')' then Style.ink Palette.primary else Style.ink Palette.text

/-- The style of a piece of code before the piece `next`. -/
def pieceStyle (piece next : List Char) : Style :=
  match piece with
  | [] => Style.plain
  | c :: _ => if isWordChar c then wordStyle piece (next.head? == some '(') else markStyle c

/-- The pieces of `code` in their colours. -/
def highlightCode (code : List Char) : Line :=
  let pieces := codePieces code
  List.zipWith (fun piece next => ⟨String.ofList piece, pieceStyle piece next⟩) pieces
    (pieces.tail ++ [[]])

/-- A line of source in its colours. -/
def highlight (line : String) : Line :=
  let (code, comment) := splitComment line.toList
  highlightCode code ++
    if comment.isEmpty then [] else [⟨String.ofList comment, Style.ink Palette.comment⟩]

end ScriptCheck.View

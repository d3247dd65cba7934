/-!
# Lines of a text

A text is cut at its line feeds.  The piece after the last line feed is a line only if it holds
something, so a final line feed opens no further line, and the empty text has no line at all.
A carriage return right before a line feed belongs to the line ending.
-/

namespace ScriptCheck.Text

/-- The pieces of `cs` between its line feeds: one more than there are line feeds. -/
def splitLineFeeds (cs : List Char) : List (List Char) :=
  cs.foldr
    (fun c pieces =>
      if c = '\n' then [] :: pieces
      else match pieces with
        | [] => [[c]]
        | piece :: more => (c :: piece) :: more)
    [[]]

/-- `piece` without the carriage return at its end, if it has one there. -/
def dropReturn (piece : List Char) : List Char :=
  if piece.getLast? = some '\r' then piece.dropLast else piece

/-- The lines of `text`, without their endings. -/
def lines (text : String) : List String :=
  let pieces := splitLineFeeds text.toList
  let ended := pieces.dropLast.map dropReturn
  let rest := (pieces.getLast?.toList).filter (fun piece => !piece.isEmpty)
  (ended ++ rest).map String.ofList

end ScriptCheck.Text

import CallSchema.Text.Blank

/-!
# Lines

Text is cut into lines at line feeds. A carriage return directly before a line feed belongs to the
line break, and a line feed at the very end opens no further line. Indentation counts leading
spaces only; tabs are expanded to spaces beforehand.

## Main definitions

* `Text.lines`, `Text.unlines` -- cutting into lines, and joining lines with line feeds
* `Text.indent` -- the number of leading spaces
* `Text.expandTabs` -- tabs replaced by spaces up to the next multiple of `Text.tabWidth`
* `Text.unwrap` -- the pieces of a wrapped text joined with single spaces
-/

namespace CallSchema.Text

/-- Puts one more character at the front of the first line. -/
def consHead (c : Char) : List Text → List Text
  | [] => [[c]]
  | l :: ls => (c :: l) :: ls

/-- The lines of a text: cut at each line feed, dropping one carriage return before it. -/
def lines : Text → List Text
  | [] => []
  | '\n' :: s => [] :: lines s
  | '\r' :: '\n' :: s => [] :: lines s
  | c :: s => consHead c (lines s)

/-- The lines joined with line feeds. -/
def unlines (ls : List Text) : Text :=
  ['\n'].intercalate ls

/-- The number of leading spaces. -/
def indent (s : Text) : Nat :=
  (s.takeWhile (· == ' ')).length

/-- The distance between tab stops. -/
def tabWidth : Nat := 8

/-- Expands the tabs of a line whose first character stands at the given column. -/
def expandTabsFrom (column : Nat) : Text → Text
  | [] => []
  | c :: s =>
    if c = '\t' then
      let pad := tabWidth - column % tabWidth
      List.replicate pad ' ' ++ expandTabsFrom (column + pad) s
    else
      c :: expandTabsFrom (column + 1) s

/-- The line with each tab replaced by the spaces up to the next tab stop. -/
def expandTabs (s : Text) : Text :=
  expandTabsFrom 0 s

/-- The pieces of a wrapped text, trimmed and joined with single spaces; blank pieces vanish. -/
def unwrap (pieces : List Text) : Text :=
  [' '].intercalate ((pieces.map trim).filter (!·.isEmpty))

end CallSchema.Text

import CallSchema.Text.Line

/-!
# Layout of raw documentation

Raw documentation is indented as the code around it is. `Layout.clean` gives its lines flush left:
tabs are expanded, the margin shared by the lines after the first is removed, blanks at the ends of
lines vanish, and so do blank lines at both ends of the text. The first line stands apart, because
it often begins right behind the opening quotation mark.

## Main definitions

* `Layout.margin` -- the least indentation of the lines that are not blank
* `Layout.flush` -- a line without the margin
* `Layout.clean` -- the cleaned lines of a raw text
-/

namespace CallSchema.Layout

open Text

/-- The least indentation of the lines that are not blank, and zero when there are none. -/
def margin (ls : List Text) : Nat :=
  (((ls.filter (!allBlank ·)).map indent).min?).getD 0

/-- The line without a margin of the given width and without blanks at its end. -/
def flush (width : Nat) (l : Text) : Text :=
  if allBlank l then [] else trimEnd (l.drop width)

/-- The lines with the shared indentation of the lines after the first removed. -/
def dedent : List Text → List Text
  | [] => []
  | first :: rest => trim first :: rest.map (flush (margin rest))

/-- The lines without the empty lines at both ends. -/
def dropEmptyEnds (ls : List Text) : List Text :=
  dropEndWhile List.isEmpty (ls.dropWhile List.isEmpty)

/-- The cleaned lines of a raw text. -/
def clean (raw : Text) : List Text :=
  dropEmptyEnds (dedent ((lines raw).map expandTabs))

end CallSchema.Layout

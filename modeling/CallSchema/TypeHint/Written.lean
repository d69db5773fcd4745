import CallSchema.Text.Cut
import CallSchema.TypeHint.Basic

/-!
# Type hints as docstrings write them

`TypeHint.ofText?` reads the type text of a docstring. A text such as `Literal["a", 'b']` is the
closed set of the quoted strings between its brackets; any other text names a type, and blank text
says nothing.

## Main definitions

* `TypeHint.quotedStrings` -- the quoted strings in a text, from left to right
* `TypeHint.literalBody?` -- what stands between the brackets of a `Literal[...]`
* `TypeHint.ofText?` -- the hint that a type text gives
* `TypeHint.withoutOptional` -- type text without a closing remark that the value is optional
-/

namespace CallSchema.TypeHint

open Text

/-- The quotation marks. -/
def isQuote (c : Char) : Bool :=
  c == '"' || c == '\''

/-- The quoted strings in a text, from left to right. A string ends at the next mark of the sort
    that opened it, and a mark without a partner opens none. -/
def quotedStrings : Text → List Text
  | [] => []
  | c :: s =>
    if isQuote c then
      match _h : cut? c s with
      | some (value, rest) => value :: quotedStrings rest
      | none => quotedStrings s
    else quotedStrings s
termination_by s => s.length
decreasing_by
  · have := cut?_length_lt _h
    simp only [List.length_cons]
    omega
  · simp
  · simp

/-- What stands between the brackets of a trimmed one-line text `Literal[...]`, which may be
    written `typing.Literal[...]`. -/
def literalBody? (s : Text) : Option Text := do
  let bracketed ← after? "Literal[".toList ((after? "typing.".toList s).getD s)
  let body := bracketed.dropLast
  if bracketed.getLast? = some ']' ∧ '\n' ∉ body then some body else none

/-- The hint that a type text gives, or `none` when it is blank. -/
def ofText? (s : Text) : Option TypeHint :=
  let text := trim s
  if text.isEmpty then none
  else
    match (literalBody? text).map quotedStrings with
    | some (value :: values) => some (literal ((value :: values).map String.ofList))
    | _ => some (named (String.ofList text))

/-- Whether a remark after a comma says that the value is optional or has a default. -/
def isOptionalRemark (s : Text) : Bool :=
  let remark := trim s
  remark == "optional".toList || (after? "default".toList remark).isSome

/-- The trimmed type text without a closing remark that the value is optional. The remark is
    informal: whether a value may be left out is for the signature to say. -/
def withoutOptional (s : Text) : Text :=
  match cutLast? (· == ',') (trim s) with
  | some (text, remark) => if isOptionalRemark remark then trimEnd text else trim s
  | none => trim s

end CallSchema.TypeHint

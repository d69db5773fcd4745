import CallSchema.Docstring.Basic
import CallSchema.Proofs.Text.Lines
import CallSchema.Proofs.Text.Word
import CallSchema.TypeHint.Written
import Mathlib.Data.List.Nodup

/-!
# Documentation content

What an author has to say about a function, before it is written down in one of the styles: a short
description, later paragraphs, the parameters and possibly the returned value. The structures carry
the conditions under which every style can express the content.

## Main definitions

* `IsLine` -- text that can stand on a line of its own
* `Line`, `ProseLine`, `TypeLine`, `ParamName` -- lines, those of a description, type texts, names
* `ParamDoc`, `ReturnDoc`, `Content` -- what there is to say about a function
* `Style.paramHint` -- how a style reads the type text of a parameter
* `Content.docstring` -- the docstring with just this content
-/

namespace CallSchema

open Text

/-- Text that can stand on a line of its own: trimmed, not empty and free of line feeds and tabs. -/
structure IsLine (s : Text) : Prop where
  ne_nil : s ≠ []
  trim_eq : trim s = s
  newline_notMem : '\n' ∉ s
  tab_notMem : '\t' ∉ s

/-- One line of documentation. -/
structure Line where
  text : Text
  isLine : IsLine text

/-- A line of a description, which no style takes for markup. -/
structure ProseLine extends Line where
  /-- The line does not begin as a field does. -/
  head_ne : text.head? ≠ some ':'
  /-- The line does not end as a title does. -/
  last_ne : text.getLast? ≠ some ':'
  /-- The line is not an underline. -/
  exists_ne_dash : ∃ c ∈ text, c ≠ '-'

/-- The text of a type. -/
structure TypeLine extends Line where
  /-- A colon would end the text in some styles. -/
  colon_notMem : ':' ∉ text

/-- The name of a parameter, made of word characters. -/
structure ParamName where
  text : Text
  ne_nil : text ≠ []
  isWord : ∀ c ∈ text, isWord c = true

/-- What there is to say about a parameter. -/
structure ParamDoc where
  /-- The name, without stars. -/
  name : ParamName
  /-- The number of stars that are written in front of the name. -/
  stars : Nat
  stars_le : stars ≤ 2
  type? : Option TypeLine
  lines : List Line

/-- A parameter whose name is written without stars. -/
def ParamDoc.unstarred (name : ParamName) (type? : Option TypeLine) (lines : List Line) :
    ParamDoc :=
  ⟨name, 0, Nat.zero_le 2, type?, lines⟩

/-- What there is to say about the returned value. -/
structure ReturnDoc where
  type : TypeLine
  lines : List Line

/-- What there is to say about a function, whose parameters have distinct names. -/
structure Content where
  /-- The lines of the short description. -/
  short : List ProseLine
  short_ne_nil : short ≠ []
  /-- The lines of each later paragraph. -/
  long : List (List ProseLine)
  long_ne_nil : ∀ paragraph ∈ long, paragraph ≠ []
  params : List ParamDoc
  distinct : (params.map (·.name.text)).Nodup
  returns : Option ReturnDoc

instance (s : Text) : Decidable (IsLine s) :=
  decidable_of_iff (s ≠ [] ∧ trim s = s ∧ '\n' ∉ s ∧ '\t' ∉ s)
    ⟨fun ⟨hne, htrim, hnewline, htab⟩ => ⟨hne, htrim, hnewline, htab⟩,
      fun h => ⟨h.ne_nil, h.trim_eq, h.newline_notMem, h.tab_notMem⟩⟩

namespace IsLine

variable {s t : Text}

theorem trimStart_eq (h : IsLine s) : trimStart s = s :=
  (trim_eq_self_iff.1 h.trim_eq).1

theorem trimEnd_eq (h : IsLine s) : trimEnd s = s :=
  (trim_eq_self_iff.1 h.trim_eq).2

theorem not_allBlank (h : IsLine s) : allBlank s = false := by
  rw [← Bool.not_eq_true, ← trim_eq_nil_iff, h.trim_eq]
  exact h.ne_nil

theorem head_ne_blank (h : IsLine s) {c : Char} (hc : isBlank c = true) : s.head? ≠ some c := by
  intro hhead
  rw [trimStart_eq_self_iff.1 h.trimStart_eq c hhead] at hc
  cases hc

theorem indent_eq_zero (h : IsLine s) : indent s = 0 :=
  Text.indent_eq_zero (h.head_ne_blank isBlank_space)

/-- Two lines with a text between them that has no line feed and no tab are a line. -/
theorem append (hs : IsLine s) {between : Text} (hnewline : '\n' ∉ between)
    (htab : '\t' ∉ between) (ht : IsLine t) : IsLine (s ++ between ++ t) where
  ne_nil := by
    rw [List.append_assoc]
    exact List.append_ne_nil_of_left_ne_nil hs.ne_nil _
  trim_eq := by
    apply trim_eq_self_iff.2
    constructor
    · rw [List.append_assoc, trimStart_append_of_not_allBlank _ hs.not_allBlank, hs.trimStart_eq]
    · rw [trimEnd_append_of_not_allBlank _ ht.not_allBlank, ht.trimEnd_eq]
  newline_notMem := by
    simp [hs.newline_notMem, ht.newline_notMem, hnewline]
  tab_notMem := by
    simp [hs.tab_notMem, ht.tab_notMem, htab]

end IsLine

/-- Text without blank characters is a line. -/
theorem isLine_of_forall_not_blank {s : Text} (hne : s ≠ []) (h : ∀ c ∈ s, isBlank c = false) :
    IsLine s where
  ne_nil := hne
  trim_eq := trim_eq_self_of_forall h
  newline_notMem := fun hc => Bool.noConfusion (h _ hc)
  tab_notMem := fun hc => Bool.noConfusion (h _ hc)

/-- The text of one line of several. -/
def joined (lines : List Line) : Text :=
  [' '].intercalate (lines.map (·.text))

@[simp] theorem joined_singleton (l : Line) : joined [l] = l.text :=
  List.intercalate_singleton

namespace ParamDoc

/-- The name with the stars in front of it. -/
def written (p : ParamDoc) : Text :=
  List.replicate p.stars '*' ++ p.name.text

theorem written_not_blank (p : ParamDoc) : ∀ c ∈ p.written, isBlank c = false :=
  fun _ => isBlank_of_mem_starred p.name.isWord p.stars

theorem written_isLine (p : ParamDoc) : IsLine p.written :=
  isLine_of_forall_not_blank (List.append_ne_nil_of_right_ne_nil _ p.name.ne_nil)
    p.written_not_blank

/-- The entry of the docstring about the parameter, given how its type is read. -/
def entry (hintOf : Text → Option TypeHint) (p : ParamDoc) : DocEntry where
  description := String.ofList (joined p.lines)
  hint := p.type?.bind fun t => hintOf t.text

end ParamDoc

/-- The entry of the docstring about the returned value. -/
def ReturnDoc.entry (r : ReturnDoc) : DocEntry where
  description := String.ofList (joined r.lines)
  hint := TypeHint.ofText? r.type.text

/-- How a style reads the type text of a parameter: two of them drop a closing remark that the value
    is optional. -/
def Style.paramHint : Style → Text → Option TypeHint
  | rest => TypeHint.ofText?
  | google => fun t => TypeHint.ofText? (TypeHint.withoutOptional t)
  | numpy => fun t => TypeHint.ofText? (TypeHint.withoutOptional t)

namespace Content

/-- The name of a parameter with its entry, for each parameter in order. -/
def entries (content : Content) (hintOf : Text → Option TypeHint) : List (String × DocEntry) :=
  content.params.map fun p => (String.ofList p.name.text, p.entry hintOf)

theorem nodup_names (content : Content) (hintOf : Text → Option TypeHint) :
    ((content.entries hintOf).map Prod.fst).Nodup := by
  have hnames : (content.entries hintOf).map Prod.fst =
      (content.params.map (·.name.text)).map String.ofList := by
    simp [entries, Function.comp_def]
  rw [hnames]
  exact content.distinct.map fun _ _ h => String.ofList_injective h

/-- The paragraphs of the description. -/
def paragraphs (content : Content) : List (List ProseLine) :=
  content.short :: content.long

/-- The lines of a paragraph on one line. -/
def paragraphText (paragraph : List ProseLine) : Text :=
  joined (paragraph.map (·.toLine))

/-- The docstring with just this content, given the style and how types of parameters are read. -/
def docstring (content : Content) (hintOf : Text → Option TypeHint) (style : Option Style) :
    Docstring where
  style := style
  short := String.ofList (paragraphText content.short)
  long :=
    if content.long = [] then none
    else some (String.ofList (['\n', '\n'].intercalate (content.long.map paragraphText)))
  params := ⟨content.entries hintOf, content.nodup_names hintOf⟩
  returns := content.returns.map ReturnDoc.entry

end Content

end CallSchema

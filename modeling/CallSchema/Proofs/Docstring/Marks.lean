import CallSchema.Docstring.Read
import CallSchema.Proofs.Text.Lines
import CallSchema.Proofs.Text.Word

/-!
# The lines that begin a part

Each style divides a docstring into parts, which are fields or sections. The readers find the
beginning of a part by cutting lines into pieces; here the form of these lines is written out, and
the readers are shown to accept exactly that form.

## Main definitions

* `FieldLine.Form` -- the form of a line that begins a field
* `Underlined.Form` -- the form of the two lines that begin an underlined section
* `Style.PartAt` -- a part begins where the given lines begin
* `Style.ValuePartAt` -- so does a part about a parameter or the returned value
-/

namespace CallSchema

open Text

/-! ### Fields -/

namespace FieldLine

/-- The form of a line that begins a field: a colon, the key, nothing or blank-led text without a
    colon, and a second colon. -/
structure Form (key between rest l : Text) : Prop where
  line_eq : l = ':' :: (key ++ (between ++ ':' :: rest))
  key_ne_nil : key ≠ []
  key_isWord : ∀ c ∈ key, isWord c = true
  colon_notMem : ':' ∉ between
  head_isBlank : ∀ c, between.head? = some c → isBlank c = true

variable {key between rest l : Text}

/-- What follows the key is no part of a word. -/
theorem Form.head_not_isWord (h : Form key between rest l) :
    ∀ c, (between ++ ':' :: rest).head? = some c → isWord c = false :=
  head?_append_not_isWord h.head_isBlank (by decide) rest

/-- A line is read as a field exactly when it has the form of one. -/
theorem ofLine?_eq_some_iff {field : FieldLine} :
    ofLine? l = some field ↔ ∃ between rest, Form field.key between rest l ∧
      field.argument = argument? between ∧ field.text = trimStart rest := by
  constructor
  · intro h
    unfold ofLine? at h
    split at h
    · next s =>
      dsimp only at h
      split at h
      · cases h
      · next hkey =>
        split at h
        · next between rest hcut =>
          obtain ⟨hline, hcolon⟩ := cut?_eq_some_iff.1 hcut
          split at h
          · next hbetween =>
            obtain rfl := Option.some.inj h
            refine ⟨between, rest, ⟨?_, by simpa using hkey, ?_, hcolon, ?_⟩, rfl, rfl⟩
            · rw [← hline, List.takeWhile_append_dropWhile]
            · exact fun c hc => List.mem_takeWhile_imp hc
            · intro c hc
              have hne : between ≠ [] := by
                rintro rfl
                cases hc
              simpa [hne, hc] using hbetween
          · cases h
        · cases h
    · cases h
  · rintro ⟨between, rest, hform, hargument, htext⟩
    obtain ⟨htake, hdrop⟩ := takeWhile_isWord_append hform.key_isWord hform.head_not_isWord
    have hcut : cut? ':' (between ++ ':' :: rest) = some (between, rest) :=
      cut?_eq_some_iff.2 ⟨rfl, hform.colon_notMem⟩
    have hbetween : between.isEmpty = true ∨ between.head?.any isBlank = true := by
      cases hb : between with
      | nil => exact .inl rfl
      | cons d b => exact .inr (hform.head_isBlank d (by rw [hb]; rfl))
    rw [hform.line_eq, ofLine?]
    simp only [htake, hdrop, hcut, List.isEmpty_iff, hform.key_ne_nil, if_false]
    rw [if_pos (by simpa [List.isEmpty_iff] using hbetween), ← hargument, ← htext]

theorem isSome_ofLine?_iff :
    (ofLine? l).isSome = true ↔ ∃ key between rest, Form key between rest l := by
  rw [Option.isSome_iff_exists]
  constructor
  · rintro ⟨field, h⟩
    obtain ⟨between, rest, hform, -⟩ := ofLine?_eq_some_iff.1 h
    exact ⟨field.key, between, rest, hform⟩
  · rintro ⟨key, between, rest, hform⟩
    exact ⟨⟨key, argument? between, trimStart rest⟩,
      ofLine?_eq_some_iff.2 ⟨between, rest, hform, rfl, rfl⟩⟩

end FieldLine

/-! ### Sections -/

namespace Titled

/-- A line is a title exactly when it is a known title and a colon. -/
theorem topic?_eq_some_iff {l : Text} {topic : SectionTopic} :
    topic? l = some topic ↔ ∃ title ∈ titles topic, l = title.toList ++ [':'] := by
  have hfind : ∀ topic, ∀ title ∈ titles topic,
      [SectionTopic.params, .returned, .aside].find? (fun t => title ∈ titles t) = some topic := by
    intro topic
    cases topic <;> decide
  constructor
  · intro h
    unfold topic? at h
    split at h
    · next hlast =>
      obtain ⟨s, rfl⟩ := List.getLast?_eq_some_iff.1 hlast
      rw [List.dropLast_concat] at h
      refine ⟨String.ofList s, by simpa using List.find?_some h, ?_⟩
      rw [String.toList_ofList]
    · cases h
  · rintro ⟨title, htitle, rfl⟩
    rw [topic?, if_pos (by simp), List.dropLast_concat, String.ofList_toList,
      hfind topic title htitle]

end Titled

namespace Underlined

/-- Whether a line consists of three or more dashes. -/
def IsRule (l : Text) : Prop :=
  ∃ n, 3 ≤ n ∧ l = List.replicate n '-'

theorem isUnderline_iff {l : Text} : isUnderline l = true ↔ IsRule l := by
  rw [isUnderline, Bool.and_eq_true, decide_eq_true_eq, List.all_eq_true]
  constructor
  · rintro ⟨hlength, hdash⟩
    exact ⟨l.length, hlength, List.eq_replicate_iff.2 ⟨rfl, fun c hc => by simpa using hdash c hc⟩⟩
  · rintro ⟨n, hn, rfl⟩
    refine ⟨by rwa [List.length_replicate], fun c hc => ?_⟩
    rw [(List.mem_replicate.1 hc).2]
    rfl

theorem indent_eq_zero_iff {l : Text} : indent l = 0 ↔ l.head? ≠ some ' ' := by
  refine ⟨fun h hhead => ?_, indent_eq_zero⟩
  obtain ⟨s, rfl⟩ := List.head?_eq_some_iff.1 hhead
  rw [indent_cons_space] at h
  omega

/-- The form of the two lines that begin a section. -/
structure Form (title rule : Text) : Prop where
  title_not_allBlank : allBlank title = false
  head_ne_space : title.head? ≠ some ' '
  title_not_isRule : ¬IsRule title
  isRule : IsRule rule

/-- A section begins exactly at a title with a line of dashes below it. -/
theorem topic?_eq_some_iff {ls : List Text} {topic : SectionTopic} :
    topic? ls = some topic ↔ ∃ title rule below, ls = title :: rule :: below ∧ Form title rule ∧
      topicOf title = topic := by
  have hform : ∀ title rule, (isTitle title && isUnderline rule) = true ↔ Form title rule := by
    intro title rule
    have htitle : isUnderline title = false ↔ ¬IsRule title := by
      rw [← isUnderline_iff, Bool.not_eq_true]
    rw [isTitle, Bool.and_eq_true, Bool.and_eq_true, Bool.and_eq_true, Bool.not_eq_true',
      Bool.not_eq_true', beq_iff_eq, indent_eq_zero_iff, htitle, isUnderline_iff]
    exact ⟨fun ⟨⟨⟨hb, hs⟩, ht⟩, hr⟩ => ⟨hb, hs, ht, hr⟩, fun h => ⟨⟨⟨h.1, h.2⟩, h.3⟩, h.4⟩⟩
  constructor
  · intro h
    unfold topic? at h
    split at h
    · next title rule below =>
      split at h
      · next hc => exact ⟨title, rule, below, rfl, (hform _ _).1 hc, Option.some.inj h⟩
      · cases h
    · cases h
  · rintro ⟨title, rule, below, rfl, h, rfl⟩
    rw [topic?, if_pos ((hform _ _).2 h)]

theorem topicOf_ne_aside_iff {title : Text} :
    topicOf title ≠ .aside ↔ trim title = "Parameters".toList ∨ trim title = "Returns".toList := by
  unfold topicOf
  split
  · next h => simp [h]
  · next h =>
    split
    · next h' => simp [h']
    · next h' => exact ⟨fun hne => absurd rfl hne, fun hor => absurd hor (not_or.2 ⟨h, h'⟩)⟩

end Underlined

/-! ### The parts of each style -/

namespace Style

/-- A part of the style begins where the given lines begin. -/
inductive PartAt : Style → List Text → Prop
  | field {key between rest l : Text} (below : List Text) (h : FieldLine.Form key between rest l) :
      PartAt .rest (l :: below)
  | titled {topic : SectionTopic} {title : String} (below : List Text)
      (h : title ∈ Titled.titles topic) : PartAt .google ((title.toList ++ [':']) :: below)
  | underlined {title rule : Text} (below : List Text) (h : Underlined.Form title rule) :
      PartAt .numpy (title :: rule :: below)

/-- The keys of the fields about a parameter or the returned value. -/
def valueKeys : List String :=
  ["param", "parameter", "arg", "argument", "key", "keyword", "type", "return", "returns", "rtype"]

/-- A part about a parameter or the returned value begins where the given lines begin. -/
inductive ValuePartAt : Style → List Text → Prop
  | field {key between rest l : Text} (below : List Text) (h : FieldLine.Form key between rest l)
      (hkey : String.ofList key ∈ valueKeys) : ValuePartAt .rest (l :: below)
  | titled {title : String} (below : List Text)
      (h : title ∈ ["Args", "Arguments", "Returns", "Return"]) :
      ValuePartAt .google ((title.toList ++ [':']) :: below)
  | underlined {title rule : Text} (below : List Text) (hhead : title.head? ≠ some ' ')
      (htitle : trim title = "Parameters".toList ∨ trim title = "Returns".toList)
      (hrule : Underlined.IsRule rule) : ValuePartAt .numpy (title :: rule :: below)

end Style

theorem FieldTopic.isSome_ofKey?_iff {key : Text} :
    (ofKey? key).isSome = true ↔ String.ofList key ∈ Style.valueKeys := by
  rw [ofKey?, List.find?_isSome]
  simp [keys, Style.valueKeys, or_assoc]

namespace FieldList

variable {ls : List Text}

theorem partAt_iff : Style.PartAt .rest ls ↔ (ls.head?.bind FieldLine.ofLine?).isSome = true := by
  cases ls with
  | nil => exact ⟨nofun, nofun⟩
  | cons l below =>
    change _ ↔ (FieldLine.ofLine? l).isSome = true
    rw [FieldLine.isSome_ofLine?_iff]
    constructor
    · rintro (⟨-, h⟩ | _ | _)
      exact ⟨_, _, _, h⟩
    · rintro ⟨key, between, rest, h⟩
      exact .field below h

theorem valuePartAt_iff : Style.ValuePartAt .rest ls ↔
    ∃ field, ls.head?.bind FieldLine.ofLine? = some field ∧
      (FieldTopic.ofKey? field.key).isSome = true := by
  cases ls with
  | nil => exact ⟨nofun, fun ⟨_, h, _⟩ => nomatch h⟩
  | cons l below =>
    change _ ↔ ∃ field, FieldLine.ofLine? l = some field ∧ _
    constructor
    · rintro (⟨-, h, hkey⟩ | _ | _)
      exact ⟨⟨_, _, _⟩, FieldLine.ofLine?_eq_some_iff.2 ⟨_, _, h, rfl, rfl⟩,
        FieldTopic.isSome_ofKey?_iff.2 hkey⟩
    · rintro ⟨field, hfield, hkey⟩
      obtain ⟨between, rest, h, -⟩ := FieldLine.ofLine?_eq_some_iff.1 hfield
      exact .field below h (FieldTopic.isSome_ofKey?_iff.1 hkey)

end FieldList

namespace Titled

variable {ls : List Text}

theorem partAt_iff : Style.PartAt .google ls ↔ (ls.head?.bind topic?).isSome = true := by
  cases ls with
  | nil => exact ⟨nofun, nofun⟩
  | cons l below =>
    change _ ↔ (topic? l).isSome = true
    rw [Option.isSome_iff_exists]
    constructor
    · rintro (_ | ⟨-, h⟩ | _)
      exact ⟨_, topic?_eq_some_iff.2 ⟨_, h, rfl⟩⟩
    · rintro ⟨topic, htopic⟩
      obtain ⟨title, htitle, rfl⟩ := topic?_eq_some_iff.1 htopic
      exact .titled below htitle

theorem valuePartAt_iff : Style.ValuePartAt .google ls ↔
    ∃ topic, ls.head?.bind topic? = some topic ∧ topic ≠ .aside := by
  have htitles : ∀ title, title ∈ ["Args", "Arguments", "Returns", "Return"] ↔
      ∃ topic, topic ≠ SectionTopic.aside ∧ title ∈ titles topic := by
    intro title
    constructor
    · intro h
      rw [show ["Args", "Arguments", "Returns", "Return"] = titles .params ++ titles .returned from
        rfl, List.mem_append] at h
      rcases h with h | h
      · exact ⟨.params, by decide, h⟩
      · exact ⟨.returned, by decide, h⟩
    · rintro ⟨topic, hne, h⟩
      cases topic with
      | params => exact List.mem_append_left (titles .returned) h
      | returned => exact List.mem_append_right (titles .params) h
      | aside => exact absurd rfl hne
  cases ls with
  | nil => exact ⟨nofun, fun ⟨_, h, _⟩ => nomatch h⟩
  | cons l below =>
    change _ ↔ ∃ topic, topic? l = some topic ∧ _
    constructor
    · rintro (_ | ⟨-, h⟩ | _)
      obtain ⟨topic, hne, h⟩ := (htitles _).1 h
      exact ⟨topic, topic?_eq_some_iff.2 ⟨_, h, rfl⟩, hne⟩
    · rintro ⟨topic, htopic, hne⟩
      obtain ⟨title, h, rfl⟩ := topic?_eq_some_iff.1 htopic
      exact .titled below ((htitles _).2 ⟨topic, hne, h⟩)

end Titled

namespace Underlined

variable {ls : List Text}

theorem partAt_iff : Style.PartAt .numpy ls ↔ (topic? ls).isSome = true := by
  rw [Option.isSome_iff_exists]
  constructor
  · rintro (_ | _ | ⟨below, h⟩)
    exact ⟨_, topic?_eq_some_iff.2 ⟨_, _, below, rfl, h, rfl⟩⟩
  · rintro ⟨topic, htopic⟩
    obtain ⟨title, rule, below, rfl, h, -⟩ := topic?_eq_some_iff.1 htopic
    exact .underlined below h

/-- A title of the two known ones is neither blank nor a line of dashes. -/
theorem Form.of_trim_eq {title rule : Text} (hhead : title.head? ≠ some ' ')
    (htitle : trim title = "Parameters".toList ∨ trim title = "Returns".toList)
    (hrule : IsRule rule) : Form title rule := by
  refine ⟨?_, hhead, ?_, hrule⟩
  · rw [← allBlank_trim]
    rcases htitle with h | h <;> rw [h] <;> decide
  · rintro ⟨n, hn, rfl⟩
    have hother : (trim (List.replicate n '-')).all (· == '-') = false := by
      rcases htitle with h | h <;> rw [h] <;> decide
    have hdashes : (trim (List.replicate n '-')).all (· == '-') = true := by
      rw [List.all_eq_true]
      exact fun c hc => beq_iff_eq.2 (List.mem_replicate.1 (mem_of_mem_trim hc)).2
    rw [hother] at hdashes
    cases hdashes

theorem valuePartAt_iff : Style.ValuePartAt .numpy ls ↔
    ∃ topic, topic? ls = some topic ∧ topic ≠ .aside := by
  constructor
  · rintro (_ | _ | ⟨below, hhead, htitle, hrule⟩)
    exact ⟨_, topic?_eq_some_iff.2 ⟨_, _, below, rfl, .of_trim_eq hhead htitle hrule, rfl⟩,
      topicOf_ne_aside_iff.2 htitle⟩
  · rintro ⟨topic, htopic, hne⟩
    obtain ⟨title, rule, below, rfl, h, rfl⟩ := topic?_eq_some_iff.1 htopic
    exact .underlined below h.head_ne_space (topicOf_ne_aside_iff.1 hne) h.isRule

end Underlined

theorem Style.ValuePartAt.partAt {style : Style} {ls : List Text} (h : style.ValuePartAt ls) :
    style.PartAt ls := by
  cases h with
  | field below h => exact .field below h
  | titled below h =>
    obtain ⟨topic, htopic, -⟩ := Titled.valuePartAt_iff.1 (.titled below h)
    rw [Titled.partAt_iff, htopic]
    rfl
  | underlined below hhead htitle hrule => exact .underlined below (.of_trim_eq hhead htitle hrule)

end CallSchema

import SqlTree.Literal
import SqlTree.Text.Quoted
import Mathlib.Logic.Function.Defs

/-!
# Quoted tokens delimit themselves

Delimited identifiers and string literals hold any text, delimiters included, and no length is
written beside them. A reader of tokens that knows nothing but the delimiter takes the text as a
whole: what follows the token decides at most whether the token goes on behind it. Main statement:
both ways of writing are read back, end nowhere inside the text, and tell different texts apart.
-/

namespace SqlTree

namespace Text.Quoted

/-- A way of writing texts as quoted tokens, by which a token tells its text and where it ends. -/
structure SelfDelimiting (delimiter : Char) (written : String → String) : Prop where
  /-- A token is read as a text exactly if the written text stands there and no second delimiter
  follows it, and then it is what follows the written text that is left. -/
  read?_eq_some_iff (text : String) (line after : List Char) :
    read? delimiter line = some (text.toList, after) ↔
      line = (written text).toList ++ after ∧ after.head? ≠ some delimiter
  /-- Whatever follows a written text, the token that begins with it does not end inside it: it
  holds the text, and what it leaves is an end of what follows the written text. -/
  isPrefix_isSuffix (text : String) (rest content left : List Char) :
    read? delimiter ((written text).toList ++ rest) = some (content, left) →
      text.toList <+: content ∧ left <:+ rest
  /-- Different texts are written differently. -/
  injective : Function.Injective written

variable {delimiter : Char}

/-- A token that begins with a quoted text does not end before its closing delimiter. -/
theorem isPrefix_isSuffix_of_read? {text rest content left : List Char}
    (h : read? delimiter (encode delimiter text ++ rest) = some (content, left)) :
    text <+: content ∧ left <:+ rest := by
  rw [encode, List.cons_append, List.append_assoc, List.singleton_append, read?, if_pos rfl,
    readBody?_double_append, Option.map_eq_some_iff] at h
  obtain ⟨⟨more, behind⟩, hread, heq⟩ := h
  obtain ⟨rfl, rfl⟩ : text ++ more = content ∧ behind = left := Prod.mk.inj heq
  -- The delimiter that closes the token is the one behind the text, or stands in what follows it.
  have hclose : delimiter :: behind <:+ delimiter :: rest :=
    ⟨double delimiter more, (eq_double_of_readBody? hread).1.symm⟩
  refine ⟨List.prefix_append text more, ?_⟩
  rcases List.suffix_cons_iff.mp hclose with hsame | hbehind
  · obtain rfl : behind = rest := (List.cons.inj hsame).2
    exact List.suffix_rfl
  · exact (List.suffix_cons delimiter behind).trans hbehind

/-- Texts between two delimiters, those inside being doubled, delimit themselves. -/
theorem selfDelimiting_of_toList_eq {written : String → String}
    (h : ∀ text, (written text).toList = encode delimiter text.toList) :
    SelfDelimiting delimiter written where
  read?_eq_some_iff text line after := by
    rw [h]
    exact Quoted.read?_eq_some_iff
  isPrefix_isSuffix text rest content left hread := by
    rw [h] at hread
    exact isPrefix_isSuffix_of_read? hread
  injective := by
    intro s t heq
    have hencoded : encode delimiter s.toList ++ [] = encode delimiter t.toList ++ [] := by
      rw [← h, ← h, heq]
    have hnil : ([] : List Char).head? ≠ some delimiter := by simp
    exact String.toList_inj.mp (encode_append_inj hnil hnil hencoded).1

end Text.Quoted

/-- Delimited identifiers between double quotes and string literals between single quotes delimit
themselves. -/
theorem selfDelimiting_identifier_and_literal :
    Text.Quoted.SelfDelimiting '"' Text.Quoted.identifier ∧
      Text.Quoted.SelfDelimiting '\'' fun text => (Literal.string text).text := by
  constructor
  · exact Text.Quoted.selfDelimiting_of_toList_eq Text.Quoted.toList_identifier
  · refine Text.Quoted.selfDelimiting_of_toList_eq fun text => ?_
    rw [Literal.text, Text.Quoted.toList_string]

example : Text.Quoted.read? '\'' ((Literal.string "''it''s'").text ++ ",'x'").toList =
    some ("''it''s'".toList, ",'x'".toList) := by decide

end SqlTree

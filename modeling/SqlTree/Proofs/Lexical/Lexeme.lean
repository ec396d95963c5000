import SqlTree.Text.Quoted
import Mathlib.Data.List.Basic

/-!
# Lexemes

A statement is scanned from left to right: a quote opens a text that goes on to the closing quote,
a doubled quote standing for one of the text, and any other character stands alone. Main statements:
texts can be written one after the other if no quote follows, and what was written is scanned again.
-/

namespace SqlTree.Text

/-- The quotes of strings and of identifiers. -/
def isQuote (c : Char) : Bool := c == '\'' || c == '"'

/-- A part of a statement: a character outside quotes, or the text between two quotes. -/
inductive Lexeme where
  | plain (c : Char)
  | quoted (delimiter : Char) (text : List Char)
  deriving DecidableEq

/-- The lexeme as it is written. -/
def Lexeme.chars : Lexeme → List Char
  | .plain c => [c]
  | .quoted delimiter text => Quoted.encode delimiter text

/-- The lexemes as a text. -/
def Lexeme.text (lexemes : List Lexeme) : String := String.ofList (lexemes.flatMap Lexeme.chars)

/-- What follows a quoted text is shorter than the text with it. -/
theorem Quoted.length_lt_of_readBody? {delimiter : Char} {l text after : List Char}
    (h : readBody? delimiter l = some (text, after)) : after.length < l.length := by
  rw [(eq_double_of_readBody? h).1, List.length_append, List.length_cons]
  omega

/-- The lexemes of a text, unless it ends inside quotes. -/
def lexemes? : List Char → Option (List Lexeme)
  | [] => some []
  | c :: rest =>
    if isQuote c then
      match _h : Quoted.readBody? c rest with
      | some (text, after) => (lexemes? after).map fun lexemes => .quoted c text :: lexemes
      | none => none
    else (lexemes? rest).map fun lexemes => .plain c :: lexemes
termination_by text => text.length
decreasing_by
  · have hlt := Quoted.length_lt_of_readBody? _h
    simp only [List.length_cons]
    omega
  · simp

/-- The text is written as the lexemes, so that no quoted text runs into what follows it. -/
inductive Lexed : List Lexeme → List Char → Prop where
  | nil : Lexed [] []
  | plain {c : Char} {lexemes : List Lexeme} {rest : List Char} (hc : isQuote c = false)
      (h : Lexed lexemes rest) : Lexed (.plain c :: lexemes) (c :: rest)
  | quoted {delimiter : Char} {text : List Char} {lexemes : List Lexeme} {rest : List Char}
      (hdelimiter : isQuote delimiter = true) (hrest : rest.head? ≠ some delimiter)
      (h : Lexed lexemes rest) :
      Lexed (.quoted delimiter text :: lexemes) (Quoted.encode delimiter text ++ rest)

namespace Lexed

variable {lexemes others : List Lexeme} {text behind : List Char}

/-- What is written as lexemes is scanned as these. -/
theorem lexemes?_eq (h : Lexed lexemes text) : lexemes? text = some lexemes := by
  induction h with
  | nil => simp [lexemes?]
  | plain hc _ ih => simp [lexemes?, hc, ih]
  | @quoted delimiter text lexemes rest hdelimiter hrest _ ih =>
    have hread := Quoted.readBody?_double hrest text
    simp only [Quoted.encode, List.cons_append, List.append_assoc, List.nil_append, lexemes?,
      hdelimiter, if_true]
    split
    · rename_i body after heq
      rw [hread] at heq
      cases heq
      simp [ih]
    · rename_i heq
      rw [hread] at heq
      cases heq

end Lexed

example : lexemes? "('it''s');".toList =
    some [.plain '(', .quoted '\'' "it's".toList, .plain ')', .plain ';'] := by cbv

namespace Lexed

variable {lexemes others : List Lexeme} {text behind : List Char}

/-- Lexemes tell the text that is written as them. -/
theorem flatMap_chars_eq (h : Lexed lexemes text) : lexemes.flatMap Lexeme.chars = text := by
  induction h with
  | nil => rfl
  | plain _ _ ih => simp [Lexeme.chars, ih]
  | quoted _ _ _ ih => simp [Lexeme.chars, ih]

theorem text_eq {s : String} (h : Lexed lexemes s.toList) : Lexeme.text lexemes = s := by
  rw [Lexeme.text, h.flatMap_chars_eq, String.ofList_toList]

/-- A text may follow another one if it does not start with a quote. -/
theorem append (h : Lexed lexemes text) (hbehind : Lexed others behind)
    (hhead : ∀ c, behind.head? = some c → isQuote c = false) :
    Lexed (lexemes ++ others) (text ++ behind) := by
  induction h with
  | nil => exact hbehind
  | plain hc _ ih => exact .plain hc ih
  | @quoted delimiter text lexemes rest hdelimiter hrest _ ih =>
    rw [List.cons_append, List.append_assoc]
    refine .quoted hdelimiter ?_ ih
    cases rest with
    | nil =>
      intro hquote
      rw [hhead delimiter hquote] at hdelimiter
      cases hdelimiter
    | cons c rest => exact hrest

/-- Characters other than quotes stand for themselves, whatever follows them. -/
theorem plains {word : List Char} (hword : ∀ c ∈ word, isQuote c = false)
    (h : Lexed lexemes text) : Lexed (word.map Lexeme.plain ++ lexemes) (word ++ text) := by
  induction word with
  | nil => exact h
  | cons c rest ih =>
    rw [List.forall_mem_cons] at hword
    exact .plain hword.1 (ih hword.2)

/-- A quoted text on its own. -/
theorem encode {delimiter : Char} (hdelimiter : isQuote delimiter = true) (text : List Char) :
    Lexed [.quoted delimiter text] (Quoted.encode delimiter text) := by
  have h : Lexed [.quoted delimiter text] (Quoted.encode delimiter text ++ []) :=
    .quoted hdelimiter (by simp) .nil
  rwa [List.append_nil] at h

theorem identifier (name : String) :
    Lexed [.quoted '"' name.toList] (Quoted.identifier name).toList := by
  rw [Quoted.toList_identifier]
  exact encode (by decide) name.toList

theorem string (text : String) :
    Lexed [.quoted '\'' text.toList] (Quoted.string text).toList := by
  rw [Quoted.toList_string]
  exact encode (by decide) text.toList

end Lexed

end SqlTree.Text

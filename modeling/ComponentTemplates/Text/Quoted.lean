/-
Module: ComponentTemplates.Text.Quoted
Purpose: Single-quoted literals of the generated code, written and read. A backslash announces a
  backslash, a quote, a newline (`n`) or a carriage return (`r`); all else stands for itself. Main
  statement: a reader that meets a written literal gets the text back and stops right behind it,
  whatever follows (`read?_write`). Names are written bare when they are identifiers.
Main exports: escapeChar, write, read?, literal, name
-/
import ComponentTemplates.Text.Identifier

namespace ComponentTemplates.Text.Quoted

/-- What a character of the text becomes between the quotes. -/
def escapeChar : Char → List Char
  | '\\' => ['\\', '\\']
  | '\'' => ['\\', '\'']
  | '\n' => ['\\', 'n']
  | '\r' => ['\\', 'r']
  | c => [c]

/-- The literal that stands for `cs`, with its quotes. -/
def write (cs : List Char) : List Char :=
  '\'' :: cs.flatMap escapeChar ++ ['\'']

/-- The character that a backslash followed by `c` stands for. -/
def unescapeChar : Char → Char
  | 'n' => '\n'
  | 'r' => '\r'
  | c => c

/-- The text up to the closing quote, with what follows the quote; none if there is no such quote. -/
def readBody? : List Char → Option (List Char × List Char)
  | [] => none
  | '\'' :: rest => some ([], rest)
  | '\\' :: c :: rest => (readBody? rest).map fun (text, rest) => (unescapeChar c :: text, rest)
  | c :: rest => (readBody? rest).map fun (text, rest) => (c :: text, rest)

/-- The text of the literal at the head of the input, with what follows the literal. -/
def read? : List Char → Option (List Char × List Char)
  | '\'' :: rest => readBody? rest
  | _ => none

/-- The literal that stands for a text. -/
def literal (text : String) : String :=
  String.ofList (write text.toList)

/-- A name as generated code writes it: bare if it is an identifier, else as a literal. -/
def name (text : String) : String :=
  if Identifier.isIdentifier text.toList then text else literal text

/-- Reading undoes one escaped character. -/
theorem readBody?_escapeChar (c : Char) (rest : List Char) :
    readBody? (escapeChar c ++ rest) =
      (readBody? rest).map fun (text, rest) => (c :: text, rest) := by
  unfold escapeChar
  split
  · rfl
  · rfl
  · rfl
  · rfl
  · next hbackslash hquote _ _ =>
      rw [List.singleton_append, readBody?]
      · exact hquote
      · intro d tail h _
        exact hbackslash h

/-- Reading undoes escaping up to the closing quote, and leaves what follows it. -/
theorem readBody?_escape (cs rest : List Char) :
    readBody? (cs.flatMap escapeChar ++ '\'' :: rest) = some (cs, rest) := by
  induction cs with
  | nil => rfl
  | cons c cs ih =>
      rw [List.flatMap_cons, List.append_assoc, readBody?_escapeChar, ih]
      rfl

/-- A written literal is read back whole, and the reader stops right behind it. -/
theorem read?_write (cs rest : List Char) : read? (write cs ++ rest) = some (cs, rest) := by
  simp [write, read?, readBody?_escape]

end ComponentTemplates.Text.Quoted

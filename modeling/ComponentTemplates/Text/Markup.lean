/-
Module: ComponentTemplates.Text.Markup
Purpose: Plain text as markup: the four characters that mean something to a markup reader are
  replaced by entities, one by one.
Main exports: entity, escapeChars, escape
-/

namespace ComponentTemplates.Text.Markup

/-- What a character of plain text becomes in markup. -/
def entity : Char → List Char
  | '&' => ['&', 'a', 'm', 'p', ';']
  | '<' => ['&', 'l', 't', ';']
  | '>' => ['&', 'g', 't', ';']
  | '"' => ['&', 'q', 'u', 'o', 't', ';']
  | c => [c]

/-- The markup of a list of characters. -/
def escapeChars (cs : List Char) : List Char :=
  cs.flatMap entity

/-- The markup of a plain text. -/
def escape (text : String) : String :=
  String.ofList (escapeChars text.toList)

@[simp] theorem escapeChars_nil : escapeChars [] = [] := rfl

@[simp] theorem escapeChars_cons (c : Char) (cs : List Char) :
    escapeChars (c :: cs) = entity c ++ escapeChars cs := by
  simp [escapeChars]

@[simp] theorem escapeChars_append (xs ys : List Char) :
    escapeChars (xs ++ ys) = escapeChars xs ++ escapeChars ys := by
  simp [escapeChars]

end ComponentTemplates.Text.Markup

/-!
# Backtick escapes

Between backticks a backslash escapes the character after it.  A text is made safe there by
putting a backslash before every backtick that has none directly before it.
-/

namespace SqlWorkflow.Sql

/-- The text with a backslash before every backtick that has none directly before it, where
`prev` is the character before the text. -/
def escapeFrom (prev : Option Char) : List Char → List Char
  | [] => []
  | c :: cs =>
    if c = '`' ∧ prev ≠ some '\\' then '\\' :: c :: escapeFrom (some c) cs
    else c :: escapeFrom (some c) cs

/-- The text with a backslash before every backtick that has none directly before it. -/
def escapeBackticks (s : String) : String := String.ofList (escapeFrom none s.toList)

end SqlWorkflow.Sql

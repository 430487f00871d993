/-
Text written into HTML.

In running text the ampersand and the two angle brackets are written as entities; inside an
attribute value both quotes are too.
-/
namespace WikiMigration.Html

/-- One character of running text. -/
def escapeChar (c : Char) : List Char :=
  if c == '&' then "&amp;".toList
  else if c == '<' then "&lt;".toList
  else if c == '>' then "&gt;".toList
  else [c]

/-- One character of an attribute value. -/
def escapeAttributeChar (c : Char) : List Char :=
  if c == '"' then "&quot;".toList
  else if c == '\'' then "&#x27;".toList
  else escapeChar c

/-- Running text. -/
def escape (text : List Char) : List Char := text.flatMap escapeChar

/-- An attribute value, to stand between double quotes. -/
def escapeAttribute (text : List Char) : List Char := text.flatMap escapeAttributeChar

end WikiMigration.Html

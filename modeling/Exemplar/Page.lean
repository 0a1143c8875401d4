import Exemplar.Json.Printer

/-!
# The result page

A page shows a schema, the value made for it and, if there was one, the error.
It is one of four skeletons, according to which of the two optional blocks it
has, with the escaped texts in fixed places.
-/

namespace Exemplar

/-- What a page shows. An empty schema text or error is left out. -/
structure Page where
  title : String := "Object based on schema"
  schemaText : String := ""
  value : Json := .null
  error : String := ""
  /-- How the value is indented. -/
  indent : Json := .int 2

namespace Page

/-- How a character stands within a page. -/
def escapeChar (c : Char) : List Char :=
  if c = '&' then "&amp;".toList
  else if c = '<' then "&lt;".toList
  else if c = '>' then "&gt;".toList
  else if c = '"' then "&#34;".toList
  else if c = '\'' then "&#39;".toList
  else [c]

/-- A text as it stands within a page. -/
def escape (text : String) : String := String.ofList (text.toList.flatMap escapeChar)

def opening : String :=
  "<!DOCTYPE html>
<html lang=\"en\">
<head>
    <meta charset=\"utf-8\">
    <title>"

/-- From the title to the first block. -/
def styles : String :=
  "</title>
    <style>
        .wrapper \x7b max-width: 960px; margin: 0 auto; font-family: sans-serif; \x7d
        .schema, .result \x7b background: #f6f8fa; padding: 1em; overflow-x: auto; \x7d
        .error \x7b border: 1px solid #d73a49; background: #ffeef0; padding: 0 1em; \x7d
    </style>
</head>
<body>
<div class=\"app\">
    <div class=\"wrapper\">
"

def schemaBlock (shown : String) : String :=
  "        <h2>Schema:</h2>
        <pre class=\"schema\">" ++ shown ++ "</pre>
"

def valueBlock (shown : String) : String :=
  "        <div>
            <h2>Result:</h2>
            <code>
                <pre class=\"result\">" ++ shown ++ "</pre>
            </code>
        </div>
"

def errorBlock (shown : String) : String :=
  "        <div class=\"error\" role=\"alert\">
            <h3>An error occured:</h3>
            <p>" ++ shown ++ "</p>
        </div>
"

/-- The end of the page, without a line end. -/
def closing : String :=
  "    </div>
</div>
</body>
</html>"

/-- A block, left out if its text is empty. -/
def optionalBlock (block : String → String) (text : String) : String :=
  if text = "" then "" else block (escape text)

/-- The page around the text of a value. -/
def document (page : Page) (valueText : String) : String :=
  opening ++ escape page.title ++ styles
    ++ optionalBlock schemaBlock page.schemaText
    ++ valueBlock (escape valueText)
    ++ optionalBlock errorBlock page.error
    ++ closing

/-- The text of a page, provided that its value can be written. -/
def render (page : Page) : Except Fault String :=
  (page.value.render page.indent).map page.document

end Page

end Exemplar

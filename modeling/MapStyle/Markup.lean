import MapStyle.Text.Blank

/-!
# XML texts

XML texts of elements that hold either elements or text. Every element starts a line of its own,
indented by two spaces for each level. Attribute values and texts are escaped, so that no content
can be taken for markup.
-/

namespace MapStyle

/-- An element with elements inside, an element with a text inside, or markup written as it is. -/
inductive Markup where
  | element (name : String) (attributes : List (String × String)) (children : List Markup)
  | text (name : String) (attributes : List (String × String)) (content : String)
  | verbatim (markup : String)

namespace Markup

/-- A character inside a text or an attribute value. -/
def escape (c : Char) : List Char :=
  if c = '&' then "&amp;".toList
  else if c = '<' then "&lt;".toList
  else if c = '>' then "&gt;".toList
  else if c = '"' then "&quot;".toList
  else if c = '\'' then "&apos;".toList
  else [c]

def escaped (text : String) : List Char :=
  text.toList.flatMap escape

def indent (depth : Nat) : List Char :=
  List.replicate (2 * depth) ' '

/-- Attributes in a tag, each after a space. -/
def writeAttributes (attributes : List (String × String)) : List Char :=
  attributes.flatMap fun a => ' ' :: a.1.toList ++ '=' :: '"' :: escaped a.2 ++ ['"']

def openTag (name : String) (attributes : List (String × String)) : List Char :=
  '<' :: name.toList ++ writeAttributes attributes

/-- The tag that closes an element, with the end of its line. -/
def closeTag (name : String) : List Char :=
  '<' :: '/' :: name.toList ++ ['>', '\n']

mutual

/-- The lines of an element at a depth. -/
def write (depth : Nat) : Markup → List Char
  | .element name attributes [] => indent depth ++ openTag name attributes ++ ['/', '>', '\n']
  | .element name attributes (child :: children) =>
    indent depth ++ openTag name attributes ++ ['>', '\n'] ++ write (depth + 1) child ++
      writeAll (depth + 1) children ++ indent depth ++ closeTag name
  | .text name attributes content =>
    indent depth ++ openTag name attributes ++ '>' :: escaped content ++ closeTag name
  | .verbatim markup => indent depth ++ Text.trim markup.toList ++ ['\n']

def writeAll (depth : Nat) : List Markup → List Char
  | [] => []
  | child :: children => write depth child ++ writeAll depth children

end

/-- The text of a root element, which has two tags even if it is empty. -/
def document (name : String) (attributes : List (String × String)) (children : List Markup) :
    String :=
  String.ofList (openTag name attributes ++ ['>', '\n'] ++ writeAll 1 children ++ closeTag name)

end Markup

end MapStyle

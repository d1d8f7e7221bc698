import ImagePreview.Text.Digits

/-!
What can be wrong with markup.
-/
namespace ImagePreview.Markup

inductive Part
  | instruction
  | declaration
  | cdata
  | comment
  | doctype
  | element
deriving DecidableEq

def Part.name : Part → Text
  | instruction => "XmlDecl".toList
  | declaration => "Bang".toList
  | cdata => "CData".toList
  | comment => "Comment".toList
  | doctype => "DOCTYPE".toList
  | element => "Element".toList

inductive Fault
  /-- The part does not end, or it did not begin as it should. -/
  | unclosed (part : Part)
  | emptyDoctype
  /-- An exclamation mark before a character that begins no declaration. -/
  | unknownDeclaration (c : Char)
  /-- Nothing follows an equals sign. The position is the length of the tag's content. -/
  | missingValue (position : Nat)
  | missingQuote (position : Nat) (quote : Char)
deriving DecidableEq

namespace Fault

/-- A character that begins no declaration is shown by its first byte. -/
def detail : Fault → Text
  | unclosed part => "Unexpected EOF during reading ".toList ++ part.name
  | emptyDoctype => "DOCTYPE declaration must not be empty".toList
  | unknownDeclaration c =>
    "Only Comment (`--`), CDATA (`[CDATA[`) and DOCTYPE (`DOCTYPE`) nodes can start with ".toList ++
      "a '!', but symbol `".toList ++ Char.ofNat (Text.leadByte c).toNat :: "` found".toList
  | missingValue position =>
    "error while parsing attribute: position ".toList ++ Text.ofNat position ++
      ": `=` must be followed by an attribute value".toList
  | missingQuote position quote =>
    "error while parsing attribute: position ".toList ++ Text.ofNat position ++
      ": missing closing quote `".toList ++ quote :: "` in attribute value".toList

def message (fault : Fault) : Text := "XML parsing error: ".toList ++ fault.detail

end Fault
end ImagePreview.Markup

import ImagePreview.Markup.Item
import ImagePreview.Text.Cut

/-!
A document as a list of tokens, each with the text it was read from. Sources are cut from the
document one after another by the widths of its items; a byte order mark at the beginning is not
counted among them.
-/
namespace ImagePreview.Markup

inductive Token
  | startTag (tag : StartTag)
  | endTag (tag : EndTag)
  /-- Written as it is. -/
  | text (t : Text)
deriving DecidableEq

namespace Token

def write : Token → Text
  | startTag tag => tag.write
  | endTag tag => tag.write
  | text t => t

def ofItem (source : Text) : Item → Token
  | .text => text source
  | .startTag name attributes selfClosing =>
    startTag ⟨name, attributes, selfClosing, some source⟩
  | .endTag name => endTag ⟨name, some source⟩

def place (document : Text) (start : Nat) : List (Item × Nat) → List Token
  | [] => []
  | (item, width) :: rest =>
    ofItem (Text.piece document start width) item :: place document (start + width) rest

end Token

def withoutMark : Text → Text
  | '\uFEFF' :: t => t
  | t => t

def tokens (document : Text) : Except Fault (List Token) :=
  (items (withoutMark document)).map (Token.place document 0)

def render (ts : List Token) : Text := ts.flatMap Token.write

end ImagePreview.Markup

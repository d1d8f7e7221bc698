import ImagePreview.Image.Form
import ImagePreview.Markup.Token
import ImagePreview.Scripts.Block

/-!
The pieces that a delivered document is made of. A piece tells what is written, and the assets tell
how; so no decision about a document hangs on its assets. No piece is written as nothing, so two
places between pieces are the same only if no text stands between them.
-/
namespace ImagePreview

open Markup

inductive Piece
  | token (token : Token)
  | preview (tag : StartTag) (url : Text) (preview : Preview)
  /-- An image that loads when it comes into view. -/
  | placeholder (tag : StartTag)
  | block (block : Block)
deriving DecidableEq

namespace Piece

/-- The piece for a token; there is none for a token without text. -/
def ofToken (t : Token) : List Piece := if t.write.isEmpty then [] else [token t]

theorem mem_ofToken {t : Token} {piece : Piece} :
    piece ∈ ofToken t ↔ piece = token t ∧ t.write ≠ [] := by
  rw [ofToken]
  split
  · rename_i h
    simp [List.isEmpty_iff.mp h]
  · rename_i h
    simpa using fun _ => h

def previewTag (policy : Policy) (assets : Assets) (tag : StartTag) (preview : Preview) :
    StartTag :=
  tag.withPreview policy.mode preview
    (if policy.lazyFullImages then some assets.blankImageUrl else none)

def write (policy : Policy) (assets : Assets) : Piece → Text
  | token t => t.write
  | preview tag _ p => (previewTag policy assets tag p).write
  | placeholder tag => (tag.asPlaceholder assets.blankImageUrl).write
  | block b => b.write assets policy.settings.debug

def render (policy : Policy) (assets : Assets) (pieces : List Piece) : Text :=
  pieces.flatMap (write policy assets)

variable (policy : Policy) (assets : Assets)

@[simp] theorem render_append (a b : List Piece) :
    render policy assets (a ++ b) = render policy assets a ++ render policy assets b :=
  List.flatMap_append

@[simp] theorem render_blocks (blocks : List Block) :
    render policy assets (blocks.map .block) =
      blocks.flatMap (Block.write assets policy.settings.debug) := by
  simp [render, List.flatMap_map, write]

@[simp] theorem render_ofToken (t : Token) : render policy assets (ofToken t) = t.write := by
  rw [ofToken]
  split
  · rename_i h
    exact (List.isEmpty_iff.mp h).symm
  · simp [render, write]

end Piece
end ImagePreview

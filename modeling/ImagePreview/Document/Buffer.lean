import ImagePreview.Document.Piece

/-!
Output that has not been taken yet. Closed windows are final. The open window has two marks, where
blocks may be put in when it is closed: before its last `</body>`, and after its last image with a
preview.
-/
namespace ImagePreview

structure Buffer where
  closed : List Piece := []
  window : List Piece := []
  /-- Number of pieces of the window before its last `</body>`. -/
  bodyEnd : Option Nat := none
  /-- Number of pieces of the window up to its last image with a preview. -/
  previewEnd : Option Nat := none
deriving DecidableEq

namespace Buffer

variable (buffer : Buffer)

def push (pieces : List Piece) : Buffer := { buffer with window := buffer.window ++ pieces }

def markBodyEnd : Buffer := { buffer with bodyEnd := some buffer.window.length }

def markPreview : Buffer := { buffer with previewEnd := some buffer.window.length }

def insertAt (n : Nat) (extra pieces : List Piece) : List Piece :=
  pieces.take n ++ extra ++ pieces.drop n

/-- The window with `trailer` before its last `</body>`, or else at its end, and `scripts` after its
last image with a preview, or else behind the trailer. Where both go to one place, the trailer comes
first. -/
def woven (trailer scripts : List Piece) : List Piece :=
  let bodyEnd := buffer.bodyEnd.getD buffer.window.length
  let previewEnd := buffer.previewEnd.getD bodyEnd
  if previewEnd < bodyEnd then
    insertAt previewEnd scripts (insertAt bodyEnd trailer buffer.window)
  else insertAt bodyEnd trailer (insertAt previewEnd scripts buffer.window)

def close (trailer scripts tail : List Piece) : Buffer :=
  { closed := buffer.closed ++ buffer.woven trailer scripts ++ tail }

def take : List Piece × Buffer := (buffer.closed, { buffer with closed := [] })

@[simp] theorem insertAt_nil (n : Nat) (pieces : List Piece) : insertAt n [] pieces = pieces := by
  simp [insertAt]

@[simp] theorem woven_nil : buffer.woven [] [] = buffer.window := by simp [woven]

end Buffer
end ImagePreview

import ImagePreview.Text.Base64

/-!
A preview: a small picture that stands in for an image until the image itself is shown.
-/
namespace ImagePreview

structure Preview where
  contentType : Text
  bytes : List UInt8
  /-- The size that limits are applied to. -/
  byteSize : UInt64
deriving DecidableEq

namespace Preview

def ofBytes (contentType : Text) (bytes : List UInt8) : Preview :=
  ⟨contentType, bytes, UInt64.ofNat bytes.length⟩

def dataUri (preview : Preview) : Text :=
  "data:".toList ++ preview.contentType ++ ";base64,".toList ++ Text.Base64.encode preview.bytes

end Preview
end ImagePreview

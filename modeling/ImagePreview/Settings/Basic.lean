import ImagePreview.Text.Basic

/-!
What can be set for a document: which previews are worth showing, how many, and which scripts go
with them.
-/
namespace ImagePreview

/-- Sizes in bytes that a preview may have; an upper end of zero leaves it open. -/
structure SizeLimits where
  least : UInt64 := 1024
  most : UInt64 := 1048576
deriving DecidableEq

def SizeLimits.unlimited : SizeLimits := ⟨0, 0⟩

def SizeLimits.admits (limits : SizeLimits) (size : UInt64) : Bool :=
  limits.least ≤ size && (limits.most == 0 || size ≤ limits.most)

structure Settings where
  limits : SizeLimits := {}
  /-- Greatest index of an image that gets a preview, counted from zero; below zero, no limit. -/
  maxIndex : Int64 := -1
  deferScripts : Bool := false
  lazyImages : Bool := false
  /-- On mobile clients, full images load in place of previews when they come into view. -/
  lazyFullImages : Bool := false
  /-- Previews stand in the image element itself and not in a script. -/
  inlinePreviews : Bool := false
  /-- Mobile clients get smaller previews. -/
  mobilePreviews : Bool := false
  keepDocument : Bool := false
  /-- Scripts are written with their comments. -/
  debug : Bool := false
deriving DecidableEq

/-- Whether an image may get a preview after `count` others did. The count is compared as a signed
64-bit word. -/
def Settings.allowsIndex (settings : Settings) (count : Nat) : Bool :=
  settings.maxIndex < 0 || Int64.ofNat count ≤ settings.maxIndex

namespace Settings

inductive Key
  | least
  | most
  | maxIndex
  | deferScripts
  | lazyImages
  | lazyFullImages
  | inlinePreviews
  | mobilePreviews
  | keepDocument
  | debug
deriving DecidableEq

def Key.all : List Key :=
  [least, most, maxIndex, deferScripts, lazyImages, lazyFullImages, inlinePreviews, mobilePreviews,
    keepDocument, debug]

theorem Key.mem_all (key : Key) : key ∈ all := by cases key <;> decide

end Settings
end ImagePreview

import ImagePreview.Text.Blank

/-!
What the client that asks for a document can do, told from the way it names itself.
-/
namespace ImagePreview

structure Capability where
  preview : Bool := false
  lazyload : Bool := false
  mobile : Bool := false
deriving DecidableEq

namespace Capability

def unsupported : Capability := {}

def desktop : Capability := { preview := true, lazyload := true }

def phone : Capability := { desktop with mobile := true }

end Capability

structure Unclassified where
  reason : Text
deriving DecidableEq

def Unclassified.message (e : Unclassified) : Text :=
  "User agent could not be classified: ".toList ++ e.reason

abbrev Classifier := Text → Except Unclassified Capability

/-- Words that tell clients apart, letter case included. -/
structure Markers where
  unsupported : List Text
  noLazyload : List Text
  mobile : List Text

namespace Markers

def usual : Markers where
  unsupported :=
    ["unsupported".toList, "MSIE 5.".toList, "MSIE 6.".toList, "Opera Mini".toList,
      "Googlebot".toList]
  noLazyload := ["MSIE 7.".toList, "BlackBerry".toList]
  mobile :=
    ["Android".toList, "iPhone OS".toList, "iPod".toList, "Mobile".toList, "Windows Phone".toList]

def anyIn (words : List Text) (name : Text) : Bool := words.any fun word => Text.occursIn word name

/-- A client without a name is supported no more than one with an unsupported marker. -/
def capability (markers : Markers) (client : Text) : Capability :=
  let name := Text.trim client
  if name.isEmpty || anyIn markers.unsupported name then .unsupported
  else
    { preview := true
      lazyload := !anyIn markers.noLazyload name
      mobile := anyIn markers.mobile name }

def classifier (markers : Markers) : Classifier := fun client => .ok (markers.capability client)

end Markers
end ImagePreview

import ImagePreview.Markup.Token

/-!
A document arrives as events: its tokens, and the places where what has been written so far is
wanted.
-/
namespace ImagePreview

open Markup

inductive Event
  | token (token : Token)
  /-- Everything up to here is wanted now. -/
  | flush
  | finish
deriving DecidableEq

inductive DocumentError
  | markup (fault : Fault)
  | finished
deriving DecidableEq

def DocumentError.message : DocumentError → Text
  | markup fault => fault.message
  | finished => "Event received after the document was finished".toList

end ImagePreview

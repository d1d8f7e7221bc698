import ImagePreview.Text.Basic

/-!
The url of a document in its plain form, for clients that run no scripts.
-/
namespace ImagePreview

def plainParameter : Text := "ModPagespeed=noscript".toList

/-- The url without its fragment and with the parameter, which is meant to be the last one of its
query. -/
def plainUrl (url : Text) : Text :=
  let base := url.takeWhile (· != '#')
  if base.getLast? = some '?' ∨ base.getLast? = some '&' then base ++ plainParameter
  else if base.contains '?' then base ++ '&' :: plainParameter
  else base ++ '?' :: plainParameter

end ImagePreview

import ImagePreview.Proofs.Image.ShownSource
import ImagePreview.Proofs.Scripts.Note

/-!
Urls in attributes. Wherever a url is written between quotes, nothing in it can end the value or the
tag, and a client that decodes the value has the url again, with whatever looks like a reference in
it.
-/
namespace ImagePreview

open Markup

namespace Markup

def Token.value? (element name : Text) : Token → Option Text
  | .startTag tag => if tag.isNamed element then tag.get? name else none
  | _ => none

theorem Token.value?_reread {element name value : Text} {tag : StartTag}
    (hvalue : Token.value? element name (.startTag tag) = some value) (h : '"' ∉ value) :
    Token.value? element name (.startTag tag.reread) = some value := by
  rw [value?] at hvalue ⊢
  have hname : tag.reread.isNamed element = tag.isNamed element := rfl
  rw [hname, StartTag.get?_reread]
  split at hvalue
  · rename_i helement
    rw [if_pos helement, hvalue, Option.map_some, Attribute.between_of_not_mem h]
  · contradiction

end Markup

def valuesIn (html element name : Text) : List Text :=
  ((tokens html).toOption.getD []).filterMap (Token.value? element name)

namespace Block

def loaderTag (address : Text) : StartTag :=
  { name := "script".toList
    attributes := [⟨"type".toList, some "text/javascript".toList⟩, ⟨"src".toList, some address⟩] }

theorem isPlain_loaderTag (address : Text) : (loaderTag address).IsPlain :=
  .of_names (by decide : (loaderTag []).IsPlain) rfl rfl

theorem write_loaderTag {address : Text} (h : '"' ∉ address) :
    (loaderTag address).write =
      "<script type=\"text/javascript\" src=\"".toList ++ (address ++ "\">".toList) := by
  simp [StartTag.write, loaderTag, Attribute.write, Attribute.quoted_of_not_mem, h]

theorem write_deferLoader (assets : Assets) (debug : Bool) :
    deferLoader.write assets debug =
      (loaderTag (Text.Reference.encode (assets.deferLoaderUrl debug))).write ++ scriptClose := by
  have hquote := (Text.Reference.denotes_encode (assets.deferLoaderUrl debug)).quote
  have hclose : "\"></script>".toList = "\">".toList ++ scriptClose := by decide +kernel
  rw [write_loaderTag hquote]
  unfold write
  simp only [hclose, List.append_assoc]

theorem tokens_deferLoader (assets : Assets) (debug : Bool) :
    tokens (deferLoader.write assets debug) =
      .ok [.startTag (loaderTag (Text.Reference.encode (assets.deferLoaderUrl debug))).reread,
        .endTag ⟨"script".toList, some scriptClose⟩] := by
  have hclose : ReadsAs scriptClose [.endTag ⟨"script".toList, some scriptClose⟩] :=
    .of_tokens (by decide +kernel) (by decide) ⟨_, rfl, rfl⟩ (by decide)
  rw [write_deferLoader]
  refine ((ReadsAs.tag (isPlain_loaderTag _) rfl).append hclose).tokens_eq ?_
  rw [StartTag.write_eq rfl]
  exact (by decide : some '<' ≠ some '\uFEFF')

theorem valuesIn_deferLoader (assets : Assets) (debug : Bool) :
    valuesIn (deferLoader.write assets debug) "script".toList sourceAttribute =
      [Text.Reference.encode (assets.deferLoaderUrl debug)] := by
  have hquote := (Text.Reference.denotes_encode (assets.deferLoaderUrl debug)).quote
  have hvalue : Token.value? "script".toList sourceAttribute
      (.startTag (loaderTag (Text.Reference.encode (assets.deferLoaderUrl debug))).reread) =
        some (Text.Reference.encode (assets.deferLoaderUrl debug)) :=
    Token.value?_reread rfl hquote
  rw [valuesIn, tokens_deferLoader]
  exact List.filterMap_cons_some hvalue

theorem valuesIn_fallback (assets : Assets) (debug : Bool) (url : Text) :
    valuesIn ((fallback url).write assets debug) "a".toList "href".toList =
      [Text.Reference.encodeQuoted (plainUrl url)] := by
  have hquote := (Text.Reference.denotes_encodeQuoted (plainUrl url)).quote
  have hvalue : Token.value? "a".toList "href".toList
      (.startTag (linkTag (Text.Reference.encodeQuoted (plainUrl url))).reread) =
        some (Text.Reference.encodeQuoted (plainUrl url)) :=
    Token.value?_reread rfl hquote
  let isLink := Token.value? "a".toList "href".toList
  let link : Token := .startTag (linkTag (Text.Reference.encodeQuoted (plainUrl url))).reread
  rw [valuesIn, tokens_fallback]
  calc (noteTokens (Text.Reference.encodeQuoted (plainUrl url))).filterMap isLink
    _ = (noteStyleTokens ++ .text noteClick :: link :: noteEndTokens).filterMap isLink := rfl
    _ = (link :: noteEndTokens).filterMap isLink := List.filterMap_append
    _ = [Text.Reference.encodeQuoted (plainUrl url)] := List.filterMap_cons_some hvalue

end Block

namespace Markup.StartTag

variable {tag : StartTag}

theorem named_reread (name : Text) :
    tag.reread.named name = (tag.named name).map Attribute.reread := by
  simp only [named, reread, List.filter_map]
  rfl

end Markup.StartTag

/-- How a tag is written and read whose source moved to the attribute `name`: with all its attributes
and then `value` for its source, in front of `more` attributes. -/
structure WrittenSource (tag form : StartTag) (name value : Text) (more : List Attribute) :
    Prop where
  write : form.write =
    '<' :: tag.name ++ (tag.rename sourceAttribute name).attributes.flatMap Attribute.write ++
      " src=\"".toList ++ value ++ ['"'] ++ more.flatMap Attribute.write ++
      if tag.selfClosing then ['/', '>'] else ['>']
  read : tag.IsPlain → ∃ read, tokens form.write = .ok [.startTag read] ∧
    (read.named sourceAttribute).getLast? = some ⟨sourceAttribute, some value⟩

/-- The last source is the one that was added. -/
theorem exists_read_source {form : StartTag} {value : Text} {sources : List Attribute}
    (hplain : form.IsPlain) (hnone : form.source = none) (hvalue : '"' ∉ value)
    (hsources : form.named sourceAttribute = sources ++ [⟨sourceAttribute, some value⟩]) :
    ∃ read, tokens form.write = .ok [.startTag read] ∧
      (read.named sourceAttribute).getLast? = some ⟨sourceAttribute, some value⟩ := by
  refine ⟨form.reread, StartTag.tokens_write hplain hnone, ?_⟩
  rw [StartTag.named_reread, hsources, List.map_append, List.map_singleton,
    List.getLast?_concat, Attribute.reread, Option.getD_some, Attribute.between_of_not_mem hvalue]

section Forms

open Text.Reference

variable (tag : StartTag) (blankUrl : Text)

theorem writtenSource_asPlaceholder :
    WrittenSource tag (tag.asPlaceholder blankUrl) lazyAttribute (encode blankUrl)
      [⟨onloadAttribute, some viewHandler⟩] where
  write := by
    have hquote := (denotes_encode blankUrl).quote
    simp [StartTag.asPlaceholder, StartTag.push, StartTag.withAttribute, StartTag.write,
      Attribute.write, Attribute.quoted_of_not_mem hquote, sourceAttribute]
  read h := by
    have hsource : PlainName sourceAttribute := by decide
    have hlazy : PlainName lazyAttribute := by decide
    have honload : PlainName onloadAttribute := by decide
    exact exists_read_source (((h.rename _ hlazy).push hsource _).push honload _) rfl
      (denotes_encode blankUrl).quote (named_asPlaceholder tag blankUrl)

theorem writtenSource_withPreview (preview : Preview) :
    WrittenSource tag (tag.withPreview .scripted preview (some blankUrl)) fullAttribute
      (encode blankUrl) [] where
  write := by
    have hquote := (denotes_encode blankUrl).quote
    simp [StartTag.withPreview, StartTag.push, StartTag.withAttribute, StartTag.write,
      Attribute.write, Attribute.quoted_of_not_mem hquote, sourceAttribute]
  read h := by
    have hsource : PlainName sourceAttribute := by decide
    have hfull : PlainName fullAttribute := by decide
    exact exists_read_source ((h.rename _ hfull).push hsource _) rfl
      (denotes_encode blankUrl).quote (named_withPreview tag .scripted preview (some blankUrl))

end Forms

open Text.Reference in
/-- The link of the note, the address of the loader and the blank image of either form are written
as values that hold nothing to end them, and that mean the url of the plain form of the document, of
the loader and of the blank image. -/
theorem addresses_denote (assets : Assets) (debug : Bool) (documentUrl blankUrl : Text)
    (tag : StartTag) (preview : Preview) :
    (∃ value, Denotes value (plainUrl documentUrl) ∧
      valuesIn ((Block.fallback documentUrl).write assets debug) "a".toList "href".toList =
        [value]) ∧
    (∃ value, Denotes value (assets.deferLoaderUrl debug) ∧
      valuesIn (Block.deferLoader.write assets debug) "script".toList "src".toList = [value]) ∧
    ∃ value, Denotes value blankUrl ∧
      WrittenSource tag (tag.asPlaceholder blankUrl) lazyAttribute value
        [⟨onloadAttribute, some viewHandler⟩] ∧
      WrittenSource tag (tag.withPreview .scripted preview (some blankUrl)) fullAttribute value [] :=
  ⟨⟨_, denotes_encodeQuoted _, Block.valuesIn_fallback assets debug documentUrl⟩,
    ⟨_, denotes_encode _, Block.valuesIn_deferLoader assets debug⟩,
    _, denotes_encode _, writtenSource_asPlaceholder tag blankUrl,
    writtenSource_withPreview tag blankUrl preview⟩

end ImagePreview

import ImagePreview.Proofs.Markup.Whole
import ImagePreview.Proofs.Scripts.Parameters
import ImagePreview.Proofs.Text.Encoding
import ImagePreview.Scripts.Block

/-!
The note for clients without scripts, as a client reads it. Whatever the url of the document holds,
the note is read as the markup that it was meant to be. Its refresh leads to the plain form of the
document, but only up to an apostrophe: that one is written as a reference, which is decoded before
the target is looked for between apostrophes.
-/
namespace ImagePreview

open Markup

namespace Markup.Attribute

theorem quoted_of_not_mem {value : Text} (h : '"' ∉ value) :
    quoted value = '"' :: (value ++ ['"']) := by
  simp [quoted, h]

theorem between_of_not_mem {value : Text} (h : '"' ∉ value) : between value = value :=
  if_neg fun hboth => h hboth.1

end Markup.Attribute

namespace Block

def refreshTag (address : Text) : StartTag :=
  { name := "meta".toList
    attributes := [⟨"HTTP-EQUIV".toList, some "refresh".toList⟩,
      ⟨"content".toList, some ("0;url='".toList ++ (address ++ ['\'']))⟩] }

def linkTag (address : Text) : StartTag :=
  { name := "a".toList, attributes := [⟨"href".toList, some address⟩] }

def noteStyle : Text :=
  ("<style><!--table,div,span,font,p\x7bdisplay:none\x7d --></style>" ++
    "<div style=\"display:block\">").toList

def noteClick : Text := "Please click ".toList

def noteEnd : Text :=
  "here</a> if you are not redirected within a few seconds.</div></noscript>".toList

def noteStyleTokens : List Token :=
  [.startTag { name := "style".toList, source := some "<style>".toList },
    .text "<!--table,div,span,font,p\x7bdisplay:none\x7d -->".toList,
    .endTag ⟨"style".toList, some "</style>".toList⟩,
    .startTag
      { name := "div".toList
        attributes := [⟨"style".toList, some "display:block".toList⟩]
        source := some "<div style=\"display:block\">".toList }]

def noteEndTokens : List Token :=
  [.text "here".toList, .endTag ⟨"a".toList, some "</a>".toList⟩,
    .text " if you are not redirected within a few seconds.".toList,
    .endTag ⟨"div".toList, some "</div>".toList⟩,
    .endTag ⟨"noscript".toList, some "</noscript>".toList⟩]

def noteTokens (address : Text) : List Token :=
  .startTag { name := "noscript".toList, source := some "<noscript>".toList } ::
    .startTag (refreshTag address).reread :: (noteStyleTokens ++
      .text noteClick :: .startTag (linkTag address).reread :: noteEndTokens)

variable {address : Text}

theorem isPlain_refreshTag (address : Text) : (refreshTag address).IsPlain :=
  .of_names (by decide : (refreshTag []).IsPlain) rfl rfl

theorem isPlain_linkTag (address : Text) : (linkTag address).IsPlain :=
  .of_names (by decide : (linkTag []).IsPlain) rfl rfl

theorem write_refreshTag (h : '"' ∉ address) :
    (refreshTag address).write =
      "<meta HTTP-EQUIV=\"refresh\" content=\"0;url='".toList ++ (address ++ "'\">".toList) := by
  simp [StartTag.write, refreshTag, Attribute.write, Attribute.quoted_of_not_mem, h]

theorem write_linkTag (h : '"' ∉ address) :
    (linkTag address).write = "<a href=\"".toList ++ (address ++ "\">".toList) := by
  simp [StartTag.write, linkTag, Attribute.write, Attribute.quoted_of_not_mem, h]

theorem note_eq (h : '"' ∉ address) :
    note address = "<noscript>".toList ++ ((refreshTag address).write ++ (noteStyle ++
      (noteClick ++ ((linkTag address).write ++ noteEnd)))) := by
  have hfront : "<noscript><meta HTTP-EQUIV=\"refresh\" content=\"0;url='".toList =
      "<noscript>".toList ++ "<meta HTTP-EQUIV=\"refresh\" content=\"0;url='".toList := by
    decide +kernel
  have hmiddle :
      "'\"><style><!--table,div,span,font,p\x7bdisplay:none\x7d --></style>".toList ++
          "<div style=\"display:block\">Please click <a href=\"".toList =
        "'\">".toList ++ (noteStyle ++ (noteClick ++ "<a href=\"".toList)) := by
    decide +kernel
  have hback :
      "\">here</a> if you are not redirected within a few seconds.</div></noscript>".toList =
        "\">".toList ++ noteEnd := by
    decide +kernel
  unfold note
  rw [List.append_assoc (_ ++ address), hmiddle, hfront, hback, write_refreshTag h,
    write_linkTag h]
  simp only [List.append_assoc]

theorem readsAs_note (h : '"' ∉ address) : ReadsAs (note address) (noteTokens address) := by
  have hopen : ReadsAs "<noscript>".toList
      [.startTag { name := "noscript".toList, source := some "<noscript>".toList }] :=
    .of_tokens (by decide +kernel) (by decide) ⟨_, rfl, rfl⟩ rfl
  have hstyle : ReadsAs noteStyle noteStyleTokens :=
    .of_tokens (by decide +kernel) (by decide) ⟨_, rfl, rfl⟩ (by decide)
  have hend : ReadsAs noteEnd noteEndTokens :=
    .of_tokens (by decide +kernel) (by decide) ⟨_, rfl, rfl⟩ (by decide)
  have hrefresh : ReadsAs _ _ := .tag (isPlain_refreshTag address) rfl
  have hlink : ReadsAs _ _ := .tag (isPlain_linkTag address) rfl
  have hclick := (hlink.append hend).data (a := noteClick) (by decide) (by decide)
    (by rw [StartTag.write_eq rfl]; rfl)
  rw [note_eq h]
  exact hopen.append (hrefresh.append (hstyle.append hclick))

theorem tokens_note (h : '"' ∉ address) : tokens (note address) = .ok (noteTokens address) := by
  refine (readsAs_note h).tokens_eq ?_
  rw [note_eq h]
  exact (by decide : some '<' ≠ some '\uFEFF')

end Block

/-- Where a refresh leads that has the content: to what stands between the apostrophe behind `url=`
and the next one. -/
def refreshTarget? (content : Text) : Option Text :=
  (before? "url='".toList content).bind fun front =>
    before? ['\''] (content.drop (front.length + 5))

def Markup.Token.redirect? : Token → Option Text
  | .startTag tag =>
    if tag.isNamed "meta".toList &&
        (tag.get? "http-equiv".toList).any (Text.sameWord · "refresh".toList) then
      (tag.get? "content".toList).bind fun content => refreshTarget? (Text.Reference.decode content)
    else none
  | _ => none

def redirect? (html : Text) : Option Text :=
  (tokens html).toOption.bind fun ts => ts.findSome? Token.redirect?

theorem before?_single {c : Char} (t rest : Text) :
    before? [c] (t ++ c :: rest) = some (t.takeWhile (· != c)) := by
  induction t with
  | nil => simp [before?]
  | cons d t ih =>
    by_cases hd : d = c
    · simp [before?, hd]
    · simp [before?, hd, ih, Ne.symm hd]

theorem refreshTarget?_eq (target : Text) :
    refreshTarget? ("0;url='".toList ++ (target ++ ['\''])) =
      some (target.takeWhile (· != '\'')) := by
  have hfront : before? "url='".toList ("0;url='".toList ++ (target ++ ['\''])) =
      some "0;".toList := by
    simp [before?]
  rw [refreshTarget?, hfront]
  exact before?_single target []

open Text.Reference in
theorem decode_content (target : Text) :
    decode ("0;url='".toList ++ (encodeQuoted target ++ ['\''])) =
      "0;url='".toList ++ (target ++ ['\'']) := by
  have hlast : decodeHolding none ['\''] = ['\''] := by decide
  rw [decode, decodeHolding_plain (by decide), encodeQuoted,
    decodeHolding_flatMap written_encodeQuoted, hlast]

theorem redirect?_refreshTag {address : Text} (h : '"' ∉ address) :
    Token.redirect? (.startTag (Block.refreshTag address).reread) =
      refreshTarget? (Text.Reference.decode ("0;url='".toList ++ (address ++ ['\'']))) := by
  have hname : (Block.refreshTag address).reread.isNamed "meta".toList = true :=
    Text.sameWord_self _
  have hkind : (Block.refreshTag address).reread.get? "http-equiv".toList =
      some "refresh".toList := by
    rw [StartTag.get?_reread]
    rfl
  have hcontent : (Block.refreshTag address).reread.get? "content".toList =
      some ("0;url='".toList ++ (address ++ ['\''])) := by
    have hplain : '"' ∉ "0;url='".toList ++ (address ++ ['\'']) := by simp [h]
    have hvalue : (Block.refreshTag address).get? "content".toList =
        some ("0;url='".toList ++ (address ++ ['\''])) := rfl
    rw [StartTag.get?_reread, hvalue, Option.map_some, Attribute.between_of_not_mem hplain]
  rw [Token.redirect?, hname, hkind, hcontent]
  rfl

theorem tokens_fallback (assets : Assets) (debug : Bool) (url : Text) :
    tokens ((Block.fallback url).write assets debug) =
      .ok (Block.noteTokens (Text.Reference.encodeQuoted (plainUrl url))) :=
  Block.tokens_note (Text.Reference.denotes_encodeQuoted (plainUrl url)).quote

theorem mem_plainUrl {c : Char} (hc : c ∉ '&' :: '?' :: plainParameter) (url : Text) :
    c ∈ plainUrl url ↔ c ∈ Url.resource url := by
  rw [List.mem_cons, List.mem_cons, not_or, not_or] at hc
  rw [plainUrl_eq]
  split
  · simp [hc]
  · split <;> simp [hc]

/-- A client that follows the note gets to the plain form of the document, unless there is an
apostrophe in its url; then it gets no further than that. -/
theorem redirect_fallback_iff (assets : Assets) (debug : Bool) (url : Text) :
    ∃ target, redirect? ((Block.fallback url).write assets debug) = some target ∧
      target = (plainUrl url).takeWhile (· != '\'') ∧
      (target = plainUrl url ↔ '\'' ∉ Url.resource url) := by
  have hredirect : redirect? ((Block.fallback url).write assets debug) =
      some ((plainUrl url).takeWhile (· != '\'')) := by
    have hrefresh := redirect?_refreshTag (Text.Reference.denotes_encodeQuoted (plainUrl url)).quote
    rw [decode_content, refreshTarget?_eq] at hrefresh
    rw [redirect?, tokens_fallback]
    -- the tag in front of the refresh leads nowhere
    change List.findSome? Token.redirect? (.startTag (Block.refreshTag _).reread :: _) = _
    rw [List.findSome?_cons_of_isSome (Option.isSome_of_eq_some hrefresh), hrefresh]
  refine ⟨_, hredirect, rfl, ?_⟩
  rw [← mem_plainUrl (by decide), List.takeWhile_eq_self_iff]
  constructor
  · intro hall hmem
    have hne := hall _ hmem
    contradiction
  · intro hmem
    exact bne_of_not_mem hmem

/-- Not every note leads to the plain form of its document. -/
theorem not_always_redirected :
    ¬ ∀ (assets : Assets) (debug : Bool) (url : Text),
      redirect? ((Block.fallback url).write assets debug) = some (plainUrl url) := by
  intro h
  have htarget := h .usual false "http://test.com/it's".toList
  revert htarget
  decide +kernel

end ImagePreview

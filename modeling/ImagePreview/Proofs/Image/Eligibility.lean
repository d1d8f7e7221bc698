import ImagePreview.Proofs.Image.SecondPass

/-!
Images about which there is nothing to decide. The source of an image is tested for a url that names
nothing to load after the blanks around it are taken away and before those that it spells as
references show. Behind the url such a blank changes nothing; in front of it, it hides what follows.
-/
namespace ImagePreview

open Markup

def isLocalUrl (url : Text) : Bool := url.isEmpty || isDataUrl url

theorem isDataUrl_append {t : Text} (h : isDataUrl t = true) (behind : Text) :
    isDataUrl (t ++ behind) = true := by
  have hlength : (t.take 5).length = 5 := by
    have hsame := congrArg List.length (beq_iff_eq.mp h)
    simpa [Text.lower] using hsame
  have hlong : 5 ≤ t.length := by
    rw [List.length_take] at hlength
    omega
  rw [isDataUrl, List.take_append_of_le_length hlong]
  exact h

theorem not_isDataUrl_of_isBlank {c : Char} (hc : Text.isBlank c = true) (t : Text) :
    isDataUrl (c :: t) = false := by
  rw [isDataUrl, Text.sameWord, beq_eq_false_iff_ne]
  intro h
  have hlower : c.toLower = 'd' := (List.cons.inj h).1
  rw [Text.toLower_of_isBlank hc] at hlower
  rw [hlower] at hc
  contradiction

theorem isLocalUrl_cons_of_isBlank {c : Char} (hc : Text.isBlank c = true) (t : Text) :
    isLocalUrl (c :: t) = false := by
  rw [isLocalUrl, not_isDataUrl_of_isBlank hc]
  rfl

/-- Blanks in front of a url hide that nothing is loaded for it; blanks behind it do not. -/
theorem isLocalUrl_iff_of_trim {url : Text} (h : isLocalUrl (Text.trim url) = true) :
    isLocalUrl url = true ↔ ∀ c ∈ url.head?, Text.isBlank c = false := by
  obtain ⟨front, behind, hfront, hbehind, hurl⟩ := Text.exists_trim url
  cases front with
  | cons c front =>
    have hc : Text.isBlank c = true := hfront c List.mem_cons_self
    rw [hurl, List.cons_append, isLocalUrl_cons_of_isBlank hc]
    simp [hc]
  | nil =>
    rw [List.nil_append] at hurl
    by_cases hnone : Text.trim url = []
    · rw [hnone, List.nil_append] at hurl
      rw [hurl]
      cases behind with
      | nil => simp [isLocalUrl]
      | cons c behind =>
        have hc : Text.isBlank c = true := hbehind c List.mem_cons_self
        rw [isLocalUrl_cons_of_isBlank hc]
        simp [hc]
    · have hdata : isDataUrl (Text.trim url) = true := by
        simpa [isLocalUrl, hnone] using h
      have hlong := isDataUrl_append hdata behind
      rw [← hurl] at hlong
      have hlocal : isLocalUrl url = true := by rw [isLocalUrl, hlong, Bool.or_true]
      refine iff_of_true hlocal fun c hc => ?_
      cases hb : Text.isBlank c with
      | false => rfl
      | true =>
        obtain ⟨rest, hrest⟩ := List.head?_eq_some_iff.mp hc
        rw [hrest, isLocalUrl_cons_of_isBlank hb] at hlocal
        exact absurd hlocal Bool.false_ne_true

namespace Markup.StartTag

variable (tag : StartTag)

/-- The url that a candidate is looked up under: blanks that are spelled as references are left. -/
def sourceUrl : Text :=
  Text.Reference.decode (Text.trim ((tag.get? sourceAttribute).getD []))

/-- The url that the source stands for, without blanks in any spelling around it. A tag that has no
source is like one that has an empty source. -/
def meantUrl : Text :=
  Text.trim (Text.Reference.decode ((tag.get? sourceAttribute).getD []))

theorem trim_sourceUrl : Text.trim tag.sourceUrl = tag.meantUrl :=
  Text.trim_decode_trim _

end Markup.StartTag

def Policy.bars (policy : Policy) (tag : StartTag) : Bool :=
  tag.isMarked || (policy.mode = .inline && tag.has onloadAttribute)

variable {policy : Policy} {source : Source} {asked : List Lookup} {ledger : Ledger}
  {tag : StartTag}

theorem imageUrl?_eq :
    imageUrl? tag = if isLocalUrl tag.sourceUrl then none else some tag.sourceUrl := by
  rw [imageUrl?, StartTag.sourceUrl]
  cases tag.get? sourceAttribute with
  | none => rfl
  | some value =>
    by_cases hblank : Text.trim value = []
    · simp [hblank, isLocalUrl, Text.Reference.decode, Text.Reference.decodeHolding]
    · simp [hblank, isLocalUrl, Text.Reference.decode_eq_nil_iff]

theorem candidate?_eq :
    candidate? policy tag =
      if policy.bars tag || isLocalUrl tag.sourceUrl then none else some tag.sourceUrl := by
  rw [candidate?, imageUrl?_eq, Policy.bars, StartTag.isMarked]
  cases tag.has fullAttribute || tag.has lazyAttribute with
  | true => rfl
  | false =>
    cases isLocalUrl tag.sourceUrl with
    | true => simp
    | false => cases tag.has onloadAttribute <;> simp

/-- An image is left alone, with nothing asked and nothing logged, exactly if there is nothing to
decide about it. -/
theorem treat_eq_none_iff :
    treat policy source asked ledger tag = ⟨.none, ledger, {}⟩ ↔ candidate? policy tag = none := by
  refine ⟨fun h => ?_, treat_of_not_candidate⟩
  cases hc : candidate? policy tag with
  | none => rfl
  | some url =>
    have hlog : (treat policy source asked ledger tag).trace.log.records =
        [.ofImage ((treat policy source asked ledger tag).treatment.preview?.map
          Preview.byteSize)] := log_treat_of_candidate hc
    rw [h] at hlog
    contradiction

/-- An image with a url that names nothing to load is left alone, nothing asked and nothing logged,
exactly if no blank spelled as a reference stands in front of the url, or if it would be left alone
with any url. Else it is decided about, under the url with the blanks. -/
theorem local_url_untouched_iff (policy : Policy) (source : Source) (asked : List Lookup)
    (ledger : Ledger) (tag : StartTag) (h : isLocalUrl tag.meantUrl = true) :
    let untouched := policy.bars tag = true ∨ ∀ c ∈ tag.sourceUrl.head?, Text.isBlank c = false
    (treat policy source asked ledger tag = ⟨.none, ledger, {}⟩ ↔ untouched) ∧
      (¬ untouched → candidate? policy tag = some tag.sourceUrl) := by
  intro untouched
  rw [← tag.trim_sourceUrl] at h
  have huntouched : untouched ↔ (policy.bars tag || isLocalUrl tag.sourceUrl) = true := by
    rw [Bool.or_eq_true, isLocalUrl_iff_of_trim h]
  constructor
  · rw [treat_eq_none_iff, candidate?_eq, huntouched]
    split <;> simp_all
  · intro htouched
    rw [huntouched] at htouched
    rw [candidate?_eq, if_neg htouched]

namespace Sample

def spelledData : StartTag := Sample.tag " &#68;ata&colon;x&#32; ".toList

def spelledBlank : Text := "<img src=\"&#32;\"/>".toList

end Sample

theorem sample_local_url_untouched :
    isLocalUrl Sample.spelledData.meantUrl = true ∧
      Sample.spelledData.sourceUrl = "Data:x ".toList ∧
      treat Sample.document.policy Sample.source [] {} Sample.spelledData = ⟨.none, {}, {}⟩ := by
  have hlocal : isLocalUrl Sample.spelledData.meantUrl = true := by decide +kernel
  have hurl : Sample.spelledData.sourceUrl = "Data:x ".toList := by decide +kernel
  obtain ⟨huntouched, -⟩ :=
    local_url_untouched_iff Sample.document.policy Sample.source [] {} Sample.spelledData hlocal
  refine ⟨hlocal, hurl, huntouched.mpr (Or.inr ?_)⟩
  rw [hurl]
  intro c hc
  obtain rfl := Option.some.inj hc
  rfl

/-- The source is looked up, though there is nothing in it. -/
theorem not_always_untouched :
    ¬ ∀ (html : Text) (tag : StartTag) (policy : Policy) (source : Source) (asked : List Lookup)
        (ledger : Ledger),
      tokens html = .ok [.startTag tag] → isLocalUrl tag.meantUrl = true →
        treat policy source asked ledger tag = ⟨.none, ledger, {}⟩ := by
  intro h
  let tag : StartTag :=
    { name := "img".toList
      attributes := [⟨"src".toList, some "&#32;".toList⟩]
      selfClosing := true
      source := some Sample.spelledBlank }
  have hread : tokens Sample.spelledBlank = .ok [.startTag tag] := by decide +kernel
  have hlocal : isLocalUrl tag.meantUrl = true := by decide +kernel
  have huntouched := h Sample.spelledBlank tag Sample.document.policy Sample.source [] {} hread
    hlocal
  have hlookups : (treat Sample.document.policy Sample.source [] {} tag).trace.lookups =
      [Sample.document.policy.lookup [' ']] := by decide +kernel
  rw [huntouched] at hlookups
  contradiction

end ImagePreview

import ImagePreview.Image.Ledger
import ImagePreview.Image.Form
import ImagePreview.Text.Blank
import ImagePreview.Trace

/-!
How images are treated. An image is a candidate if it has a url, carries no mark of an earlier
treatment, and has no handler in the way. The treatment of a candidate follows from the outcome for
its url, which is looked up when the url is seen first, as long as further previews are allowed.
-/
namespace ImagePreview

open Markup

inductive Treatment
  | preview (url : Text) (preview : Preview)
  /-- The image loads when it comes into view. -/
  | placeholder
  | none
deriving DecidableEq

def isDataUrl (url : Text) : Bool := Text.sameWord (url.take 5) "data:".toList

/-- The url of an image, without blanks around it and decoded. An image that has none, or that holds
its data in it, is not looked up. -/
def imageUrl? (tag : StartTag) : Option Text :=
  (tag.get? sourceAttribute).bind fun source =>
    let source := Text.trim source
    if source.isEmpty then none
    else if isDataUrl (Text.Reference.decode source) then none
    else some (Text.Reference.decode source)

def candidate? (policy : Policy) (tag : StartTag) : Option Text :=
  if tag.has fullAttribute || tag.has lazyAttribute then none
  else (imageUrl? tag).bind fun url =>
    if policy.mode = .inline ∧ tag.has onloadAttribute then none else some url

/-- An answer of the source as an outcome: faults and sizes out of bounds count as no preview. -/
def Policy.outcome (policy : Policy) (answer : Answer) : Option Preview :=
  match answer with
  | .ok found => found.filter fun preview => policy.accepted.admits preview.byteSize
  | .error _ => none

def Ledger.find (ledger : Ledger) (policy : Policy) (source : Source) (asked : List Lookup)
    (url : Text) : Option Preview × Ledger × List Lookup :=
  match ledger.outcome? url with
  | some outcome => (outcome, ledger, [])
  | none =>
    if policy.settings.allowsIndex ledger.previewCount then
      let outcome := policy.outcome (source asked (policy.lookup url))
      (outcome, ledger.enter url outcome, [policy.lookup url])
    else (none, ledger.enter url none, [])

structure Treated where
  treatment : Treatment
  ledger : Ledger
  trace : Trace

/-- Choose the treatment of an image, after the lookups in `asked`. Every candidate is logged. -/
def treat (policy : Policy) (source : Source) (asked : List Lookup) (ledger : Ledger)
    (tag : StartTag) : Treated :=
  match candidate? policy tag with
  | none => ⟨.none, ledger, {}⟩
  | some url =>
    let (outcome, ledger, lookups) := ledger.find policy source asked url
    let trace : Trace :=
      { lookups, log := { records := [Log.Record.ofImage (outcome.map Preview.byteSize)] } }
    match outcome with
    | some preview => ⟨.preview url preview, ledger, trace⟩
    | none =>
      if policy.lazyload && !tag.has onloadAttribute then ⟨.placeholder, ledger, trace⟩
      else ⟨.none, ledger, trace⟩

variable {policy : Policy} {source : Source} {asked : List Lookup} {ledger : Ledger}
  {tag : StartTag} {url : Text}

theorem source_of_candidate (h : candidate? policy tag = some url) :
    tag.has fullAttribute = false ∧ ∃ value, tag.get? sourceAttribute = some value ∧
      url = Text.Reference.decode (Text.trim value) := by
  rw [candidate?] at h
  split at h
  · contradiction
  · rename_i hmarks
    rw [Bool.or_eq_true, not_or, Bool.not_eq_true] at hmarks
    obtain ⟨image, himage, hurl⟩ := Option.bind_eq_some_iff.mp h
    obtain ⟨value, hvalue, hdecode⟩ := Option.bind_eq_some_iff.mp himage
    dsimp only at hdecode
    refine ⟨hmarks.1, value, hvalue, ?_⟩
    split at hurl
    · contradiction
    · split at hdecode
      · contradiction
      · split at hdecode
        · contradiction
        · rw [← Option.some.inj hurl, ← Option.some.inj hdecode]

theorem has_source_of_candidate (h : candidate? policy tag = some url) :
    tag.has sourceAttribute = true := by
  obtain ⟨-, value, hvalue, -⟩ := source_of_candidate h
  exact StartTag.has_of_get? hvalue

theorem candidate?_of_marked (h : (tag.has fullAttribute || tag.has lazyAttribute) = true) :
    candidate? policy tag = none := by
  rw [candidate?, if_pos h]

theorem treat_of_not_candidate (h : candidate? policy tag = none) :
    treat policy source asked ledger tag = ⟨.none, ledger, {}⟩ := by
  simp [treat, h]

theorem treat_of_candidate (h : candidate? policy tag = some url) :
    let found := ledger.find policy source asked url
    (treat policy source asked ledger tag).treatment =
        (match found.1 with
        | some preview => .preview url preview
        | none =>
          if policy.lazyload && !tag.has onloadAttribute then .placeholder else .none) ∧
      (treat policy source asked ledger tag).ledger = found.2.1 ∧
      (treat policy source asked ledger tag).trace.lookups = found.2.2 := by
  simp only [treat, h]
  cases (ledger.find policy source asked url).1 with
  | some preview => simp
  | none => cases policy.lazyload <;> cases tag.has onloadAttribute <;> simp

theorem candidate_of_treat {preview : Preview}
    (ht : (treat policy source asked ledger tag).treatment = .preview url preview) :
    candidate? policy tag = some url := by
  cases hc : candidate? policy tag with
  | none =>
    rw [treat_of_not_candidate hc] at ht
    contradiction
  | some other =>
    rw [(treat_of_candidate hc).1] at ht
    split at ht
    · rw [(Treatment.preview.inj ht).1]
    · split at ht <;> contradiction

theorem Ledger.registered_find :
    (ledger.find policy source asked url).2.1.registered = ledger.registered ∧
      (ledger.find policy source asked url).2.1.pending = ledger.pending := by
  rw [Ledger.find]
  split
  · exact ⟨rfl, rfl⟩
  · split <;> simp

theorem Ledger.find_of_known {outcome : Option Preview} (h : ledger.outcome? url = some outcome) :
    ledger.find policy source asked url = (outcome, ledger, []) := by
  rw [Ledger.find, h]

/-- What is found is known from then on. -/
theorem Ledger.outcome?_find_self :
    (ledger.find policy source asked url).2.1.outcome? url =
      some (ledger.find policy source asked url).1 := by
  cases h : ledger.outcome? url with
  | some outcome => rw [Ledger.find_of_known h, h]
  | none =>
    simp only [Ledger.find, h]
    split <;> exact Ledger.outcome?_enter_self h

theorem Ledger.outcome?_find_of_ne {other : Text} (hne : other ≠ url) :
    (ledger.find policy source asked url).2.1.outcome? other = ledger.outcome? other := by
  cases h : ledger.outcome? url with
  | some known => rw [Ledger.find_of_known h]
  | none =>
    simp only [Ledger.find, h]
    split <;> exact Ledger.outcome?_enter_of_ne hne

theorem Ledger.outcome?_find {other : Text} {outcome : Option Preview}
    (h : ledger.outcome? other = some outcome) :
    (ledger.find policy source asked url).2.1.outcome? other = some outcome := by
  by_cases hne : other = url
  · rw [← hne, Ledger.find_of_known h, h]
  · rw [Ledger.outcome?_find_of_ne hne, h]

/-- There is at most one lookup, and none for a url whose outcome is known. -/
theorem Ledger.lookups_find :
    (ledger.find policy source asked url).2.2 = [] ∨
      (ledger.find policy source asked url).2.2 = [policy.lookup url] ∧
        ledger.outcome? url = none := by
  cases h : ledger.outcome? url with
  | some outcome =>
    rw [Ledger.find_of_known h]
    exact Or.inl rfl
  | none =>
    simp only [Ledger.find, h]
    split
    · exact Or.inr ⟨rfl, trivial⟩
    · exact Or.inl rfl

/-- A preview that is found was known, or is what the source answers. -/
theorem Ledger.answer_of_find {preview : Preview}
    (hp : (ledger.find policy source asked url).1 = some preview) :
    ledger.outcome? url = some (some preview) ∨
      (ledger.find policy source asked url).2.2 = [policy.lookup url] ∧
        source asked (policy.lookup url) = .ok (some preview) := by
  cases h : ledger.outcome? url with
  | some outcome =>
    rw [Ledger.find_of_known h] at hp
    exact Or.inl (congrArg some hp)
  | none =>
    simp only [Ledger.find, h] at hp ⊢
    split at hp
    · rename_i hallowed
      refine Or.inr ⟨by rw [if_pos hallowed], ?_⟩
      simp only [Policy.outcome] at hp
      split at hp
      · rename_i found hfound
        rw [hfound, (Option.filter_eq_some_iff.mp hp).1]
      · contradiction
    · contradiction

theorem registered_treat :
    (treat policy source asked ledger tag).ledger.registered = ledger.registered ∧
      (treat policy source asked ledger tag).ledger.pending = ledger.pending := by
  cases h : candidate? policy tag with
  | none =>
    rw [treat_of_not_candidate h]
    exact ⟨rfl, rfl⟩
  | some url =>
    rw [(treat_of_candidate h).2.1]
    exact Ledger.registered_find

end ImagePreview

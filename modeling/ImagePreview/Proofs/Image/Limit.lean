import ImagePreview.Proofs.Image.Previews
import Mathlib.Algebra.Ring.Nat

/-!
The limit on previews. Where the source answers the same to the same lookup, previews go to the
urls that it has an admitted one for, first come first served by their first images, until as many
urls as are allowed have one. Then nothing is looked up any more, and what has a preview keeps it.
-/
namespace ImagePreview

open Markup

def Policy.offer? (policy : Policy) (answer : Lookup → Answer) (url : Text) : Option Preview :=
  match answer (policy.lookup url) with
  | .ok (some preview) =>
    if policy.settings.limits.admits preview.byteSize then some preview else none
  | _ => none

def Policy.offers (policy : Policy) (answer : Lookup → Answer) (urls : List Text) :
    List (Text × Preview) :=
  urls.filterMap fun url => (policy.offer? answer url).map fun preview => (url, preview)

namespace Settings

variable {settings : Settings}

/-- How many urls may have a preview, where there is a limit. -/
def most (settings : Settings) : Nat := settings.maxIndex.toInt.toNat + 1

def granted (settings : Settings) (offers : List (Text × Preview)) : List (Text × Preview) :=
  if settings.maxIndex < 0 then offers else offers.take settings.most

theorem allowsIndex_eq (h : 0 ≤ settings.maxIndex) {count : Nat} (hc : count < 2 ^ 63) :
    settings.allowsIndex count = decide (count < settings.most) := by
  have hm : 0 ≤ settings.maxIndex.toInt := Int64.le_iff_toInt_le.mp h
  have hnot : ¬ settings.maxIndex < 0 := by
    rw [Int64.lt_iff_toInt_lt]
    exact Int.not_lt.mpr hm
  have hword : Int64.ofNat count ≤ settings.maxIndex ↔ (count : Int) ≤ settings.maxIndex.toInt := by
    rw [Int64.le_iff_toInt_le, Int64.toInt_ofNat_of_lt hc]
  rw [allowsIndex, decide_eq_false hnot, Bool.false_or, decide_eq_decide, hword, most]
  omega

theorem granted_of_neg (h : settings.maxIndex < 0) (offers : List (Text × Preview)) :
    settings.granted offers = offers := if_pos h

theorem granted_of_nonneg (h : 0 ≤ settings.maxIndex) (offers : List (Text × Preview)) :
    settings.granted offers = offers.take settings.most :=
  if_neg (Int64.not_lt.mpr h)

theorem granted_snoc {offers : List (Text × Preview)}
    (hc : 0 ≤ settings.maxIndex → offers.length < 2 ^ 63) (offer : Text × Preview) :
    settings.granted (offers ++ [offer]) =
      settings.granted offers ++
        if settings.allowsIndex (settings.granted offers).length then [offer] else [] := by
  by_cases hneg : settings.maxIndex < 0
  · simp [granted_of_neg hneg, allowsIndex, hneg]
  · have hnonneg : 0 ≤ settings.maxIndex := Int64.not_lt.mp hneg
    have hcount : (offers.take settings.most).length < 2 ^ 63 := by
      have hall := hc hnonneg
      rw [List.length_take]
      omega
    rw [granted_of_nonneg hnonneg, granted_of_nonneg hnonneg, allowsIndex_eq hnonneg hcount]
    by_cases hroom : offers.length < settings.most
    · have htake : offers.take settings.most = offers := List.take_of_length_le (by omega)
      rw [htake, decide_eq_true hroom, if_pos rfl, List.take_of_length_le]
      simp only [List.length_append, List.length_singleton]
      omega
    · have hfull : ¬ (offers.take settings.most).length < settings.most := by
        rw [List.length_take]
        omega
      rw [decide_eq_false hfull, if_neg Bool.false_ne_true, List.append_nil,
        List.take_append_of_le_length (by omega)]

end Settings

theorem Policy.outcome_eq_offer? {policy : Policy} (h : policy.accepted = policy.settings.limits)
    (answer : Lookup → Answer) (url : Text) :
    policy.outcome (answer (policy.lookup url)) = policy.offer? answer url := by
  cases ha : answer (policy.lookup url) with
  | error e => simp [Policy.outcome, Policy.offer?, ha]
  | ok found => cases found <;> simp [Policy.outcome, Policy.offer?, ha, h, Option.filter]

theorem Policy.offers_snoc (policy : Policy) (answer : Lookup → Answer) (urls : List Text)
    (url : Text) :
    policy.offers answer (urls ++ [url]) = policy.offers answer urls ++
      ((policy.offer? answer url).map fun preview => (url, preview)).toList := by
  rw [Policy.offers, List.filterMap_append]
  cases h : policy.offer? answer url <;> simp [Policy.offers, h]

theorem Policy.length_offers_le (policy : Policy) (answer : Lookup → Answer) (urls : List Text) :
    (policy.offers answer urls).length ≤ urls.length := List.length_filterMap_le _ _

structure Metered (answer : Lookup → Answer) (policy : Policy) (ms : List Moment)
    (doc : Document) : Prop where
  policy_eq : doc.policy = policy
  listed : Listed (.steady answer) ms doc
  previews : doc.ledger.previews = policy.settings.granted (policy.offers answer (subjects ms))

namespace Metered

variable {answer : Lookup → Answer} {policy : Policy} {ms : List Moment} {m : Moment}

theorem nil (answer : Lookup → Answer) {doc : Document} (hfresh : doc.Fresh) :
    Metered answer doc.policy [] doc := by
  refine ⟨rfl, Listed.nil _ hfresh, ?_⟩
  have hnone : doc.policy.offers answer (subjects []) = [] := rfl
  rw [hfresh.ledger, hnone, Settings.granted, List.take_nil, ite_self]
  rfl

theorem outcomeOf_eq (h : Metered answer policy ms m.document)
    (haccept : policy.accepted = policy.settings.limits) (url : Text) :
    m.outcomeOf (.steady answer) url =
      if policy.settings.allowsIndex
          (policy.settings.granted (policy.offers answer (subjects ms))).length then
        policy.offer? answer url
      else none := by
  rw [Moment.outcomeOf, Moment.allowsMore, h.policy_eq, Ledger.previewCount_eq_length, h.previews]
  exact if_congr Iff.rfl (Policy.outcome_eq_offer? haccept answer url) rfl

theorem next (h : Metered answer policy ms m.document)
    (haccept : policy.accepted = policy.settings.limits)
    (hc : 0 ≤ policy.settings.maxIndex → (subjects ms).length < 2 ^ 63) :
    Metered answer policy (ms ++ [m]) (m.next (.steady answer)) := by
  refine ⟨(Document.policy_advance m.event).1.trans h.policy_eq, h.listed.next, ?_⟩
  have hurls := h.listed.next.urls
  obtain ⟨hsame, -⟩ | ⟨url, -, -, hnext, -⟩ := m.outcomes_cases (.steady answer)
  · have hsubjects : subjects (ms ++ [m]) = subjects ms := by
      rw [← hurls, hsame, h.listed.urls]
    rw [hsubjects, ← h.previews, Ledger.previews, hsame]
    rfl
  · have hsubjects : subjects (ms ++ [m]) = subjects ms ++ [url] := by
      rw [← hurls, hnext, List.map_append, h.listed.urls]
      rfl
    have hlength : 0 ≤ policy.settings.maxIndex →
        (policy.offers answer (subjects ms)).length < 2 ^ 63 := fun hlimit =>
      Nat.lt_of_le_of_lt (policy.length_offers_le answer _) (hc hlimit)
    rw [Ledger.previews_snoc hnext, h.outcomeOf_eq haccept, h.previews, hsubjects,
      Policy.offers_snoc]
    cases hoffer : policy.offer? answer url with
    | none => simp
    | some preview =>
      rw [Option.map_some, Option.toList_some, Settings.granted_snoc hlength]
      split <;> rfl

theorem lookups_of_full (h : Metered answer policy ms m.document)
    (hlimit : 0 ≤ policy.settings.maxIndex) (hc : (subjects ms).length < 2 ^ 63)
    (hfull : policy.settings.most ≤ (shown (.steady answer) ms).eraseDups.length) :
    (m.trace (.steady answer)).lookups = [] := by
  have hcount : m.document.ledger.previewCount = (shown (.steady answer) ms).eraseDups.length := by
    rw [Ledger.previewCount_eq_length, ← h.listed.shown, List.length_map]
  have hfew : m.document.ledger.previewCount < 2 ^ 63 := by
    refine Nat.lt_of_le_of_lt ?_ hc
    rw [Ledger.previewCount_eq_length, ← h.listed.urls, List.length_map]
    exact List.length_filterMap_le _ _
  have hnot : m.allowsMore = false := by
    rw [Moment.allowsMore, h.policy_eq, Settings.allowsIndex_eq hlimit hfew, hcount]
    exact decide_eq_false (Nat.not_lt.mpr hfull)
  obtain ⟨-, hnone, -⟩ | ⟨url, -, -, -, hlookups, -⟩ := m.outcomes_cases (.steady answer)
  · exact hnone
  · rw [hlookups, hnot]
    rfl

end Metered

theorem Document.metered_course (answer : Lookup → Answer) {doc : Document} (hfresh : doc.Fresh)
    (haccept : doc.policy.accepted = doc.policy.settings.limits) (asked : List Lookup)
    (events : List Event) :
    let ms := doc.moments (.steady answer) asked events
    (0 ≤ doc.policy.settings.maxIndex → (subjects ms).length < 2 ^ 63) →
      Metered answer doc.policy ms (doc.run (.steady answer) asked events).document ∧
      ∀ earlier m later, ms = earlier ++ m :: later →
        Metered answer doc.policy earlier m.document := by
  intro ms hc
  let P := fun ms d => (0 ≤ doc.policy.settings.maxIndex → (subjects ms).length < 2 ^ 63) →
    Metered answer doc.policy ms d
  have hbefore {a b : List Moment}
      (hc : 0 ≤ doc.policy.settings.maxIndex → (subjects (a ++ b)).length < 2 ^ 63) :
      0 ≤ doc.policy.settings.maxIndex → (subjects a).length < 2 ^ 63 := fun hlimit =>
    Nat.lt_of_le_of_lt (length_subjects_le a b) (hc hlimit)
  have hstep : ∀ ms m, P ms m.document → m.document.finished = false →
      P (ms ++ [m]) (m.next (.steady answer)) := fun ms m h _ hc =>
    (h (hbefore hc)).next haccept (hbefore hc)
  have hstart : P [] doc := fun _ => Metered.nil answer hfresh
  refine ⟨course_induction hstep asked events hstart hc, fun earlier m later hm => ?_⟩
  rw [hm] at hc
  exact (course_at hstep asked events hstart hm).1 (hbefore hc)

structure Rationed (source : Source) (granted : List (Text × Preview)) (ms : List Moment)
    (last : Document) : Prop where
  /-- The urls whose images show a preview, in the order of their first ones. -/
  urls : (shown source ms).eraseDups = granted.map Prod.fst
  /-- All images of a url show the preview that is granted to it, or none of them shows any. -/
  images : ∀ m ∈ ms, ∀ image, m.subject? = some image →
    m.Follows source image (granted.lookup image)
  count : last.ledger.previewCount = granted.length

theorem Metered.rationed {answer : Lookup → Answer} {policy : Policy} {ms : List Moment}
    {last : Document} (h : Metered answer policy ms last)
    (hknown : Known (.steady answer) policy ms last) :
    Rationed (.steady answer)
      (policy.settings.granted (policy.offers answer (subjects ms))) ms last := by
  rw [← h.previews]
  refine ⟨h.listed.shown.symm, fun m hm image himage => ?_, Ledger.previewCount_eq_length _⟩
  obtain ⟨outcome, houtcome, hfollows⟩ := hknown.followed m hm image himage
  rwa [Ledger.lookup_previews h.listed.nodup houtcome]

/-- Previews are limited in number. Where the limit is left open, every url that the source has an
admitted preview for gets it, and otherwise the first ones do, by the order of their first images.
Once as many urls have a preview as may have one, nothing is looked up. -/
theorem previews_limited (classify : Classifier) (settings : Settings) (url client : Text)
    (answer : Lookup → Answer) (asked : List Lookup) (events : List Event) :
    let doc := Document.start classify settings url client
    let source := Source.steady answer
    let ms := doc.moments source asked events
    let last := (doc.run source asked events).document
    let offers := doc.policy.offers answer (subjects ms)
    (settings.maxIndex < 0 → Rationed source offers ms last) ∧
      (0 ≤ settings.maxIndex → (subjects ms).length < 2 ^ 63 →
        Rationed source (offers.take settings.most) ms last ∧
        last.ledger.previewCount ≤ settings.most ∧
        (∀ m ∈ ms, m.document.ledger.previewCount ≤ settings.most) ∧
        ∀ earlier later, ms = earlier ++ later →
          (shown source earlier).eraseDups.length = settings.most →
          ∀ m ∈ later, (m.trace source).lookups = []) := by
  intro doc source ms last offers
  have hfresh : doc.Fresh := Document.fresh_start ..
  have hsettings : doc.policy.settings = settings := Document.settings_start ..
  have hcourse := Document.metered_course answer hfresh rfl asked events
  have hknown := Document.course_induction (fun ms m h _ => Known.next h) asked events
    (Known.nil source hfresh)
  rw [hsettings] at hcourse
  refine ⟨fun hopen => ?_, fun hlimit hc => ?_⟩
  · obtain ⟨hend, -⟩ := hcourse fun hlimit => absurd hopen (Int64.not_lt.mpr hlimit)
    have hrationed := hend.rationed hknown
    rwa [hsettings, Settings.granted_of_neg hopen] at hrationed
  · obtain ⟨hend, hat⟩ := hcourse fun _ => hc
    have hrationed := hend.rationed hknown
    rw [hsettings, Settings.granted_of_nonneg hlimit] at hrationed
    have hmost {course : List Moment} {d : Document} (h : Metered answer doc.policy course d) :
        d.ledger.previewCount ≤ settings.most := by
      rw [Ledger.previewCount_eq_length, h.previews, hsettings, Settings.granted_of_nonneg hlimit,
        List.length_take]
      exact Nat.min_le_left _ _
    refine ⟨hrationed, hmost hend, fun m hm => ?_, fun earlier later hsplit hfull m hm => ?_⟩
    · obtain ⟨earlier, later, hsplit⟩ := List.append_of_mem hm
      exact hmost (hat earlier m later hsplit)
    · obtain ⟨front, rear, rfl⟩ := List.append_of_mem hm
      have hsplit : ms = (earlier ++ front) ++ m :: rear := by rw [hsplit, List.append_assoc]
      have hfew := length_subjects_le (earlier ++ front) (m :: rear)
      rw [← hsplit] at hfew
      refine (hat _ m rear hsplit).lookups_of_full hlimit (Nat.lt_of_le_of_lt hfew hc) ?_
      rw [shown_append, List.eraseDups_append, List.length_append]
      exact Nat.le_trans (Nat.le_of_eq hfull.symm) (Nat.le_add_right _ _)

namespace Sample

def single : Settings := { settings with maxIndex := 0 }

def limited : Document := .start classify single [] []

def course : List Moment := limited.moments (.steady generous) [] (events ++ [.finish])

end Sample

theorem sample_previews_limited :
    0 ≤ Sample.single.maxIndex ∧ (subjects Sample.course).length < 2 ^ 63 ∧
      Rationed (.steady Sample.generous) [("a".toList, Sample.preview)] Sample.course
        (Sample.limited.run (.steady Sample.generous) [] (Sample.events ++ [.finish])).document ∧
      (shown (.steady Sample.generous) (Sample.course.take 3)).eraseDups.length =
        Sample.single.most ∧
      ∀ m ∈ Sample.course.drop 3, (m.trace (.steady Sample.generous)).lookups = [] := by
  have hfew : (subjects Sample.course).length < 2 ^ 63 := by decide +kernel
  have hfull : (shown (.steady Sample.generous) (Sample.course.take 3)).eraseDups.length =
      Sample.single.most := by decide +kernel
  have hoffers : (Sample.limited.policy.offers Sample.generous (subjects Sample.course)).take
      Sample.single.most = [("a".toList, Sample.preview)] := by decide +kernel
  obtain ⟨hrationed, -, -, hnone⟩ := (previews_limited Sample.classify Sample.single [] []
    Sample.generous [] (Sample.events ++ [Event.finish])).2 (by decide) hfew
  refine ⟨by decide, hfew, ?_, hfull, ?_⟩
  · rw [← hoffers]
    exact hrationed
  · exact hnone _ _ (List.take_append_drop 3 Sample.course).symm hfull

end ImagePreview

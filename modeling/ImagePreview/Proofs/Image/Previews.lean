import ImagePreview.Proofs.Image.Lookups
import ImagePreview.Proofs.Scripts.Cue

/-!
The previews of a document in the order in which they are found. A url comes into the ledger with
the first of its images that is decided about, and if there is a preview for it, all of its images
show that one. So the ledger lists the urls, and among them those with previews, in the order of
their first images.
-/
namespace ImagePreview

open Markup

section

variable {xs : List Text} {x : Text}

theorem eraseDups_snoc_of_mem (h : x ∈ xs) : (xs ++ [x]).eraseDups = xs.eraseDups := by
  simp [List.eraseDups_append, List.removeAll, h]

theorem eraseDups_snoc_of_not_mem (h : x ∉ xs) : (xs ++ [x]).eraseDups = xs.eraseDups ++ [x] := by
  simp [List.eraseDups_append, List.removeAll, List.eraseDups_cons, h]

theorem nodup_eraseDups (xs : List Text) : xs.eraseDups.Nodup := by
  induction xs using List.reverseRecOn with
  | nil => exact List.nodup_nil
  | append_singleton xs x ih =>
    by_cases hmem : x ∈ xs
    · rwa [eraseDups_snoc_of_mem hmem]
    · rw [eraseDups_snoc_of_not_mem hmem]
      refine List.nodup_append.mpr ⟨ih, by simp, ?_⟩
      rintro a ha b hb rfl
      rw [List.mem_singleton.mp hb, List.mem_eraseDups] at ha
      exact hmem ha

end

namespace Ledger

def previews (ledger : Ledger) : List (Text × Preview) :=
  ledger.outcomes.filterMap fun entry => entry.2.map fun preview => (entry.1, preview)

theorem previewCount_eq_length (ledger : Ledger) :
    ledger.previewCount = ledger.previews.length := by
  rw [previewCount, previews, List.length_filterMap_eq_countP]
  simp

theorem previews_snoc {ledger next : Ledger} {url : Text} {outcome : Option Preview}
    (h : next.outcomes = ledger.outcomes ++ [(url, outcome)]) :
    next.previews = ledger.previews ++ (outcome.map fun preview => (url, preview)).toList := by
  rw [previews, h, List.filterMap_append]
  cases outcome <;> rfl

theorem mem_previews {ledger : Ledger} {url : Text} {preview : Preview}
    (h : ledger.outcome? url = some (some preview)) : (url, preview) ∈ ledger.previews := by
  obtain ⟨front, rear, hsplit, -⟩ := List.lookup_eq_some_iff.mp h
  exact List.mem_filterMap.mpr ⟨(url, some preview), by simp [hsplit], rfl⟩

theorem mem_urls_of_previews {ledger : Ledger} {url : Text}
    (h : url ∈ ledger.previews.map Prod.fst) : url ∈ ledger.outcomes.map Prod.fst := by
  obtain ⟨pair, hpair, rfl⟩ := List.mem_map.mp h
  obtain ⟨entry, hentry, hmap⟩ := List.mem_filterMap.mp hpair
  obtain ⟨preview, -, rfl⟩ := Option.map_eq_some_iff.mp hmap
  exact List.mem_map_of_mem hentry

theorem outcome?_eq_none {ledger : Ledger} {url : Text} (h : ledger.outcome? url = none) :
    url ∉ ledger.outcomes.map Prod.fst := by
  intro hmem
  obtain ⟨entry, hentry, rfl⟩ := List.mem_map.mp hmem
  have hne := List.lookup_eq_none_iff.mp h entry hentry
  simp at hne

theorem isSome_outcome? {ledger : Ledger} {url : Text} {outcome : Option Preview}
    (h : ledger.outcome? url = some outcome) : url ∈ ledger.outcomes.map Prod.fst := by
  obtain ⟨front, rear, hsplit, -⟩ := List.lookup_eq_some_iff.mp h
  simp [hsplit]

theorem outcome?_of_mem_previews {ledger : Ledger}
    (hnodup : (ledger.outcomes.map Prod.fst).Nodup) {url : Text} {preview : Preview}
    (h : (url, preview) ∈ ledger.previews) : ledger.outcome? url = some (some preview) := by
  obtain ⟨entry, hentry, hmap⟩ := List.mem_filterMap.mp h
  obtain ⟨found, hfound, hpair⟩ := Option.map_eq_some_iff.mp hmap
  obtain ⟨rfl, rfl⟩ := Prod.mk.inj hpair
  obtain ⟨front, rear, hsplit⟩ := List.append_of_mem hentry
  rw [hsplit, List.map_append, List.map_cons] at hnodup
  refine List.lookup_eq_some_iff.mpr ⟨front, rear, by rw [hsplit, ← hfound], fun other hother => ?_⟩
  rw [bne_iff_ne]
  exact ((List.nodup_append.mp hnodup).2.2 _ (List.mem_map_of_mem hother) _ (by simp)).symm

theorem lookup_previews {ledger : Ledger} (hnodup : (ledger.outcomes.map Prod.fst).Nodup)
    {url : Text} {outcome : Option Preview} (h : ledger.outcome? url = some outcome) :
    ledger.previews.lookup url = outcome := by
  have hnone {ledger : Ledger} (hurl : url ∉ ledger.outcomes.map Prod.fst) :
      ledger.previews.lookup url = none := by
    rw [List.lookup_eq_none_iff]
    intro pair hpair
    rw [bne_iff_ne]
    rintro rfl
    exact hurl (mem_urls_of_previews (List.mem_map_of_mem hpair))
  obtain ⟨front, rear, hsplit, hfront⟩ := List.lookup_eq_some_iff.mp h
  have hbefore : url ∉ front.map Prod.fst := by
    intro hmem
    obtain ⟨entry, hentry, rfl⟩ := List.mem_map.mp hmem
    simpa using hfront entry hentry
  have hbehind : url ∉ rear.map Prod.fst := by
    rw [hsplit, List.map_append, List.map_cons] at hnodup
    exact (List.nodup_cons.mp (List.nodup_append.mp hnodup).2.1).1
  have hpreviews : ledger.previews = ({ outcomes := front } : Ledger).previews ++
      ((outcome.map fun preview => (url, preview)).toList ++
        ({ outcomes := rear } : Ledger).previews) := by
    rw [previews, hsplit, List.filterMap_append]
    cases outcome <;> rfl
  rw [hpreviews, List.lookup_append, hnone hbefore]
  cases outcome with
  | none => exact hnone hbehind
  | some preview => simp

end Ledger

def subjects (ms : List Moment) : List Text := (ms.filterMap Moment.subject?).eraseDups

namespace Moment

variable (source : Source) (m : Moment)

def allowsMore : Bool :=
  m.document.policy.settings.allowsIndex m.document.ledger.previewCount

def outcomeOf (url : Text) : Option Preview :=
  if m.allowsMore then
    m.document.policy.outcome (source m.asked (m.document.policy.lookup url))
  else none

/-- A moment follows what the ledger holds, or enters one new url into it. -/
theorem outcomes_cases :
    ((m.next source).ledger.outcomes = m.document.ledger.outcomes ∧
      (m.trace source).lookups = [] ∧
      ∀ url, m.subject? = some url →
        ∃ outcome, m.document.ledger.outcome? url = some outcome ∧ m.Follows source url outcome) ∨
    ∃ url, m.subject? = some url ∧ m.document.ledger.outcome? url = none ∧
      (m.next source).ledger.outcomes =
        m.document.ledger.outcomes ++ [(url, m.outcomeOf source url)] ∧
      (m.trace source).lookups = (if m.allowsMore then [m.document.policy.lookup url] else []) ∧
      m.Follows source url (m.outcomeOf source url) := by
  rw [lookups_trace]
  cases hm : m.subject? with
  | none =>
    obtain ⟨houtcomes, hlookups⟩ := @Document.advance_of_no_subject _ source m.asked _ hm
    exact Or.inl ⟨houtcomes, hlookups, fun url hurl => by contradiction⟩
  | some url =>
    obtain ⟨houtcomes, hlookups, hsome, hnone⟩ :=
      @Document.advance_of_subject _ source m.asked _ _ hm
    have hfollows (outcome : Option Preview)
        (hfound : (m.document.ledger.find m.document.policy source m.asked url).1 = outcome) :
        m.Follows source url outcome := by
      cases outcome with
      | some preview => exact hsome preview hfound
      | none => exact hnone hfound
    cases hknown : m.document.ledger.outcome? url with
    | some outcome =>
      rw [Ledger.find_of_known hknown] at houtcomes hlookups hfollows
      refine Or.inl ⟨houtcomes, hlookups, fun other hother => ?_⟩
      obtain rfl := Option.some.inj hother
      exact ⟨outcome, hknown, hfollows outcome rfl⟩
    | none =>
      have hfound : m.document.ledger.find m.document.policy source m.asked url =
          (m.outcomeOf source url, m.document.ledger.enter url (m.outcomeOf source url),
            if m.allowsMore then [m.document.policy.lookup url] else []) := by
        cases hmore : m.document.policy.settings.allowsIndex m.document.ledger.previewCount <;>
          simp [Ledger.find, hknown, outcomeOf, allowsMore, hmore]
      rw [hfound] at houtcomes hlookups hfollows
      rw [Ledger.outcomes_enter hknown] at houtcomes
      exact Or.inr ⟨url, rfl, hknown, houtcomes, hlookups, hfollows _ rfl⟩

theorem previews_cases (source : Source) (m : Moment) :
    ((m.next source).ledger.previews = m.document.ledger.previews ∧
      ∀ url preview, m.treatment source = .preview url preview →
        (url, preview) ∈ m.document.ledger.previews) ∨
    ∃ url preview, m.treatment source = .preview url preview ∧
      m.document.ledger.outcome? url = none ∧
      (m.next source).ledger.previews = m.document.ledger.previews ++ [(url, preview)] := by
  obtain ⟨hsame, -, hfollows⟩ | ⟨url, hsubject, hnew, hnext, -, hfollows⟩ :=
    m.outcomes_cases source
  · refine Or.inl ⟨by rw [Ledger.previews, hsame]; rfl, fun url preview ht => ?_⟩
    obtain ⟨outcome, hknown, hfollows⟩ := hfollows url (subject?_of_preview ht)
    rw [hfollows.eq_some ht] at hknown
    exact Ledger.mem_previews hknown
  · have hpreviews := Ledger.previews_snoc hnext
    cases houtcome : m.outcomeOf source url with
    | some preview =>
      rw [houtcome] at hpreviews hfollows
      exact Or.inr ⟨url, preview, hfollows, hnew, hpreviews⟩
    | none =>
      rw [houtcome] at hpreviews hfollows
      refine Or.inl ⟨hpreviews.trans (List.append_nil _), fun other preview ht => ?_⟩
      have hother := subject?_of_preview ht
      rw [hsubject, Option.some.injEq] at hother
      rw [← hother] at ht
      exact absurd (hfollows.eq_some ht) (by simp)

end Moment

theorem subjects_snoc (ms : List Moment) (m : Moment) :
    subjects (ms ++ [m]) =
      match m.subject? with
      | some url => if url ∈ subjects ms then subjects ms else subjects ms ++ [url]
      | none => subjects ms := by
  rw [subjects, List.filterMap_append]
  cases hm : m.subject? with
  | none => simp [subjects, hm]
  | some url =>
    have hone : [m].filterMap Moment.subject? = [url] := by simp [hm]
    rw [hone]
    by_cases hmem : url ∈ ms.filterMap Moment.subject?
    · simp [eraseDups_snoc_of_mem hmem, subjects, List.mem_eraseDups, hmem]
    · simp [eraseDups_snoc_of_not_mem hmem, subjects, List.mem_eraseDups, hmem]

theorem length_subjects_le (a b : List Moment) :
    (subjects a).length ≤ (subjects (a ++ b)).length := by
  rw [subjects, subjects, List.filterMap_append, List.eraseDups_append, List.length_append]
  exact Nat.le_add_right _ _

structure Listed (source : Source) (ms : List Moment) (doc : Document) : Prop where
  urls : doc.ledger.outcomes.map Prod.fst = subjects ms
  shown : doc.ledger.previews.map Prod.fst = (shown source ms).eraseDups

namespace Listed

variable {source : Source} {ms : List Moment} {m : Moment}

theorem nil (source : Source) {doc : Document} (hfresh : doc.Fresh) : Listed source [] doc := by
  constructor <;> rw [hfresh.ledger] <;> rfl

theorem nodup {doc : Document} (h : Listed source ms doc) :
    (doc.ledger.outcomes.map Prod.fst).Nodup := by
  rw [h.urls]
  exact nodup_eraseDups _

theorem next (h : Listed source ms m.document) : Listed source (ms ++ [m]) (m.next source) := by
  constructor
  · rw [subjects_snoc]
    obtain ⟨hsame, -, hfollows⟩ | ⟨url, hsubject, hnew, hnext, -⟩ := m.outcomes_cases source
    · rw [hsame, h.urls]
      cases hm : m.subject? with
      | none => rfl
      | some url =>
        obtain ⟨outcome, hknown, -⟩ := hfollows url hm
        have hmem := Ledger.isSome_outcome? hknown
        rw [h.urls] at hmem
        simp [hmem]
    · have hmem := Ledger.outcome?_eq_none hnew
      rw [h.urls] at hmem
      rw [hnext, hsubject, List.map_append, h.urls]
      simp [hmem]
  · rw [shown_append, shown_singleton, Moment.shown?]
    obtain ⟨hsame, hlisted⟩ | ⟨url, preview, ht, hnew, hnext⟩ := m.previews_cases source
    · rw [hsame, h.shown]
      cases ht : m.treatment source with
      | preview url preview =>
        have hmem := List.mem_map_of_mem (f := Prod.fst) (hlisted url preview ht)
        rw [h.shown, List.mem_eraseDups] at hmem
        exact (eraseDups_snoc_of_mem hmem).symm
      | placeholder | none => simp [Treatment.shown?]
    · have hmem : url ∉ ImagePreview.shown source ms := by
        rw [← List.mem_eraseDups, ← h.shown]
        exact fun hmem => Ledger.outcome?_eq_none hnew (Ledger.mem_urls_of_previews hmem)
      rw [hnext, List.map_append, h.shown, ht]
      exact (eraseDups_snoc_of_not_mem hmem).symm

end Listed
end ImagePreview

import ImagePreview.Proofs.Scripts.Arrival
import ImagePreview.Proofs.Scripts.Register
import ImagePreview.Proofs.Text.Decoding

/-!
The urls that previews are registered under, and those that images wait for. Both come from the
source of an image, but only the first one from its source without the blanks around it.
-/
namespace ImagePreview

open Markup

variable {source : Source}

theorem Booked.registration_mem {start : Document} {ms : List Moment} {doc : Document}
    (h : Booked source start ms doc) {m : Moment} (hm : m ∈ ms) {url : Text} {preview : Preview}
    (ht : m.treatment source = .preview url preview) :
    Registration.of (url, preview) ∈ doc.entries := by
  have hshown : url ∈ shown source ms := by
    refine List.mem_filterMap.mpr ⟨m, hm, ?_⟩
    rw [Moment.shown?, ht]
    rfl
  have hlisted : url ∈ doc.ledger.previews.map Prod.fst := by
    rw [h.listed.shown]
    exact List.mem_eraseDups.mpr hshown
  obtain ⟨⟨image, found⟩, hpair, rfl⟩ := List.mem_map.mp hlisted
  have hknown := Ledger.outcome?_of_mem_previews h.listed.nodup hpair
  obtain ⟨outcome, hother, hfollows⟩ := h.known.followed m hm image (Moment.subject?_of_preview ht)
  -- the outcome in the ledger is the one that the image follows
  rw [hknown, Option.some.injEq] at hother
  rw [← hother] at hfollows
  obtain rfl := Option.some.inj (hfollows.eq_some ht)
  rw [h.enrolled.entries]
  exact List.mem_map_of_mem hpair

/-- Where scripts put previews in, each image that has one is registered under the decoded source
without blanks around it, and waits for the decoded source as it is. These are the same exactly if
there are no blanks around the source. -/
theorem registered_under_key_iff (classify : Classifier) (settings : Settings) (url client : Text)
    (source : Source) (asked : List Lookup) (assets : Assets) (events : List Event)
    (hs : (Document.start classify settings url client).policy.mode = .scripted) :
    let doc := Document.start classify settings url client
    let last := (doc.run source asked events).document
    ∀ m ∈ doc.moments source asked events, ∀ image preview,
      m.treatment source = .preview image preview →
      ∃ tag value, m.event = .token (.startTag tag) ∧ tag.get? sourceAttribute = some value ∧
        let written := Piece.previewTag doc.policy assets tag preview
        let key := (written.get? fullAttribute).map Text.Reference.decode
        Piece.render doc.policy assets (m.unit source) = written.write ∧
          Registration.of (image, preview) ∈ last.entries ∧
          image = Text.Reference.decode (Text.trim value) ∧
          key = some (Text.Reference.decode value) ∧
          (key = some image ↔ Text.trim value = value) := by
  intro doc last m hm image preview ht
  have hfresh : doc.Fresh := Document.fresh_start ..
  cases ha : doc.isActive with
  | false =>
    have huntouched := (Document.Untouched.course source hfresh ha asked events).2 m hm
    rw [Moment.treatment, Document.treatmentAt_of_inactive huntouched.inactive] at ht
    contradiction
  | true =>
    obtain ⟨hbooked, hat⟩ := Document.booked_course source hfresh ha hs asked events
    obtain ⟨earlier, later, hsplit⟩ := List.append_of_mem hm
    have hpolicy : m.document.policy = doc.policy := (hat earlier m later hsplit).1.stays.policy
    obtain ⟨tag, he, -, hc⟩ := Moment.candidate_of_preview ht
    rw [hpolicy] at hc
    obtain ⟨value, hvalue, himage, hnode⟩ := key?_previewTag assets preview hs hc
    have hkey : ((Piece.previewTag doc.policy assets tag preview).get? fullAttribute).map
        Text.Reference.decode = some (Text.Reference.decode value) := hnode
    have hunit : m.unit source = [.preview tag image preview] := by
      rw [Moment.treatment, he] at ht
      rw [Moment.unit, he, Document.unit, ← Document.treatmentAt, ht]
      rfl
    refine ⟨tag, value, he, hvalue, ?_, hbooked.registration_mem hm ht, himage, hkey, ?_⟩
    · rw [hunit]
      exact List.append_nil _
    · have hsame := Text.decode_trim_eq_iff value
      rw [← himage, eq_comm] at hsame
      rw [hkey, Option.some.injEq]
      exact hsame

def Sample.spaced : StartTag := tag " a ".toList

def Sample.spacedMoment : Moment := ⟨document, [], .token (.startTag spaced)⟩

theorem sample_registered_under_key_iff :
    let last := (Sample.document.run Sample.source [] [.token (.startTag Sample.spaced)]).document
    let written := Piece.previewTag Sample.document.policy .usual Sample.spaced Sample.preview
    Sample.document.policy.mode = .scripted ∧
      Sample.spacedMoment ∈
        Sample.document.moments Sample.source [] [.token (.startTag Sample.spaced)] ∧
      Sample.spacedMoment.treatment Sample.source = .preview "a".toList Sample.preview ∧
      Registration.of ("a".toList, Sample.preview) ∈ last.entries ∧
      (written.get? fullAttribute).map Text.Reference.decode = some " a ".toList := by
  intro last written
  have hmoment : Sample.spacedMoment ∈
      Sample.document.moments Sample.source [] [.token (.startTag Sample.spaced)] :=
    List.mem_singleton.mpr rfl
  have ht : Sample.spacedMoment.treatment Sample.source =
      .preview "a".toList Sample.preview := by decide +kernel
  obtain ⟨tag, value, he, hvalue, -, hentry, -, hkey, -⟩ :=
    registered_under_key_iff Sample.classify Sample.settings [] [] Sample.source [] .usual
      [Event.token (.startTag Sample.spaced)] rfl _ hmoment _ _ ht
  obtain rfl := Token.startTag.inj (Event.token.inj he)
  obtain rfl := Option.some.inj hvalue
  exact ⟨rfl, hmoment, ht, hentry, hkey.trans (by decide +kernel)⟩

/-- Not every image waits for the url that it is registered under. -/
theorem not_always_under_key :
    ¬ ∀ (classify : Classifier) (settings : Settings) (url client : Text) (source : Source)
      (asked : List Lookup) (assets : Assets) (events : List Event),
      let doc := Document.start classify settings url client
      doc.policy.mode = .scripted →
      ∀ m ∈ doc.moments source asked events, ∀ tag image preview,
        m.event = .token (.startTag tag) → m.treatment source = .preview image preview →
        ((Piece.previewTag doc.policy assets tag preview).get? fullAttribute).map
          Text.Reference.decode = some image := by
  intro h
  have hkey := h Sample.classify Sample.settings [] [] Sample.source [] .usual
    [.token (.startTag Sample.spaced)] rfl Sample.spacedMoment (List.mem_singleton.mpr rfl)
    Sample.spaced "a".toList Sample.preview rfl (by decide +kernel)
  revert hkey
  decide +kernel

end ImagePreview

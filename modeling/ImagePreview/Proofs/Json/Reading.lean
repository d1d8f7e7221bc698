import ImagePreview.Json.Reader
import ImagePreview.Proofs.Json.Scanning

/-!
Reading what is written. Every value is read back from its text: its tokens complete it, whatever is
open around it, and so they do for its parts.
-/
namespace ImagePreview.Json

section Parts

variable {α : Type} {tokensOf : α → List Token} {due : Bool → List α → Progress}
  {behind : List α → α → Progress} {whole : List α → Progress} {close : Token}

/-- Parts with commas between them are taken one by one, if each is taken where one is due and a
comma makes the next one due. What is taken before is listed last first. -/
theorem take_parts (first : α) (rest : List α)
    (hpart : ∀ part ∈ first :: rest, ∀ opened before,
      (tokensOf part).foldlM Progress.step (due opened before) = some (behind before part))
    (hcomma : ∀ before part, (behind before part).step .comma = some (due false (part :: before)))
    (hclose : ∀ before part,
      (behind before part).step close = some (whole (part :: before).reverse))
    (opened : Bool) (before : List α) :
    (separate Token.comma ((first :: rest).map tokensOf) ++ [close]).foldlM Progress.step
        (due opened before) =
      some (whole (before.reverse ++ first :: rest)) := by
  induction rest generalizing first opened before with
  | nil =>
    have hfirst := hpart first List.mem_cons_self opened before
    rw [List.map_singleton, separate, List.foldlM_append, hfirst]
    simp [hclose]
  | cons second rest ih =>
    obtain ⟨hfirst, hrest⟩ := List.forall_mem_cons.mp hpart
    have hnext := ih second hrest false (first :: before)
    rw [List.map_cons, List.map_cons, separate_cons_cons, List.append_assoc, List.foldlM_append,
      hfirst]
    simpa [hcomma] using hnext

end Parts

/-- The tokens of a value complete it, wherever a value is due. -/
theorem take_tokens (value : Json) (frames : List Frame) (opened : Bool) :
    value.tokens.foldlM Progress.step ⟨frames, .value opened⟩ = some ⟨frames, .after value⟩ := by
  induction value using Json.induction generalizing frames opened with
  | scalar v hv =>
    rw [hv]
    rfl
  | array items ih =>
    rw [tokens, tokensOfItems_eq, List.cons_append, List.foldlM_cons]
    cases items with
    | nil => rfl
    | cons first rest =>
      let due := fun opened before => Progress.mk (.array before :: frames) (.value opened)
      let behind := fun before item => Progress.mk (.array before :: frames) (.after item)
      let whole := fun items => Progress.mk frames (.after (.array items))
      have hitem : ∀ item ∈ first :: rest, ∀ opened before,
          item.tokens.foldlM Progress.step (due opened before) = some (behind before item) :=
        fun item hitem opened before => ih item hitem (.array before :: frames) opened
      exact @take_parts _ _ due behind whole _ first rest hitem (fun _ _ => rfl) (fun _ _ => rfl)
        true []
  | object members ih =>
    rw [tokens, tokensOfMembers_eq, List.cons_append, List.foldlM_cons]
    cases members with
    | nil => rfl
    | cons first rest =>
      let due := fun opened before => Progress.mk frames (.key opened before)
      let behind := fun before (member : Option Text × Json) =>
        Progress.mk (.object before member.1 :: frames) (.after member.2)
      let whole := fun members => Progress.mk frames (.after (.object members))
      -- behind its key and the colon, the value of a member is due
      have hmember : ∀ member ∈ first :: rest, ∀ opened before,
          (memberTokens member).foldlM Progress.step (due opened before) =
            some (behind before member) :=
        fun member hmember _ before => ih member hmember (.object before member.1 :: frames) false
      exact @take_parts _ _ due behind whole _ first rest hmember (fun _ _ => rfl) (fun _ _ => rfl)
        true []

theorem read?_write (value : Json) : read? value.write = some value := by
  rw [read?, scan_write, Option.bind_some, ofTokens?, take_tokens]
  rfl

end ImagePreview.Json

import ImagePreview.Proofs.Scripts.Cue

/-!
What a client makes of output. Its page grows by a node for each start tag, and a script with
registrations puts the previews into the nodes on the page that wait for them, and then forgets
them. So a preview reaches the images in front of its script and none behind it.
-/
namespace ImagePreview

open Markup

structure Node where
  tag : StartTag
  /-- The source that a script has put in. -/
  shown : Option Text := none
deriving DecidableEq

/-- Previews by url. The newest for a url counts. -/
abbrev PreviewMap := List (Text × Text)

namespace Node

/-- The url by which a node waits for its preview, as the client reads it off the attribute. -/
def key? (node : Node) : Option Text := (node.tag.get? fullAttribute).map Text.Reference.decode

def put (previews : PreviewMap) (node : Node) : Node :=
  match node.key?.bind fun key => previews.lookup key with
  | some dataUri => { node with shown := some dataUri }
  | none => node

end Node

structure Page where
  nodes : List Node := []
  /-- What has been registered and not been put in yet. -/
  previews : PreviewMap := []
deriving DecidableEq

namespace Page

variable (policy : Policy) (assets : Assets) (page : Page)

def grow (tag : StartTag) : Page := { page with nodes := page.nodes ++ [{ tag }] }

def register (entry : Registration) : Page :=
  { page with previews := (entry.url, entry.dataUri) :: page.previews }

def replace : Page := { nodes := page.nodes.map (Node.put page.previews) }

def take : Piece → Page
  | .token (.startTag tag) => page.grow tag
  | .token _ => page
  | .preview tag _ preview => page.grow (Piece.previewTag policy assets tag preview)
  | .placeholder tag => page.grow (tag.asPlaceholder assets.blankImageUrl)
  | .block (.registrations entries) => (entries.foldl register page).replace
  | .block .previewLibrary => { page with previews := [] }
  | .block _ => page

def ofPieces (pieces : List Piece) : Page := pieces.foldl (take policy assets) {}

def nodeAfter (before output : List Piece) : Option Node :=
  (ofPieces policy assets output).nodes[(ofPieces policy assets before).nodes.length]?

end Page

def previewMap (entries : List Registration) : PreviewMap :=
  (entries.map fun entry => (entry.url, entry.dataUri)).reverse

section

variable {url : Text} {entries : List Registration}

theorem lookup_previewMap_of_not_mem (h : url ∉ entries.map Registration.url) :
    (previewMap entries).lookup url = none := by
  rw [List.lookup_eq_none_iff]
  intro p hp
  obtain ⟨entry, hentry, rfl⟩ := List.mem_map.mp (List.mem_reverse.mp hp)
  rw [bne_iff_ne]
  rintro rfl
  exact h (List.mem_map_of_mem hentry)

theorem lookup_previewMap {dataUri : Text} (h : url ∈ entries.map Registration.url)
    (hdata : ∀ entry ∈ entries, entry.url = url → entry.dataUri = dataUri) :
    (previewMap entries).lookup url = some dataUri := by
  cases hl : (previewMap entries).lookup url with
  | none =>
    obtain ⟨entry, hentry, rfl⟩ := List.mem_map.mp h
    have hne := List.lookup_eq_none_iff.mp hl (entry.url, entry.dataUri)
      (by simpa [previewMap] using ⟨entry, hentry, rfl, rfl⟩)
    simp at hne
  | some found =>
    obtain ⟨front, rear, hsplit, -⟩ := List.lookup_eq_some_iff.mp hl
    have hmem : (url, found) ∈ previewMap entries := by simp [hsplit]
    obtain ⟨entry, hentry, heq⟩ := List.mem_map.mp (List.mem_reverse.mp hmem)
    obtain ⟨rfl, rfl⟩ := Prod.mk.inj heq
    rw [hdata entry hentry rfl]

namespace Node

variable {node : Node}

theorem put_of_not_mem (hk : node.key? = some url) (h : url ∉ entries.map Registration.url) :
    node.put (previewMap entries) = node := by
  rw [put, hk, Option.bind_some, lookup_previewMap_of_not_mem h]

theorem put_of_mem {dataUri : Text} (hk : node.key? = some url)
    (h : url ∈ entries.map Registration.url)
    (hdata : ∀ entry ∈ entries, entry.url = url → entry.dataUri = dataUri) :
    node.put (previewMap entries) = { node with shown := some dataUri } := by
  rw [put, hk, Option.bind_some, lookup_previewMap h hdata]

end Node

end

def Node.after (node : Node) (batches : List (List Registration)) : Node :=
  batches.foldl (fun node entries => node.put (previewMap entries)) node

@[simp] theorem Node.after_append (node : Node) (a b : List (List Registration)) :
    node.after (a ++ b) = (node.after a).after b := List.foldl_append

theorem Node.after_of_not_mem {node : Node} {url : Text} (hk : node.key? = some url)
    {batches : List (List Registration)} (h : url ∉ batches.flatten.map Registration.url) :
    node.after batches = node := by
  induction batches with
  | nil => rfl
  | cons entries rest ih =>
    rw [List.flatten_cons, List.map_append, List.mem_append, not_or] at h
    rw [Node.after, List.foldl_cons, Node.put_of_not_mem hk h.1]
    exact ih h.2

theorem Node.after_of_mem {node : Node} {url dataUri : Text} (hk : node.key? = some url)
    {entries : List Registration} (h : url ∈ entries.map Registration.url)
    (hdata : ∀ entry ∈ entries, entry.url = url → entry.dataUri = dataUri)
    {batches : List (List Registration)} (hlater : url ∉ batches.flatten.map Registration.url) :
    node.after (entries :: batches) = { node with shown := some dataUri } := by
  have hwaits : ({ node with shown := some dataUri } : Node).key? = some url := hk
  rw [Node.after, List.foldl_cons, Node.put_of_mem hk h hdata]
  exact Node.after_of_not_mem hwaits hlater

namespace Page

variable {policy : Policy} {assets : Assets}

theorem foldl_register (entries : List Registration) (page : Page) :
    entries.foldl register page =
      { page with previews := previewMap entries ++ page.previews } := by
  induction entries generalizing page with
  | nil => rfl
  | cons entry rest ih => simp [ih, register, previewMap]

/-- Between pieces of output nothing is left to be put in. -/
theorem previews_take {page : Page} (h : page.previews = []) (piece : Piece) :
    (page.take policy assets piece).previews = [] := by
  cases piece with
  | token t => cases t <;> exact h
  | preview tag url preview => exact h
  | placeholder tag => exact h
  | block b => cases b <;> first | exact h | rfl

variable (policy assets)

theorem nodes_take {page : Page} (h : page.previews = []) (piece : Piece) :
    ∃ fresh, (page.take policy assets piece).nodes =
      (page.nodes.map fun node => node.after (Cue.batches (cues [piece]))) ++ fresh := by
  have hsame : page.nodes = page.nodes.map fun node => node.after [] := (List.map_id _).symm
  cases piece with
  | token t => cases t <;> first | exact ⟨_, congrArg (· ++ _) hsame⟩ | exact ⟨[], by simpa⟩
  | preview tag url preview => exact ⟨_, congrArg (· ++ _) hsame⟩
  | placeholder tag => exact ⟨_, congrArg (· ++ _) hsame⟩
  | block b =>
    cases b with
    | registrations entries =>
      refine ⟨[], ?_⟩
      rw [take, foldl_register, replace, h, List.append_nil, List.append_nil]
      rfl
    | _ => exact ⟨[], hsame.trans (List.append_nil _).symm⟩

theorem nodes_foldl (pieces : List Piece) {page : Page} (h : page.previews = []) :
    (pieces.foldl (take policy assets) page).previews = [] ∧
      ∃ fresh, (pieces.foldl (take policy assets) page).nodes =
        (page.nodes.map fun node => node.after (Cue.batches (cues pieces))) ++ fresh := by
  induction pieces generalizing page with
  | nil => exact ⟨h, [], by simp [cues, Cue.batches, Node.after]⟩
  | cons piece rest ih =>
    obtain ⟨one, hone⟩ := nodes_take policy assets h piece
    obtain ⟨hpreviews, more, hmore⟩ := ih (previews_take h piece)
    have hsplit : Cue.batches (cues (piece :: rest)) =
        Cue.batches (cues [piece]) ++ Cue.batches (cues rest) := by
      rw [← Cue.batches_append, ← cues_append, List.singleton_append]
    refine ⟨hpreviews, one.map (fun node => node.after (Cue.batches (cues rest))) ++ more, ?_⟩
    rw [List.foldl_cons, hmore, hone, hsplit]
    simp [Function.comp_def]

variable {policy assets}

theorem nodeAfter_of_grow {before after : List Piece} {piece : Piece} {tag : StartTag}
    (hgrow : ∀ page, take policy assets page piece = page.grow tag) :
    nodeAfter policy assets before (before ++ piece :: after) =
      some (({ tag } : Node).after (Cue.batches (cues after))) := by
  have hbefore : (ofPieces policy assets before).previews = [] :=
    (nodes_foldl policy assets before rfl).1
  have hgrown : ((ofPieces policy assets before).grow tag).previews = [] := hbefore
  obtain ⟨-, fresh, hfresh⟩ := nodes_foldl policy assets after hgrown
  have hwhole : ofPieces policy assets (before ++ piece :: after) =
      after.foldl (take policy assets) ((ofPieces policy assets before).grow tag) := by
    rw [ofPieces, List.foldl_append, List.foldl_cons, hgrow]
    rfl
  rw [nodeAfter, hwhole, hfresh]
  simp [grow]

end Page
end ImagePreview

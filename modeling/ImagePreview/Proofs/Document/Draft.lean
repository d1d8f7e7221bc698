import ImagePreview.Proofs.Document.Closing
import ImagePreview.Text.Cut

/-!
Output as one text, with the marks of the open window at byte offsets. Nothing can be put in at an
offset inside a character or behind the end; between two pieces that have a text, it always can, and
the window is then closed as it is piece by piece.
-/
namespace ImagePreview

namespace Text

def insertAt? (n : Nat) (extra t : Text) : Option Text :=
  (takeBytes? n t).bind fun front => (dropBytes? n t).map fun rest => front ++ extra ++ rest

theorem insertAt?_append (a extra b : Text) :
    insertAt? (byteSize a) extra (a ++ b) = some (a ++ extra ++ b) := by
  rw [insertAt?, takeBytes?_append, dropBytes?_append]
  rfl

theorem byteSize_pos {t : Text} (h : t ≠ []) : 0 < byteSize t := by
  obtain ⟨c, t, rfl⟩ := List.exists_cons_of_ne_nil h
  have hc := c.utf8Size_pos
  rw [byteSize_cons]
  omega

end Text

/-- A list with two others put in, behind `body` and behind `preview`, which are beginnings of it.
Where these are the same, the trailer comes first. -/
inductive Woven {α : Type} (trailer scripts : List α) :
    (whole body preview woven : List α) → Prop
  | trailerFirst (upper between lower : List α) :
    Woven trailer scripts (upper ++ between ++ lower) upper (upper ++ between)
      (upper ++ trailer ++ between ++ scripts ++ lower)
  | scriptsFirst (upper between lower : List α) : between ≠ [] →
    Woven trailer scripts (upper ++ between ++ lower) (upper ++ between) upper
      (upper ++ scripts ++ between ++ trailer ++ lower)

theorem exists_woven {α : Type} {whole body preview : List α} (hb : body <+: whole)
    (hp : preview <+: whole) (trailer scripts : List α) :
    ∃ woven, Woven trailer scripts whole body preview woven := by
  obtain ⟨between, rfl⟩ | ⟨between, rfl⟩ := List.prefix_or_prefix_of_prefix hb hp
  · obtain ⟨lower, rfl⟩ := hp
    exact ⟨_, .trailerFirst body between lower⟩
  · obtain ⟨lower, rfl⟩ := hb
    cases between with
    | nil =>
      -- the places are the same, so this is a case of the trailer first
      have h : Woven trailer scripts (preview ++ [] ++ lower) preview (preview ++ []) _ :=
        .trailerFirst preview [] lower
      rw [List.append_nil] at h ⊢
      exact ⟨_, h⟩
    | cons x between => exact ⟨_, .scriptsFirst preview _ lower (List.cons_ne_nil x between)⟩

theorem Woven.render {policy : Policy} {assets : Assets}
    {trailer scripts whole body preview woven : List Piece}
    (h : Woven trailer scripts whole body preview woven)
    (hsome : ∀ piece ∈ whole, piece.write policy assets ≠ []) :
    Woven (Piece.render policy assets trailer) (Piece.render policy assets scripts)
      (Piece.render policy assets whole) (Piece.render policy assets body)
      (Piece.render policy assets preview) (Piece.render policy assets woven) := by
  cases h with
  | trailerFirst _ between lower =>
    simp only [Piece.render_append]
    exact .trailerFirst _ _ _
  | scriptsFirst _ between lower hne =>
    simp only [Piece.render_append]
    refine .scriptsFirst _ _ _ fun hnil => ?_
    obtain ⟨piece, rest, rfl⟩ := List.exists_cons_of_ne_nil hne
    rw [Piece.render, List.flatMap_cons, List.append_eq_nil_iff] at hnil
    exact hsome piece (by simp) hnil.1

structure Draft where
  closed : Text := []
  window : Text := []
  /-- Byte offset of the last `</body>` of the window. -/
  bodyEnd : Option Nat := none
  /-- Byte offset behind the last image of the window that has a preview. -/
  previewEnd : Option Nat := none
deriving DecidableEq

namespace Draft

open Text

variable (draft : Draft)

/-- Close the window, if both marks are places in it. Text that is put in moves the places behind it,
so the one further down has its turn first. -/
def close? (trailer scripts tail : Text) : Option Draft :=
  let bodyEnd := draft.bodyEnd.getD (byteSize draft.window)
  let previewEnd := draft.previewEnd.getD bodyEnd
  let woven? :=
    if previewEnd = bodyEnd then insertAt? bodyEnd (trailer ++ scripts) draft.window
    else if previewEnd < bodyEnd then
      (insertAt? bodyEnd trailer draft.window).bind (insertAt? previewEnd scripts)
    else (insertAt? previewEnd scripts draft.window).bind (insertAt? bodyEnd trailer)
  woven?.map fun woven => { closed := draft.closed ++ woven ++ tail }

variable {draft}

theorem close?_of_woven {trailer scripts body preview woven : Text}
    (h : Woven trailer scripts draft.window body preview woven)
    (hb : draft.bodyEnd.getD (byteSize draft.window) = byteSize body)
    (hp : draft.previewEnd.getD (byteSize body) = byteSize preview) (tail : Text) :
    draft.close? trailer scripts tail = some { closed := draft.closed ++ woven ++ tail } := by
  simp only [close?, hb, hp]
  generalize draft.window = window at h
  cases h with
  | trailerFirst _ between lower =>
    cases between with
    | nil =>
      -- at one place, both are put in at once
      have hwoven := insertAt?_append body (trailer ++ scripts) lower
      simp [hwoven]
    | cons c between =>
      have hpos := byteSize_pos (List.cons_ne_nil c between)
      have hscripts := insertAt?_append (body ++ c :: between) scripts lower
      have htrailer := insertAt?_append body trailer (c :: between ++ scripts ++ lower)
      rw [if_neg (by rw [byteSize_append]; omega), if_neg (by rw [byteSize_append]; omega),
        hscripts, Option.bind_some, List.append_assoc body, List.append_assoc body, htrailer]
      simp
  | scriptsFirst _ between lower hsome =>
    have hpos := byteSize_pos hsome
    have htrailer := insertAt?_append (preview ++ between) trailer lower
    have hscripts := insertAt?_append preview scripts (between ++ trailer ++ lower)
    rw [if_neg (by rw [byteSize_append]; omega), if_pos (by rw [byteSize_append]; omega),
      htrailer, Option.bind_some, List.append_assoc preview, List.append_assoc preview, hscripts]
    simp

/-- A mark inside a character is no place. -/
example : ({ window := ['é'], bodyEnd := some 1 } : Draft).close? [] [] [] = none := by decide

end Draft

namespace Buffer

variable (policy : Policy) (assets : Assets) (buffer : Buffer)

def offset (n : Nat) : Nat := Text.byteSize (Piece.render policy assets (buffer.window.take n))

def draft : Draft where
  closed := Piece.render policy assets buffer.closed
  window := Piece.render policy assets buffer.window
  bodyEnd := buffer.bodyEnd.map (buffer.offset policy assets)
  previewEnd := buffer.previewEnd.map (buffer.offset policy assets)

variable {policy assets buffer} {trailer scripts body preview woven : List Piece}

theorem woven_eq (h : Woven trailer scripts buffer.window body preview woven)
    (hb : buffer.bodyEnd.getD buffer.window.length = body.length)
    (hp : buffer.previewEnd.getD body.length = preview.length) :
    buffer.woven trailer scripts = woven := by
  simp only [Buffer.woven, hb, hp]
  generalize buffer.window = window at h
  cases h with
  | trailerFirst _ between lower =>
    have hscripts := insertAt_length (body ++ between) scripts lower
    have htrailer := insertAt_length body trailer (between ++ scripts ++ lower)
    rw [if_neg (by rw [List.length_append]; omega), hscripts, List.append_assoc body,
      List.append_assoc body, htrailer]
    simp
  | scriptsFirst _ between lower hsome =>
    have hpos := List.length_pos_iff.mpr hsome
    have htrailer := insertAt_length (preview ++ between) trailer lower
    have hscripts := insertAt_length preview scripts (between ++ trailer ++ lower)
    rw [if_pos (by rw [List.length_append]; omega), htrailer, List.append_assoc preview,
      List.append_assoc preview, hscripts]
    simp

theorem offset_length {front : List Piece} (h : front <+: buffer.window) :
    buffer.offset policy assets front.length =
      Text.byteSize (Piece.render policy assets front) := by
  rw [offset, ← List.prefix_iff_eq_take.mp h]

structure Cut (buffer : Buffer) (body preview : List Piece) : Prop where
  body_begins : body <+: buffer.window
  preview_begins : preview <+: buffer.window
  bodyEnd : buffer.bodyEnd.getD buffer.window.length = body.length
  previewEnd : buffer.previewEnd.getD body.length = preview.length

namespace Cut

theorem bodyEnd_draft (h : buffer.Cut body preview) :
    (buffer.draft policy assets).bodyEnd.getD
        (Text.byteSize (buffer.draft policy assets).window) =
      Text.byteSize (Piece.render policy assets body) := by
  have hwhole : buffer.offset policy assets buffer.window.length =
      Text.byteSize (buffer.draft policy assets).window := offset_length List.prefix_rfl
  rw [← hwhole, draft, Option.getD_map, h.bodyEnd, offset_length h.body_begins]

theorem previewEnd_draft (h : buffer.Cut body preview) :
    (buffer.draft policy assets).previewEnd.getD
        (Text.byteSize (Piece.render policy assets body)) =
      Text.byteSize (Piece.render policy assets preview) := by
  rw [draft, ← offset_length h.body_begins, Option.getD_map, h.previewEnd,
    offset_length h.preview_begins]

/-- Whatever is put in, the window can be closed as a text. -/
theorem close?_texts (h : buffer.Cut body preview) (trailer scripts tail : Text) :
    let draft := buffer.draft policy assets
    ∃ woven, Woven trailer scripts draft.window (Piece.render policy assets body)
        (Piece.render policy assets preview) woven ∧
      draft.close? trailer scripts tail = some { closed := draft.closed ++ woven ++ tail } := by
  intro draft
  have hbegins {front : List Piece} (hfront : front <+: buffer.window) :
      Piece.render policy assets front <+: draft.window := by
    obtain ⟨rest, hrest⟩ := hfront
    exact ⟨Piece.render policy assets rest, by rw [← Piece.render_append, hrest]; rfl⟩
  obtain ⟨woven, hwoven⟩ :=
    exists_woven (hbegins h.body_begins) (hbegins h.preview_begins) trailer scripts
  exact ⟨woven, hwoven, Draft.close?_of_woven hwoven h.bodyEnd_draft h.previewEnd_draft tail⟩

/-- Where no piece is empty, closing the window as a text comes to closing it piece by piece. -/
theorem close?_pieces (h : buffer.Cut body preview)
    (hsome : ∀ piece ∈ buffer.window, piece.write policy assets ≠ [])
    (trailer scripts tail : List Piece) :
    (buffer.draft policy assets).close? (Piece.render policy assets trailer)
        (Piece.render policy assets scripts) (Piece.render policy assets tail) =
      some ((buffer.close trailer scripts tail).draft policy assets) := by
  obtain ⟨woven, hwoven⟩ := exists_woven h.body_begins h.preview_begins trailer scripts
  have hpieces := woven_eq hwoven h.bodyEnd h.previewEnd
  have htexts := Draft.close?_of_woven (hwoven.render hsome) h.bodyEnd_draft h.previewEnd_draft
    (Piece.render policy assets tail)
  rw [htexts, close, hpieces]
  simp [draft, Piece.render]

end Cut
end Buffer
end ImagePreview

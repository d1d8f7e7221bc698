import ImagePreview.Proofs.Document.Window

/-!
Where the blocks stand that are put in when a window is closed: directly behind an image with a
preview, or where the window ends the body, before its last `</body>`.
-/
namespace ImagePreview

open Markup

/-- Moments one after another, each with the blocks that closing its window put before it. -/
def laid (source : Source) (put : List (List Block × Moment)) : List Piece :=
  put.flatMap fun x => x.1.map .block ++ x.2.pieces source

def bare (ms : List Moment) : List (List Block × Moment) := ms.map fun m => ([], m)

variable {source : Source}

@[simp] theorem laid_append (a b : List (List Block × Moment)) :
    laid source (a ++ b) = laid source a ++ laid source b := List.flatMap_append

@[simp] theorem laid_cons (x : List Block × Moment) (b : List (List Block × Moment)) :
    laid source (x :: b) = x.1.map .block ++ x.2.pieces source ++ laid source b := by
  simp [laid]

theorem map_snd_bare (ms : List Moment) : (bare ms).map Prod.snd = ms := by
  simp [bare, Function.comp_def]

theorem laid_bare (ms : List Moment) : laid source (bare ms) = piecesOf source ms := by
  induction ms with
  | nil => rfl
  | cons m ms ih =>
    change laid source (([], m) :: bare ms) = _
    simp [ih, piecesOf]

namespace Buffer

theorem insertAt_length (a extra b : List Piece) :
    insertAt a.length extra (a ++ b) = a ++ extra ++ b := by
  simp [insertAt]

end Buffer

theorem split_append {α : Type} {a b c d : List α} {x : α} (h : a ++ b = c ++ x :: d) :
    (∃ e, c = a ++ e ∧ b = e ++ x :: d) ∨ ∃ e, a = c ++ x :: e ∧ d = e ++ b := by
  obtain hleft | ⟨e, rfl, hrest⟩ := List.append_eq_append_iff.mp h
  · exact Or.inl hleft
  · cases e with
    | nil => exact Or.inl ⟨[], by simp, hrest.symm⟩
    | cons y e =>
      obtain ⟨rfl, rfl⟩ := List.cons.inj hrest
      exact Or.inr ⟨e, rfl, rfl⟩

def LastShows (source : Source) (ms : List Moment) : Prop :=
  ∃ a y, ms = a ++ [y] ∧ y.shows source = true

theorem LastShows.append_left {b : List Moment} (h : LastShows source b) (a : List Moment) :
    LastShows source (a ++ b) := by
  obtain ⟨c, y, rfl, hshows⟩ := h
  exact ⟨a ++ c, y, by simp, hshows⟩

theorem not_lastShows_append {a b : List Moment} (hb : b ≠ [])
    (h : ∀ y ∈ b, y.shows source = false) : ¬ LastShows source (a ++ b) := by
  rintro ⟨c, y, hsplit, hshows⟩
  obtain ⟨b, z, rfl⟩ := (List.eq_nil_or_concat b).resolve_left hb
  rw [List.concat_eq_append, ← List.append_assoc] at hsplit
  have hy : z = y := (List.append_singleton_inj.mp hsplit).2
  rw [← hy, h z (by simp)] at hshows
  contradiction

/-- The place where a window ends the body: its last `</body>`, or if there is none, the moment
that closes it. -/
def EndsBody (a : List Moment) (x : Moment) (b : List Moment) : Prop :=
  (x.isBodyEnd = true ∧ ∀ y ∈ b, y.isBodyEnd = false) ∨ b = [] ∧ ∀ y ∈ a, y.isBodyEnd = false

/-- If there is a last `</body>`, it is there that the body ends. -/
theorem EndsBody.eq {a b c d : List Moment} {x z : Moment} (h : EndsBody a x b)
    (hsplit : a ++ x :: b = c ++ z :: d) (hz : z.isBodyEnd = true)
    (hd : ∀ y ∈ d, y.isBodyEnd = false) : a = c ∧ x = z := by
  obtain ⟨hx, hb⟩ | ⟨rfl, ha⟩ := h
  · exact eq_of_split_last hsplit hx hb hz hd
  · obtain rfl | ⟨d, y, rfl⟩ := List.eq_nil_or_concat d
    · exact List.append_singleton_inj.mp hsplit
    · rw [List.concat_eq_append, ← List.cons_append, ← List.append_assoc] at hsplit
      have hmem : z ∈ a := by simp [(List.append_singleton_inj.mp hsplit).1]
      rw [ha z hmem] at hz
      contradiction

namespace Opened

variable {ms : List Moment} {buffer : Buffer} {m : Moment}

theorem exists_endsBody (h : Opened source ms buffer) (hm : m.isBodyEnd = false) :
    ∃ a x b, ms ++ [m] = a ++ x :: b ∧ EndsBody a x b ∧
      buffer.bodyEnd.getD buffer.window.length = (piecesOf source a).length := by
  have hmark := h.bodyEnd
  cases hb : buffer.bodyEnd with
  | none =>
    rw [hb] at hmark
    exact ⟨ms, m, [], rfl, Or.inr ⟨rfl, hmark⟩, by rw [Option.getD_none, h.window]⟩
  | some n =>
    rw [hb] at hmark
    obtain ⟨a, x, b, rfl, hx, hnone, rfl⟩ := hmark
    refine ⟨a, x, b ++ [m], by simp, Or.inl ⟨hx, fun y hy => ?_⟩, rfl⟩
    rcases List.mem_append.mp hy with hy | hy
    · exact hnone y hy
    · rwa [List.mem_singleton.mp hy]

/-- A window as it is closed, with what its last moment writes. -/
theorem woven_append (h : Opened source ms buffer) (m : Moment) (trailer scripts : List Piece) :
    buffer.woven trailer scripts ++ m.pieces source =
      let bodyEnd := buffer.bodyEnd.getD buffer.window.length
      let previewEnd := buffer.previewEnd.getD bodyEnd
      let pieces := piecesOf source (ms ++ [m])
      if previewEnd < bodyEnd then
        Buffer.insertAt previewEnd scripts (Buffer.insertAt bodyEnd trailer pieces)
      else Buffer.insertAt bodyEnd trailer (Buffer.insertAt previewEnd scripts pieces) := by
  have hble := h.bodyEnd_le
  have hple := h.previewEnd_le
  have hall : buffer.window ++ m.pieces source = piecesOf source (ms ++ [m]) := by
    rw [h.window, piecesOf_append, piecesOf_singleton]
  rw [Buffer.woven]
  dsimp only
  split
  · rw [Buffer.insertAt_append (Buffer.le_length_insertAt hple), Buffer.insertAt_append hble, hall]
  · rw [Buffer.insertAt_append (Buffer.le_length_insertAt hble), Buffer.insertAt_append hple, hall]

end Opened

/-- The moments of a closed window with the blocks put in among them. All of these stand where the
body ends, or else the scripts stand behind the last image with a preview. -/
inductive Closing (source : Source) (trailer scripts : List Block) :
    List (List Block × Moment) → Prop
  | together {a x b} : EndsBody a x b →
      LastShows source a ∨ trailer ≠ [] ∨ (∀ y ∈ a ++ x :: b, y.shows source = false) →
      Closing source trailer scripts (bare a ++ (trailer ++ scripts, x) :: bare b)
  | scriptsFirst {a w b x c} : LastShows source a → EndsBody (a ++ w :: b) x c →
      Closing source trailer scripts (bare a ++ (scripts, w) :: (bare b ++ (trailer, x) :: bare c))
  | trailerFirst {a x b w c} : EndsBody a x (b ++ w :: c) → LastShows source (a ++ x :: b) →
      Closing source trailer scripts (bare a ++ (trailer, x) :: (bare b ++ (scripts, w) :: bare c))

section Laid

variable (a b c : List Moment) (x w : Moment) (upper lower : List Block)

theorem laid_one : laid source (bare a ++ (upper, x) :: bare b) =
    piecesOf source a ++ upper.map .block ++ piecesOf source (x :: b) := by
  simp [laid_bare, piecesOf]

theorem laid_two : laid source (bare a ++ (upper, w) :: (bare b ++ (lower, x) :: bare c)) =
    piecesOf source a ++ upper.map .block ++
      (piecesOf source (w :: b) ++ lower.map .block ++ piecesOf source (x :: c)) := by
  simp [laid_bare, piecesOf]

theorem insertAt_insertAt_laid :
    Buffer.insertAt (piecesOf source a).length (upper.map .block)
        (Buffer.insertAt (piecesOf source a).length (lower.map .block)
          (piecesOf source (a ++ x :: b))) =
      laid source (bare a ++ (upper ++ lower, x) :: bare b) := by
  rw [laid_one, piecesOf_append, Buffer.insertAt_length, List.append_assoc, Buffer.insertAt_length,
    List.map_append, List.append_assoc, List.append_assoc, List.append_assoc]

theorem insertAt_laid :
    Buffer.insertAt (piecesOf source a).length (upper.map .block)
        (Buffer.insertAt (piecesOf source (a ++ w :: b)).length (lower.map .block)
          (piecesOf source (a ++ w :: b ++ x :: c))) =
      laid source (bare a ++ (upper, w) :: (bare b ++ (lower, x) :: bare c)) := by
  rw [laid_two, piecesOf_append source (a ++ w :: b), Buffer.insertAt_length,
    piecesOf_append source a, List.append_assoc, List.append_assoc, Buffer.insertAt_length,
    List.append_assoc (piecesOf source (w :: b))]

end Laid

/-- The scripts go behind the last image with a preview, unless nothing stands between it and the
place of the trailer. -/
theorem exists_closing_of_split {trailer scripts : List Block} {front rest a b : List Moment}
    {x : Moment} (hshows : LastShows source front) (hends : EndsBody a x b)
    (hsplit : front ++ rest = a ++ x :: b) (hrest : rest ≠ []) :
    ∃ put, put.map Prod.snd = a ++ x :: b ∧
      (if (piecesOf source front).length < (piecesOf source a).length then
        Buffer.insertAt (piecesOf source front).length (scripts.map .block)
          (Buffer.insertAt (piecesOf source a).length (trailer.map .block)
            (piecesOf source (a ++ x :: b)))
      else
        Buffer.insertAt (piecesOf source a).length (trailer.map .block)
          (Buffer.insertAt (piecesOf source front).length (scripts.map .block)
            (piecesOf source (a ++ x :: b)))) = laid source put ∧
      Closing source trailer scripts put := by
  obtain ⟨e, rfl, -⟩ | ⟨e, rfl, rfl⟩ := split_append hsplit
  · cases e with
    | nil =>
      rw [List.append_nil] at hends ⊢
      refine ⟨_, ?_, ?_, .together hends (Or.inl hshows)⟩
      · simp [map_snd_bare]
      · rw [if_neg (Nat.lt_irrefl _), insertAt_insertAt_laid]
    | cons w e =>
      by_cases hlt : (piecesOf source front).length < (piecesOf source (front ++ w :: e)).length
      · refine ⟨_, ?_, ?_, .scriptsFirst hshows hends⟩
        · simp [map_snd_bare]
        · rw [if_pos hlt, insertAt_laid]
      · -- the moments in between have written nothing, so the trailer comes first all the same
        have hlen : (piecesOf source front).length =
            (piecesOf source (front ++ w :: e)).length := by
          rw [piecesOf_append, List.length_append] at hlt ⊢
          omega
        rw [if_neg hlt]
        by_cases ht : trailer = []
        · refine ⟨_, ?_, ?_, .scriptsFirst hshows hends⟩
          · simp [map_snd_bare]
          · rw [← insertAt_laid, ht]
            simp
        · refine ⟨_, ?_, ?_, .together hends (Or.inr (Or.inl ht))⟩
          · simp [map_snd_bare]
          · rw [hlen, insertAt_insertAt_laid]
  · obtain ⟨w, rest, rfl⟩ := List.exists_cons_of_ne_nil hrest
    refine ⟨_, ?_, ?_, .trailerFirst hends hshows⟩
    · simp [map_snd_bare]
    · rw [if_neg, ← insertAt_laid]
      · simp
      · rw [piecesOf_append, List.length_append]
        omega

theorem Opened.exists_closing {ms : List Moment} {buffer : Buffer} {m : Moment}
    (h : Opened source ms buffer) (hc : m.event.closes = true) (trailer scripts : List Block) :
    ∃ put, put.map Prod.snd = ms ++ [m] ∧
      buffer.woven (trailer.map .block) (scripts.map .block) ++ m.pieces source =
        laid source put ∧
      Closing source trailer scripts put := by
  obtain ⟨a, x, b, hsplit, hends, hbody⟩ := h.exists_endsBody (Moment.isBodyEnd_of_closes hc)
  have hmark := h.previewEnd
  rw [h.woven_append m, hsplit]
  dsimp only
  rw [hbody]
  cases hp : buffer.previewEnd with
  | none =>
    rw [hp] at hmark
    refine ⟨_, ?_, ?_, .together hends (Or.inr (Or.inr ?_))⟩
    · simp [map_snd_bare]
    · rw [Option.getD_none, if_neg (Nat.lt_irrefl _), insertAt_insertAt_laid]
    · rw [← hsplit]
      intro y hy
      rcases List.mem_append.mp hy with hy | hy
      · exact hmark y hy
      · rw [List.mem_singleton.mp hy]
        exact Moment.shows_of_closes hc
  | some n =>
    rw [hp] at hmark
    obtain ⟨c, y, d, rfl, hy, -, rfl⟩ := hmark
    have hshows : LastShows source (c ++ [y]) := ⟨c, y, rfl, hy⟩
    have hcut : c ++ [y] ++ (d ++ [m]) = a ++ x :: b := by simpa using hsplit
    exact exists_closing_of_split hshows hends hcut (by simp)

section Split

variable {ms : List Moment} {p q rest : List (List Block × Moment)} {x : List Block × Moment}

theorem not_mem_bare (hx : x.1 ≠ []) : x ∉ bare ms := by
  intro hmem
  obtain ⟨m, -, rfl⟩ := List.mem_map.mp hmem
  exact hx rfl

theorem split_bare (h : bare ms ++ rest = p ++ x :: q) (hx : x.1 ≠ []) :
    ∃ more, p = bare ms ++ more ∧ rest = more ++ x :: q := by
  obtain hrest | ⟨more, hms, -⟩ := split_append h
  · exact hrest
  · have hmem : x ∈ bare ms := by simp [hms]
    exact absurd hmem (not_mem_bare hx)

theorem split_one {a b : List Moment} {z : List Block × Moment}
    (h : bare a ++ z :: bare b = p ++ x :: q) (hx : x.1 ≠ []) :
    p = bare a ∧ x = z ∧ q = bare b := by
  obtain ⟨more, rfl, hrest⟩ := split_bare h hx
  cases more with
  | nil =>
    obtain ⟨rfl, rfl⟩ := List.cons.inj hrest
    exact ⟨List.append_nil _, rfl, rfl⟩
  | cons y more =>
    have hmem : x ∈ bare b := by simp [(List.cons.inj hrest).2]
    exact absurd hmem (not_mem_bare hx)

theorem split_two {a b c : List Moment} {z w : List Block × Moment}
    (h : bare a ++ z :: (bare b ++ w :: bare c) = p ++ x :: q) (hx : x.1 ≠ []) :
    (p = bare a ∧ x = z ∧ q = bare b ++ w :: bare c) ∨
      p = bare a ++ z :: bare b ∧ x = w ∧ q = bare c := by
  obtain ⟨more, rfl, hrest⟩ := split_bare h hx
  cases more with
  | nil =>
    obtain ⟨rfl, rfl⟩ := List.cons.inj hrest
    exact Or.inl ⟨List.append_nil _, rfl, rfl⟩
  | cons y more =>
    obtain ⟨rfl, hmore⟩ := List.cons.inj hrest
    obtain ⟨rfl, rfl, rfl⟩ := split_one hmore hx
    exact Or.inr ⟨rfl, rfl, rfl⟩

end Split

/-- Where as many stand in front, there is the same. -/
theorem eq_of_length {α : Type} {a b c d : List α} {x y : α} (h : a ++ x :: b = c ++ y :: d)
    (hlen : a.length = c.length) : x = y :=
  (List.cons.inj (List.append_inj h hlen).2).1

namespace Closing

variable {trailer scripts : List Block} {put p q : List (List Block × Moment)}
  {x : List Block × Moment}

theorem mem_blocks (h : Closing source trailer scripts put) :
    ∀ y ∈ put, ∀ b ∈ y.1, b ∈ trailer ++ scripts := by
  intro y hy b hb
  obtain ⟨p, q, hsplit⟩ := List.append_of_mem hy
  have hsome : y.1 ≠ [] := List.ne_nil_of_mem hb
  cases h with
  | together hends hcase =>
    obtain ⟨-, rfl, -⟩ := split_one hsplit hsome
    exact hb
  | scriptsFirst hshows hends =>
    obtain ⟨-, rfl, -⟩ | ⟨-, rfl, -⟩ := split_two hsplit hsome
    · exact List.mem_append_right _ hb
    · exact List.mem_append_left _ hb
  | trailerFirst hends hshows =>
    obtain ⟨-, rfl, -⟩ | ⟨-, rfl, -⟩ := split_two hsplit hsome
    · exact List.mem_append_left _ hb
    · exact List.mem_append_right _ hb

def Due (source : Source) (trailer scripts : List Block) (ms : List Moment) : Prop :=
  trailer ≠ [] ∨ scripts ≠ [] ∧ ∀ y ∈ ms, y.shows source = false

theorem Due.trailer_ne_nil {ms : List Moment} (h : Due source trailer scripts ms) {y : Moment}
    (hy : y ∈ ms) (hshows : y.shows source = true) : trailer ≠ [] := by
  obtain htrailer | ⟨-, hnone⟩ := h
  · exact htrailer
  · rw [hnone y hy] at hshows
    contradiction

/-- Blocks stand behind an image with a preview, or where the body ends. -/
theorem places (h : Closing source trailer scripts put) (hsplit : put = p ++ x :: q)
    (hx : x.1 ≠ []) :
    LastShows source (p.map Prod.snd) ∨
      EndsBody (p.map Prod.snd) x.2 (q.map Prod.snd) ∧
        Due source trailer scripts (put.map Prod.snd) := by
  cases h with
  | @together a z b hends hcase =>
    obtain ⟨rfl, rfl, rfl⟩ := split_one hsplit hx
    rw [map_snd_bare, map_snd_bare]
    obtain hshows | htrailer | hnone := hcase
    · exact Or.inl hshows
    · exact Or.inr ⟨hends, Or.inl htrailer⟩
    · refine Or.inr ⟨hends, ?_⟩
      by_cases ht : trailer = []
      · refine Or.inr ⟨by simpa [ht] using hx, ?_⟩
        simpa only [List.map_append, List.map_cons, map_snd_bare] using hnone
      · exact Or.inl ht
  | scriptsFirst hshows hends =>
    obtain ⟨rfl, rfl, rfl⟩ | ⟨rfl, rfl, rfl⟩ := split_two hsplit hx
    · exact Or.inl (by rwa [map_snd_bare])
    · exact Or.inr ⟨by simpa [map_snd_bare] using hends, Or.inl hx⟩
  | trailerFirst hends hshows =>
    obtain ⟨rfl, rfl, rfl⟩ | ⟨rfl, rfl, rfl⟩ := split_two hsplit hx
    · exact Or.inr ⟨by simpa [map_snd_bare] using hends, Or.inl hx⟩
    · exact Or.inl (by simpa [map_snd_bare] using hshows)

/-- What is due stands before the last `</body>`. -/
theorem ne_nil (h : Closing source trailer scripts put) (hsplit : put = p ++ x :: q)
    (hx : x.2.isBodyEnd = true) (hq : ∀ y ∈ q.map Prod.snd, y.isBodyEnd = false)
    (hdue : Due source trailer scripts (put.map Prod.snd)) : x.1 ≠ [] := by
  have hmoments := congrArg (List.map Prod.snd) hsplit
  rw [List.map_append, List.map_cons] at hmoments
  cases h with
  | @together a z b hends hcase =>
    simp only [List.map_append, List.map_cons, map_snd_bare] at hmoments
    have hp := congrArg List.length (hends.eq hmoments hx hq).1
    rw [← eq_of_length hsplit (by simpa [bare] using hp)]
    obtain htrailer | ⟨hscripts, -⟩ := hdue
    · simp [htrailer]
    · simp [hscripts]
  | @scriptsFirst a w b z c hshows hends =>
    obtain ⟨d, y, rfl, hy⟩ := hshows
    have htrailer := hdue.trailer_ne_nil (y := y) (by simp [map_snd_bare]) hy
    simp only [List.map_append, List.map_cons, map_snd_bare, ← List.cons_append,
      ← List.append_assoc] at hmoments hsplit
    have hp := congrArg List.length (hends.eq (by simpa using hmoments) hx hq).1
    rw [← eq_of_length hsplit (by simpa [bare] using hp)]
    exact htrailer
  | @trailerFirst a z b w c hends hshows =>
    obtain ⟨d, y, hlast, hy⟩ := hshows
    have hall : (bare a ++ (trailer, z) :: (bare b ++ (scripts, w) :: bare c)).map Prod.snd =
        d ++ [y] ++ w :: c := by
      simp [map_snd_bare, ← hlast]
    have htrailer := hdue.trailer_ne_nil (y := y) (by simp [hall]) hy
    simp only [List.map_append, List.map_cons, map_snd_bare] at hmoments
    have hp := congrArg List.length (hends.eq hmoments hx hq).1
    rw [← eq_of_length hsplit (by simpa [bare] using hp)]
    exact htrailer

end Closing

end ImagePreview

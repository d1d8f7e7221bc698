import ImagePreview.Proofs.Markup.Reading

/-!
The sources of tokens. What a document is read from is cut out of it again piece by piece, so that
its tokens are written as it was, up to its end. There the last byte of character data is lost, and
behind a byte order mark all sources are cut too early.
-/
namespace ImagePreview.Markup

def tokensOf (read : List (Item × Text)) : List Token := read.map fun x => Token.ofItem x.2 x.1

@[simp] theorem tokensOf_cons (item : Item) (source : Text) (more : List (Item × Text)) :
    tokensOf ((item, source) :: more) = Token.ofItem source item :: tokensOf more := rfl

/-- What is written of the end of a document. The last byte of character data is not, nor is a
character that the last byte belongs to, with the text in front of it. -/
def keptTail (tail : Text) : Text :=
  match tail.getLast? with
  | some c => if c.utf8Size = 1 then tail.dropLast else []
  | none => []

namespace Token

@[simp] theorem write_ofItem (source : Text) (item : Item) :
    (ofItem source item).write = source := by
  cases item <;> rfl

theorem place_widths (before : Text) (read : List (Item × Text)) (behind : Text)
    (later : List (Item × Nat)) :
    place (before ++ (sources read ++ behind)) (Text.byteSize before) (widths read ++ later) =
      tokensOf read ++ place (before ++ (sources read ++ behind))
        (Text.byteSize (before ++ sources read)) later := by
  induction read generalizing before with
  | nil => simp [widths, tokensOf]
  | cons x read ih =>
    obtain ⟨item, source⟩ := x
    have hpiece := Text.piece_append before source (sources read ++ behind)
    have hlater := ih (before ++ source)
    simp only [List.append_assoc, Text.byteSize_append] at hpiece hlater
    simp only [sources_cons, widths_cons, tokensOf_cons, List.append_assoc, List.cons_append,
      Text.byteSize_append, place, hpiece, hlater]

theorem place_add (before document : Text) (start : Nat) (found : List (Item × Nat)) :
    place (before ++ document) (Text.byteSize before + start) found =
      place document start found := by
  induction found generalizing start with
  | nil => rfl
  | cons x found ih =>
    obtain ⟨item, width⟩ := x
    rw [place, place, Text.piece_add, Nat.add_assoc, ih]

end Token

@[simp] theorem render_append (a b : List Token) : render (a ++ b) = render a ++ render b :=
  List.flatMap_append

theorem render_tokensOf (read : List (Item × Text)) : render (tokensOf read) = sources read := by
  simp [render, tokensOf, sources, List.flatMap_map]

theorem withoutMark_of_head? {t : Text} (h : t.head? ≠ some '\uFEFF') : withoutMark t = t := by
  cases t with
  | nil => rfl
  | cons c t =>
    rw [withoutMark.eq_def]
    split
    · rename_i he
      exact absurd (congrArg List.head? he) h
    · rfl

/-- The tokens of what has been read come first, and behind them those of the rest. -/
theorem Reading.tokens_eq {t tail : Text} {read : List (Item × Text)} (h : Reading t read tail)
    (hmark : t.head? ≠ some '\uFEFF') :
    tokens t = (items tail).map fun later => tokensOf read ++ Token.place tail 0 later := by
  have hplace (later : List (Item × Nat)) :
      Token.place t 0 (widths read ++ later) = tokensOf read ++ Token.place tail 0 later := by
    have hread := Token.place_widths [] read tail later
    have htail := Token.place_add (sources read) tail 0 later
    rw [List.nil_append, List.nil_append, ← h.eq_append] at hread
    rw [← h.eq_append, Nat.add_zero] at htail
    rw [← htail]
    exact hread
  rw [tokens, withoutMark_of_head? hmark, h.items_eq]
  cases items tail with
  | error fault => rfl
  | ok later => exact congrArg Except.ok (hplace later)

theorem piece_keptTail {tail : Text} (hne : tail ≠ []) :
    Text.piece tail 0 (Text.byteSize tail - 1) = keptTail tail := by
  obtain ⟨front, c, rfl⟩ := (List.eq_nil_or_concat tail).resolve_left hne
  have hsize : Text.byteSize (front.concat c) - 1 = Text.byteSize front + (c.utf8Size - 1) := by
    have := c.utf8Size_pos
    simp only [List.concat_eq_append, Text.byteSize_append, Text.byteSize_cons, Text.byteSize_nil]
    omega
  have hcut : Text.piece (front.concat c) 0 (Text.byteSize front + (c.utf8Size - 1)) =
      ((Text.takeBytes? (c.utf8Size - 1) [c]).map (front ++ ·)).getD [] := by
    rw [← Text.takeBytes?_add, Text.piece, Text.dropBytes?, List.concat_eq_append]
    rfl
  rw [hsize, hcut, keptTail, List.concat_eq_append, List.getLast?_concat, List.dropLast_concat]
  by_cases hone : c.utf8Size = 1
  · simp [hone, Text.takeBytes?]
  · obtain ⟨k, hk⟩ : ∃ k, c.utf8Size - 1 = k + 1 :=
      ⟨c.utf8Size - 2, by have := c.utf8Size_pos; omega⟩
    have hlong : ¬ c.utf8Size ≤ k + 1 := by omega
    simp [hone, hk, Text.takeBytes?, hlong]

theorem render_tailItems (tail : Text) :
    render (Token.place tail 0 (tailItems tail)) = keptTail tail := by
  rw [tailItems]
  split
  · rename_i hnone
    rcases hnone with rfl | rfl <;> rfl
  · rename_i hsome
    rw [not_or] at hsome
    simp [Token.place, render, Token.ofItem, Token.write, piece_keptTail hsome.1]

theorem length_keptTail_lt {tail : Text} (h : tail ≠ []) :
    (keptTail tail).length < tail.length := by
  obtain ⟨front, c, rfl⟩ := (List.eq_nil_or_concat tail).resolve_left h
  rw [keptTail, List.concat_eq_append, List.getLast?_concat, List.dropLast_concat]
  by_cases hone : c.utf8Size = 1 <;> simp [hone]

theorem render_of_reading {document tail : Text} {read : List (Item × Text)} {ts : List Token}
    (hread : Reading document read tail) (htail : IsTail tail)
    (hmark : document.head? ≠ some '\uFEFF') (h : tokens document = .ok ts) :
    render ts = sources read ++ keptTail tail := by
  rw [hread.tokens_eq hmark, items_tail htail] at h
  rw [← Except.ok.inj h, render_append, render_tokensOf, render_tailItems]

theorem byteSize_render_place_le (document : Text) (start : Nat) (found : List (Item × Nat)) :
    Text.byteSize (render (Token.place document start found)) ≤ (found.map Prod.snd).sum := by
  induction found generalizing start with
  | nil => exact Nat.le_refl _
  | cons x found ih =>
    obtain ⟨item, width⟩ := x
    have hfirst := Text.byteSize_piece_le document start width
    have hlater := ih (start + width)
    rw [Token.place, ← List.singleton_append, render_append, Text.byteSize_append]
    simp only [render, List.flatMap_cons, List.flatMap_nil, Token.write_ofItem, List.append_nil,
      List.map_cons, List.sum_cons] at hlater ⊢
    omega

theorem sum_items_le {t : Text} {found : List (Item × Nat)} (h : items t = .ok found) :
    (found.map Prod.snd).sum ≤ Text.byteSize t := by
  obtain ⟨read, tail, hread, htail⟩ := exists_reading h
  have hlast : ((tailItems tail).map Prod.snd).sum ≤ Text.byteSize tail := by
    rw [tailItems]
    split <;> simp
  rw [hread.items_eq, items_tail htail] at h
  rw [← Except.ok.inj h, hread.eq_append, List.map_append, List.sum_append, sum_widths,
    Text.byteSize_append]
  omega

/-- The size of a byte order mark is missing from what is written. -/
theorem render_ne_of_mark {t : Text} {ts : List Token} (h : tokens ('\uFEFF' :: t) = .ok ts) :
    render ts ≠ '\uFEFF' :: t := by
  obtain ⟨found, hfound, hplace⟩ := exists_ok_of_map h
  intro hsame
  have hle := byteSize_render_place_le ('\uFEFF' :: t) 0 found
  have hsum := sum_items_le hfound
  rw [hplace, hsame] at hle
  have hmark := Char.utf8Size_pos '\uFEFF'
  rw [Text.byteSize_cons] at hle
  change _ ≤ Text.byteSize t at hsum
  omega

/-- A document is written as it was if it has no byte order mark, and ends with markup or is empty;
then it has been read to its end. Any other loses something: without a mark, its last byte. -/
theorem render_tokens {document : Text} {ts : List Token} (h : tokens document = .ok ts) :
    (render ts = document ↔
      document.head? ≠ some '\uFEFF' ∧ ∃ read, Reading document read []) ∧
    (document.head? ≠ some '\uFEFF' → ∃ read tail, Reading document read tail ∧ IsTail tail ∧
      render ts = sources read ++ keptTail tail) := by
  have hkept (hmark : document.head? ≠ some '\uFEFF') : ∃ read tail,
      Reading document read tail ∧ IsTail tail ∧ render ts = sources read ++ keptTail tail := by
    have hitems := h
    rw [tokens, withoutMark_of_head? hmark] at hitems
    obtain ⟨found, hfound, -⟩ := exists_ok_of_map hitems
    obtain ⟨read, tail, hread, htail⟩ := exists_reading hfound
    exact ⟨read, tail, hread, htail, render_of_reading hread htail hmark h⟩
  refine ⟨⟨fun hsame => ?_, fun ⟨hmark, read, hread⟩ => ?_⟩, hkept⟩
  · have hmark : document.head? ≠ some '\uFEFF' := by
      intro hhead
      obtain ⟨t, rfl⟩ := List.head?_eq_some_iff.mp hhead
      exact render_ne_of_mark h hsame
    obtain ⟨read, tail, hread, -, hrender⟩ := hkept hmark
    refine ⟨hmark, read, ?_⟩
    rw [hrender] at hsame
    have htail : keptTail tail = tail := List.append_cancel_left (hsame.trans hread.eq_append)
    by_cases hnone : tail = []
    · rwa [hnone] at hread
    · exact absurd (congrArg List.length htail) (Nat.ne_of_lt (length_keptTail_lt hnone))
  · have hrender := render_of_reading hread (Or.inl List.not_mem_nil) hmark h
    rw [hrender, hread.eq_append]
    rfl

def Sample.line : Text := "<p>é</p>\n".toList

def Sample.lineTokens : List Token :=
  [.startTag { name := "p".toList, attributes := [], source := some "<p>".toList },
    .text "é".toList, .endTag ⟨"p".toList, some "</p>".toList⟩, .text []]

theorem sample_render_tokens :
    tokens Sample.line = .ok Sample.lineTokens ∧
      (render Sample.lineTokens = Sample.line ↔
        Sample.line.head? ≠ some '\uFEFF' ∧ ∃ read, Reading Sample.line read []) ∧
      (Sample.line.head? ≠ some '\uFEFF' → ∃ read tail, Reading Sample.line read tail ∧
        IsTail tail ∧ render Sample.lineTokens = sources read ++ keptTail tail) := by
  have h : tokens Sample.line = .ok Sample.lineTokens := by decide +kernel
  exact ⟨h, render_tokens h⟩

/-- The end of a line behind the last tag is lost. -/
theorem not_all_rendered :
    ¬ ∀ (document : Text) (ts : List Token), tokens document = .ok ts → render ts = document := by
  intro h
  have hsame := h Sample.line Sample.lineTokens (by decide +kernel)
  revert hsame
  decide

end ImagePreview.Markup

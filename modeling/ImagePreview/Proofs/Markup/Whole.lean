import ImagePreview.Proofs.Markup.Rereading
import ImagePreview.Proofs.Markup.Seam

/-!
Texts that are read to their end, whatever follows. One after another they are read one after
another, so that what was written part by part can be read part by part.
-/
namespace ImagePreview.Markup

theorem Reading.trans {t tail rest : Text} {read more : List (Item × Text)}
    (h : Reading t read tail) (hmore : Reading tail more rest) :
    Reading t (read ++ more) rest := by
  induction h with
  | done rest => exact hmore
  | item first later ih => exact .item first (ih hmore)

def ReadsAs (t : Text) (ts : List Token) : Prop :=
  ∃ read, Reading t read [] ∧ tokensOf read = ts ∧ ∀ x ∈ read.getLast?, '>' ∈ x.2

namespace ReadsAs

variable {a b : Text} {ts us : List Token}

theorem tokens_eq (h : ReadsAs a ts) (hmark : a.head? ≠ some '\uFEFF') : tokens a = .ok ts := by
  obtain ⟨read, hread, rfl, -⟩ := h
  rw [hread.tokens_eq hmark, items_nil]
  exact congrArg Except.ok (List.append_nil _)

theorem append (ha : ReadsAs a ts) (hb : ReadsAs b us) : ReadsAs (a ++ b) (ts ++ us) := by
  obtain ⟨read, hread, rfl, hlast⟩ := ha
  obtain ⟨more, hmore, rfl, hend⟩ := hb
  have hjoined := hread.append (Or.inr hlast) b
  refine ⟨read ++ more, hjoined.trans hmore, List.map_append, ?_⟩
  intro x hx
  rw [List.getLast?_append, Option.mem_def, Option.or_eq_some_iff] at hx
  rcases hx with hx | ⟨-, hx⟩
  · exact hend x hx
  · exact hlast x hx

theorem data (ha : a ≠ []) (hnone : '<' ∉ a) (hb : ReadsAs b us) (hnext : b.head? = some '<') :
    ReadsAs (a ++ b) (.text a :: us) := by
  obtain ⟨more, hmore, rfl, hend⟩ := hb
  obtain ⟨c, t, rfl⟩ := List.exists_cons_of_ne_nil ha
  obtain ⟨rest, rfl⟩ := List.head?_eq_some_iff.mp hnext
  rw [List.mem_cons, not_or] at hnone
  refine ⟨(.text, c :: t) :: more, .item (.data (Ne.symm hnone.1) hnone.2 rest) hmore, rfl, ?_⟩
  cases more with
  | nil =>
    have hnothing := hmore.eq_append
    contradiction
  | cons x more => simpa using hend

theorem tag {tag : StartTag} (h : tag.IsPlain) (hs : tag.source = none) :
    ReadsAs tag.write [.startTag tag.reread] := by
  refine ⟨_, StartTag.reading_write h hs, rfl, ?_⟩
  simp [StartTag.write_eq hs]

theorem of_tokens (h : tokens a = .ok ts) (ha : a.head? ≠ some '\uFEFF')
    (hlast : ∃ token ∈ ts.getLast?, token.isMarkup = true) (hend : a.getLast? = some '>') :
    ReadsAs a ts := by
  have hitems := h
  rw [tokens, withoutMark_of_head? ha] at hitems
  obtain ⟨found, hfound, -⟩ := exists_ok_of_map hitems
  obtain ⟨read, tail, hread, htail⟩ := exists_reading hfound
  obtain rfl := hread.tail_eq_nil htail ha h hlast hend
  rw [hread.tokens_eq ha, items_nil] at h
  exact ⟨read, hread, by simpa [Token.place] using Except.ok.inj h, hread.closed_last hend⟩

end ReadsAs
end ImagePreview.Markup

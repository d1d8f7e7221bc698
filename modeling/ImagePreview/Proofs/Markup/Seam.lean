import ImagePreview.Proofs.Markup.Sources

/-!
Documents cut in two. Where a document is cut behind the `>` of markup, its parts are read as the
whole is: the tokens of the first part, and then those of the second.
-/
namespace ImagePreview.Markup

/-- Tags, comments, declarations and instructions. Character data never begins with a `<`. -/
def Token.isMarkup : Token → Bool
  | startTag _ => true
  | endTag _ => true
  | text t => t.head? == some '<'

theorem mem_of_mem_keptTail {tail : Text} {c : Char} (h : c ∈ keptTail tail) : c ∈ tail := by
  rw [keptTail] at h
  split at h
  · split at h
    · exact (List.dropLast_sublist tail).mem h
    · contradiction
  · contradiction

/-- A document whose last token is markup that ends with `>` has been read to its end. -/
theorem Reading.tail_eq_nil {t tail : Text} {read : List (Item × Text)} {ts : List Token}
    (hread : Reading t read tail) (htail : IsTail tail) (hmark : t.head? ≠ some '\uFEFF')
    (h : tokens t = .ok ts) (hlast : ∃ token ∈ ts.getLast?, token.isMarkup = true)
    (hend : t.getLast? = some '>') : tail = [] := by
  apply Classical.byContradiction
  intro hne
  by_cases hlone : tail = ['<']
  · rw [hread.eq_append, hlone, List.getLast?_concat] at hend
    exact absurd (Option.some.inj hend) (by decide)
  · have hdata : '<' ∉ tail := htail.resolve_right hlone
    rw [hread.tokens_eq hmark, items_tail htail, tailItems, if_neg (not_or.mpr ⟨hne, hlone⟩)] at h
    have hts := Except.ok.inj h
    simp only [Token.place, Token.ofItem, piece_keptTail hne] at hts
    obtain ⟨token, htoken, hmarkup⟩ := hlast
    rw [← hts, List.getLast?_concat] at htoken
    obtain rfl := Option.some.inj htoken
    have hfirst := List.mem_of_mem_head? (beq_iff_eq.mp hmarkup)
    exact hdata (mem_of_mem_keptTail hfirst)

theorem Reading.closed_last {t : Text} {read : List (Item × Text)} (hread : Reading t read [])
    (hend : t.getLast? = some '>') : ∀ x ∈ read.getLast?, '>' ∈ x.2 := by
  intro x hx
  obtain ⟨front, rfl⟩ := List.getLast?_eq_some_iff.mp hx
  have hne := hread.source_ne_nil (x := x) (by simp)
  rw [hread.eq_append] at hend
  simp only [sources, List.flatMap_append, List.flatMap_cons, List.flatMap_nil,
    List.append_nil] at hend
  rw [List.getLast?_append, List.getLast?_eq_some_getLast hne, Option.some_or] at hend
  rw [← Option.some.inj hend]
  exact List.getLast_mem hne

/-- Behind the `>` of markup, a document goes on as if it began there. -/
theorem tokens_append {a b : Text} {ts : List Token} (h : tokens a = .ok ts)
    (ha : a.head? ≠ some '\uFEFF') (hlast : ∃ token ∈ ts.getLast?, token.isMarkup = true)
    (hend : a.getLast? = some '>') (hb : b.head? ≠ some '\uFEFF') :
    render ts = a ∧ tokens (a ++ b) = (tokens b).map (ts ++ ·) := by
  have hitems := h
  rw [tokens, withoutMark_of_head? ha] at hitems
  obtain ⟨found, hfound, -⟩ := exists_ok_of_map hitems
  obtain ⟨read, tail, hread, htail⟩ := exists_reading hfound
  obtain rfl := hread.tail_eq_nil htail ha h hlast hend
  have hts : ts = tokensOf read := by
    rw [hread.tokens_eq ha, items_nil] at h
    exact (Except.ok.inj h).symm.trans (List.append_nil _)
  constructor
  · rw [hts, render_tokensOf, hread.eq_append, List.append_nil]
  · have hjoined := hread.append (Or.inr (hread.closed_last hend)) b
    have hhead : (a ++ b).head? ≠ some '\uFEFF' := by
      cases a with
      | nil => contradiction
      | cons c a => exact ha
    rw [hjoined.tokens_eq hhead, tokens, withoutMark_of_head? hb, hts, List.nil_append]
    cases items b <;> rfl

theorem sample_tokens_append :
    tokens "<p title='>'><br/>".toList = .ok
        [.startTag ⟨"p".toList, [⟨"title".toList, some ['>']⟩], false, some "<p title='>'>".toList⟩,
          .startTag ⟨"br".toList, [], true, some "<br/>".toList⟩] ∧
      tokens ("<p title='>'><br/>".toList ++ "</p>\n".toList) = .ok
        [.startTag ⟨"p".toList, [⟨"title".toList, some ['>']⟩], false, some "<p title='>'>".toList⟩,
          .startTag ⟨"br".toList, [], true, some "<br/>".toList⟩,
          .endTag ⟨"p".toList, some "</p>".toList⟩, .text []] := by
  have h : tokens "<p title='>'><br/>".toList = .ok
      [.startTag ⟨"p".toList, [⟨"title".toList, some ['>']⟩], false, some "<p title='>'>".toList⟩,
        .startTag ⟨"br".toList, [], true, some "<br/>".toList⟩] := by decide +kernel
  have hrest : tokens "</p>\n".toList = .ok [.endTag ⟨"p".toList, some "</p>".toList⟩, .text []] :=
    by decide +kernel
  have hjoined := (tokens_append h (by decide) ⟨_, rfl, rfl⟩ rfl (b := "</p>\n".toList)
    (by decide)).2
  rw [hrest] at hjoined
  exact ⟨h, hjoined⟩

end ImagePreview.Markup

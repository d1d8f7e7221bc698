import ImagePreview.Markup.Token
import ImagePreview.Proofs.Markup.Extent
import Mathlib.Algebra.GroupWithZero.Nat

/-!
How a text is read: item after item, each from a source of its own. What is left at the end is
character data, or a single `<`. What has been read from closed sources stays read whatever follows.
-/
namespace ImagePreview.Markup

/-- `item` is read first, from `source`, and `rest` follows. -/
inductive Leads : Item → Text → Text → Prop
  | markup {t : Text} {item : Item} {n : Nat} (ht : t ≠ []) (h : markup t = .ok (item, n)) :
      Leads item ('<' :: t.take n) (t.drop n)
  | data {c : Char} {t : Text} (hc : c ≠ '<') (ht : '<' ∉ t) (rest : Text) :
      Leads .text (c :: t) ('<' :: rest)

/-- A text is read up to `rest`: the items with their sources. -/
inductive Reading : Text → List (Item × Text) → Text → Prop
  | done (rest : Text) : Reading rest [] rest
  | item {item : Item} {source rest tail : Text} {more : List (Item × Text)}
      (first : Leads item source rest) (later : Reading rest more tail) :
      Reading (source ++ rest) ((item, source) :: more) tail

def sources (read : List (Item × Text)) : Text := read.flatMap Prod.snd

def widths (read : List (Item × Text)) : List (Item × Nat) :=
  read.map fun x => (x.1, Text.byteSize x.2)

/-- What no further item is read from, but trailing character data. -/
def IsTail (t : Text) : Prop := '<' ∉ t ∨ t = ['<']

/-- The item of trailing character data. Its last byte is not counted. -/
def tailItems (t : Text) : List (Item × Nat) :=
  if t = [] ∨ t = ['<'] then [] else [(.text, Text.byteSize t - 1)]

@[simp] theorem widths_cons (item : Item) (source : Text) (more : List (Item × Text)) :
    widths ((item, source) :: more) = (item, Text.byteSize source) :: widths more := rfl

@[simp] theorem sources_nil : sources [] = [] := rfl

@[simp] theorem sources_cons (item : Item) (source : Text) (more : List (Item × Text)) :
    sources ((item, source) :: more) = source ++ sources more := rfl

theorem sum_widths (read : List (Item × Text)) :
    ((widths read).map Prod.snd).sum = Text.byteSize (sources read) := by
  induction read with
  | nil => rfl
  | cons x read ih =>
    obtain ⟨item, source⟩ := x
    simp only [widths_cons, sources_cons, List.map_cons, List.sum_cons, Text.byteSize_append, ih]

namespace Leads

variable {item : Item} {source rest : Text}

theorem source_ne_nil (h : Leads item source rest) : source ≠ [] := by
  cases h <;> exact List.cons_ne_nil _ _

theorem items_append (h : Leads item source rest) :
    items (source ++ rest) = (items rest).map ((item, Text.byteSize source) :: ·) := by
  cases h with
  | markup ht h =>
    rw [List.cons_append, List.take_append_drop]
    exact items_markup ht h
  | data hc ht rest => exact items_text hc ht

theorem append (h : Leads item source rest) (hend : rest ≠ [] ∨ '>' ∈ source) (more : Text) :
    Leads item source (rest ++ more) := by
  cases h with
  | markup ht h =>
    rename_i t n
    have hclosed : Closed Markup.markup t item n := by
      refine closed_markup ?_ h
      rcases hend with hrest | hmem
      · refine Or.inl (Nat.le_of_lt (Nat.lt_of_not_le fun hle => hrest ?_))
        exact List.drop_eq_nil_of_le hle
      · exact Or.inr (List.mem_of_mem_take (by simpa using hmem))
    have hlonger := Leads.markup (List.append_ne_nil_of_left_ne_nil ht more) (hclosed.2 more)
    rwa [List.take_append_of_le_length hclosed.1, List.drop_append_of_le_length hclosed.1]
      at hlonger
  | data hc ht rest => exact .data hc ht (rest ++ more)

end Leads

namespace Reading

variable {t tail : Text} {read : List (Item × Text)}

theorem eq_append (h : Reading t read tail) : t = sources read ++ tail := by
  induction h with
  | done rest => rfl
  | item first later ih => rw [sources_cons, List.append_assoc, ← ih]

theorem items_eq (h : Reading t read tail) : items t = (items tail).map (widths read ++ ·) := by
  induction h with
  | done rest => cases h : items rest <;> simp [widths, Except.map]
  | item first later ih =>
    rename_i tail _
    rw [first.items_append, ih]
    cases items tail <;> simp [widths, Except.map]

theorem source_ne_nil (h : Reading t read tail) {x : Item × Text} (hx : x ∈ read) : x.2 ≠ [] := by
  induction h with
  | done rest => contradiction
  | item first later ih =>
    rcases List.mem_cons.mp hx with rfl | hx
    · exact first.source_ne_nil
    · exact ih hx

/-- What has been read from closed sources stays read when the text goes on. -/
theorem append (h : Reading t read tail)
    (hend : tail ≠ [] ∨ ∀ x ∈ read.getLast?, '>' ∈ x.2) (more : Text) :
    Reading (t ++ more) read (tail ++ more) := by
  induction h with
  | done rest => exact .done _
  | item first later ih =>
    rename_i source rest tail read
    rw [List.append_assoc]
    cases read with
    | nil =>
      cases later
      refine .item (first.append ?_ more) (.done _)
      exact hend.imp id fun hlast => hlast _ rfl
    | cons x read =>
      -- an item with another one behind it is closed wherever its own source ends
      have hrest : rest ≠ [] := by
        cases later with
        | item next _ => exact List.append_ne_nil_of_left_ne_nil next.source_ne_nil _
      exact .item (first.append (Or.inl hrest) more) (ih hend)

end Reading

theorem items_tail {t : Text} (h : IsTail t) : items t = .ok (tailItems t) := by
  rcases h with hdata | rfl
  · cases t with
    | nil => simp [tailItems]
    | cons c t =>
      rw [List.mem_cons, not_or] at hdata
      have hall := bne_of_not_mem hdata.2
      have hc : ¬ c = '<' := fun he => hdata.1 he.symm
      have hwhole : t.takeWhile (· != '<') = t := List.takeWhile_eq_self_iff.mpr hall
      have hnone : t.dropWhile (· != '<') = [] := List.dropWhile_eq_nil_iff.mpr hall
      rw [items, if_neg hc]
      simp [hwhole, hnone, tailItems, hc, Except.map]
  · simp [tailItems]

theorem exists_reading {t : Text} {found : List (Item × Nat)} (h : items t = .ok found) :
    ∃ read tail, Reading t read tail ∧ IsTail tail := by
  induction t using items.induct generalizing found with
  | case1 => exact ⟨[], [], .done _, Or.inl List.not_mem_nil⟩
  | case2 t ht => exact ⟨[], ['<'], List.isEmpty_iff.mp ht ▸ .done _, Or.inr rfl⟩
  | case3 t ht fault hfault =>
    rw [items_fault (fun he => ht (List.isEmpty_iff.mpr he)) hfault] at h
    contradiction
  | case4 t ht item n hitem ih =>
    have hne : t ≠ [] := fun he => ht (List.isEmpty_iff.mpr he)
    rw [items_markup hne hitem] at h
    obtain ⟨later, hlater, -⟩ := exists_ok_of_map h
    obtain ⟨read, tail, hread, htail⟩ := ih hlater
    have hfirst := Reading.item (.markup hne hitem) hread
    rw [List.cons_append, List.take_append_drop] at hfirst
    exact ⟨_, tail, hfirst, htail⟩
  | case5 c t hc later =>
    rename_i ih
    by_cases hmem : '<' ∈ t
    · obtain ⟨front, rest, rfl, hfront⟩ := List.eq_append_cons_of_mem hmem
      have hlater : later = '<' :: rest := by
        change (front ++ '<' :: rest).dropWhile (· != '<') = _
        rw [List.dropWhile_append_of_pos (bne_of_not_mem hfront)]
        simp
      rw [items_text hc hfront, ← hlater] at h
      obtain ⟨found, hfound, -⟩ := exists_ok_of_map h
      obtain ⟨read, tail, hread, htail⟩ := ih hfound
      rw [hlater] at hread
      exact ⟨_, tail, .item (.data hc hfront rest) hread, htail⟩
    · refine ⟨[], c :: t, .done _, Or.inl ?_⟩
      rw [List.mem_cons, not_or]
      exact ⟨fun he => hc he.symm, hmem⟩

end ImagePreview.Markup

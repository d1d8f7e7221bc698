import ImagePreview.Text.Basic

/-!
Cutting text at byte offsets. An offset inside a character is no place to cut, and a piece one of
whose ends is no such place is empty.
-/
namespace ImagePreview.Text

/-- What follows the first `n` bytes, if they end between two characters. -/
def dropBytes? : Nat → Text → Option Text
  | 0, t => some t
  | _ + 1, [] => none
  | n + 1, c :: t => if c.utf8Size ≤ n + 1 then dropBytes? (n + 1 - c.utf8Size) t else none

def takeBytes? : Nat → Text → Option Text
  | 0, _ => some []
  | _ + 1, [] => none
  | n + 1, c :: t =>
    if c.utf8Size ≤ n + 1 then (takeBytes? (n + 1 - c.utf8Size) t).map (c :: ·) else none

def piece (t : Text) (start width : Nat) : Text :=
  ((dropBytes? start t).bind (takeBytes? width)).getD []

variable (a b c : Text)

/-- A cut behind a character is past its first byte, so the character is looked at. -/
theorem exists_add_utf8Size (x : Char) (n : Nat) :
    ∃ k, x.utf8Size + n = k + 1 ∧ x.utf8Size ≤ k + 1 ∧ k + 1 - x.utf8Size = n := by
  have hpos := x.utf8Size_pos
  exact ⟨x.utf8Size + n - 1, by omega, by omega, by omega⟩

theorem dropBytes?_add (n : Nat) : dropBytes? (byteSize a + n) (a ++ b) = dropBytes? n b := by
  induction a with
  | nil => simp
  | cons x a ih =>
    obtain ⟨k, hk, hle, hsub⟩ := exists_add_utf8Size x (byteSize a + n)
    rw [byteSize_cons, Nat.add_assoc, hk, List.cons_append, dropBytes?, if_pos hle, hsub, ih]

theorem takeBytes?_add (n : Nat) :
    takeBytes? (byteSize a + n) (a ++ b) = (takeBytes? n b).map (a ++ ·) := by
  induction a with
  | nil => simp
  | cons x a ih =>
    obtain ⟨k, hk, hle, hsub⟩ := exists_add_utf8Size x (byteSize a + n)
    rw [byteSize_cons, Nat.add_assoc, hk, List.cons_append, takeBytes?, if_pos hle, hsub, ih,
      Option.map_map]
    rfl

theorem dropBytes?_append : dropBytes? (byteSize a) (a ++ b) = some b := by
  simpa [dropBytes?] using dropBytes?_add a b 0

theorem takeBytes?_append : takeBytes? (byteSize a) (a ++ b) = some a := by
  simpa [takeBytes?] using takeBytes?_add a b 0

theorem byteSize_takeBytes? {n : Nat} {t : Text} (h : takeBytes? n t = some a) :
    byteSize a = n := by
  induction t generalizing n a with
  | nil =>
    cases n with
    | zero => simp [← Option.some.inj h]
    | succ n => contradiction
  | cons x t ih =>
    cases n with
    | zero => simp [← Option.some.inj h]
    | succ n =>
      rw [takeBytes?] at h
      split at h
      · obtain ⟨rest, hrest, rfl⟩ := Option.map_eq_some_iff.mp h
        rw [byteSize_cons, ih rest hrest]
        omega
      · contradiction

theorem byteSize_piece_le (t : Text) (start width : Nat) :
    byteSize (piece t start width) ≤ width := by
  rw [piece]
  cases h : (dropBytes? start t).bind (takeBytes? width) with
  | none => simp
  | some a =>
    obtain ⟨rest, -, ha⟩ := Option.bind_eq_some_iff.mp h
    exact Nat.le_of_eq (byteSize_takeBytes? a ha)

/-- A piece that starts and ends between characters is what stands there. -/
theorem piece_append : piece (a ++ b ++ c) (byteSize a) (byteSize b) = b := by
  rw [List.append_assoc]
  simp [piece, dropBytes?_append, takeBytes?_append]

/-- Text in front of a piece does not matter, but for where the piece starts. -/
theorem piece_add (start width : Nat) :
    piece (a ++ b) (byteSize a + start) width = piece b start width := by
  rw [piece, piece, dropBytes?_add]

end ImagePreview.Text

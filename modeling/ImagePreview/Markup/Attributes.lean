import ImagePreview.Markup.Fault
import ImagePreview.Markup.Tag

/-!
The attributes of a start tag. Values may stand in quotes, without quotes, or be missing, and a name
may be any text without blanks and equals signs.
-/
namespace ImagePreview.Markup

def isSpace (c : Char) : Bool := c == ' ' || c == '\r' || c == '\n' || c == '\t'

def skipSpace (t : Text) : Text := t.dropWhile isSpace

def isNameChar (c : Char) : Bool := c != '=' && !isSpace c

def value (position : Nat) (t : Text) : Except Fault (Text × Text) :=
  match skipSpace t with
  | [] => .error (.missingValue position)
  | c :: t =>
    if c = '"' ∨ c = '\'' then
      match t.dropWhile (· != c) with
      | [] => .error (.missingQuote position c)
      | _ :: rest => .ok (t.takeWhile (· != c), rest)
    else .ok (c :: t.takeWhile fun d => !isSpace d, t.dropWhile fun d => !isSpace d)

theorem length_skipSpace_le (t : Text) : (skipSpace t).length ≤ t.length :=
  (List.dropWhile_sublist isSpace).length_le

theorem length_value_le {position : Nat} {t v rest : Text}
    (h : value position t = .ok (v, rest)) : rest.length ≤ t.length := by
  have hskip := length_skipSpace_le t
  unfold value at h
  split at h
  · simp at h
  · next c t' ht =>
    rw [ht] at hskip
    split at h
    · split at h
      · simp at h
      · next d rest' hr =>
        have hle := (List.dropWhile_sublist (l := t') (· != c)).length_le
        simp only [Except.ok.injEq, Prod.mk.injEq] at h
        rw [hr] at hle
        simp only [List.length_cons] at hle hskip
        rw [← h.2]; omega
    · have hle := (List.dropWhile_sublist (l := t') fun d => !isSpace d).length_le
      simp only [Except.ok.injEq, Prod.mk.injEq] at h
      simp only [List.length_cons] at hskip
      rw [← h.2]; omega

def attributes (position : Nat) (t : Text) : Except Fault (List Attribute) :=
  match _hc : skipSpace t with
  | [] => .ok []
  | c :: t' =>
    let name := c :: t'.takeWhile isNameChar
    match _he : skipSpace (t'.dropWhile isNameChar) with
    | '=' :: after =>
      match _hv : value position after with
      | .error fault => .error fault
      | .ok (v, rest) => (attributes position rest).map (⟨name, some v⟩ :: ·)
    | rest => (attributes position rest).map (⟨name, some []⟩ :: ·)
termination_by t.length
decreasing_by
  · have h1 := length_skipSpace_le t
    have h2 := length_skipSpace_le (t'.dropWhile isNameChar)
    have h3 := (List.dropWhile_sublist (l := t') isNameChar).length_le
    have h4 := length_value_le _hv
    rw [_hc] at h1; rw [_he] at h2
    simp only [List.length_cons] at h1 h2
    omega
  · have h1 := length_skipSpace_le t
    have h2 := length_skipSpace_le (t'.dropWhile isNameChar)
    have h3 := (List.dropWhile_sublist (l := t') isNameChar).length_le
    rw [_hc] at h1; rw [_he] at h2
    simp only [List.length_cons] at h1
    omega

end ImagePreview.Markup

import ImagePreview.Markup.Attributes

/-!
Markup taken apart from left to right: tags, and everything else. Each item is given the width that
it is counted with, in bytes. Text at the very end is counted one byte short, and a single `<` there
is not counted at all.
-/
namespace ImagePreview.Markup

inductive Item
  /-- Character data, a comment, a declaration or an instruction. -/
  | text
  | startTag (name : Text) (attributes : List Attribute) (selfClosing : Bool)
  | endTag (name : Text)
deriving DecidableEq

def before? (mark : Text) : Text → Option Text
  | [] => if mark.isEmpty then some [] else none
  | c :: t => if mark.isPrefixOf (c :: t) then some [] else (before? mark t).map (c :: ·)

/-- Without blanks at the end; blanks alone stay. -/
def endTagName (t : Text) : Text :=
  if t.all isSpace then t else (skipSpace t.reverse).reverse

/-- Up to the `>` that closes the outermost bracket, with `depth` more of them open. -/
def doctypeBody? : Nat → Text → Option Text
  | _, [] => none
  | depth, c :: t =>
    if c = '<' then (doctypeBody? (depth + 1) t).map (c :: ·)
    else if c = '>' then
      match depth with
      | 0 => some []
      | depth + 1 => (doctypeBody? depth t).map (c :: ·)
    else (doctypeBody? depth t).map (c :: ·)

/-- Up to the first `>` outside quotes; the quote that is open, if one is, is given. -/
def tagBody? : Option Char → Text → Option Text
  | _, [] => none
  | none, c :: t =>
    if c = '>' then some []
    else (tagBody? (if c = '"' ∨ c = '\'' then some c else none) t).map (c :: ·)
  | some q, c :: t => (tagBody? (if c = q then none else some q) t).map (c :: ·)

/-- What begins with an exclamation mark, from after the mark on, and its number of characters. -/
def declaration (t : Text) : Except Fault (Item × Nat) :=
  match t with
  | [] => .error (.unclosed .declaration)
  | c :: _ =>
    if c = '[' then
      match before? "]]>".toList t with
      | some body =>
        if Text.sameWord (t.take 7) "[CDATA[".toList then .ok (.text, body.length + 3)
        else .error (.unclosed .cdata)
      | none => .error (.unclosed .cdata)
    else if c = '-' then
      match before? "-->".toList (t.drop 2) with
      | some body =>
        if t.take 2 = "--".toList then .ok (.text, body.length + 5)
        else .error (.unclosed .comment)
      | none => .error (.unclosed .comment)
    else if c = 'D' ∨ c = 'd' then
      match doctypeBody? 0 t with
      | some body =>
        if !Text.sameWord (body.take 7) "DOCTYPE".toList then .error (.unclosed .doctype)
        else if (body.drop 7).all isSpace then .error .emptyDoctype
        else .ok (.text, body.length + 1)
      | none => .error (.unclosed .doctype)
    else .error (.unknownDeclaration c)

def instruction (t : Text) : Except Fault (Item × Nat) :=
  let body := t.takeWhile (· != '>')
  if 2 < Text.byteSize body ∧ body.getLast? = some '?' then .ok (.text, body.length + 1)
  else .error (.unclosed .instruction)

def element (t : Text) : Except Fault (Item × Nat) :=
  match tagBody? none t with
  | none => .error (.unclosed .element)
  | some body =>
    let selfClosing := body.getLast? == some '/'
    let content := if selfClosing then body.dropLast else body
    let inName := fun c => !isSpace c
    (attributes (Text.byteSize content) (content.dropWhile inName)).map fun attrs =>
      (.startTag (content.takeWhile inName) attrs selfClosing, body.length + 1)

def markup (t : Text) : Except Fault (Item × Nat) :=
  match t with
  | '/' :: t =>
    let name := t.takeWhile (· != '>')
    .ok (.endTag (endTagName name), name.length + 2)
  | '!' :: t => (declaration t).map fun found => (found.1, found.2 + 1)
  | '?' :: _ => instruction t
  | _ => element t

def items : Text → Except Fault (List (Item × Nat))
  | [] => .ok []
  | c :: t =>
    if c = '<' then
      if t.isEmpty then .ok []
      else
        match markup t with
        | .error fault => .error fault
        | .ok (item, n) =>
          (items (t.drop n)).map ((item, Text.byteSize (c :: t.take n)) :: ·)
    else
      let rest := t.dropWhile (· != '<')
      let width := Text.byteSize (c :: t.takeWhile (· != '<'))
      (items rest).map ((.text, if rest.isEmpty then width - 1 else width) :: ·)
termination_by t => t.length
decreasing_by
  · simp only [List.length_drop, List.length_cons]; omega
  · have := (List.dropWhile_sublist (l := t) (· != '<')).length_le
    simp only [List.length_cons]; omega

@[simp] theorem items_nil : items [] = .ok [] := by rw [items]

/-- A single `<` at the end is no item. -/
@[simp] theorem items_lone : items ['<'] = .ok [] := by rw [items]; rfl

theorem items_markup {t : Text} {item : Item} {n : Nat} (ht : t ≠ [])
    (h : markup t = .ok (item, n)) :
    items ('<' :: t) =
      (items (t.drop n)).map ((item, Text.byteSize ('<' :: t.take n)) :: ·) := by
  have hne : ¬ t.isEmpty = true := fun he => ht (List.isEmpty_iff.1 he)
  rw [items, if_pos rfl, if_neg hne, h]

theorem items_fault {t : Text} {fault : Fault} (ht : t ≠ []) (h : markup t = .error fault) :
    items ('<' :: t) = .error fault := by
  have hne : ¬ t.isEmpty = true := fun he => ht (List.isEmpty_iff.1 he)
  rw [items, if_pos rfl, if_neg hne, h]

theorem items_text {c : Char} {t rest : Text} (hc : c ≠ '<') (ht : '<' ∉ t) :
    items (c :: (t ++ '<' :: rest)) =
      (items ('<' :: rest)).map ((.text, Text.byteSize (c :: t)) :: ·) := by
  have hall : ∀ d ∈ t, (d != '<') = true := by
    intro d hd
    have hne : d ≠ '<' := fun he => ht (he ▸ hd)
    simpa using hne
  have htake : (t ++ '<' :: rest).takeWhile (· != '<') = t := by
    rw [List.takeWhile_append_of_pos hall]
    simp
  have hdrop : (t ++ '<' :: rest).dropWhile (· != '<') = '<' :: rest := by
    rw [List.dropWhile_append_of_pos hall]
    simp
  rw [items, if_neg hc]
  simp only [htake, hdrop]
  rfl

end ImagePreview.Markup
